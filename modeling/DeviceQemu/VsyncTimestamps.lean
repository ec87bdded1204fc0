import DeviceQemu.MixedRadix
import Mathlib.Data.UInt

/-! Timestamps of the vertical blank.
DrmVsyncWorker hands a timestamp to the vsync callback each time round its loop, and WaitForVBlank
returns one. Both are computed from a reading of CLOCK_MONOTONIC. -/
namespace VsyncTimestamps

open MixedRadix

def nsecPerSec : ℕ := 1000000000

structure Timespec where
  tvSec : ℕ
  tvNsec : ℕ
  sec_lt : tvSec * nsecPerSec < 2 ^ 63
  nsec_lt : tvNsec < nsecPerSec
  deriving DecidableEq, Repr

def Timespec.digits (r : Timespec) : ℕ × ℕ := (r.tvSec, r.tvNsec)

def Timespec.time (r : Timespec) : ℕ := value nsecPerSec r.digits

def secFactor : ℕ := 1000000

def duration (curTime : Timespec) : UInt64 :=
  UInt64.ofNat curTime.tvSec * UInt64.ofNat secFactor + UInt64.ofNat curTime.tvNsec

def waitNextVBlank (curTime : Timespec) : UInt64 := duration curTime
def waitForVBlank (curTime : Timespec) : UInt64 := duration curTime

/-- A time round the loop: what WaitSignalAndCheckRuning returns, the reading, and whether a
callback is registered. -/
structure Round where
  running : Bool
  curTime : Timespec
  mCallBack : Bool
  deriving DecidableEq, Repr

/-- The calls of Vsync, with `seq` and the timestamp. -/
def workThread : List Round → List (UInt32 × UInt64)
  | [] => []
  | x :: xs =>
    if x.running then
      if x.mCallBack then (0, waitNextVBlank x.curTime) :: workThread xs else workThread xs
    else []

/-- Where timestamps come from: the worker, or calls of WaitForVBlank one after the other. -/
inductive Source where
  | drmVsyncWorker
  | drmDisplay
  deriving DecidableEq, Repr

def Source.timestamps : Source → List Round → List UInt64
  | .drmVsyncWorker, rounds => (workThread rounds).map Prod.snd
  | .drmDisplay, rounds => rounds.map fun x => waitForVBlank x.curTime

def Source.readings : Source → List Round → List Timespec
  | .drmVsyncWorker, rounds =>
    ((rounds.takeWhile Round.running).filter Round.mCallBack).map Round.curTime
  | .drmDisplay, rounds => rounds.map Round.curTime

def Increasing (rs : List Timespec) : Prop := (rs.map Timespec.digits).Pairwise Before

instance (rs : List Timespec) : Decidable (Increasing rs) :=
  inferInstanceAs (Decidable (List.Pairwise ..))

/-- The timestamps are the times in nanoseconds, and increase. -/
structure Right (source : Source) (rounds : List Round) : Prop where
  exact : (source.timestamps rounds).map UInt64.toNat =
    (source.readings rounds).map Timespec.time
  increasing : (source.timestamps rounds).Pairwise (· < ·)

theorem duration_toNat (r : Timespec) : (duration r).toNat = value secFactor r.digits := by
  have hsec := r.sec_lt
  have hnsec := r.nsec_lt
  simp only [nsecPerSec] at hsec hnsec
  simp only [duration, secFactor, value, Timespec.digits, UInt64.toNat_add, UInt64.toNat_mul,
    UInt64.toNat_ofNat']
  omega

theorem workThread_eq (rounds : List Round) :
    workThread rounds =
      (Source.drmVsyncWorker.readings rounds).map fun r => (0, waitNextVBlank r) := by
  induction rounds with
  | nil => rfl
  | cons x xs ih =>
    rw [workThread, ih]
    cases hrunning : x.running with
    | false => simp [Source.readings, hrunning]
    | true =>
      cases hcallBack : x.mCallBack with
      | false => simp [Source.readings, hrunning, hcallBack]
      | true => simp [Source.readings, hrunning, hcallBack]

theorem timestamps_eq (source : Source) (rounds : List Round) :
    source.timestamps rounds = (source.readings rounds).map duration := by
  cases source with
  | drmVsyncWorker =>
    rw [Source.timestamps, workThread_eq, List.map_map]
    rfl
  | drmDisplay =>
    rw [Source.timestamps, Source.readings, List.map_map]
    rfl

theorem timestamps_toNat (source : Source) (rounds : List Round) :
    (source.timestamps rounds).map UInt64.toNat =
      ((source.readings rounds).map Timespec.digits).map (value secFactor) := by
  rw [timestamps_eq, List.map_map, List.map_map]
  refine List.map_congr_left fun r _ => ?_
  rw [Function.comp_apply, Function.comp_apply, duration_toNat]

theorem timestamps_pairwise (source : Source) (rounds : List Round) :
    (source.timestamps rounds).Pairwise (· < ·) ↔
      (((source.readings rounds).map Timespec.digits).map (value secFactor)).Pairwise (· < ·) := by
  rw [← timestamps_toNat, List.pairwise_map]
  exact Iff.rfl

theorem exact_iff (source : Source) (rounds : List Round) :
    (source.timestamps rounds).map UInt64.toNat = (source.readings rounds).map Timespec.time ↔
      ∀ r ∈ source.readings rounds, r.tvSec = 0 := by
  have htime : (source.readings rounds).map Timespec.time =
      ((source.readings rounds).map Timespec.digits).map (value nsecPerSec) := by
    rw [List.map_map]
    rfl
  rw [timestamps_toNat, htime, map_value_eq_iff (by decide), List.forall_mem_map]
  exact Iff.rfl

theorem times_increase {rs : List Timespec} (h : Increasing rs) :
    (rs.map Timespec.time).Pairwise (· < ·) := by
  have hahead : (rs.map Timespec.digits).Pairwise (Ahead nsecPerSec) := by
    rw [Increasing, List.pairwise_map] at h
    rw [List.pairwise_map]
    exact h.imp fun {r _} hbefore => hbefore.ahead r.nsec_lt le_rfl
  have hvalues := (pairwise_value_iff h).mpr hahead
  rw [List.map_map] at hvalues
  exact hvalues

/-- The timestamps are right exactly when the clock is in its first second, and in order exactly
when the nanoseconds of a reading fall by less than a million for each second that passes. -/
theorem timestamps_right_iff (source : Source) {rounds : List Round}
    (h : Increasing (source.readings rounds)) :
    (Right source rounds ↔ ∀ r ∈ source.readings rounds, r.tvSec = 0) ∧
      ((source.timestamps rounds).Pairwise (· < ·) ↔
        ((source.readings rounds).map Timespec.digits).Pairwise (Ahead secFactor)) := by
  constructor
  · constructor
    · exact fun hright => (exact_iff source rounds).mp hright.exact
    · intro hsec
      have hexact := (exact_iff source rounds).mpr hsec
      have hincreasing := times_increase h
      rw [← hexact, List.pairwise_map] at hincreasing
      exact ⟨hexact, hincreasing⟩
  · rw [timestamps_pairwise]
    exact pairwise_value_iff h

def reading (tvSec tvNsec : ℕ)
    (h : tvSec * nsecPerSec < 2 ^ 63 ∧ tvNsec < nsecPerSec := by decide) : Timespec :=
  ⟨tvSec, tvNsec, h.1, h.2⟩

/-- Two frames of the first second. -/
theorem timestamps_right_firstSecond :
    (Right .drmVsyncWorker [⟨true, reading 0 5, true⟩, ⟨true, reading 0 16666005, true⟩] ↔
        ∀ r ∈ Source.drmVsyncWorker.readings
          [⟨true, reading 0 5, true⟩, ⟨true, reading 0 16666005, true⟩], r.tvSec = 0) ∧
      ((Source.drmVsyncWorker.timestamps
          [⟨true, reading 0 5, true⟩, ⟨true, reading 0 16666005, true⟩]).Pairwise (· < ·) ↔
        ((Source.drmVsyncWorker.readings
          [⟨true, reading 0 5, true⟩, ⟨true, reading 0 16666005, true⟩]).map
            Timespec.digits).Pairwise (Ahead secFactor)) :=
  timestamps_right_iff .drmVsyncWorker (by decide)

def straddling : List Round := [⟨true, reading 0 999999999, true⟩, ⟨true, reading 1 16665999, true⟩]

theorem timestamps_fall :
    ¬ ∀ source rounds, Increasing (Source.readings source rounds) → Right source rounds := by
  intro hall
  have hright := (hall .drmVsyncWorker straddling (by decide)).increasing
  revert hright
  decide

end VsyncTimestamps
