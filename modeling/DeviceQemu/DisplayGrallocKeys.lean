import DeviceQemu.CyclicSearch
import DeviceQemu.DisplayGrallocAlloc

/-! The keys that AllocShm tries.
AllocShm has a static key and asks shmget for a new segment of that key, of the next one while the
key is in use, and so on round the range. -/
namespace DisplayGrallocKeys

open CyclicSearch DisplayGrallocAlloc StepSystem
open DisplayGralloc (nextKey shmStartKey shmMaxKey keysFrom freeKey)

abbrev Key (key : ℕ) : Prop := InRange shmStartKey shmMaxKey key

def round : ℕ := shmMaxKey - shmStartKey

/-- shmget with IPC_CREAT and IPC_EXCL, where the keys of `used` have segments. For another key the
kernel creates the segment, or it gives another reason than EEXIST. -/
def shmget (used : Finset ℕ) (created : ℕ → Option ℤ) (key : ℕ) : Shmget :=
  if key ∈ used then .exists
  else
    match created key with
    | none => .error
    | some shmid => .segment shmid

/-- The answers to the next `n` rounds of the loop. -/
def answers (used : Finset ℕ) (created : ℕ → Option ℤ) (key n : ℕ) : List Shmget :=
  (List.iterate nextKey key n).map (shmget used created)

/-- A call of AllocShm: what is in use, what else the kernel does, and the buffer. -/
structure Call where
  used : Finset ℕ
  created : ℕ → Option ℤ
  rest : Answers
  buffer : PriBufferHandle

/-- AllocShm with the loop going round at most `n` times. -/
def Call.run (c : Call) (key n : ℕ) : Option (ℕ × Outcome) :=
  allocShm { c.rest with shmget := answers c.used c.created key n } key c.buffer

def system : System ℕ (Call × ℕ) where
  Init key := key = shmStartKey
  next key e := (e.1.run key e.2).map Prod.fst

theorem shmLoop_answers (used : Finset ℕ) (created : ℕ → Option ℤ) (key n : ℕ) :
    shmLoop key (answers used created key n) =
      ((visits shmStartKey shmMaxKey key n).find? fun k => k ∉ used).map fun k =>
        (k, created k) := by
  induction n generalizing key with
  | zero => rfl
  | succ n ih =>
    have hcons : answers used created key (n + 1) =
        shmget used created key :: answers used created (nextKey key) n := rfl
    have hvisits : visits shmStartKey shmMaxKey key (n + 1) =
        key :: visits shmStartKey shmMaxKey (nextKey key) n := rfl
    rw [hcons, hvisits, shmget]
    by_cases hused : key ∈ used
    · rw [if_pos hused, shmLoop, ih, List.find?_cons_of_neg (by simpa using hused)]
    · rw [if_neg hused, List.find?_cons_of_pos (by simpa using hused)]
      cases hcreated : created key with
      | none => simp [shmLoop, hcreated]
      | some shmid => simp [shmLoop, hcreated]

theorem run_eq (c : Call) (key n : ℕ) : c.run key n =
    ((visits shmStartKey shmMaxKey key n).find? fun k => k ∉ c.used).map fun k =>
      attachShm c.rest k c.buffer (c.created k) := by
  rw [Call.run, allocShm, shmLoop_answers, Option.map_map]
  rfl

theorem keysFrom_eq {key : ℕ} (h : Key key) :
    keysFrom key = visits shmStartKey shmMaxKey key round := by
  rw [round, visits_round h]
  rfl

theorem freeKey_eq {segs : List (SharedSegments.Segment ℕ)} {key : ℕ} (h : Key key)
    (created : ℕ → Option ℤ) :
    shmLoop key (answers (segs.map SharedSegments.Segment.key).toFinset created key round) =
      (freeKey segs key).map fun k => (k, created k) := by
  rw [shmLoop_answers, freeKey, keysFrom_eq h]
  congr 2
  funext k
  simp [SharedSegments.Free]

theorem attachShm_key {a : Answers} {key : ℕ} (h : Key key) (buffer : PriBufferHandle)
    (id : Option ℤ) : Key (attachShm a key buffer id).1 := by
  cases id with
  | none => exact h
  | some shmid =>
    cases hshmat : a.shmat with
    | none =>
      simp only [attachShm, hshmat]
      exact h
    | some pBase =>
      simp only [attachShm, hshmat]
      exact h.succ

theorem reachable_key {key : ℕ} (h : Reachable system key) : Key key := by
  apply h.invariant
  · rintro _ rfl
    decide
  · intro key e key' hkey hnext
    obtain ⟨r, hr, rfl⟩ := Option.map_eq_some_iff.mp hnext
    rw [run_eq] at hr
    obtain ⟨found, hfound, rfl⟩ := Option.map_eq_some_iff.mp hr
    have hvisited := List.mem_of_find?_eq_some hfound
    exact attachShm_key (visits_inRange hkey e.2 found hvisited) e.1.buffer (e.1.created found)

/-- The loop ends if and only if a key is free. -/
theorem returns_iff {key : ℕ} (h : Key key) (c : Call) :
    (∃ n, (c.run key n).isSome) ↔ ∃ k, Key k ∧ k ∉ c.used := by
  constructor
  · rintro ⟨n, hn⟩
    rw [run_eq, Option.isSome_map] at hn
    obtain ⟨k, hk, hunused⟩ := List.find?_isSome.mp hn
    exact ⟨k, visits_inRange h n k hk, of_decide_eq_true hunused⟩
  · rintro ⟨k, hk, hunused⟩
    obtain ⟨found, -, -, hround⟩ := find?_visits (p := fun k => k ∉ c.used) h hk (decide_eq_true hunused)
    refine ⟨round, ?_⟩
    rw [run_eq, hround round le_rfl]
    rfl

/-- While a key is free the loop ends within a round, at a key that no segment has, and wherever the
call leaves the counter, the next search sweeps the range. -/
theorem search_fresh {key : ℕ} (h : Reachable system key) (c : Call)
    (hfree : ∃ k, Key k ∧ k ∉ c.used) :
    ∃ found, Key found ∧ found ∉ c.used ∧
      (∀ n, round ≤ n → c.run key n = some (attachShm c.rest found c.buffer (c.created found))) ∧
      Sweeps shmStartKey shmMaxKey (attachShm c.rest found c.buffer (c.created found)).1 := by
  obtain ⟨k, hk, hunused⟩ := hfree
  obtain ⟨found, hfound, hfresh, hround⟩ :=
    find?_visits (p := fun k => k ∉ c.used) (reachable_key h) hk (decide_eq_true hunused)
  refine ⟨found, hfound, of_decide_eq_true hfresh, fun n hn => ?_,
    (attachShm_key hfound c.buffer _).sweeps⟩
  rw [run_eq, hround n hn, Option.map_some]

def crowded : Call :=
  ⟨{1, 2, 3}, fun _ => some 7, { willing with shmat := none }, zeroHandle⟩

theorem search_crowded :
    ∃ found, Key found ∧ found ∉ ({1, 2, 3} : Finset ℕ) ∧
      (∀ n, round ≤ n →
        crowded.run 1 n = some (attachShm crowded.rest found zeroHandle (some 7))) ∧
      Sweeps shmStartKey shmMaxKey (attachShm crowded.rest found zeroHandle (some 7)).1 :=
  search_fresh (.init rfl) crowded ⟨4, by decide, by decide⟩

end DisplayGrallocKeys
