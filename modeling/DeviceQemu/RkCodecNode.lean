import DeviceQemu.PatternScan
import Mathlib.Algebra.Group.Nat.Defs
import Mathlib.Data.Int.Notation

/-! Key frames of the codec node.
SerchIFps looks through an encoded buffer for a start code with an IDR slice behind it, and marks the
buffer accordingly. -/
namespace RkCodecNode

open PatternScan

/-- With `dataSz` bytes at `data` that are not all of the buffer, which holds what may be read. -/
def findStartCode (buf : List UInt8) (data dataSz : ℕ) : Option ℤ :=
  if 4 < dataSz then
    (compareAt buf data [0, 0, 0, 1]).bind fun found => some (if found then 4 else -1)
  else some (-1)

def nalBit : UInt8 := 0x1f

def nalTypeValue : UInt8 := 0x05

/-- The two size_t variables, of `w` bits, and the calls of SetEsKeyFrame so far. -/
structure Scan where
  idx : ℕ
  size : ℕ
  calls : List ℤ
  deriving DecidableEq, Repr

def Scan.advance (w : ℕ) (s : Scan) (n : ℕ) : Scan :=
  { s with idx := (s.idx + n) % 2 ^ w, size := (s.size + (2 ^ w - n)) % 2 ^ w }

/-- The loop with `k` iterations left before the int `i` reaches `bufSize`. There is no value when
something is read outside the buffer or `i` overflows. -/
def serchLoop (w : ℕ) (buf : List UInt8) (bufSize : ℕ) : ℕ → Scan → Option Scan
  | 0, s => some s
  | k + 1, s => do
    let next := fun s : Scan =>
      if bufSize ≤ s.idx then some s
      else if bufSize - k < 2 ^ 31 then serchLoop w buf bufSize k s
      else none
    let ret ← findStartCode buf s.idx s.size
    if ret = -1 then next (s.advance w 1)
    else
      let nalType ← buf[s.idx + ret.toNat]?
      if nalType &&& nalBit = nalTypeValue then some { s with calls := s.calls ++ [1] }
      else next (s.advance w ret.toNat)

/-- The calls of SetEsKeyFrame, for `bufSize` bytes at `buf`. -/
def serchIFps (w : ℕ) (buf : Option (List UInt8)) (bufSize : ℕ) (buffer : Bool) :
    Option (List ℤ) :=
  match buffer, buf with
  | true, some buf => do
    let s ← serchLoop w buf bufSize bufSize ⟨0, bufSize, []⟩
    some (if bufSize ≤ s.idx then s.calls ++ [0] else s.calls)
  | _, _ => some []

/-- A start code at `k`, and the unit behind it is an IDR slice. -/
structure KeyFrameAt (buf : List UInt8) (k : ℕ) : Prop where
  startCode : MatchesAt buf k [0, 0, 0, 1]
  nalType : ∃ b, buf[k + 4]? = some b ∧ b &&& 0x1f = 5

def HasKeyFrame (buf : List UInt8) : Prop :=
  ∃ k, k + 4 < buf.length ∧ KeyFrameAt buf k

theorem startCode_borderless : Borderless ([0, 0, 0, 1] : List UInt8) := by decide

theorem KeyFrameAt.lt {buf : List UInt8} {k : ℕ} (h : KeyFrameAt buf k) : k + 4 < buf.length := by
  obtain ⟨b, hb, -⟩ := h.nalType
  exact (List.getElem?_eq_some_iff.mp hb).1

theorem keyFrame_behind {buf : List UInt8} {i k : ℕ} (hi : MatchesAt buf i [0, 0, 0, 1])
    (hk : KeyFrameAt buf k) (hlt : i < k) : i + 4 ≤ k :=
  startCode_borderless.apart hi hk.startCode hlt

/-- What a scan has established when it stands at `idx`. -/
structure Scanned (buf : List UInt8) (s : Scan) : Prop where
  size : s.size + s.idx = buf.length
  none : ∀ k < s.idx, ¬ KeyFrameAt buf k
  calls : s.calls = []

theorem findStartCode_eq {buf : List UInt8} {s : Scan} (h : Scanned buf s) :
    findStartCode buf s.idx s.size =
      some (if s.idx + 4 < buf.length ∧ MatchesAt buf s.idx [0, 0, 0, 1] then 4 else -1) := by
  have hsize := h.size
  rw [findStartCode]
  by_cases hlong : 4 < s.size
  · have hfits : s.idx + 4 ≤ buf.length := by omega
    have hlt : s.idx + 4 < buf.length := by omega
    rw [if_pos hlong, compareAt_eq hfits]
    simp [hlt]
  · have hge : ¬ s.idx + 4 < buf.length := by omega
    rw [if_neg hlong, if_neg fun h => hge h.1]

theorem Scanned.advance {w : ℕ} {buf : List UInt8} {s : Scan} {n : ℕ} (h : Scanned buf s)
    (hw : buf.length < 2 ^ w) (hpos : 0 < n) (hn : n ≤ s.size)
    (hnone : ∀ k, KeyFrameAt buf k → s.idx ≤ k → s.idx + n ≤ k) :
    Scanned buf (s.advance w n) ∧ (s.advance w n).idx = s.idx + n := by
  have hsize := h.size
  have hidx : (s.advance w n).idx = s.idx + n := Nat.mod_eq_of_lt (by omega)
  have hleft : (s.advance w n).size = s.size - n := by
    have hsum : s.size + (2 ^ w - n) = s.size - n + 2 ^ w := by omega
    simp only [Scan.advance]
    rw [hsum, Nat.add_mod_right]
    exact Nat.mod_eq_of_lt (by omega)
  refine ⟨⟨by omega, fun k hk hkey => ?_, h.calls⟩, hidx⟩
  by_cases hbefore : k < s.idx
  · exact h.none k hbefore hkey
  · have hge := hnone k hkey (Nat.le_of_not_lt hbefore)
    omega

def Ended (buf : List UInt8) (s : Scan) : Prop :=
  Scanned buf s ∧ buf.length ≤ s.idx ∨
    s.idx < buf.length ∧ KeyFrameAt buf s.idx ∧ s.calls = [1]

theorem advance_ended {w : ℕ} {buf : List UInt8} (hw : buf.length < 2 ^ w)
    (hint : buf.length < 2 ^ 31) {k : ℕ}
    (ih : ∀ s, Scanned buf s → s.idx < buf.length → buf.length ≤ s.idx + k →
      ∃ t, serchLoop w buf buf.length k s = some t ∧ Ended buf t)
    {s : Scan} (h : Scanned buf s) (hk : buf.length ≤ s.idx + (k + 1)) {n : ℕ} (hpos : 0 < n)
    (hn : n ≤ s.size) (hnone : ∀ k, KeyFrameAt buf k → s.idx ≤ k → s.idx + n ≤ k) :
    ∃ t, (if buf.length ≤ (s.advance w n).idx then some (s.advance w n)
      else if buf.length - k < 2 ^ 31 then serchLoop w buf buf.length k (s.advance w n)
      else none) = some t ∧ Ended buf t := by
  obtain ⟨hscanned, hidx⟩ := h.advance hw hpos hn hnone
  by_cases hend : buf.length ≤ (s.advance w n).idx
  · rw [if_pos hend]
    exact ⟨_, rfl, Or.inl ⟨hscanned, hend⟩⟩
  · rw [if_neg hend, if_pos (by omega)]
    apply ih _ hscanned (Nat.lt_of_not_le hend)
    omega

theorem serchLoop_spec {w : ℕ} {buf : List UInt8} (hw : buf.length < 2 ^ w)
    (hint : buf.length < 2 ^ 31) (k : ℕ) {s : Scan} (h : Scanned buf s)
    (hlt : s.idx < buf.length) (hk : buf.length ≤ s.idx + k) :
    ∃ t, serchLoop w buf buf.length k s = some t ∧ Ended buf t := by
  induction k generalizing s with
  | zero => omega
  | succ k ih =>
    have hsize := h.size
    have hstep := @advance_ended w buf hw hint k (fun s => @ih s) s h hk
    simp only [serchLoop, findStartCode_eq h, Option.bind_eq_bind, Option.bind_some]
    by_cases hfound : s.idx + 4 < buf.length ∧ MatchesAt buf s.idx [0, 0, 0, 1]
    · rw [if_pos hfound]
      obtain ⟨hin, hmatch⟩ := hfound
      have hread : buf[s.idx + 4]? = some buf[s.idx + 4] := List.getElem?_eq_getElem hin
      have hfour : (4 : ℤ).toNat = 4 := rfl
      rw [if_neg (by decide), hfour, hread, Option.bind_some]
      by_cases hkey : buf[s.idx + 4] &&& nalBit = nalTypeValue
      · rw [if_pos hkey]
        refine ⟨_, rfl, Or.inr ⟨hlt, ⟨hmatch, _, hread, hkey⟩, ?_⟩⟩
        rw [h.calls]
        rfl
      · rw [if_neg hkey]
        apply hstep (by decide) (by omega)
        intro j hj hle
        rcases hle.eq_or_lt with rfl | hbehind
        · obtain ⟨b, hb, htype⟩ := hj.nalType
          rw [hread, Option.some.injEq] at hb
          exact absurd (hb ▸ htype) hkey
        · exact keyFrame_behind hmatch hj hbehind
    · rw [if_neg hfound, if_pos rfl]
      apply hstep (by decide) (by omega)
      intro j hj hle
      rcases hle.eq_or_lt with rfl | hbehind
      · exact absurd ⟨hj.lt, hj.startCode⟩ hfound
      · exact hbehind

/-- The buffer is marked once, as what it is. -/
theorem serchIFps_exact (w : ℕ) (buf : List UInt8) (hw : buf.length < 2 ^ w)
    (hint : buf.length < 2 ^ 31) :
    ∃ mark, serchIFps w (some buf) buf.length true = some [mark] ∧
      (mark = 1 ↔ HasKeyFrame buf) ∧ (mark = 0 ↔ ¬ HasKeyFrame buf) := by
  have hstart : Scanned buf ⟨0, buf.length, []⟩ :=
    ⟨rfl, fun k hk => absurd hk (Nat.not_lt_zero k), rfl⟩
  have hloop : ∃ t, serchLoop w buf buf.length buf.length ⟨0, buf.length, []⟩ = some t ∧
      Ended buf t := by
    by_cases hempty : buf.length = 0
    · rw [hempty]
      refine ⟨_, rfl, Or.inl ⟨?_, hempty.le⟩⟩
      rwa [hempty] at hstart
    · exact serchLoop_spec hw hint buf.length hstart (Nat.pos_of_ne_zero hempty)
        (Nat.le_add_left _ _)
  obtain ⟨t, ht, hended⟩ := hloop
  simp only [serchIFps, ht, Option.bind_eq_bind, Option.bind_some]
  rcases hended with ⟨hscanned, hend⟩ | ⟨hlt, hkey, hcalls⟩
  · have hnone : ¬ HasKeyFrame buf := by
      rintro ⟨k, hk, hkey⟩
      exact hscanned.none k (by omega) hkey
    refine ⟨0, ?_, by simp [hnone], by simp [hnone]⟩
    rw [if_pos hend, hscanned.calls, List.nil_append]
  · have hsome : HasKeyFrame buf := ⟨t.idx, hkey.lt, hkey⟩
    refine ⟨1, ?_, by simp [hsome], by simp [hsome]⟩
    rw [if_neg (Nat.not_le_of_lt hlt), hcalls]

/-- A sequence parameter set, and the IDR slice that follows it at once. -/
def parametersAndSlice : List UInt8 := [0, 0, 0, 1, 0x67, 0, 0, 0, 1, 0x65]

theorem serchIFps_slice : serchIFps 32 (some parametersAndSlice) 10 true = some [1] := by
  have hkey : HasKeyFrame parametersAndSlice := ⟨5, by decide, by decide, 0x65, rfl, rfl⟩
  obtain ⟨mark, hcalls, hone, -⟩ := serchIFps_exact 32 parametersAndSlice (by decide) (by decide)
  rwa [hone.mpr hkey] at hcalls

end RkCodecNode
