import Mathlib.Data.List.Basic
import Mathlib.Data.Nat.ModEq
import Mathlib.Logic.Function.Basic
import Mathlib.Tactic.NormNum

/-! Rings addressed by wrapping 16-bit counters.
A producer and a consumer count up in `UInt16` and use slot `counter % q`. Two positions
less than `q` apart use different slots across the wrap exactly because `q` divides `2^16`. -/
namespace RingWindow

variable {α : Type*}

def PowTwo (q : UInt16) : Prop := ∃ k, q.toNat = 2 ^ k

theorem PowTwo.dvd {q : UInt16} (h : PowTwo q) : q.toNat ∣ 65536 := by
  obtain ⟨k, hk⟩ := h
  have hlt : 2 ^ k < 2 ^ 16 := hk ▸ q.toNat_lt
  rw [hk, show (65536 : ℕ) = 2 ^ 16 by norm_num]
  exact Nat.pow_dvd_pow 2 ((Nat.pow_lt_pow_iff_right (by norm_num)).mp hlt).le

theorem PowTwo.pos {q : UInt16} (h : PowTwo q) : 0 < q.toNat := by
  obtain ⟨k, hk⟩ := h
  rw [hk]
  exact Nat.two_pow_pos k

def slot (q c : UInt16) : UInt16 := c % q

theorem slot_add_toNat {q : UInt16} (hq : PowTwo q) (c : UInt16) (i : ℕ) :
    (slot q (c + UInt16.ofNat i)).toNat = (c.toNat + i) % q.toNat := by
  have hd := hq.dvd
  simp only [slot, UInt16.toNat_mod, UInt16.toNat_add, UInt16.toNat_ofNat']
  rw [show 2 ^ 16 = 65536 by norm_num, Nat.add_mod_mod, Nat.mod_mod_of_dvd _ hd]

theorem slot_ne {q : UInt16} (hq : PowTwo q) (c : UInt16) {i j : ℕ} (hij : i < j)
    (hj : j < i + q.toNat) : slot q (c + UInt16.ofNat i) ≠ slot q (c + UInt16.ofNat j) := by
  intro h
  have h := congrArg UInt16.toNat h
  rw [slot_add_toNat hq, slot_add_toNat hq] at h
  have hd : q.toNat ∣ (c.toNat + j) - (c.toNat + i) :=
    (Nat.modEq_iff_dvd' (by omega)).mp h
  have := Nat.le_of_dvd (by omega) hd
  omega

/-- The ring entries from counter `lo` up to, not including, counter `hi`, oldest first. -/
def window (q : UInt16) (ring : UInt16 → α) (lo hi : UInt16) : List α :=
  (List.range (hi - lo).toNat).map fun i => ring (slot q (lo + UInt16.ofNat i))

@[simp] theorem window_self (q : UInt16) (ring : UInt16 → α) (c : UInt16) :
    window q ring c c = [] := by simp [window]

@[simp] theorem length_window (q : UInt16) (ring : UInt16 → α) (lo hi : UInt16) :
    (window q ring lo hi).length = (hi - lo).toNat := by simp [window]

theorem toNat_gap (lo hi : UInt16) :
    (hi - lo).toNat = (hi.toNat + (65536 - lo.toNat)) % 65536 := by
  have := lo.toNat_lt
  have := hi.toNat_lt
  rw [UInt16.toNat_sub]
  omega

theorem gap_add {lo hi : UInt16} {k : ℕ} (h : (hi - lo).toNat + k < 65536) :
    (hi + UInt16.ofNat k - lo).toNat = (hi - lo).toNat + k := by
  have := lo.toNat_lt
  have := hi.toNat_lt
  simp only [toNat_gap, UInt16.toNat_add, UInt16.toNat_ofNat'] at h ⊢
  omega

theorem gap_succ {lo hi : UInt16} (h : (hi - lo).toNat < 65535) :
    (hi + 1 - lo).toNat = (hi - lo).toNat + 1 := @gap_add lo hi 1 (by omega)

theorem gap_eq_zero {lo hi : UInt16} : (hi - lo).toNat = 0 ↔ lo = hi := by
  have := lo.toNat_lt
  have := hi.toNat_lt
  rw [toNat_gap, ← UInt16.toNat_inj]
  omega

theorem gap_pop {lo hi : UInt16} (h : lo ≠ hi) :
    (hi - lo).toNat = (hi - (lo + 1)).toNat + 1 := by
  have := lo.toNat_lt
  have := hi.toNat_lt
  rw [ne_eq, ← UInt16.toNat_inj] at h
  simp only [toNat_gap, UInt16.toNat_add, UInt16.toNat_one]
  omega

theorem add_gap (lo hi : UInt16) : lo + UInt16.ofNat (hi - lo).toNat = hi := by
  rw [UInt16.ofNat_toNat, UInt16.add_comm, UInt16.sub_add_cancel]

/-- Writing at least one full lap away from the oldest entry leaves the window alone. -/
theorem window_update {q : UInt16} (hq : PowTwo q) {ring : UInt16 → α} {lo hi : UInt16}
    {k : ℕ} (hk : (hi - lo).toNat + k < q.toNat) (x : α) :
    window q (Function.update ring (slot q (hi + UInt16.ofNat k)) x) lo hi =
      window q ring lo hi := by
  refine List.map_congr_left fun i hi' => ?_
  have hlt := List.mem_range.mp hi'
  apply Function.update_of_ne
  have hpos : hi + UInt16.ofNat k = lo + UInt16.ofNat ((hi - lo).toNat + k) := by
    rw [UInt16.ofNat_add, ← UInt16.add_assoc, add_gap]
  rw [hpos]
  exact slot_ne hq lo (by omega) (by omega)

theorem window_bump {q : UInt16} {ring : UInt16 → α} {lo hi : UInt16}
    (h : (hi - lo).toNat < 65535) :
    window q ring lo (hi + 1) = window q ring lo hi ++ [ring (slot q hi)] := by
  simp [window, gap_succ h, List.range_succ, -UInt16.ofNat_toNat, add_gap]

theorem window_push {q : UInt16} (hq : PowTwo q) {ring : UInt16 → α} {lo hi : UInt16}
    (h : (hi - lo).toNat < q.toNat) (x : α) :
    window q (Function.update ring (slot q hi) x) lo (hi + 1) = window q ring lo hi ++ [x] := by
  have hlt := q.toNat_lt
  rw [window_bump (by omega), Function.update_self]
  congr 1
  simpa using window_update hq (k := 0) (by omega) x

/-- A counter with room ahead of it does not wrap round to the oldest entry. -/
theorem ne_succ {q lo hi : UInt16} (h : (hi - lo).toNat < q.toNat) : lo ≠ hi + 1 := by
  have hlt := q.toNat_lt
  intro heq
  have hzero := gap_eq_zero.mpr heq
  rw [gap_succ (by omega)] at hzero
  omega

theorem oldest_push {q : UInt16} (hq : PowTwo q) {ring : UInt16 → α} {lo hi : UInt16}
    (h : (hi - lo).toNat < q.toNat) (hne : lo ≠ hi) (x : α) :
    Function.update ring (slot q hi) x (slot q lo) = ring (slot q lo) := by
  have hpos : (hi - lo).toNat ≠ 0 := fun h0 => hne (gap_eq_zero.mp h0)
  apply Function.update_of_ne
  have hs := @slot_ne q hq lo 0 (hi - lo).toNat (by omega) (by omega)
  rw [add_gap] at hs
  simpa using hs

theorem mem_window {q : UInt16} {ring : UInt16 → α} {lo hi : UInt16} {x : α} :
    x ∈ window q ring lo hi ↔
      ∃ i < (hi - lo).toNat, ring (slot q (lo + UInt16.ofNat i)) = x := by
  simp only [window, List.mem_map, List.mem_range]

theorem mem_window_update {q : UInt16} {ring : UInt16 → α} {lo hi c : UInt16} {x y : α}
    (h : x ∈ window q (Function.update ring c y) lo hi) : x ∈ window q ring lo hi ∨ x = y := by
  obtain ⟨i, hi, hx⟩ := mem_window.mp h
  by_cases hc : slot q (lo + UInt16.ofNat i) = c
  · rw [hc, Function.update_self] at hx
    exact .inr hx.symm
  · rw [Function.update_of_ne hc] at hx
    exact .inl (mem_window.mpr ⟨i, hi, hx⟩)

theorem mem_window_bump {q : UInt16} {ring : UInt16 → α} {lo hi : UInt16} {x : α}
    (h : x ∈ window q ring lo (hi + 1)) : x ∈ window q ring lo hi ∨ x = ring (slot q hi) := by
  by_cases hlt : (hi - lo).toNat < 65535
  · rw [window_bump hlt, List.mem_append, List.mem_singleton] at h
    exact h
  · have hmax := (hi - lo).toNat_lt
    have hempty : lo = hi + 1 := by
      have hgap : (hi - lo).toNat = 65535 := by omega
      apply gap_eq_zero.mp
      have := lo.toNat_lt
      have := hi.toNat_lt
      simp only [toNat_gap, UInt16.toNat_add, UInt16.toNat_one] at hgap ⊢
      omega
    rw [← hempty, window_self] at h
    simp at h

theorem window_pop {q : UInt16} {ring : UInt16 → α} {lo hi : UInt16} (h : lo ≠ hi) :
    window q ring lo hi = ring (slot q lo) :: window q ring (lo + 1) hi := by
  simp only [window, gap_pop h, List.range_succ_eq_map, List.map_cons, List.map_map]
  congr 1
  · simp
  · refine List.map_congr_left fun i _ => ?_
    have : lo + UInt16.ofNat (i + 1) = lo + 1 + UInt16.ofNat i := by
      rw [UInt16.ofNat_add, UInt16.add_comm (UInt16.ofNat i), ← UInt16.add_assoc]
      rfl
    simp only [Function.comp_apply, Nat.succ_eq_add_one, this]

/-- A write of several entries ahead of the published counter, then one publication. -/
theorem window_extend {q : UInt16} {ring : UInt16 → α} {lo hi : UInt16} {k : ℕ}
    (h : (hi - lo).toNat + k < 65536) :
    window q ring lo (hi + UInt16.ofNat k) =
      window q ring lo hi ++ window q ring hi (hi + UInt16.ofNat k) := by
  have hk : (hi + UInt16.ofNat k - hi).toNat = k := by
    simpa using @gap_add hi hi k (by simp; omega)
  simp only [window, gap_add h, hk, List.range_add, List.map_append, List.map_map]
  congr 1
  refine List.map_congr_left fun i _ => ?_
  simp only [Function.comp_apply, UInt16.ofNat_add, ← UInt16.add_assoc, add_gap]

end RingWindow
