import Mathlib.Algebra.Order.Group.Int
import Mathlib.Algebra.Order.Ring.Int
import Mathlib.Tactic.Linarith
import Mathlib.Data.Set.Basic

/-! Grids of pixels in memory.
The pixels of a picture stand `bytes` apart in a row and its rows `pitch` apart. -/
namespace PixelGrid

/-- Where the pixels of a picture of `w` by `h` begin. -/
def grid (pitch bytes w h : ℤ) : Set ℤ :=
  {o | ∃ x y, (0 ≤ x ∧ x < w) ∧ (0 ≤ y ∧ y < h) ∧ o = y * pitch + bytes * x}

variable {pitch bytes w h : ℤ}

theorem grid_empty (hw : w ≤ 0) : grid pitch bytes w h = ∅ := by
  apply Set.eq_empty_of_forall_notMem
  rintro o ⟨x, y, hx, -, -⟩
  omega

theorem grid_inside (hb : 0 < bytes) (hw : bytes * w ≤ pitch) {o : ℤ}
    (ho : o ∈ grid pitch bytes w h) : 0 ≤ o ∧ o + bytes ≤ h * pitch := by
  obtain ⟨x, y, ⟨hx, hxw⟩, ⟨hy, hyh⟩, rfl⟩ := ho
  have hrow : bytes * (x + 1) ≤ pitch := (mul_le_mul_of_nonneg_left hxw hb.le).trans hw
  have hcol : 0 ≤ bytes * x := mul_nonneg hb.le hx
  have hpitch : 0 ≤ pitch := by linarith [mul_add bytes x 1]
  have hrows : (y + 1) * pitch ≤ h * pitch := mul_le_mul_of_nonneg_right hyh hpitch
  have hfirst : 0 ≤ y * pitch := mul_nonneg hy hpitch
  constructor
  · linarith
  · linarith [mul_add bytes x 1, add_mul y 1 pitch]

theorem grid_row (q : ℤ) (hh : h ≤ 1) : grid pitch bytes w h = grid q bytes w h := by
  ext o
  constructor
  all_goals
    rintro ⟨x, y, hx, hy, rfl⟩
    obtain rfl : y = 0 := by omega
    exact ⟨x, 0, hx, hy, by rw [zero_mul, zero_mul]⟩

/-- Two pitches give the same pixels only where the last pixel does not depend on them. -/
theorem grid_packed_iff (hb : 0 < bytes) (hw : 0 ≤ w) (hpitch : bytes * w ≤ pitch) :
    grid (bytes * w) bytes w h = grid pitch bytes w h ↔ w = 0 ∨ h ≤ 1 ∨ pitch = bytes * w := by
  constructor
  · intro heq
    by_contra hnot
    obtain ⟨hpos, hrows, hpadded⟩ : w ≠ 0 ∧ 1 < h ∧ pitch ≠ bytes * w := by
      refine ⟨fun h0 => hnot (Or.inl h0), ?_, fun hp => hnot (Or.inr (Or.inr hp))⟩
      by_contra hh
      exact hnot (Or.inr (Or.inl (Int.not_lt.mp hh)))
    -- the last pixel of the padded picture is behind all of the packed one
    have hlast : (h - 1) * pitch + bytes * (w - 1) ∈ grid pitch bytes w h :=
      ⟨w - 1, h - 1, by omega, by omega, rfl⟩
    rw [← heq] at hlast
    have hend := (grid_inside hb le_rfl hlast).2
    have hlt : (h - 1) * (bytes * w) < (h - 1) * pitch :=
      mul_lt_mul_of_pos_left (by omega) (by omega)
    linarith [mul_sub bytes w 1, sub_mul h 1 (bytes * w)]
  · rintro (rfl | hh | rfl)
    · rw [grid_empty le_rfl, grid_empty le_rfl]
    · exact grid_row pitch hh
    · rfl

end PixelGrid
