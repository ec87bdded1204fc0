import Mathlib.Algebra.Group.Nat.Defs
import Mathlib.Data.List.Basic
import Mathlib.Data.Prod.Lex

/-! Numbers with two digits.
A pair of a high and a low digit has the value `high * k + low`. The low digits may reach `k` and
more, and then the values need not be in the order of the pairs. -/
namespace MixedRadix

variable {k m bound : ℕ} {x y : ℕ × ℕ} {xs : List (ℕ × ℕ)}

def value (k : ℕ) (x : ℕ × ℕ) : ℕ := x.1 * k + x.2

def Before (x y : ℕ × ℕ) : Prop := Prod.Lex (· < ·) (· < ·) x y

instance : DecidableRel Before := fun _ _ => decidable_of_iff _ Prod.lex_iff.symm

/-- The low digit falls by less than `k` for each that the high digit gains. -/
def Ahead (k : ℕ) (x y : ℕ × ℕ) : Prop := x.2 < y.2 + (y.1 - x.1) * k

instance : DecidableRel (Ahead k) := fun _ _ => inferInstanceAs (Decidable (_ < _))

theorem Before.fst_le (h : Before x y) : x.1 ≤ y.1 := by
  rcases Prod.lex_iff.mp h with hlt | ⟨heq, -⟩
  · exact hlt.le
  · exact heq.le

theorem value_lt_iff (h : x.1 ≤ y.1) : value k x < value k y ↔ Ahead k x y := by
  obtain ⟨d, hd⟩ := Nat.exists_eq_add_of_le h
  have hsub : y.1 - x.1 = d := by omega
  rw [value, value, Ahead, hsub, hd, Nat.add_mul]
  omega

theorem Before.ahead (h : Before x y) (hx : x.2 < bound) (hk : bound ≤ k) : Ahead k x y := by
  rw [Ahead]
  rcases Prod.lex_iff.mp h with hlt | ⟨heq, hlt⟩
  · have hunit : 1 * k ≤ (y.1 - x.1) * k := Nat.mul_le_mul_right k (by omega)
    omega
  · omega

theorem value_eq_iff (h : k < m) : value k x = value m x ↔ x.1 = 0 := by
  rw [value, value, Nat.add_right_cancel_iff]
  constructor
  · intro heq
    by_contra hpos
    exact (Nat.mul_lt_mul_of_pos_left h (Nat.pos_of_ne_zero hpos)).ne heq
  · intro hzero
    rw [hzero, Nat.zero_mul, Nat.zero_mul]

theorem map_value_eq_iff (h : k < m) :
    xs.map (value k) = xs.map (value m) ↔ ∀ x ∈ xs, x.1 = 0 := by
  rw [List.map_inj_left]
  exact forall_congr' fun x => forall_congr' fun _ => value_eq_iff h

theorem pairwise_value_iff (h : xs.Pairwise Before) :
    (xs.map (value k)).Pairwise (· < ·) ↔ xs.Pairwise (Ahead k) := by
  rw [List.pairwise_map]
  constructor
  · exact fun hlt => (h.and hlt).imp fun hxy => (value_lt_iff hxy.1.fst_le).mp hxy.2
  · exact fun hahead => (h.and hahead).imp fun hxy => (value_lt_iff hxy.1.fst_le).mpr hxy.2

end MixedRadix
