import Mathlib.Data.List.Basic
import Mathlib.Data.Nat.Bitwise

/-! Bit fields packed into one number.
A register is a number whose bits belong to fields. Fields are packed by OR-ing each value in at
the place of its field, which gives back the values when they fit and the fields do not overlap. -/
namespace BitFields

structure Field where
  start : ℕ
  width : ℕ
  deriving DecidableEq, Repr

/-- The value of the field in the register `n`. -/
def Field.get (f : Field) (n : ℕ) : ℕ := n >>> f.start % 2 ^ f.width

/-- `f` lies below `g` or the other way round. -/
def Field.Apart (f g : Field) : Prop :=
  f.start + f.width ≤ g.start ∨ g.start + g.width ≤ f.start

instance (f g : Field) : Decidable (f.Apart g) := inferInstanceAs (Decidable (_ ∨ _))

def put (n start value : ℕ) : ℕ := n ||| value <<< start

def pack (n : ℕ) (fs : List (Field × ℕ)) : ℕ := fs.foldl (fun n f => put n f.1.start f.2) n

def Fits (f : Field × ℕ) : Prop := f.2 < 2 ^ f.1.width

instance (f : Field × ℕ) : Decidable (Fits f) := inferInstanceAs (Decidable (_ < _))

theorem Field.testBit_get (f : Field) (n i : ℕ) :
    (f.get n).testBit i = (decide (i < f.width) && n.testBit (f.start + i)) := by
  rw [get, Nat.testBit_mod_two_pow, Nat.testBit_shiftRight]

theorem Field.get_lt (f : Field) (n : ℕ) : f.get n < 2 ^ f.width :=
  Nat.mod_lt _ (Nat.two_pow_pos f.width)

theorem testBit_put (n start value i : ℕ) :
    (put n start value).testBit i =
      (n.testBit i || (decide (start ≤ i) && value.testBit (i - start))) := by
  rw [put, Nat.testBit_or, Nat.testBit_shiftLeft]

/-- Packing `f` leaves the field `g` alone: it is put in above `g`, or ends below it. -/
def Spares (f : Field × ℕ) (g : Field) : Prop :=
  g.start + g.width ≤ f.1.start ∨ f.2 < 2 ^ (g.start - f.1.start)

instance (f : Field × ℕ) (g : Field) : Decidable (Spares f g) :=
  inferInstanceAs (Decidable (_ ∨ _))

theorem Fits.spares {f : Field × ℕ} (h : Fits f) {g : Field} (hg : f.1.Apart g) : Spares f g := by
  rcases hg with hg | hg
  · exact .inr (lt_of_lt_of_le h (Nat.pow_le_pow_right (by omega) (by omega)))
  · exact .inl hg

theorem testBit_of_lt {v k i : ℕ} (h : v < 2 ^ k) (hi : k ≤ i) : v.testBit i = false :=
  Nat.testBit_lt_two_pow (lt_of_lt_of_le h (Nat.pow_le_pow_right (by omega) hi))

theorem Spares.get_put {f : Field × ℕ} {g : Field} (h : Spares f g) (n : ℕ) :
    g.get (put n f.1.start f.2) = g.get n := by
  apply Nat.eq_of_testBit_eq
  intro i
  rw [g.testBit_get, g.testBit_get, testBit_put]
  by_cases hi : i < g.width
  · rcases h with habove | hends
    · rw [decide_eq_false (by omega : ¬ f.1.start ≤ g.start + i), Bool.false_and, Bool.or_false]
    · rw [testBit_of_lt hends (by omega), Bool.and_false, Bool.or_false]
  · simp [hi]

theorem get_pack_of_spares {fs : List (Field × ℕ)} {g : Field} (h : ∀ f ∈ fs, Spares f g) (n : ℕ) :
    g.get (pack n fs) = g.get n := by
  induction fs generalizing n with
  | nil => rfl
  | cons f fs ih =>
    rw [pack, List.foldl_cons, ← pack, ih fun f hf => h f (List.mem_cons_of_mem _ hf)]
    apply (h f List.mem_cons_self).get_put

theorem get_put_self {f : Field × ℕ} (h : Fits f) {n : ℕ} (hn : f.1.get n = 0) :
    f.1.get (put n f.1.start f.2) = f.2 := by
  apply Nat.eq_of_testBit_eq
  intro i
  rw [f.1.testBit_get]
  by_cases hi : i < f.1.width
  · have hclear : n.testBit (f.1.start + i) = false := by
      have hbit := f.1.testBit_get n i
      rw [hn, Nat.zero_testBit] at hbit
      simpa [hi] using hbit.symm
    simp [testBit_put, hi, hclear]
  · simp [hi, testBit_of_lt h (not_lt.mp hi)]

theorem get_pack_split {l r : List (Field × ℕ)} {f : Field × ℕ} (hf : Fits f)
    (h : ∀ g ∈ l ++ r, Spares g f.1) {n : ℕ} (hn : f.1.get n = 0) :
    f.1.get (pack n (l ++ f :: r)) = f.2 := by
  have hl : ∀ g ∈ l, Spares g f.1 := fun g hg => h g (List.mem_append_left _ hg)
  have hr : ∀ g ∈ r, Spares g f.1 := fun g hg => h g (List.mem_append_right _ hg)
  rw [pack, List.foldl_append, List.foldl_cons, ← pack, ← pack, get_pack_of_spares hr]
  apply get_put_self hf
  rw [get_pack_of_spares hl, hn]

/-- Packed into a clear register, fields that do not overlap give back their values. -/
theorem get_pack {fs : List (Field × ℕ)} (h : ∀ f ∈ fs, Fits f)
    (hfs : fs.Pairwise fun f g => f.1.Apart g.1) {n : ℕ} {f : Field × ℕ} (hn : f.1.get n = 0)
    (hf : f ∈ fs) : f.1.get (pack n fs) = f.2 := by
  obtain ⟨l, r, rfl⟩ := List.append_of_mem hf
  apply get_pack_split (h f hf) ?_ hn
  intro g hg
  obtain ⟨-, hright, hcross⟩ := List.pairwise_append.mp hfs
  rcases List.mem_append.mp hg with hg | hg
  · exact (h g (List.mem_append_left _ hg)).spares (hcross g hg f List.mem_cons_self)
  · have hfits := h g (List.mem_append_right _ (List.mem_cons_of_mem _ hg))
    exact hfits.spares ((List.pairwise_cons.mp hright).1 g hg).symm

/-- A bit set in a packed value is set in the register, whatever else is packed. -/
theorem testBit_pack {fs : List (Field × ℕ)} {n i : ℕ}
    (h : n.testBit i ∨ ∃ f ∈ fs, f.1.start ≤ i ∧ f.2.testBit (i - f.1.start)) :
    (pack n fs).testBit i := by
  induction fs generalizing n with
  | nil => simpa [pack] using h
  | cons f fs ih =>
    rw [pack, List.foldl_cons, ← pack]
    apply ih
    rcases h with h | ⟨g, hg, hlo, hbit⟩
    · exact .inl (by simp [testBit_put, h])
    · rcases List.mem_cons.mp hg with rfl | hg
      · exact .inl (by simp [testBit_put, hlo, hbit])
      · exact .inr ⟨g, hg, hlo, hbit⟩

end BitFields
