import Mathlib.Data.List.Nodup
import Mathlib.Order.Lattice

/-! Multisets kept in the order of a comparison.
A multiset ordered by `less` is the list of its elements. Elements that compare equal are
equivalent for the container: erasing by key removes all of them, erasing at a position one. -/
namespace OrderedMultiset

variable {α κ : Type*} [LinearOrder κ] {less : α → α → Bool} {key : α → κ}

def ComparesBy (less : α → α → Bool) (key : α → κ) : Prop :=
  ∀ a b, less a b = true ↔ key a < key b

def Sorted (key : α → κ) (l : List α) : Prop := l.Pairwise fun a b => key a ≤ key b

/-- `insert` and `emplace`: at the upper end of the equivalent elements. -/
def insert (less : α → α → Bool) (a : α) : List α → List α
  | [] => [a]
  | b :: l => if less a b then a :: b :: l else b :: insert less a l

def equivalent (less : α → α → Bool) (a b : α) : Bool := !less a b && !less b a

/-- `erase` by key: every element equivalent to `a`. -/
def eraseKey (less : α → α → Bool) (a : α) (l : List α) : List α :=
  l.filter fun b => !equivalent less a b

/-- The first element of the `equal_range` of `a` that is `a` itself. -/
def eraseElement [DecidableEq α] (less : α → α → Bool) (a : α) (l : List α) : List α :=
  l.eraseP fun b => equivalent less a b && decide (b = a)

theorem ComparesBy.equivalent (h : ComparesBy less key) {a b : α} :
    equivalent less a b = true ↔ key a = key b := by
  have hab := h a b
  have hba := h b a
  simp only [OrderedMultiset.equivalent, Bool.and_eq_true, Bool.not_eq_true', Bool.eq_false_iff,
    ne_eq, hab, hba, not_lt]
  exact ⟨fun ⟨h₁, h₂⟩ => le_antisymm h₂ h₁, fun heq => ⟨heq.ge, heq.le⟩⟩

theorem insert_perm (a : α) (l : List α) : (insert less a l).Perm (a :: l) := by
  induction l with
  | nil => exact List.Perm.refl _
  | cons b l ih =>
    simp only [insert]
    split
    · exact List.Perm.refl _
    · exact (ih.cons b).trans (List.Perm.swap a b l)

theorem mem_insert {a b : α} {l : List α} : b ∈ insert less a l ↔ b = a ∨ b ∈ l := by
  rw [(insert_perm a l).mem_iff, List.mem_cons]

theorem insert_sorted (h : ComparesBy less key) {a : α} {l : List α} (hl : Sorted key l) :
    Sorted key (insert less a l) := by
  induction l with
  | nil => simp [insert, Sorted]
  | cons b l ih =>
    have hcons := List.pairwise_cons.mp hl
    by_cases hab : less a b = true
    · have hlt := (h a b).mp hab
      rw [insert, if_pos hab]
      refine List.pairwise_cons.mpr ⟨?_, hl⟩
      intro c hc
      rcases List.mem_cons.mp hc with rfl | hc
      · exact hlt.le
      · exact hlt.le.trans (hcons.1 c hc)
    · have hle : key b ≤ key a := not_lt.mp fun hlt => hab ((h a b).mpr hlt)
      rw [insert, if_neg hab]
      refine List.pairwise_cons.mpr ⟨?_, ih hcons.2⟩
      intro c hc
      rcases mem_insert.mp hc with rfl | hc
      · exact hle
      · exact hcons.1 c hc

theorem filter_insert {p : α → Bool} {a : α} (ha : p a = false) (l : List α) :
    (insert less a l).filter p = l.filter p := by
  induction l with
  | nil => simp [insert, ha]
  | cons b l ih =>
    simp only [insert]
    split
    · simp [ha]
    · simp only [List.filter_cons, ih]

theorem mem_eraseKey (h : ComparesBy less key) {a b : α} {l : List α} :
    b ∈ eraseKey less a l ↔ b ∈ l ∧ key a ≠ key b := by
  simp only [eraseKey, List.mem_filter, Bool.not_eq_true', Bool.eq_false_iff, ne_eq, h.equivalent]

/-- Erasing by key and erasing the element agree when nothing else is equivalent to it. -/
theorem eraseKey_eq_filter [DecidableEq α] (h : ComparesBy less key) {a : α} {l : List α}
    (hl : ∀ b ∈ l, key b = key a → b = a) :
    eraseKey less a l = l.filter fun b => decide (b ≠ a) := by
  refine List.filter_congr fun b hb => ?_
  by_cases hba : b = a
  · simp [hba, h.equivalent.mpr rfl]
  · have hne : equivalent less a b = false := by
      rw [Bool.eq_false_iff, ne_eq, h.equivalent]
      exact fun heq => hba (hl b hb heq.symm)
    simp [hba, hne]

theorem eraseElement_eq [DecidableEq α] (h : ComparesBy less key) (a : α) (l : List α) :
    eraseElement less a l = l.erase a := by
  rw [List.erase_eq_eraseP, eraseElement]
  congr 1
  funext b
  by_cases hba : b = a
  · simp [hba, h.equivalent.mpr rfl]
  · simp [hba, Ne.symm hba]

theorem Sorted.congr {key' : α → κ} {l : List α} (h : Sorted key l)
    (he : ∀ a ∈ l, key' a = key a) : Sorted key' l := by
  refine List.Pairwise.imp_of_mem ?_ h
  intro a b ha hb hle
  rwa [he a ha, he b hb]

end OrderedMultiset
