import Mathlib.Data.Fintype.Basic
import Mathlib.Data.List.FinRange
import Mathlib.Logic.Function.Basic

/-! Hash tables with chained buckets.
A key is looked up in the bucket of its hash; a new node goes to the head of its bucket. While each
node is in the bucket of its own key and no key occurs twice, the table is a map. -/
namespace ChainedBuckets

variable {α κ : Type*} {n : ℕ}

abbrev Table (n : ℕ) (α : Type*) := Fin n → List α

def find (hash : κ → Fin n) (hit : κ → α → Bool) (t : Table n α) (k : κ) : Option α :=
  (t (hash k)).find? (hit k)

def push (t : Table n α) (i : Fin n) (a : α) : Table n α := Function.update t i (a :: t i)

/-- Removes the first node that satisfies `p`, the buckets being searched in their order. -/
def eraseFirst (t : Table n α) (p : α → Bool) : Table n α :=
  match (List.finRange n).find? fun i => (t i).any p with
  | none => t
  | some i => Function.update t i ((t i).eraseP p)

def Mem (t : Table n α) (a : α) : Prop := ∃ i, a ∈ t i

structure Filed (hash : κ → Fin n) (key : α → κ) (t : Table n α) : Prop where
  placed : ∀ i, ∀ a ∈ t i, hash (key a) = i
  distinct : ∀ i, ((t i).map key).Nodup

theorem filed_empty (hash : κ → Fin n) (key : α → κ) : Filed hash key fun _ => [] :=
  ⟨fun _ _ ha => absurd ha List.not_mem_nil, fun _ => List.nodup_nil⟩

@[simp] theorem mem_push {t : Table n α} {i : Fin n} {a b : α} :
    Mem (push t i a) b ↔ b = a ∨ Mem t b := by
  constructor
  · rintro ⟨j, hj⟩
    rw [push, Function.update_apply] at hj
    split at hj
    case isTrue h =>
      rcases List.mem_cons.mp hj with rfl | hb
      · exact Or.inl rfl
      · exact Or.inr ⟨i, hb⟩
    case isFalse => exact Or.inr ⟨j, hj⟩
  · rintro (rfl | ⟨j, hj⟩)
    · exact ⟨i, by simp [push]⟩
    · refine ⟨j, ?_⟩
      rw [push, Function.update_apply]
      split
      case isTrue h => exact List.mem_cons_of_mem _ (h ▸ hj)
      case isFalse => exact hj

section Exact

variable {hash : κ → Fin n} {hit : κ → α → Bool} {key : α → κ} {t : Table n α}
variable (hexact : ∀ k a, hit k a = true ↔ key a = k)
include hexact

theorem mem_of_find {k : κ} {a : α} (h : find hash hit t k = some a) : Mem t a ∧ key a = k :=
  ⟨⟨hash k, List.mem_of_find?_eq_some h⟩, (hexact k a).mp (List.find?_some h)⟩

theorem Filed.find_iff (hf : Filed hash key t) {k : κ} {a : α} :
    find hash hit t k = some a ↔ Mem t a ∧ key a = k := by
  refine ⟨mem_of_find hexact, ?_⟩
  rintro ⟨⟨i, hi⟩, hk⟩
  obtain rfl : hash k = i := by rw [← hk, hf.placed i a hi]
  cases hfound : find hash hit t k with
  | none => exact absurd ((hexact k a).mpr hk) (List.find?_eq_none.mp hfound a hi)
  | some b =>
    have hb := mem_of_find hexact hfound
    have hmem : b ∈ t (hash k) := List.mem_of_find?_eq_some hfound
    have hinj := List.inj_on_of_nodup_map (hf.distinct (hash k))
    exact congrArg some (hinj hmem hi (hb.2.trans hk.symm))

theorem Filed.find_none (hf : Filed hash key t) {k : κ} :
    find hash hit t k = none ↔ ∀ a, Mem t a → key a ≠ k := by
  rw [Option.eq_none_iff_forall_ne_some]
  refine forall_congr' fun a => ?_
  rw [Ne, hf.find_iff hexact, not_and]

theorem Filed.push (hf : Filed hash key t) {a : α} (hnew : find hash hit t (key a) = none) :
    Filed hash key (push t (hash (key a)) a) := by
  have hfresh := (hf.find_none hexact).mp hnew
  refine ⟨fun i b hb => ?_, fun i => ?_⟩
  · rw [ChainedBuckets.push, Function.update_apply] at hb
    split at hb
    case isTrue h =>
      rcases List.mem_cons.mp hb with rfl | hb
      · exact h.symm
      · exact (hf.placed _ b hb).trans h.symm
    case isFalse => exact hf.placed i b hb
  · rw [ChainedBuckets.push, Function.update_apply]
    split
    case isTrue =>
      rw [List.map_cons, List.nodup_cons, List.mem_map]
      refine ⟨?_, hf.distinct _⟩
      rintro ⟨b, hb, heq⟩
      exact hfresh b ⟨_, hb⟩ heq
    case isFalse => exact hf.distinct i

variable [DecidableEq κ]

theorem find_push (a : α) :
    find hash hit (push t (hash (key a)) a) = Function.update (find hash hit t) (key a) (some a) := by
  funext k
  rw [find, push, Function.update_apply, Function.update_apply]
  by_cases hk : k = key a
  · rw [if_pos (by rw [hk]), if_pos hk, List.find?_cons_of_pos ((hexact k a).mpr hk.symm)]
  · have hmiss : ¬ hit k a = true := fun h => hk ((hexact k a).mp h).symm
    rw [if_neg hk]
    split
    case isTrue h => rw [List.find?_cons_of_neg hmiss, ← h, find]
    case isFalse => rfl

end Exact

section Erase

variable {hash : κ → Fin n} {hit : κ → α → Bool} {key : α → κ} {t : Table n α} {p : α → Bool} {a : α}

theorem eraseFirst_sublist (t : Table n α) (p : α → Bool) (i : Fin n) :
    (eraseFirst t p i).Sublist (t i) := by
  unfold eraseFirst
  cases (List.finRange n).find? fun i => (t i).any p with
  | none => exact List.Sublist.refl _
  | some j =>
    simp only [Function.update_apply]
    split
    case isTrue h => exact h ▸ List.eraseP_sublist
    case isFalse => exact List.Sublist.refl _

theorem Filed.eraseFirst (hf : Filed hash key t) (p : α → Bool) :
    Filed hash key (eraseFirst t p) := by
  constructor
  · intro i b hb
    exact hf.placed i b ((eraseFirst_sublist t p i).mem hb)
  · intro i
    exact (hf.distinct i).sublist ((eraseFirst_sublist t p i).map key)

theorem mem_eraseP_of_unique {l : List α} (hnodup : l.Nodup) (ha : a ∈ l) (hpa : p a = true)
    (hone : ∀ b ∈ l, p b = true → b = a) {b : α} : b ∈ l.eraseP p ↔ b ∈ l ∧ b ≠ a := by
  constructor
  · intro hb
    refine ⟨List.mem_of_mem_eraseP hb, ?_⟩
    rintro rfl
    obtain ⟨c, l₁, l₂, -, hpc, hl, herase⟩ := List.exists_of_eraseP ha hpa
    obtain rfl : c = b := hone c (by simp [hl]) hpc
    rw [hl, List.nodup_middle, List.nodup_cons] at hnodup
    rw [herase] at hb
    exact hnodup.1 hb
  · rintro ⟨hb, hne⟩
    exact (List.mem_eraseP_of_neg fun hpb => hne (hone b hb hpb)).mpr hb

theorem Filed.mem_eraseFirst (hf : Filed hash key t) (ha : Mem t a) (hpa : p a = true)
    (hone : ∀ b, Mem t b → p b = true → b = a) {b : α} :
    Mem (ChainedBuckets.eraseFirst t p) b ↔ Mem t b ∧ b ≠ a := by
  obtain ⟨i, hi⟩ := ha
  have hbucket : ∀ j, (t j).any p = true → j = i := by
    intro j hj
    obtain ⟨c, hc, hpc⟩ := List.any_eq_true.mp hj
    rw [hone c ⟨j, hc⟩ hpc] at hc
    exact (hf.placed j a hc).symm.trans (hf.placed i a hi)
  have hfound : ((List.finRange n).find? fun j => (t j).any p) = some i := by
    cases h : (List.finRange n).find? fun j => (t j).any p with
    | none =>
      have hany : (t i).any p = true := List.any_eq_true.mpr ⟨a, hi, hpa⟩
      exact absurd hany (List.find?_eq_none.mp h i (List.mem_finRange i))
    | some j => rw [hbucket j (List.find?_some (p := fun j => (t j).any p) h)]
  have hmem : ∀ c, c ∈ (t i).eraseP p ↔ c ∈ t i ∧ c ≠ a := fun c =>
    mem_eraseP_of_unique ((hf.distinct i).of_map key) hi hpa fun c hc => hone c ⟨i, hc⟩
  simp only [Mem, ChainedBuckets.eraseFirst, hfound, Function.update_apply]
  constructor
  · rintro ⟨j, hj⟩
    split at hj
    case isTrue => exact ⟨⟨i, ((hmem b).mp hj).1⟩, ((hmem b).mp hj).2⟩
    case isFalse h =>
      refine ⟨⟨j, hj⟩, ?_⟩
      rintro rfl
      exact h ((hf.placed j b hj).symm.trans (hf.placed i b hi))
  · rintro ⟨⟨j, hj⟩, hne⟩
    refine ⟨j, ?_⟩
    split
    case isTrue h => exact (hmem b).mpr ⟨h ▸ hj, hne⟩
    case isFalse => exact hj

/-- The erased node's key is no longer found; every other key finds what it found. -/
theorem Filed.find_eraseFirst [DecidableEq κ] {hit : κ → α → Bool}
    (hexact : ∀ k a, hit k a = true ↔ key a = k) (hf : Filed hash key t) (ha : Mem t a)
    (hpa : p a = true) (hone : ∀ b, Mem t b → p b = true → b = a) :
    find hash hit (ChainedBuckets.eraseFirst t p)
      = Function.update (find hash hit t) (key a) none := by
  funext k
  apply Option.ext
  intro b
  rw [(hf.eraseFirst p).find_iff hexact, hf.mem_eraseFirst ha hpa hone, Function.update_apply]
  split
  case isTrue h =>
    simp only [reduceCtorEq, iff_false]
    rintro ⟨⟨hb, hne⟩, hk⟩
    have hfind := (hf.find_iff hexact).mpr ⟨hb, hk⟩
    rw [h, (hf.find_iff hexact).mpr ⟨ha, rfl⟩] at hfind
    exact hne (Option.some.inj hfind).symm
  case isFalse h =>
    rw [hf.find_iff hexact]
    constructor
    · rintro ⟨⟨hb, -⟩, hk⟩
      exact ⟨hb, hk⟩
    · rintro ⟨hb, rfl⟩
      refine ⟨⟨hb, ?_⟩, rfl⟩
      rintro rfl
      exact h rfl

end Erase

end ChainedBuckets
