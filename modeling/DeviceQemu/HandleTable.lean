import Mathlib.Data.List.Basic

/-! Tables that name objects by handles.
An object that is open already is opened again under the handle it has. Nothing counts how
often that happened: one close takes the handle from everybody. -/
namespace HandleTable

variable {α β : Type*} [DecidableEq α] [DecidableEq β]

def handleOf (t : List (α × β)) (x : α) : Option β := (t.find? fun e => e.1 = x).map Prod.snd

def handles (t : List (α × β)) : List β := t.map Prod.snd

/-- `fresh` is the handle of an object that was not open. -/
def openObject (t : List (α × β)) (x : α) (fresh : β) : Option (β × List (α × β)) :=
  match handleOf t x with
  | some h => some (h, t)
  | none => if fresh ∈ handles t then none else some (fresh, (x, fresh) :: t)

def close (t : List (α × β)) (h : β) : List (α × β) := t.filter fun e => e.2 ≠ h

/-- One handle for each open object, one object for each handle. -/
structure Consistent (t : List (α × β)) : Prop where
  object : ∀ x h h', (x, h) ∈ t → (x, h') ∈ t → h = h'
  handle : ∀ x y h, (x, h) ∈ t → (y, h) ∈ t → x = y

omit [DecidableEq α] [DecidableEq β] in
theorem consistent_nil : Consistent ([] : List (α × β)) := by
  constructor
  · intro x h h' hx
    simp at hx
  · intro x y h hx
    simp at hx

omit [DecidableEq α] [DecidableEq β] in
theorem mem_handles {t : List (α × β)} {h : β} : h ∈ handles t ↔ ∃ x, (x, h) ∈ t := by
  simp [handles]

omit [DecidableEq β] in
theorem mem_of_handleOf {t : List (α × β)} {x : α} {h : β} (hx : handleOf t x = some h) :
    (x, h) ∈ t := by
  obtain ⟨⟨y, k⟩, hf, rfl⟩ := Option.map_eq_some_iff.mp hx
  have hy := List.find?_some hf
  simp only [decide_eq_true_eq] at hy
  subst hy
  exact List.mem_of_find?_eq_some hf

omit [DecidableEq β] in
theorem not_mem_of_handleOf {t : List (α × β)} {x : α} (hx : handleOf t x = none) (h : β) :
    (x, h) ∉ t := by
  intro hmem
  have := List.find?_eq_none.mp (Option.map_eq_none_iff.mp hx) _ hmem
  simp at this

theorem openObject_cases {t t' : List (α × β)} {x : α} {fresh h : β}
    (ho : openObject t x fresh = some (h, t')) :
    (t' = t ∧ (x, h) ∈ t) ∨
      (fresh = h ∧ t' = (x, h) :: t ∧ h ∉ handles t ∧ ∀ k, (x, k) ∉ t) := by
  cases hx : handleOf t x with
  | some k =>
    simp only [openObject, hx, Option.some.injEq, Prod.mk.injEq] at ho
    obtain ⟨rfl, rfl⟩ := ho
    exact .inl ⟨rfl, mem_of_handleOf hx⟩
  | none =>
    simp only [openObject, hx] at ho
    by_cases hf : fresh ∈ handles t
    · simp [hf] at ho
    · simp only [if_neg hf, Option.some.injEq, Prod.mk.injEq] at ho
      obtain ⟨rfl, rfl⟩ := ho
      exact .inr ⟨rfl, rfl, hf, fun k => not_mem_of_handleOf hx k⟩

theorem Consistent.openObject {t t' : List (α × β)} (ht : Consistent t) {x : α} {fresh h : β}
    (ho : openObject t x fresh = some (h, t')) : Consistent t' := by
  rcases openObject_cases ho with ⟨rfl, -⟩ | ⟨rfl, rfl, hnew, hobj⟩
  · exact ht
  constructor
  · intro y k k' hk hk'
    rcases List.mem_cons.mp hk with heq | hold
    · obtain ⟨rfl, rfl⟩ := Prod.mk.inj heq
      rcases List.mem_cons.mp hk' with heq' | hold'
      · exact (Prod.mk.inj heq').2.symm
      · exact absurd hold' (hobj k')
    · rcases List.mem_cons.mp hk' with heq' | hold'
      · obtain ⟨rfl, rfl⟩ := Prod.mk.inj heq'
        exact absurd hold (hobj k)
      · exact ht.object y k k' hold hold'
  · intro y z k hy hz
    rcases List.mem_cons.mp hy with heq | hold
    · obtain ⟨rfl, rfl⟩ := Prod.mk.inj heq
      rcases List.mem_cons.mp hz with heq' | hold'
      · exact (Prod.mk.inj heq').1.symm
      · exact absurd (mem_handles.mpr ⟨z, hold'⟩) hnew
    · rcases List.mem_cons.mp hz with heq' | hold'
      · obtain ⟨rfl, rfl⟩ := Prod.mk.inj heq'
        exact absurd (mem_handles.mpr ⟨y, hold⟩) hnew
      · exact ht.handle y z k hold hold'

theorem mem_openObject {t t' : List (α × β)} {x : α} {fresh h : β}
    (ho : openObject t x fresh = some (h, t')) : (x, h) ∈ t' := by
  rcases openObject_cases ho with ⟨rfl, hx⟩ | ⟨rfl, rfl, -, -⟩
  · exact hx
  · exact List.mem_cons_self ..

theorem openObject_mono {t t' : List (α × β)} {x : α} {fresh h : β}
    (ho : openObject t x fresh = some (h, t')) {e : α × β} (he : e ∈ t) : e ∈ t' := by
  rcases openObject_cases ho with ⟨rfl, -⟩ | ⟨rfl, rfl, -, -⟩
  · exact he
  · exact List.mem_cons_of_mem _ he

omit [DecidableEq α] in
theorem mem_close {t : List (α × β)} {h : β} {e : α × β} : e ∈ close t h ↔ e ∈ t ∧ e.2 ≠ h := by
  simp [close]

omit [DecidableEq α] in
theorem mem_handles_close {t : List (α × β)} {h k : β} :
    k ∈ handles (close t h) ↔ k ∈ handles t ∧ k ≠ h := by
  simp only [mem_handles, mem_close]
  constructor
  · rintro ⟨x, hx, hne⟩
    exact ⟨⟨x, hx⟩, hne⟩
  · rintro ⟨⟨x, hx⟩, hne⟩
    exact ⟨x, hx, hne⟩

omit [DecidableEq α] in
theorem Consistent.close {t : List (α × β)} (ht : Consistent t) (h : β) : Consistent (close t h) :=
  ⟨fun x k k' hk hk' => ht.object x k k' (mem_close.mp hk).1 (mem_close.mp hk').1,
    fun x y k hx hy => ht.handle x y k (mem_close.mp hx).1 (mem_close.mp hy).1⟩

end HandleTable
