import Mathlib.Data.List.Basic

/-! Filters of streams.
A filter keeps or drops each item by a state of its own. Two filters that once disagree on an item
have the same output only if the one that is ahead lets the other catch up; when what it is ahead by
never runs out, the outputs differ for good. -/
namespace StreamFilter

variable {σ τ α : Type*}

abbrev Filter (σ α : Type*) := σ → α → σ × Bool

def output (f : Filter σ α) (s : σ) : List α → List α
  | [] => []
  | x :: xs => if (f s x).2 then x :: output f (f s x).1 xs else output f (f s x).1 xs

def after (f : Filter σ α) (s : σ) : List α → σ
  | [] => s
  | x :: xs => after f (f s x).1 xs

theorem output_append (f : Filter σ α) (s : σ) (xs ys : List α) :
    output f s (xs ++ ys) = output f s xs ++ output f (after f s xs) ys := by
  induction xs generalizing s with
  | nil => rfl
  | cons x xs ih =>
    rw [List.cons_append, output, output, after, ih]
    split <;> simp

def Agree (f : Filter σ α) (g : Filter τ α) (s : σ) (t : τ) : List α → Prop
  | [] => True
  | x :: xs => (f s x).2 = (g t x).2 ∧ Agree f g (f s x).1 (g t x).1 xs

theorem output_eq_of_agree {f : Filter σ α} {g : Filter τ α} {s : σ} {t : τ} {xs : List α}
    (h : Agree f g s t xs) : output f s xs = output g t xs := by
  induction xs generalizing s t with
  | nil => rfl
  | cons x xs ih =>
    obtain ⟨hsame, hrest⟩ := h
    unfold output
    rw [hsame, ih hrest]

/-- What the first filter is ahead by once it has seen an item, and the second has not. -/
def ahead (f : Filter σ α) (s : σ) (queue : List α) (x : α) : List α :=
  if (f s x).2 then queue ++ [x] else queue

/-- The first filter is ahead by a queue that the second, taking from its head, never empties. -/
structure Leads (f : Filter σ α) (g : Filter τ α) (Q : σ → τ → List α → Prop) : Prop where
  nonempty : ∀ s t queue, Q s t queue → queue ≠ []
  skip : ∀ s t queue x, Q s t queue → (g t x).2 = false → Q (f s x).1 (g t x).1 (ahead f s queue x)
  take : ∀ s t queue x rest, Q s t queue → (g t x).2 = true → ahead f s queue x = x :: rest →
    Q (f s x).1 (g t x).1 rest

theorem ahead_output (f : Filter σ α) (s : σ) (queue : List α) (x : α) (xs : List α) :
    queue ++ output f s (x :: xs) = ahead f s queue x ++ output f (f s x).1 xs := by
  unfold ahead
  rw [output]
  split <;> simp

theorem ahead_cons (f : Filter σ α) (s : σ) (y : α) (queue : List α) (x : α) :
    ahead f s (y :: queue) x = y :: ahead f s queue x := by
  unfold ahead
  split <;> rfl

theorem subset_ahead (f : Filter σ α) (s : σ) (queue : List α) (x : α) : queue ⊆ ahead f s queue x := by
  unfold ahead
  split
  · exact List.subset_append_left queue [x]
  · exact List.Subset.refl queue

theorem forall_mem_ahead {f : Filter σ α} {s : σ} {queue : List α} {x : α} {P : α → Prop}
    (h : ∀ y ∈ queue, P y) (hx : P x) : ∀ y ∈ ahead f s queue x, P y := by
  unfold ahead
  split
  · intro y hy
    rcases List.mem_append.mp hy with hy | hy
    · exact h y hy
    · rwa [List.mem_singleton.mp hy]
  · exact h

theorem ahead_eq_nil {f : Filter σ α} {s : σ} {queue : List α} {x : α}
    (h : ahead f s queue x = []) : queue = [] := by
  unfold ahead at h
  split at h
  · exact absurd h (by simp)
  · exact h

theorem Leads.output_ne {f : Filter σ α} {g : Filter τ α} {Q : σ → τ → List α → Prop}
    (h : Leads f g Q) {s : σ} {t : τ} {queue : List α} (hQ : Q s t queue) (xs : List α) :
    queue ++ output f s xs ≠ output g t xs := by
  induction xs generalizing s t queue with
  | nil =>
    rw [output, output, List.append_nil]
    exact h.nonempty s t queue hQ
  | cons x xs ih =>
    rw [ahead_output]
    cases hkeep : (g t x).2 with
    | false =>
      have hrest := ih (h.skip s t queue x hQ hkeep)
      rwa [output.eq_2 g, hkeep]
    | true =>
      rw [output.eq_2 g, hkeep, if_pos rfl]
      intro heq
      cases hahead : ahead f s queue x with
      | nil => exact h.nonempty s t queue hQ (ahead_eq_nil hahead)
      | cons y rest =>
        rw [hahead, List.cons_append] at heq
        obtain ⟨hhead, htail⟩ := List.cons.inj heq
        exact ih (h.take s t queue x rest hQ hkeep (hhead ▸ hahead)) htail

/-- From related states a first difference puts one of the filters ahead for good. -/
structure Diverges (f : Filter σ α) (g : Filter τ α) (I : σ → τ → Prop)
    (Q : σ → τ → List α → Prop) (R : τ → σ → List α → Prop) : Prop where
  inv : ∀ s t x, I s t → (f s x).2 = (g t x).2 → I (f s x).1 (g t x).1
  first : ∀ s t x, I s t → (f s x).2 = true → (g t x).2 = false → Q (f s x).1 (g t x).1 [x]
  second : ∀ s t x, I s t → (f s x).2 = false → (g t x).2 = true → R (g t x).1 (f s x).1 [x]
  leads : Leads f g Q
  trails : Leads g f R

/-- The outputs are the same exactly when the filters decide alike throughout. -/
theorem Diverges.output_eq_iff {f : Filter σ α} {g : Filter τ α} {I : σ → τ → Prop}
    {Q : σ → τ → List α → Prop} {R : τ → σ → List α → Prop} (h : Diverges f g I Q R) {s : σ} {t : τ}
    (hI : I s t) (xs : List α) : output f s xs = output g t xs ↔ Agree f g s t xs := by
  refine ⟨fun heq => ?_, output_eq_of_agree⟩
  induction xs generalizing s t with
  | nil => trivial
  | cons x xs ih =>
    unfold output at heq
    cases hf : (f s x).2 <;> cases hg : (g t x).2 <;> simp only [hf, hg] at heq
    case false.false => exact ⟨by rw [hf, hg], ih (h.inv s t x hI (hf.trans hg.symm)) heq⟩
    case true.true =>
      exact ⟨by rw [hf, hg], ih (h.inv s t x hI (hf.trans hg.symm)) (List.cons.inj heq).2⟩
    case true.false => exact absurd heq (h.leads.output_ne (h.first s t x hI hf hg) xs)
    case false.true => exact absurd heq.symm (h.trails.output_ne (h.second s t x hI hf hg) xs)

end StreamFilter
