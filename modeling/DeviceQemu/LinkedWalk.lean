import Mathlib.Data.List.Basic
import Mathlib.Logic.Function.Basic

/-! Lists threaded through a next word.
`Path next x xs y`: following `next` from `x` visits exactly `xs` and then stands at `y`.
The last link `y` is part of the relation, because it may be stale and still be read. -/
namespace LinkedWalk

variable {α : Type*}

def Path (next : α → α) (x : α) : List α → α → Prop
  | [], y => x = y
  | a :: as, y => x = a ∧ Path next (next a) as y

@[simp] theorem path_nil {next : α → α} {x y : α} : Path next x [] y ↔ x = y := Iff.rfl

@[simp] theorem path_cons {next : α → α} {x y a : α} {as : List α} :
    Path next x (a :: as) y ↔ x = a ∧ Path next (next a) as y := Iff.rfl

theorem path_append {next : α → α} {x z : α} {xs ys : List α} :
    Path next x (xs ++ ys) z ↔ ∃ y, Path next x xs y ∧ Path next y ys z := by
  induction xs generalizing x with
  | nil => simp
  | cons a as ih => simp [ih, and_assoc]

theorem Path.frame {next next' : α → α} {x y : α} {xs : List α} (h : Path next x xs y)
    (he : ∀ a ∈ xs, next' a = next a) : Path next' x xs y := by
  induction xs generalizing x with
  | nil => exact h
  | cons a as ih =>
    refine ⟨h.1, ?_⟩
    rw [he a (List.mem_cons_self ..)]
    exact ih h.2 fun b hb => he b (List.mem_cons_of_mem _ hb)

theorem Path.relink [DecidableEq α] {next : α → α} {x y z a : α} {as : List α}
    (h : Path next x (as ++ [a]) y) (hn : (as ++ [a]).Nodup) :
    Path (Function.update next a z) x (as ++ [a]) z := by
  obtain ⟨u, hu, rfl, -⟩ := path_append.mp h
  refine path_append.mpr ⟨u, hu.frame fun b hb => ?_, rfl, by simp⟩
  apply Function.update_of_ne
  rintro rfl
  simp only [List.nodup_append, List.mem_singleton, forall_eq] at hn
  exact hn.2.2 b hb rfl

def walk (next : α → α) (x : α) : ℕ → List α
  | 0 => []
  | n + 1 => x :: walk next (next x) n

@[simp] theorem length_walk (next : α → α) (x : α) (n : ℕ) : (walk next x n).length = n := by
  induction n generalizing x with
  | zero => rfl
  | succ n ih => simp [walk, ih]

theorem Path.walk_eq {next : α → α} {x y : α} {xs : List α} (h : Path next x xs y) :
    walk next x xs.length = xs := by
  induction xs generalizing x with
  | nil => rfl
  | cons a as ih =>
    obtain ⟨rfl, h⟩ := h
    simp [walk, ih h]

/-- The nodes from `x` on, as long as the node just visited says that more follow. -/
def chain (more : α → Bool) (next : α → α) (x : α) : ℕ → List α
  | 0 => []
  | n + 1 => x :: if more x then chain more next (next x) n else []

/-- A path whose inner nodes are marked as continued and whose last node is not. -/
structure Sealed (more : α → Bool) (next : α → α) (x : α) (xs : List α) : Prop where
  ne : xs ≠ []
  path : ∃ y, Path next x xs y
  inner : ∀ a ∈ xs.dropLast, more a = true
  last : more (xs.getLast ne) = false

theorem Sealed.frame {more more' : α → Bool} {next next' : α → α} {x : α} {xs : List α}
    (h : Sealed more next x xs) (hm : ∀ a ∈ xs, more' a = more a)
    (hn : ∀ a ∈ xs, next' a = next a) : Sealed more' next' x xs := by
  obtain ⟨ne, ⟨y, hp⟩, hi, hl⟩ := h
  refine ⟨ne, ⟨y, hp.frame hn⟩, fun a ha => ?_, ?_⟩
  · rw [hm a (List.dropLast_subset xs ha)]
    exact hi a ha
  · rw [hm _ (List.getLast_mem ne)]
    exact hl

theorem Sealed.chain_eq {more : α → Bool} {next : α → α} {x : α} {xs : List α} {n : ℕ}
    (h : Sealed more next x xs) (hn : xs.length ≤ n) : chain more next x n = xs := by
  induction xs generalizing x n with
  | nil => exact absurd rfl h.ne
  | cons a as ih =>
    obtain ⟨ne, ⟨y, rfl, hp⟩, hi, hl⟩ := h
    cases n with
    | zero => simp at hn
    | succ n =>
      cases as with
      | nil =>
        have hx : more x = false := by simpa using hl
        simp [chain, hx]
      | cons b bs =>
        have hx : more x = true := hi x (by simp)
        have ht : Sealed more next (next x) (b :: bs) :=
          ⟨by simp, ⟨y, hp⟩, fun c hc => hi c (by simp [hc]), by simpa using hl⟩
        simp only [chain, hx, if_true, ih ht (by simpa using hn)]

end LinkedWalk
