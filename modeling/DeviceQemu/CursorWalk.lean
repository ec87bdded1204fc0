import Mathlib.Data.List.Nodup

/-! Walks over a list that changes.
A cursor goes through a list and visits what it stands at, while elements are appended behind it and
others than the one it stands at are taken out. -/
namespace CursorWalk

variable {α : Type*} [DecidableEq α]

/-- What was in the list when the walk began and was not taken out since, and the visits so far. -/
structure Walk (α : Type*) where
  stayed : List α
  visits : List α
  deriving DecidableEq, Repr

def Walk.begin (xs : List α) : Walk α := ⟨xs, []⟩

def Walk.visit (w : Walk α) (x : α) : Walk α := { w with visits := w.visits ++ [x] }

def without (xs : List α) (x : α) : List α := xs.filter (· ≠ x)

def Walk.leave (w : Walk α) (x : α) : Walk α := { w with stayed := without w.stayed x }

/-- What stands behind `x`, unless `x` is not in the list. -/
def successor (xs : List α) (x : α) : Option (Option α) :=
  match xs.dropWhile (· ≠ x) with
  | [] => none
  | _ :: rest => some rest.head?

theorem mem_without {xs : List α} {x y : α} : y ∈ without xs x ↔ y ∈ xs ∧ y ≠ x := by
  simp [without]

theorem without_append (xs ys : List α) (x : α) :
    without (xs ++ ys) x = without xs x ++ without ys x := List.filter_append ..

theorem without_cons_of_ne {x y : α} (h : y ≠ x) (xs : List α) :
    without (y :: xs) x = y :: without xs x := by
  simp [without, h]

theorem nodup_without {xs : List α} (h : xs.Nodup) (x : α) : (without xs x).Nodup := h.filter _

theorem successor_append {before rest : List α} {x : α} (h : x ∉ before) :
    successor (before ++ x :: rest) x = some rest.head? := by
  have hdrop : (before ++ x :: rest).dropWhile (· ≠ x) = x :: rest := by
    rw [List.dropWhile_append_of_pos]
    · simp
    · intro y hy
      exact decide_eq_true fun heq => h (heq ▸ hy)
  rw [successor, hdrop]

/-- The walk over `before ++ rest` is done with `before`: of what stayed, it has visited that once
and the rest not yet. -/
structure Midway (before rest : List α) (w : Walk α) : Prop where
  stayed : ∀ x ∈ w.stayed, x ∈ before ++ rest
  once : ∀ x ∈ w.stayed, w.visits.count x = if x ∈ before then 1 else 0

section Midway

variable {before rest : List α} {w : Walk α} {x y : α}

theorem Midway.begin (xs : List α) : Midway [] xs (Walk.begin xs) :=
  ⟨fun _ hx => hx, fun _ _ => by simp [Walk.begin]⟩

theorem Midway.visit (h : Midway before (x :: rest) w) (hn : (before ++ x :: rest).Nodup) :
    Midway (before ++ [x]) rest (w.visit x) := by
  refine ⟨fun y hy => ?_, fun y hy => ?_⟩
  · rw [List.append_assoc]
    exact h.stayed y hy
  · have hx : x ∉ before := fun hmem =>
      (List.nodup_append.mp hn).2.2 x hmem x List.mem_cons_self rfl
    have honce := h.once y hy
    rw [Walk.visit, List.count_append, honce]
    by_cases hyx : y = x
    · rw [hyx]
      simp [hx]
    · simp [hyx, Ne.symm hyx]

theorem Midway.append (h : Midway before rest w) (y : α) : Midway before (rest ++ [y]) w := by
  refine ⟨fun x hx => ?_, h.once⟩
  rw [← List.append_assoc]
  exact List.mem_append_left _ (h.stayed x hx)

theorem Midway.leave (h : Midway before rest w) (y : α) :
    Midway (without before y) (without rest y) (w.leave y) := by
  refine ⟨fun x hx => ?_, fun x hx => ?_⟩
  · obtain ⟨hstay, hne⟩ := mem_without.mp hx
    rw [← without_append]
    exact mem_without.mpr ⟨h.stayed x hstay, hne⟩
  · obtain ⟨hstay, hne⟩ := mem_without.mp hx
    have honce := h.once x hstay
    simp only [mem_without, hne, ne_eq, not_false_eq_true, and_true]
    exact honce

theorem Midway.finish (h : Midway before [] w) (hx : x ∈ w.stayed) : w.visits.count x = 1 := by
  have hmem := h.stayed x hx
  rw [List.append_nil] at hmem
  rw [h.once x hx, if_pos hmem]

end Midway

end CursorWalk
