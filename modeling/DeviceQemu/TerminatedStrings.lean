import Mathlib.Data.List.Basic

/-! Strings with a terminator.
Texts hold strings one after the other, each ended by the terminator `z`. Functions read a text from
the left and have no value when they would read behind its end. -/
namespace TerminatedStrings

variable {α : Type*} [DecidableEq α] {z : α}

def strlen (z : α) : List α → Option ℕ
  | [] => none
  | a :: text => if a = z then some 0 else (strlen z text).map (· + 1)

/-- Whether the string that a text begins with is `s`; reading stops at the first difference. -/
def strcmpZero (z : α) : List α → List α → Option Bool
  | [], _ => none
  | a :: _, [] => some (decide (a = z))
  | a :: text, b :: s => if a = b then strcmpZero z text s else some false

theorem strlen_terminated {s : List α} (hs : z ∉ s) (rest : List α) :
    strlen z (s ++ z :: rest) = some s.length := by
  induction s with
  | nil => exact if_pos rfl
  | cons a s ih =>
    obtain ⟨hne, hs⟩ := List.ne_and_not_mem_of_not_mem_cons hs
    rw [List.cons_append, strlen, if_neg hne.symm, ih hs]
    rfl

theorem strlen_unterminated {s : List α} (hs : z ∉ s) : strlen z s = none := by
  induction s with
  | nil => rfl
  | cons a s ih =>
    obtain ⟨hne, hs⟩ := List.ne_and_not_mem_of_not_mem_cons hs
    rw [strlen, if_neg hne.symm, ih hs]
    rfl

theorem strcmpZero_terminated {s t : List α} (hs : z ∉ s) (ht : z ∉ t) (rest : List α) :
    strcmpZero z (s ++ z :: rest) t = some (decide (s = t)) := by
  induction s generalizing t with
  | nil =>
    cases t with
    | nil => simp [strcmpZero]
    | cons b t =>
      have hne := List.ne_of_not_mem_cons ht
      simp [strcmpZero, hne]
  | cons a s ih =>
    obtain ⟨hne, hs⟩ := List.ne_and_not_mem_of_not_mem_cons hs
    cases t with
    | nil => simp [strcmpZero, hne.symm]
    | cons b t =>
      rw [List.cons_append, strcmpZero, ih hs (List.not_mem_of_not_mem_cons ht)]
      split_ifs with heq
      · simp [heq]
      · simp [heq]

theorem strcmpZero_unterminated {s : List α} (hs : z ∉ s) (t : List α) :
    strcmpZero z s t ≠ some true := by
  induction s generalizing t with
  | nil => simp [strcmpZero]
  | cons a s ih =>
    obtain ⟨hne, hs⟩ := List.ne_and_not_mem_of_not_mem_cons hs
    cases t with
    | nil => simp [strcmpZero, hne.symm]
    | cons b t =>
      rw [strcmpZero]
      split_ifs
      · exact ih hs t
      · simp

theorem terminated_or_not (z : α) (text : List α) :
    (∃ s rest, z ∉ s ∧ text = s ++ z :: rest) ∨ z ∉ text := by
  by_cases h : z ∈ text
  · obtain ⟨s, rest, heq, hs⟩ := List.eq_append_cons_of_mem h
    exact Or.inl ⟨s, rest, hs, heq⟩
  · exact Or.inr h

end TerminatedStrings
