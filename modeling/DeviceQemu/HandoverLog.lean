import Mathlib.Data.List.Nodup

/-! Resources handed back and forth between two parties.
A log records every give and every take of a resource. No resource is given twice without a
take in between exactly when each give concerns one that is not out at that moment. -/
namespace HandoverLog

variable {α : Type*}

inductive Move (α : Type*) where
  | give (a : α)
  | take (a : α)
  deriving DecidableEq, Repr

/-- `a` has been given and not been taken since. -/
def Out (log : List (Move α)) (a : α) : Prop :=
  ∃ l₁ l₂, log = l₁ ++ .give a :: l₂ ∧ .take a ∉ l₂

def Alternating (log : List (Move α)) : Prop :=
  ∀ a l₁ l₂ l₃, log = l₁ ++ .give a :: (l₂ ++ .give a :: l₃) → .take a ∈ l₂

@[simp] theorem not_out_nil (a : α) : ¬ Out ([] : List (Move α)) a := by
  rintro ⟨l₁, l₂, h, -⟩
  simp at h

theorem alternating_nil : Alternating ([] : List (Move α)) := by
  intro a l₁ l₂ l₃ h
  simp at h

/-- A log that ends in `x` and contains a give: the give is the end or comes before it. -/
theorem snoc_eq_append_cons {log l₁ l₂ : List (Move α)} {x y : Move α}
    (h : log ++ [x] = l₁ ++ y :: l₂) :
    (l₂ = [] ∧ x = y ∧ log = l₁) ∨ ∃ l, l₂ = l ++ [x] ∧ log = l₁ ++ y :: l := by
  rcases List.eq_nil_or_concat l₂ with rfl | ⟨l, z, rfl⟩
  · obtain ⟨rfl, h⟩ := List.append_inj' h rfl
    exact .inl ⟨rfl, by simpa using h, rfl⟩
  · rw [List.concat_eq_append, ← List.cons_append, ← List.append_assoc] at h
    obtain ⟨rfl, h⟩ := List.append_inj' h rfl
    obtain rfl : x = z := by simpa using h
    exact .inr ⟨l, by simp, rfl⟩

theorem out_take {log : List (Move α)} {a b : α} :
    Out (log ++ [.take a]) b ↔ Out log b ∧ b ≠ a := by
  constructor
  · rintro ⟨l₁, l₂, h, ht⟩
    rcases snoc_eq_append_cons h with ⟨-, hx, -⟩ | ⟨l, rfl, rfl⟩
    · simp at hx
    · simp only [List.mem_append, List.mem_singleton, Move.take.injEq, not_or] at ht
      exact ⟨⟨l₁, l, rfl, ht.1⟩, ht.2⟩
  · rintro ⟨⟨l₁, l₂, rfl, ht⟩, hne⟩
    exact ⟨l₁, l₂ ++ [.take a], by simp, by simp [ht, hne]⟩

theorem out_give {log : List (Move α)} {a b : α} :
    Out (log ++ [.give a]) b ↔ b = a ∨ Out log b := by
  constructor
  · rintro ⟨l₁, l₂, h, ht⟩
    rcases snoc_eq_append_cons h with ⟨-, hx, -⟩ | ⟨l, rfl, rfl⟩
    · exact .inl (by simpa using hx.symm)
    · exact .inr ⟨l₁, l, rfl, fun hm => ht (List.mem_append_left _ hm)⟩
  · rintro (rfl | ⟨l₁, l₂, rfl, ht⟩)
    · exact ⟨log, [], rfl, by simp⟩
    · exact ⟨l₁, l₂ ++ [.give a], by simp, by simp [ht]⟩

theorem alternating_take {log : List (Move α)} {a : α} (h : Alternating log) :
    Alternating (log ++ [.take a]) := by
  intro b l₁ l₂ l₃ hl
  rw [← List.cons_append, ← List.append_assoc] at hl
  rcases snoc_eq_append_cons hl with ⟨-, hx, -⟩ | ⟨l, rfl, rfl⟩
  · simp at hx
  · exact h b l₁ l₂ l (by simp)

theorem alternating_give {log : List (Move α)} {a : α} (h : Alternating log) (ha : ¬ Out log a) :
    Alternating (log ++ [.give a]) := by
  intro b l₁ l₂ l₃ hl
  rw [← List.cons_append, ← List.append_assoc] at hl
  rcases snoc_eq_append_cons hl with ⟨-, hx, rfl⟩ | ⟨l, rfl, rfl⟩
  · obtain rfl : a = b := by simpa using hx
    by_contra ht
    exact ha ⟨l₁, l₂, rfl, ht⟩
  · exact h b l₁ l₂ l (by simp)

theorem out_gives {log : List (Move α)} {as : List α} {b : α} :
    Out (log ++ as.map .give) b ↔ b ∈ as ∨ Out log b := by
  induction as generalizing log with
  | nil => simp
  | cons a as ih =>
    rw [List.map_cons, List.append_cons, ih, out_give, List.mem_cons]
    constructor
    · rintro (h | h | h)
      · exact .inl (.inr h)
      · exact .inl (.inl h)
      · exact .inr h
    · rintro ((h | h) | h)
      · exact .inr (.inl h)
      · exact .inl h
      · exact .inr (.inr h)

theorem alternating_gives {log : List (Move α)} {as : List α} (h : Alternating log)
    (hn : as.Nodup) (ha : ∀ a ∈ as, ¬ Out log a) : Alternating (log ++ as.map .give) := by
  induction as generalizing log with
  | nil => simpa using h
  | cons a as ih =>
    obtain ⟨hna, hn⟩ := List.nodup_cons.mp hn
    rw [List.map_cons, List.append_cons]
    refine ih (alternating_give h (ha a (List.mem_cons_self ..))) hn fun b hb ho => ?_
    rcases out_give.mp ho with rfl | ho
    · exact hna hb
    · exact ha b (List.mem_cons_of_mem _ hb) ho

end HandoverLog
