import Mathlib.Data.Nat.Notation

/-! Retry loops.
A loop makes an attempt, and another one while its budget lasts and the result asks for it. Attempts
are numbered from 0, and the results of all of them, also of those that are not made, are given. -/
namespace RetryLoop

variable {α : Type*} {again : α → Bool} {results : ℕ → α} {budget k : ℕ}

/-- The last attempt of `do … while (budget-- && again)` that begins with attempt `i`. -/
def lastFrom (again : α → Bool) (results : ℕ → α) : ℕ → ℕ → ℕ
  | 0, i => i
  | budget + 1, i =>
    if again (results i) then lastFrom again results budget (i + 1) else i

def last (again : α → Bool) (results : ℕ → α) (budget : ℕ) : ℕ := lastFrom again results budget 0

/-- Attempt `k` is where a loop that retries as `again` says has to stop. -/
structure StopsAt (again : α → Bool) (results : ℕ → α) (budget k : ℕ) : Prop where
  within : k ≤ budget
  retries : ∀ i < k, again (results i) = true
  stops : again (results k) = true → k = budget

theorem StopsAt.unique {l : ℕ} (hk : StopsAt again results budget k)
    (hl : StopsAt again results budget l) : k = l := by
  rcases Nat.lt_trichotomy k l with hlt | heq | hlt
  · have hlast := hk.stops (hl.retries k hlt)
    exact absurd (hlast ▸ hlt) (Nat.not_lt_of_le hl.within)
  · exact heq
  · have hlast := hl.stops (hk.retries l hlt)
    exact absurd (hlast ▸ hlt) (Nat.not_lt_of_le hk.within)

theorem lastFrom_stops {i : ℕ} (h : ∀ j < i, again (results j) = true) :
    StopsAt again results (i + budget) (lastFrom again results budget i) := by
  induction budget generalizing i with
  | zero => exact ⟨Nat.le_refl _, h, fun _ => rfl⟩
  | succ budget ih =>
    rw [lastFrom]
    by_cases hagain : again (results i) = true
    · rw [if_pos hagain, Nat.add_comm budget 1, ← Nat.add_assoc]
      apply ih
      intro j hj
      rcases Nat.lt_succ_iff_lt_or_eq.mp hj with hlt | rfl
      · exact h j hlt
      · exact hagain
    · rw [if_neg hagain]
      exact ⟨Nat.le_add_right i _, h, fun hstop => absurd hstop hagain⟩

theorem last_stops (again : α → Bool) (results : ℕ → α) (budget : ℕ) :
    StopsAt again results budget (last again results budget) := by
  have hstops := @lastFrom_stops α again results budget 0 fun j hj => absurd hj (Nat.not_lt_zero j)
  rwa [Nat.zero_add] at hstops

theorem stopsAt_budget_iff :
    StopsAt again results budget budget ↔ ∀ i < budget, again (results i) = true :=
  ⟨StopsAt.retries, fun h => ⟨Nat.le_refl _, h, fun _ => rfl⟩⟩

end RetryLoop
