import Mathlib.Data.List.Basic
import Mathlib.Data.List.Infix

/-! Scanning for a pattern.
A pattern no proper suffix of which is a prefix of it does not overlap itself. A scan that has found
it may go on behind it: nothing starts in between. -/
namespace PatternScan

variable {α : Type*}

/-- `pattern` stands in `text` from `i` on. -/
def MatchesAt (text : List α) (i : ℕ) (pattern : List α) : Prop := pattern <+: text.drop i

instance [DecidableEq α] (text : List α) (i : ℕ) (pattern : List α) :
    Decidable (MatchesAt text i pattern) :=
  inferInstanceAs (Decidable (pattern <+: text.drop i))

theorem matchesAt_nil (text : List α) (i : ℕ) : MatchesAt text i [] := List.nil_prefix

theorem matchesAt_cons {text : List α} {i : ℕ} {a : α} {pattern : List α} :
    MatchesAt text i (a :: pattern) ↔ text[i]? = some a ∧ MatchesAt text (i + 1) pattern := by
  rw [MatchesAt, MatchesAt]
  by_cases hi : i < text.length
  · rw [List.drop_eq_getElem_cons hi, List.cons_prefix_cons, List.getElem?_eq_getElem hi,
      Option.some.injEq, eq_comm]
  · have hnil : text.drop i = [] := List.drop_eq_nil_of_le (Nat.le_of_not_lt hi)
    rw [hnil, List.getElem?_eq_none (Nat.le_of_not_lt hi)]
    simp

theorem MatchesAt.drop {text : List α} {i : ℕ} {pattern : List α} (h : MatchesAt text i pattern)
    (d : ℕ) : MatchesAt text (i + d) (pattern.drop d) := by
  rw [MatchesAt, ← List.drop_drop]
  exact List.IsPrefix.drop h d

def Borderless (pattern : List α) : Prop :=
  ∀ d < pattern.length, 0 < d → ¬ pattern.drop d <+: pattern

instance [DecidableEq α] (pattern : List α) : Decidable (Borderless pattern) :=
  inferInstanceAs (Decidable (∀ d < pattern.length, 0 < d → ¬ pattern.drop d <+: pattern))

theorem Borderless.apart {pattern : List α} (hb : Borderless pattern) {text : List α} {i j : ℕ}
    (hi : MatchesAt text i pattern) (hj : MatchesAt text j pattern) (hlt : i < j) :
    i + pattern.length ≤ j := by
  by_contra hover
  obtain ⟨d, rfl⟩ := Nat.exists_eq_add_of_lt hlt
  have hd : d + 1 < pattern.length := by omega
  apply hb (d + 1) hd (Nat.succ_pos d)
  -- both stand in the text from `j` on, and the suffix is the shorter one
  have hsuffix : MatchesAt text (i + d + 1) (pattern.drop (d + 1)) := hi.drop (d + 1)
  apply List.prefix_of_prefix_length_le hsuffix hj
  rw [List.length_drop]
  omega

/-- Compares up to the first difference; a read behind the end of the text has no value. -/
def compareAt [DecidableEq α] (text : List α) : ℕ → List α → Option Bool
  | _, [] => some true
  | i, a :: pattern =>
    text[i]?.bind fun b => if b = a then compareAt text (i + 1) pattern else some false

theorem compareAt_eq [DecidableEq α] {text : List α} {i : ℕ} {pattern : List α}
    (h : i + pattern.length ≤ text.length) :
    compareAt text i pattern = some (decide (MatchesAt text i pattern)) := by
  induction pattern generalizing i with
  | nil => simp [compareAt, matchesAt_nil]
  | cons a pattern ih =>
    rw [List.length_cons] at h
    have hi : i < text.length := by omega
    rw [compareAt, List.getElem?_eq_getElem hi, Option.bind_some]
    split_ifs with heq
    · rw [ih (by omega)]
      simp [matchesAt_cons, hi, heq]
    · simp [matchesAt_cons, hi, heq]

end PatternScan
