import Mathlib.Data.List.Iterate
import Mathlib.Data.List.Nodup
import Mathlib.Data.List.Range

/-! Counters that go round.
A counter runs from `lo` up to `hi` and starts again at `lo`. A round of as many visits as there are
positions, from wherever in the range, is a permutation of the range. -/
namespace CyclicSearch

variable {lo hi a : ℕ}

def InRange (lo hi k : ℕ) : Prop := lo ≤ k ∧ k < hi

instance (lo hi k : ℕ) : Decidable (InRange lo hi k) := inferInstanceAs (Decidable (_ ∧ _))

def succ (lo hi k : ℕ) : ℕ := if hi ≤ k + 1 then lo else k + 1

/-- The next `n` positions from `a` on. -/
def visits (lo hi a n : ℕ) : List ℕ := List.iterate (succ lo hi) a n

/-- From `a` every position is visited before one is visited again. -/
structure Sweeps (lo hi a : ℕ) : Prop where
  nodup : (visits lo hi a (hi - lo)).Nodup
  visited : ∀ k, InRange lo hi k → k ∈ visits lo hi a (hi - lo)

theorem InRange.succ (h : InRange lo hi a) : InRange lo hi (succ lo hi a) := by
  obtain ⟨hlo, hhi⟩ := h
  rw [InRange, CyclicSearch.succ]
  split_ifs <;> omega

theorem iterate_succ (h : InRange lo hi a) {i : ℕ} (hi' : i ≤ hi - lo) :
    (succ lo hi)^[i] a = if a + i < hi then a + i else lo + (a + i - hi) := by
  obtain ⟨hlo, hhi⟩ := h
  induction i with
  | zero => rw [Function.iterate_zero_apply, Nat.add_zero, if_pos hhi]
  | succ i ih =>
    rw [Function.iterate_succ_apply', ih (by omega), CyclicSearch.succ]
    split_ifs <;> omega

theorem visits_round (h : InRange lo hi a) :
    visits lo hi a (hi - lo) = List.range' a (hi - a) ++ List.range' lo (a - lo) := by
  obtain ⟨hlo, hhi⟩ := h
  have hlength : (visits lo hi a (hi - lo)).length =
      (List.range' a (hi - a) ++ List.range' lo (a - lo)).length := by
    rw [visits, List.length_iterate, List.length_append, List.length_range', List.length_range']
    omega
  apply List.ext_getElem hlength
  intro i hleft hright
  have hround : i ≤ hi - lo := by
    rw [visits, List.length_iterate] at hleft
    omega
  simp only [visits, List.getElem_iterate, iterate_succ ⟨hlo, hhi⟩ hround, List.getElem_append,
    List.length_range', List.getElem_range']
  split_ifs <;> omega

theorem InRange.sweeps (h : InRange lo hi a) : Sweeps lo hi a := by
  obtain ⟨hlo, hhi⟩ := h
  constructor
  · rw [visits_round ⟨hlo, hhi⟩, List.nodup_append]
    refine ⟨List.nodup_range', List.nodup_range', ?_⟩
    intro k hk k' hk'
    rw [List.mem_range'_1] at hk hk'
    omega
  · intro k hk
    obtain ⟨hklo, hkhi⟩ := hk
    rw [visits_round ⟨hlo, hhi⟩, List.mem_append, List.mem_range'_1, List.mem_range'_1]
    omega

theorem visits_inRange (h : InRange lo hi a) (n : ℕ) : ∀ k ∈ visits lo hi a n, InRange lo hi k := by
  induction n generalizing a with
  | zero => exact fun k hk => absurd hk List.not_mem_nil
  | succ n ih =>
    intro k hk
    rcases List.mem_cons.mp hk with rfl | hk
    · exact h
    · exact ih h.succ k hk

/-- Where something in range passes the test, every search that may go round once finds the same. -/
theorem find?_visits (h : InRange lo hi a) {p : ℕ → Bool} {k : ℕ} (hk : InRange lo hi k)
    (hp : p k = true) :
    ∃ found, InRange lo hi found ∧ p found = true ∧
      ∀ n, hi - lo ≤ n → (visits lo hi a n).find? p = some found := by
  have hsome : ((visits lo hi a (hi - lo)).find? p).isSome :=
    List.find?_isSome.mpr ⟨k, h.sweeps.visited k hk, hp⟩
  obtain ⟨found, hfound⟩ := Option.isSome_iff_exists.mp hsome
  refine ⟨found, visits_inRange h _ found (List.mem_of_find?_eq_some hfound),
    List.find?_some hfound, fun n hn => ?_⟩
  obtain ⟨m, rfl⟩ := Nat.exists_eq_add_of_le hn
  rw [visits] at hfound
  rw [visits, List.iterate_add, List.find?_append, hfound, Option.some_or]

end CyclicSearch
