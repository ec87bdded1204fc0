import Mathlib.Data.Finset.Insert
import Mathlib.Data.Finset.Erase
import Mathlib.Data.List.Perm.Basic

/-! Ids issued to holders.
A set records the ids in use. It is worth something as long as it lists exactly the ids that
somebody holds, and nobody gives back an id that is another's. -/
namespace IdLedger

variable {α : Type*}

structure Balanced (used : Finset α) (held : List α) : Prop where
  nodup : held.Nodup
  mem : ∀ i, i ∈ used ↔ i ∈ held

theorem balanced_empty : Balanced (∅ : Finset α) [] := ⟨List.nodup_nil, by simp⟩

theorem Balanced.perm {used : Finset α} {held held' : List α} (h : Balanced used held)
    (hp : held.Perm held') : Balanced used held' := by
  constructor
  · exact hp.nodup_iff.mp h.nodup
  · intro i
    rw [h.mem, hp.mem_iff]

variable [DecidableEq α]

theorem Balanced.issue {used : Finset α} {held : List α} {i : α} (h : Balanced used held)
    (hi : i ∉ used) : Balanced (insert i used) (i :: held) := by
  constructor
  · exact List.nodup_cons.mpr ⟨fun hmem => hi ((h.mem i).mpr hmem), h.nodup⟩
  · intro j
    rw [Finset.mem_insert, List.mem_cons, h.mem]

theorem Balanced.giveBack {used : Finset α} {held : List α} {i : α}
    (h : Balanced used (i :: held)) : Balanced (used.erase i) held := by
  obtain ⟨hi, hnodup⟩ := List.nodup_cons.mp h.nodup
  refine ⟨hnodup, fun j => ?_⟩
  rw [Finset.mem_erase, h.mem, List.mem_cons]
  constructor
  · rintro ⟨hne, rfl | hj⟩
    · exact absurd rfl hne
    · exact hj
  · rintro hj
    exact ⟨fun heq => hi (heq ▸ hj), Or.inr hj⟩

/-- An id that leaves the set while it is held leaves its holder unrecorded. -/
theorem Balanced.stray {used : Finset α} {held : List α} {i : α} (h : Balanced used held)
    (hi : i ∈ used) : ¬ ∀ j ∈ held, j ∈ used.erase i := by
  intro hall
  have hmem := hall i ((h.mem i).mp hi)
  simp at hmem

end IdLedger
