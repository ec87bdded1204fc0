import Mathlib.Data.List.Basic
import Mathlib.Order.Lattice

/-! Regions laid out one after the other.
A packed list of regions starts at `lo`, ends by `hi`, and has each region behind the one before
it, with room for padding between them. -/
namespace RegionLayout

structure Region where
  start : ℕ
  len : ℕ
  deriving DecidableEq, Repr

def Region.stop (r : Region) : ℕ := r.start + r.len

def Region.Contains (r : Region) (a : ℕ) : Prop := r.start ≤ a ∧ a < r.stop

def Packed (lo hi : ℕ) : List Region → Prop
  | [] => lo ≤ hi
  | r :: rs => lo ≤ r.start ∧ Packed r.stop hi rs

theorem Packed.le {lo hi : ℕ} {rs : List Region} (h : Packed lo hi rs) : lo ≤ hi := by
  induction rs generalizing lo with
  | nil => exact h
  | cons r rs ih => exact h.1.trans ((Nat.le_add_right _ _).trans (ih h.2))

theorem Packed.mono {lo lo' hi hi' : ℕ} {rs : List Region} (h : Packed lo hi rs)
    (hlo : lo' ≤ lo) (hhi : hi ≤ hi') : Packed lo' hi' rs := by
  induction rs generalizing lo lo' with
  | nil => exact hlo.trans (h.trans hhi)
  | cons r rs ih => exact ⟨hlo.trans h.1, ih h.2 (Nat.le_refl _)⟩

theorem Packed.append {lo mid hi : ℕ} {rs rs' : List Region} (h : Packed lo mid rs)
    (h' : Packed mid hi rs') : Packed lo hi (rs ++ rs') := by
  induction rs generalizing lo with
  | nil => exact h'.mono h (Nat.le_refl _)
  | cons r rs ih => exact ⟨h.1, ih h.2⟩

theorem Packed.within {lo hi : ℕ} {rs : List Region} (h : Packed lo hi rs) {r : Region}
    (hr : r ∈ rs) : lo ≤ r.start ∧ r.stop ≤ hi := by
  induction rs generalizing lo with
  | nil => simp at hr
  | cons r' rs ih =>
    rcases List.mem_cons.mp hr with rfl | hr
    · exact ⟨h.1, h.2.le⟩
    · obtain ⟨hlo, hhi⟩ := ih h.2 hr
      exact ⟨h.1.trans ((Nat.le_add_right _ _).trans hlo), hhi⟩

def Disjoint (rs : List Region) : Prop :=
  rs.Pairwise fun r r' => ∀ a, ¬ (r.Contains a ∧ r'.Contains a)

theorem Packed.disjoint {lo hi : ℕ} {rs : List Region} (h : Packed lo hi rs) : Disjoint rs := by
  induction rs generalizing lo with
  | nil => exact List.Pairwise.nil
  | cons r rs ih =>
    refine List.pairwise_cons.mpr ⟨?_, ih h.2⟩
    rintro r' hr' a ⟨ha, ha'⟩
    have hle := (h.2.within hr').1
    exact absurd (ha.2.trans_le hle) (Nat.not_lt.mpr ha'.1)

def slots (start stride len n : ℕ) : List Region :=
  (List.range n).map fun i => ⟨start + stride * i, len⟩

theorem packed_slots {start stride len : ℕ} (h : len ≤ stride) (n : ℕ) :
    Packed start (start + stride * n) (slots start stride len n) := by
  induction n with
  | zero => simp [slots, Packed]
  | succ n ih =>
    have hlast : Packed (start + stride * n) (start + stride * (n + 1))
        [⟨start + stride * n, len⟩] := by
      refine ⟨Nat.le_refl _, ?_⟩
      simp only [Packed, Region.stop, Nat.mul_succ]
      omega
    simpa [slots, List.range_succ] using ih.append hlast

end RegionLayout
