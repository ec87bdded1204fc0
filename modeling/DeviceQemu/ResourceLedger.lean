import Mathlib.Algebra.Order.Group.Multiset
import Mathlib.Data.Finset.Defs

/-! Ledgers of acquired resources.
A program acquires, uses and releases resources. Those acquired and not released are live; others
may be lent to the program for use. A resource may be live more than once, when each acquisition
needs a release of its own. -/
namespace ResourceLedger

inductive Op (ρ : Type*) where
  | acquire (r : ρ)
  | use (r : ρ)
  | release (r : ρ)
  deriving DecidableEq, Repr

variable {ρ : Type*} [DecidableEq ρ]

def Op.after (live : Multiset ρ) : Op ρ → Multiset ρ
  | .acquire r => r ::ₘ live
  | .use _ => live
  | .release r => live.erase r

def Op.Sound (lent : Finset ρ) (live : Multiset ρ) : Op ρ → Prop
  | .acquire _ => True
  | .use r => r ∈ live ∨ r ∈ lent
  | .release r => r ∈ live

def after (live : Multiset ρ) : List (Op ρ) → Multiset ρ
  | [] => live
  | op :: ops => after (op.after live) ops

/-- Nothing is used that is not live or lent, and nothing released that is not live. -/
def Sound (lent : Finset ρ) (live : Multiset ρ) : List (Op ρ) → Prop
  | [] => True
  | op :: ops => op.Sound lent live ∧ Sound lent (op.after live) ops

theorem after_append (live : Multiset ρ) (ops ops' : List (Op ρ)) :
    after live (ops ++ ops') = after (after live ops) ops' := by
  induction ops generalizing live with
  | nil => rfl
  | cons op ops ih => exact ih (op.after live)

theorem after_cons {r : ρ} {ops : List (Op ρ)} (h : .release r ∉ ops) (live : Multiset ρ) :
    after (r ::ₘ live) ops = r ::ₘ after live ops := by
  induction ops generalizing live with
  | nil => rfl
  | cons op ops ih =>
    obtain ⟨hop, hrest⟩ := not_or.mp (mt List.mem_cons.mpr h)
    rw [after, after, ← ih hrest]
    cases op with
    | acquire q => rw [Op.after, Op.after, Multiset.cons_swap]
    | use q => rfl
    | release q =>
      have hne : r ≠ q := fun hq => hop (by rw [hq])
      rw [Op.after, Op.after, Multiset.erase_cons_tail live hne]

theorem sound_append {lent : Finset ρ} {live : Multiset ρ} {ops ops' : List (Op ρ)} :
    Sound lent live (ops ++ ops') ↔ Sound lent live ops ∧ Sound lent (after live ops) ops' := by
  induction ops generalizing live with
  | nil => exact (iff_of_eq (true_and _)).symm
  | cons op ops ih =>
    rw [List.cons_append, Sound, Sound, ih, after, and_assoc]

theorem Op.count_after {lent : Finset ρ} {live : Multiset ρ} (op : Op ρ) (h : op.Sound lent live)
    (r : ρ) : (op.after live).count r + [op].count (.release r)
      = live.count r + [op].count (.acquire r) := by
  cases op with
  | acquire q => by_cases hq : r = q <;> simp [Op.after, hq, eq_comm]
  | use q => simp [Op.after]
  | release q =>
    by_cases hq : r = q
    · subst hq
      have hpos := Multiset.count_pos.mpr h
      simp [Op.after]
      omega
    · simp [Op.after, Multiset.count_erase_of_ne hq, eq_comm, hq]

/-- Every acquisition of `r` is balanced by one release or leaves `r` live once more. -/
theorem count_after {lent : Finset ρ} {live : Multiset ρ} {ops : List (Op ρ)}
    (h : Sound lent live ops) (r : ρ) :
    (after live ops).count r + ops.count (.release r) = live.count r + ops.count (.acquire r) := by
  induction ops generalizing live with
  | nil => rfl
  | cons op ops ih =>
    have hop := op.count_after h.1 r
    have hops := ih h.2
    simp only [List.count_cons, List.count_nil] at hop ⊢
    rw [after]
    omega

theorem mem_after {lent : Finset ρ} {live : Multiset ρ} {ops : List (Op ρ)}
    (h : Sound lent live ops) {r : ρ} (ha : .acquire r ∈ ops) (hr : .release r ∉ ops) :
    r ∈ after live ops := by
  have hcount := count_after h r
  have hpos := List.count_pos_iff.mpr ha
  rw [List.count_eq_zero.mpr hr] at hcount
  apply Multiset.count_pos.mp
  omega

def AcquiresFresh (live : Multiset ρ) : List (Op ρ) → Prop
  | [] => True
  | .acquire r :: ops => r ∉ live ∧ AcquiresFresh (r ::ₘ live) ops
  | op :: ops => AcquiresFresh (op.after live) ops

instance AcquiresFresh.decidable : ∀ (live : Multiset ρ) (ops : List (Op ρ)), Decidable (AcquiresFresh live ops)
  | _, [] => isTrue trivial
  | live, .acquire r :: ops =>
    have := AcquiresFresh.decidable (r ::ₘ live) ops
    inferInstanceAs (Decidable (r ∉ live ∧ AcquiresFresh (r ::ₘ live) ops))
  | live, .use _ :: ops => AcquiresFresh.decidable live ops
  | live, .release r :: ops => AcquiresFresh.decidable (live.erase r) ops

theorem nodup_after {live : Multiset ρ} {ops : List (Op ρ)} (h : AcquiresFresh live ops) (hl : live.Nodup) :
    (after live ops).Nodup := by
  induction ops generalizing live with
  | nil => exact hl
  | cons op ops ih =>
    cases op with
    | acquire r => exact ih h.2 (Multiset.nodup_cons.mpr ⟨h.1, hl⟩)
    | use r => exact ih h hl
    | release r => exact ih h (hl.erase r)

/-- The operations are sound from `live` on, and `left` is live after them. -/
def Leaves (lent : Finset ρ) (live : Multiset ρ) (ops : List (Op ρ)) (left : Multiset ρ) : Prop :=
  Sound lent live ops ∧ after live ops = left

section Leaves

variable {lent : Finset ρ} {live mid left : Multiset ρ} {ops ops' : List (Op ρ)} {r : ρ}

theorem Leaves.nil (lent : Finset ρ) (live : Multiset ρ) : Leaves lent live [] live := ⟨trivial, rfl⟩

theorem Leaves.acquire (h : Leaves lent (r ::ₘ live) ops left) :
    Leaves lent live (.acquire r :: ops) left := ⟨⟨trivial, h.1⟩, h.2⟩

theorem Leaves.release (h : Leaves lent live ops left) :
    Leaves lent (r ::ₘ live) (.release r :: ops) left := by
  have herase : (Op.release r).after (r ::ₘ live) = live := Multiset.erase_cons_head r live
  refine ⟨⟨Multiset.mem_cons_self r live, ?_⟩, ?_⟩
  · rw [herase]
    exact h.1
  · rw [after, herase]
    exact h.2

theorem Leaves.of_uses (h : ∀ op ∈ ops, ∃ r ∈ live, op = .use r) : Leaves lent live ops live := by
  induction ops with
  | nil => exact Leaves.nil lent live
  | cons op ops ih =>
    obtain ⟨⟨r, hr, rfl⟩, hops⟩ := List.forall_mem_cons.mp h
    obtain ⟨hsound, hafter⟩ := ih hops
    exact ⟨⟨Or.inl hr, hsound⟩, hafter⟩

theorem Leaves.append (h : Leaves lent live ops mid) (h' : Leaves lent mid ops' left) :
    Leaves lent live (ops ++ ops') left := by
  obtain ⟨hsound, rfl⟩ := h
  exact ⟨sound_append.mpr ⟨hsound, h'.1⟩, (after_append live ops ops').trans h'.2⟩

theorem Leaves.frame (h : Leaves lent live ops left) (rest : Multiset ρ) :
    Leaves lent (live + rest) ops (left + rest) := by
  induction ops generalizing live with
  | nil =>
    obtain ⟨-, rfl⟩ := h
    exact Leaves.nil lent _
  | cons op ops ih =>
    obtain ⟨⟨hop, hsound⟩, hafter⟩ := h
    obtain ⟨hsound', hafter'⟩ := ih ⟨hsound, hafter⟩
    have hlive : op.after (live + rest) = op.after live + rest := by
      cases op with
      | acquire q => exact (Multiset.cons_add q live rest).symm
      | use q => rfl
      | release q => exact Multiset.erase_add_left_pos rest hop
    have hmem : op.Sound lent (live + rest) := by
      cases op with
      | acquire q => trivial
      | use q => exact hop.imp_left fun hq => Multiset.mem_add.mpr (Or.inl hq)
      | release q => exact Multiset.mem_add.mpr (Or.inl hop)
    refine ⟨⟨hmem, ?_⟩, ?_⟩
    · rw [hlive]
      exact hsound'
    · rw [after, hlive]
      exact hafter'

theorem Leaves.bracket (h : Leaves lent live ops left) (r : ρ) :
    Leaves lent live (.acquire r :: (ops ++ [.release r])) left := by
  have hframe := h.frame {r}
  rw [Multiset.add_comm, Multiset.singleton_add, Multiset.add_comm, Multiset.singleton_add] at hframe
  exact (hframe.append (Leaves.nil lent left).release).acquire

end Leaves

end ResourceLedger
