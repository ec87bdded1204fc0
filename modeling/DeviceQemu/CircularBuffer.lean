import Mathlib.Data.List.Basic
import Mathlib.Logic.Function.Basic
import Mathlib.Tactic.SplitIfs

/-! Circular buffers with two positions.
A buffer of `b` cells holds the items from position `rp` up to, not including, `wp`. One cell
stays free, so that equal positions mean empty. -/
namespace CircularBuffer

variable {α : Type*} {b rp wp i j n : ℕ} {data : ℕ → α}

/-- The cell `i` places after position 0, for `i` below two laps. -/
def wrap (b i : ℕ) : ℕ := if i < b then i else i - b

def used (b rp wp : ℕ) : ℕ := if rp ≤ wp then wp - rp else b - rp + wp

def free (b rp wp : ℕ) : ℕ := b - 1 - used b rp wp

/-- The `n` cells from position `p`, in order. -/
def cells (b : ℕ) (data : ℕ → α) (p n : ℕ) : List α :=
  (List.range n).map fun i => data (wrap b (p + i))

def contents (b : ℕ) (data : ℕ → α) (rp wp : ℕ) : List α := cells b data rp (used b rp wp)

theorem wrap_lt (h : i < 2 * b) : wrap b i < b := by
  unfold wrap
  split_ifs <;> omega

theorem wrap_ne (hij : i < j) (hj : j < b) :
    wrap b (rp + i) ≠ wrap b (rp + j) := by
  unfold wrap
  split_ifs <;> omega

theorem used_lt (hr : rp < b) (hw : wp < b) : used b rp wp < b := by
  unfold used
  split_ifs <;> omega

theorem used_eq_zero (hr : rp < b) : used b rp wp = 0 ↔ rp = wp := by
  unfold used
  split_ifs <;> omega

theorem wrap_used (hr : rp < b) (hw : wp < b) : wrap b (rp + used b rp wp) = wp := by
  unfold wrap used
  split_ifs <;> omega

@[simp] theorem length_cells (b : ℕ) (data : ℕ → α) (p n : ℕ) :
    (cells b data p n).length = n := by simp [cells]

@[simp] theorem length_contents (b : ℕ) (data : ℕ → α) (rp wp : ℕ) :
    (contents b data rp wp).length = used b rp wp := by simp [contents]

theorem cells_succ (b : ℕ) (data : ℕ → α) (p n : ℕ) :
    cells b data p (n + 1) = cells b data p n ++ [data (wrap b (p + n))] := by
  simp [cells, List.range_succ]

theorem cells_take (b : ℕ) (data : ℕ → α) (p : ℕ) (h : i ≤ n) :
    (cells b data p n).take i = cells b data p i := by
  simp [cells, ← List.map_take, List.take_range, Nat.min_eq_left h]

theorem wrap_wrap (hp : rp < b) (hij : i + j < b) :
    wrap b (wrap b (rp + i) + j) = wrap b (rp + (i + j)) := by
  unfold wrap
  split_ifs <;> omega

theorem cells_add (hp : rp < b) (h : i + n ≤ b) :
    cells b data rp (i + n) = cells b data rp i ++ cells b data (wrap b (rp + i)) n := by
  simp only [cells, List.range_add, List.map_append, List.map_map]
  congr 1
  refine List.map_congr_left fun j hj => ?_
  have hj := List.mem_range.mp hj
  simp [wrap_wrap hp (by omega : i + j < b)]

theorem used_push (hr : rp < b) (hw : wp < b) (hn : n ≤ free b rp wp) :
    used b rp (wrap b (wp + n)) = used b rp wp + n := by
  unfold free at hn
  have hlt := used_lt hr hw
  unfold used wrap at *
  split_ifs at * <;> omega

theorem used_pop (hr : rp < b) (hw : wp < b) (hn : n ≤ used b rp wp) :
    used b (wrap b (rp + n)) wp = used b rp wp - n := by
  have hlt := used_lt hr hw
  unfold used wrap at *
  split_ifs at * <;> omega

theorem contents_push (hr : rp < b) (hw : wp < b) (hn : n ≤ free b rp wp) :
    contents b data rp (wrap b (wp + n)) = contents b data rp wp ++ cells b data wp n := by
  have hlt := used_lt hr hw
  rw [contents, used_push hr hw hn, cells_add hr (by unfold free at hn; omega),
    wrap_used hr hw, contents]

theorem contents_pop (hr : rp < b) (hw : wp < b) (hn : n ≤ used b rp wp) :
    contents b data (wrap b (rp + n)) wp = (contents b data rp wp).drop n := by
  have hlt := used_lt hr hw
  rw [contents, used_pop hr hw hn, contents]
  conv_rhs => rw [show used b rp wp = n + (used b rp wp - n) by omega]
  rw [cells_add hr (by omega), List.drop_left' (length_cells ..)]

theorem contents_update (hr : rp < b) (hw : wp < b) (hj : j < free b rp wp) (x : α) :
    contents b (Function.update data (wrap b (wp + j)) x) rp wp = contents b data rp wp := by
  have hlt := used_lt hr hw
  refine List.map_congr_left fun i hi => ?_
  have hi := List.mem_range.mp hi
  apply Function.update_of_ne
  unfold free at hj
  have hpos := wrap_wrap hr (by omega : used b rp wp + j < b)
  rw [wrap_used hr hw] at hpos
  rw [hpos]
  exact wrap_ne (by omega) (by omega)

theorem cells_update_succ (hj : j < b) (x : α) :
    cells b (Function.update data (wrap b (wp + j)) x) wp (j + 1) =
      cells b data wp j ++ [x] := by
  rw [cells_succ, Function.update_self]
  congr 1
  refine List.map_congr_left fun i hi => ?_
  have hi := List.mem_range.mp hi
  exact Function.update_of_ne (wrap_ne hi hj) _ _

/-- The items stored one after the other from the `k`-th cell behind `p` on. -/
def storeFrom (b p : ℕ) : ℕ → List α → (ℕ → α) → ℕ → α
  | _, [], data => data
  | k, x :: xs, data => storeFrom b p (k + 1) xs (Function.update data (wrap b (p + k)) x)

theorem storeFrom_append (p k : ℕ) (xs ys : List α) (data : ℕ → α) :
    storeFrom b p k (xs ++ ys) data
      = storeFrom b p (k + xs.length) ys (storeFrom b p k xs data) := by
  induction xs generalizing k data with
  | nil => rfl
  | cons x xs ih =>
    rw [List.length_cons, ← Nat.add_assoc, Nat.add_right_comm]
    exact ih (k + 1) _

/-- Stored in the free cells, the items are there, and the contents as they were. -/
theorem storeFrom_spec (hr : rp < b) (hw : wp < b) {k : ℕ} {xs : List α}
    (hk : k + xs.length ≤ free b rp wp) :
    contents b (storeFrom b wp k xs data) rp wp = contents b data rp wp ∧
      cells b (storeFrom b wp k xs data) wp (k + xs.length) = cells b data wp k ++ xs := by
  induction xs generalizing k data with
  | nil => exact ⟨rfl, (List.append_nil _).symm⟩
  | cons x xs ih =>
    rw [List.length_cons] at hk
    have hj : k < b := by
      unfold free at hk
      omega
    obtain ⟨hcontents, hcells⟩ := @ih (Function.update data (wrap b (wp + k)) x) (k + 1) (by omega)
    constructor
    · exact hcontents.trans (contents_update hr hw (by omega) x)
    · rw [List.length_cons, ← Nat.add_assoc, Nat.add_right_comm]
      refine hcells.trans ?_
      rw [cells_update_succ hj x, List.append_assoc]
      rfl

end CircularBuffer
