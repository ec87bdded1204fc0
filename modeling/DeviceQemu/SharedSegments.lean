import Mathlib.Algebra.Order.Ring.Int
import Mathlib.Data.List.Nodup

/-! Shared memory segments named by keys.
The table of System V segments: a key names at most one of them, an identifier too. A removed
segment frees both at once. `serial` tells segments apart that have had the same names. -/
namespace SharedSegments

variable {κ : Type*} [DecidableEq κ]

structure Segment (κ : Type*) where
  id : ℤ
  key : κ
  size : ℤ
  serial : ℕ
  deriving DecidableEq, Repr

def find (t : List (Segment κ)) (key : κ) : Option (Segment κ) := t.find? fun s => s.key = key

def get (t : List (Segment κ)) (key : κ) (size : ℤ) : Option (Segment κ) :=
  (find t key).filter fun s => size ≤ s.size

def Free (t : List (Segment κ)) (key : κ) : Prop := ∀ s ∈ t, s.key ≠ key

instance (t : List (Segment κ)) (key : κ) : Decidable (Free t key) := by
  unfold Free
  infer_instance

def remove (t : List (Segment κ)) (id : ℤ) : List (Segment κ) := t.filter fun s => s.id ≠ id

/-- `n` is above the serials. -/
structure Proper (t : List (Segment κ)) (n : ℕ) : Prop where
  keys : ∀ s ∈ t, ∀ u ∈ t, s.key = u.key → s = u
  serials : ∀ s ∈ t, ∀ u ∈ t, s.serial = u.serial → s = u
  below : ∀ s ∈ t, s.serial < n

omit [DecidableEq κ] in
theorem proper_nil : Proper ([] : List (Segment κ)) 0 := by
  constructor <;> simp

omit [DecidableEq κ] in
theorem Proper.mono {t : List (Segment κ)} {n m : ℕ} (h : Proper t n) (hle : n ≤ m) : Proper t m :=
  ⟨h.keys, h.serials, fun s hs => (h.below s hs).trans_le hle⟩

omit [DecidableEq κ] in
theorem Proper.create {t : List (Segment κ)} {n : ℕ} (h : Proper t n) {s : Segment κ}
    (hfree : Free t s.key) (hserial : s.serial = n) : Proper (s :: t) (n + 1) := by
  have hnew : ∀ u ∈ t, s.serial ≠ u.serial := fun u hu => by
    have hlt := h.below u hu
    omega
  refine ⟨?_, ?_, ?_⟩
  · intro u hu v hv heq
    rcases List.mem_cons.mp hu with rfl | hu' <;> rcases List.mem_cons.mp hv with rfl | hv'
    · rfl
    · exact absurd heq.symm (hfree v hv')
    · exact absurd heq (hfree u hu')
    · exact h.keys u hu' v hv' heq
  · intro u hu v hv heq
    rcases List.mem_cons.mp hu with rfl | hu' <;> rcases List.mem_cons.mp hv with rfl | hv'
    · rfl
    · exact absurd heq (hnew v hv')
    · exact absurd heq.symm (hnew u hu')
    · exact h.serials u hu' v hv' heq
  · intro u hu
    rcases List.mem_cons.mp hu with rfl | hu
    · omega
    · exact (h.below u hu).trans (Nat.lt_succ_self n)

omit [DecidableEq κ] in
theorem Proper.remove {t : List (Segment κ)} {n : ℕ} (h : Proper t n) (id : ℤ) :
    Proper (remove t id) n := by
  have hmem : ∀ s ∈ SharedSegments.remove t id, s ∈ t := fun s hs => (List.mem_filter.mp hs).1
  exact ⟨fun s hs u hu => h.keys s (hmem s hs) u (hmem u hu),
    fun s hs u hu => h.serials s (hmem s hs) u (hmem u hu), fun s hs => h.below s (hmem s hs)⟩

omit [DecidableEq κ] in
theorem mem_remove {t : List (Segment κ)} {id : ℤ} {s : Segment κ} :
    s ∈ remove t id ↔ s ∈ t ∧ s.id ≠ id := by
  simp [remove]

omit [DecidableEq κ] in
theorem remove_create {t : List (Segment κ)} {s : Segment κ} (h : s.id ∉ t.map Segment.id) :
    remove (s :: t) s.id = t := by
  rw [remove, List.filter_cons_of_neg (by simp), List.filter_eq_self]
  intro u hu
  simp only [ne_eq, decide_eq_true_eq]
  exact fun heq => h (List.mem_map.mpr ⟨u, hu, heq⟩)

theorem key_of_find {t : List (Segment κ)} {key : κ} {s : Segment κ} (h : find t key = some s) :
    s ∈ t ∧ s.key = key := by
  have hkey := List.find?_some h
  exact ⟨List.mem_of_find?_eq_some h, by simpa using hkey⟩

theorem find_eq_some {t : List (Segment κ)} {n : ℕ} (h : Proper t n) {key : κ} {s : Segment κ} :
    find t key = some s ↔ s ∈ t ∧ s.key = key := by
  refine ⟨key_of_find, ?_⟩
  rintro ⟨hs, rfl⟩
  cases hu : find t s.key with
  | none => exact absurd (List.find?_eq_none.mp hu s hs) (by simp)
  | some u =>
    obtain ⟨hmem, hkey⟩ := key_of_find hu
    rw [h.keys u hmem s hs hkey]

theorem get_eq_some {t : List (Segment κ)} {n : ℕ} (h : Proper t n) {key : κ} {size : ℤ}
    {s : Segment κ} : get t key size = some s ↔ s ∈ t ∧ s.key = key ∧ size ≤ s.size := by
  rw [get, Option.filter_eq_some_iff, find_eq_some h, decide_eq_true_eq, and_assoc]

end SharedSegments
