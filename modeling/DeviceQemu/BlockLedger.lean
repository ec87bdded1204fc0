import DeviceQemu.RegionLayout
import DeviceQemu.ResourceLedger
import Mathlib.Data.Finset.Empty

/-! Ledgers of allocated blocks.
An allocator hands out blocks of addresses, the program reads and writes ranges of addresses, and
gives a block back by its first address. -/
namespace BlockLedger

open RegionLayout ResourceLedger

inductive Op where
  | alloc (b : Region)
  | access (r : Region)
  | free (a : ℕ)
  deriving DecidableEq, Repr

def Op.after (live : List Region) : Op → List Region
  | .alloc b => b :: live
  | .access _ => live
  | .free a => live.eraseP fun b => b.start == a

/-- An access stays within one live block, and only the address that was handed out frees it. -/
def Op.Sound (live : List Region) : Op → Prop
  | .alloc _ => True
  | .access r => ∃ b ∈ live, b.start ≤ r.start ∧ r.stop ≤ b.stop
  | .free a => ∃ b ∈ live, b.start = a

/-- The operations are sound one after the other and leave the blocks `live'` live. -/
inductive Runs : List Region → List Op → List Region → Prop where
  | nil (live) : Runs live [] live
  | cons {live op ops live'} : op.Sound live → Runs (op.after live) ops live' →
      Runs live (op :: ops) live'

theorem Runs.append {live live' live'' : List Region} {ops ops' : List Op}
    (h : Runs live ops live') (h' : Runs live' ops' live'') : Runs live (ops ++ ops') live'' := by
  induction h with
  | nil => exact h'
  | cons hop _ ih => exact Runs.cons hop (ih h')

theorem runs_append_iff {live live'' : List Region} {ops ops' : List Op} :
    Runs live (ops ++ ops') live'' ↔ ∃ live', Runs live ops live' ∧ Runs live' ops' live'' := by
  constructor
  · intro h
    induction ops generalizing live with
    | nil => exact ⟨live, Runs.nil live, h⟩
    | cons op ops ih =>
      cases h with
      | cons hop hrest =>
        obtain ⟨live', hleft, hright⟩ := ih hrest
        exact ⟨live', Runs.cons hop hleft, hright⟩
  · rintro ⟨live', hleft, hright⟩
    exact hleft.append hright

theorem Runs.unique {live s t : List Region} {ops : List Op} (hs : Runs live ops s)
    (ht : Runs live ops t) : s = t := by
  induction hs with
  | nil =>
    cases ht
    rfl
  | cons _ _ ih =>
    cases ht with
    | cons _ hrest => exact ih hrest

theorem Runs.accesses {live : List Region} {rs : List Region}
    (h : ∀ r ∈ rs, (Op.access r).Sound live) : Runs live (rs.map .access) live := by
  induction rs with
  | nil => exact Runs.nil live
  | cons r rs ih =>
    apply Runs.cons (h r List.mem_cons_self)
    exact ih fun r' hr' => h r' (List.mem_cons_of_mem _ hr')

theorem sound_access {live : List Region} {b r : Region} (hb : b ∈ live) (hlo : b.start ≤ r.start)
    (hhi : r.stop ≤ b.stop) : (Op.access r).Sound live := ⟨b, hb, hlo, hhi⟩

theorem Runs.alloc {live live' : List Region} {ops : List Op} {b : Region}
    (h : Runs (b :: live) ops live') : Runs live (.alloc b :: ops) live' := Runs.cons trivial h

theorem Runs.access {live live' : List Region} {ops : List Op} {b : Region} (hb : b ∈ live)
    (h : Runs live ops live') : Runs live (.access b :: ops) live' :=
  Runs.cons (sound_access hb le_rfl le_rfl) h

theorem Runs.free {live live' : List Region} {ops : List Op} {b : Region} (hb : b ∈ live)
    (h : Runs (live.eraseP fun b' => b'.start == b.start) ops live') :
    Runs live (.free b.start :: ops) live' := Runs.cons ⟨b, hb, rfl⟩ h

def Op.address : Op → Option (ResourceLedger.Op ℕ)
  | .alloc b => some (.acquire b.start)
  | .access _ => none
  | .free a => some (.release a)

def addresses (live : List Region) : Multiset ℕ := live.map Region.start

theorem addresses_eraseP (live : List Region) (a : ℕ) :
    addresses (live.eraseP fun b => b.start == a) = (addresses live).erase a := by
  rw [addresses, addresses, Multiset.coe_erase, List.erase_eq_eraseP', List.eraseP_map]
  rfl

theorem mem_addresses {live : List Region} {a : ℕ} :
    a ∈ addresses live ↔ ∃ b ∈ live, b.start = a := by
  simp [addresses]

theorem Runs.ledger {live live' : List Region} {ops : List Op} (h : Runs live ops live') :
    ResourceLedger.Sound ∅ (addresses live) (ops.filterMap Op.address) ∧
      after (addresses live) (ops.filterMap Op.address) = addresses live' := by
  induction h with
  | nil => exact ⟨trivial, rfl⟩
  | @cons live op ops live' hop _ ih =>
    cases op with
    | alloc b => exact ⟨⟨trivial, ih.1⟩, ih.2⟩
    | access r => exact ih
    | free a =>
      simp only [Op.after, addresses_eraseP] at ih
      exact ⟨⟨mem_addresses.mpr hop, ih.1⟩, ih.2⟩

/-- How often a block was handed out at `a`. -/
def allocs (ops : List Op) (a : ℕ) : ℕ := ops.countP fun op => op.address == some (.acquire a)

theorem count_acquire (ops : List Op) (a : ℕ) :
    (ops.filterMap Op.address).count (.acquire a) = allocs ops a := by
  rw [List.count, List.countP_filterMap, allocs]
  apply List.countP_congr
  intro op _
  cases op <;> simp [Op.address]

theorem count_release (ops : List Op) (a : ℕ) :
    (ops.filterMap Op.address).count (.release a) = ops.count (.free a) := by
  rw [List.count, List.countP_filterMap, List.count]
  apply List.countP_congr
  intro op _
  cases op <;> simp [Op.address]

/-- When nothing is left live, every address was freed as often as it was handed out. -/
theorem Runs.freed {ops : List Op} (h : Runs [] ops []) (a : ℕ) :
    ops.count (.free a) = allocs ops a := by
  obtain ⟨hsound, hafter⟩ := h.ledger
  have hcount := count_after hsound a
  rw [hafter, count_acquire, count_release] at hcount
  simpa [addresses] using hcount

/-- The block at `a`, or none when `a` is null. -/
def block (a size : ℕ) : List Region := if a = 0 then [] else [⟨a, size⟩]

theorem block_of_ne {a : ℕ} (h : a ≠ 0) (size : ℕ) : block a size = [⟨a, size⟩] := if_neg h

@[simp] theorem block_zero (size : ℕ) : block 0 size = [] := rfl

theorem runs_alloc (live : List Region) (a size : ℕ) :
    Runs live ((block a size).map .alloc) (block a size ++ live) := by
  by_cases h : a = 0
  · rw [h, block_zero]
    exact Runs.nil live
  · rw [block_of_ne h]
    exact Runs.cons trivial (Runs.nil _)

def release (a : ℕ) : List Op := if a = 0 then [] else [.free a]

@[simp] theorem release_zero : release 0 = [] := rfl

theorem release_of_ne {a : ℕ} (h : a ≠ 0) : release a = [.free a] := if_neg h

theorem runs_release (a size : ℕ) (rest : List Region) :
    Runs (block a size ++ rest) (release a) rest := by
  by_cases h : a = 0
  · rw [h]
    exact Runs.nil rest
  · rw [block_of_ne h, release_of_ne h]
    apply Runs.free (b := ⟨a, size⟩) List.mem_cons_self
    simpa using Runs.nil rest

theorem runs_release_pair (a b m n : ℕ) (rest : List Region) :
    Runs (block b n ++ block a m ++ rest) (release a ++ release b) rest := by
  by_cases ha : a = 0
  · rw [ha]
    simpa using runs_release b n rest
  · by_cases hb : b = 0
    · rw [hb]
      simpa using runs_release a m rest
    · rw [block_of_ne ha, block_of_ne hb, release_of_ne ha, release_of_ne hb]
      apply Runs.free (b := ⟨a, m⟩) (List.mem_cons_of_mem _ List.mem_cons_self)
      by_cases hab : b = a
      · apply Runs.free (b := ⟨b, m⟩) (by simp [hab])
        simpa [hab] using Runs.nil rest
      · apply Runs.free (b := ⟨b, n⟩) (by simp [hab])
        simpa [hab] using Runs.nil rest

end BlockLedger
