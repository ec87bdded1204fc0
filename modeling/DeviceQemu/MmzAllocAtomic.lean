import DeviceQemu.MmzOwnership
import Mathlib.Data.Int.Notation

/-! MmzAlloc, all or nothing.
The pages come as one block and are then looked up, counted and mapped one at a time. Freeing the
region gives back what is mapped in it; the pages of the block that are not mapped stay taken. -/
namespace MmzAllocAtomic

open PageFrames
open Mmz (MmzMemory Region State Cmd Status frameOf mapLoop pageSize)
open MmzOwnership (frameAt frameAt_ofNat)

def losOk : ℤ := 0
def einval : ℤ := 22
def enomem : ℤ := 12

/-- LOS_RegionAlloc gives the page `region`, LOS_PhysPagesAllocContiguous the frame `frame`, and
LOS_ArchMmuMap returns `archMmuMap k` for the k-th page. -/
structure Kernel where
  region : Option ℕ
  frame : Option ℕ
  archMmuMap : ℕ → ℤ

structure Result where
  ret : ℤ
  state : State
  mmzm : MmzMemory

def regionAlloc (s : State) (r : Region) : State := { s with regions := r :: s.regions }

/-- LOS_RegionFree unmaps what is mapped in the region. -/
def regionFree (s : State) (r : Region) : State :=
  ⟨s.memory.unmapPages r.space r.base r.pages, s.regions.erase r⟩

/-- The while loop, with `n` pages to go from the `k`-th, and what it returns when it does not come
to its end. -/
def allocLoop (space : ℕ) (archMmuMap : ℕ → ℤ) : ℕ → Memory → ℕ → UInt32 → ℕ → Option ℤ × Memory
  | 0, m, _, _, _ => (none, m)
  | n + 1, m, vaddr, paddr, k =>
    if m.managed (frameOf paddr) = false then (some (-einval), m)
    else
      let m := m.incRef (frameOf paddr)
      if archMmuMap k ≤ 0 then (some (archMmuMap k), m)
      else allocLoop space archMmuMap n (m.addMap space vaddr (frameOf paddr)) (vaddr + 1)
        (paddr + pageSize) (k + 1)

/-- MmzAlloc once it has the region and the block. -/
def mapBlock (archMmuMap : ℕ → ℤ) (s : State) (r : Region) (paddr : UInt32) (mmzm : MmzMemory) :
    Result :=
  let mmzm := { mmzm with paddr := paddr.toUInt64 }
  let loop := allocLoop r.space archMmuMap r.pages s.memory r.base paddr 0
  match loop.1 with
  | some status => ⟨status, regionFree { s with memory := loop.2 } r, mmzm⟩
  | none =>
    ⟨losOk, { s with memory := loop.2 }, { mmzm with vaddr := UInt32.ofNat (4096 * r.base) }⟩

def mmzAlloc (k : Kernel) (space : ℕ) (cmd : Cmd) (mmzm : MmzMemory) (s : State) : Result :=
  if cmd = .mmzCache ∨ cmd = .mmzNocache then
    match k.region with
    | none => ⟨-enomem, s, mmzm⟩
    | some base =>
      let r : Region := ⟨space, base, mmzm.pages⟩
      match k.frame with
      | none => ⟨-enomem, regionFree (regionAlloc s r) r, mmzm⟩
      | some frame =>
        mapBlock k.archMmuMap
          { regionAlloc s r with memory := s.memory.allocate frame mmzm.pages } r
          (UInt32.ofNat (4096 * frame)) mmzm
  else ⟨-einval, s, mmzm⟩

/-- No page taken, counted or mapped, and no region. -/
structure Kept (s t : State) : Prop where
  regions : t.regions = s.regions
  maps : t.memory.maps = s.memory.maps
  owner : t.memory.owner = s.memory.owner
  refCounts : t.memory.refCounts = s.memory.refCounts

/-- The pages of the new region are mapped, in order, to frames of its own. -/
structure Allocated (space pages : ℕ) (s t : State) (base frame : ℕ) : Prop where
  regions : t.regions = ⟨space, base, pages⟩ :: s.regions
  mapped : ∀ j < pages, t.memory.find space (base + j) = some ⟨space, base + j, frame + j⟩
  owner : ∀ j < pages, t.memory.owner (frame + j) = .allocated
  refCounts : ∀ j < pages, t.memory.refCounts (frame + j) = 1

structure Atomic (space pages : ℕ) (s : State) (r : Result) : Prop where
  failed : r.ret < 0 → Kept s r.state
  succeeded : 0 ≤ r.ret → ∃ base frame, Allocated space pages s r.state base frame

/-- What the kernel promises: a new region is not in use, and the frames given out are free and have
32-bit addresses. -/
structure Promised (k : Kernel) (space pages : ℕ) (s : State) : Prop where
  region : ∀ base ∈ k.region, ∀ j < pages, s.memory.find space (base + j) = none
  frame : ∀ frame ∈ k.frame, frame + pages ≤ 1048576 ∧
    ∀ j < pages, s.memory.owner (frame + j) = .free

/-- The memory once `k` pages are mapped. -/
def mapPages (m : Memory) (space base : ℕ) (paddr : UInt32) : ℕ → Memory
  | 0 => m
  | k + 1 => ((mapPages m space base paddr k).incRef (frameAt paddr k)).addMap space (base + k)
      (frameAt paddr k)

section MapPages

variable {m : Memory} {space base : ℕ} {paddr : UInt32}

@[simp] theorem mapPages_managed (k : ℕ) : (mapPages m space base paddr k).managed = m.managed := by
  induction k with
  | zero => rfl
  | succ k ih => exact ih

@[simp] theorem mapPages_owner (k : ℕ) : (mapPages m space base paddr k).owner = m.owner := by
  induction k with
  | zero => rfl
  | succ k ih => exact ih

theorem mem_mapPages {k : ℕ} {x : Mapping} (hx : x ∈ (mapPages m space base paddr k).maps) :
    x ∈ m.maps ∨ ∃ j < k, x = ⟨space, base + j, frameAt paddr j⟩ := by
  induction k with
  | zero => exact Or.inl hx
  | succ k ih =>
    rcases List.mem_cons.mp hx with rfl | hx
    · exact Or.inr ⟨k, Nat.lt_succ_self k, rfl⟩
    · rcases ih hx with hold | ⟨j, hj, rfl⟩
      · exact Or.inl hold
      · exact Or.inr ⟨j, Nat.lt_succ_of_lt hj, rfl⟩

theorem mapPages_find {k j : ℕ} (hj : j < k) :
    (mapPages m space base paddr k).find space (base + j)
      = some ⟨space, base + j, frameAt paddr j⟩ := by
  induction k with
  | zero => exact absurd hj (Nat.not_lt_zero j)
  | succ k ih =>
    unfold mapPages Memory.find Memory.addMap
    by_cases hlast : j = k
    · subst hlast
      exact List.find?_cons_of_pos (by simp)
    · rw [List.find?_cons_of_neg (by simpa using fun h => hlast h.symm)]
      exact ih (by omega)

theorem mapPages_refCounts_other {k f : ℕ} (hother : ∀ j < k, frameAt paddr j ≠ f) :
    (mapPages m space base paddr k).refCounts f = m.refCounts f := by
  induction k with
  | zero => rfl
  | succ k ih =>
    have hne : f ≠ frameAt paddr k := (hother k (Nat.lt_succ_self k)).symm
    exact (Function.update_of_ne hne _ _).trans (ih fun j hj => hother j (Nat.lt_succ_of_lt hj))

theorem mapPages_refCounts {k f : ℕ} (hframes : ∀ j < k, frameAt paddr j = f + j) {j : ℕ}
    (hj : j < k) :
    (mapPages m space base paddr k).refCounts (f + j) = m.refCounts (f + j) + 1 := by
  induction k with
  | zero => exact absurd hj (Nat.not_lt_zero j)
  | succ k ih =>
    have hbefore : ∀ i < k, frameAt paddr i = f + i := fun i hi => hframes i (Nat.lt_succ_of_lt hi)
    have hlast := hframes k (Nat.lt_succ_self k)
    by_cases hjk : j = k
    · subst hjk
      have hnew : (mapPages m space base paddr j).refCounts (f + j) = m.refCounts (f + j) := by
        refine mapPages_refCounts_other fun i hi => ?_
        rw [hbefore i hi]
        omega
      rw [← hnew, ← hlast]
      exact Function.update_self ..
    · have hne : f + j ≠ frameAt paddr k := by
        rw [hlast]
        omega
      exact (Function.update_of_ne hne _ _).trans (ih hbefore (by omega))

/-- The page `j` can be looked up and mapped. -/
def Maps (m : Memory) (paddr : UInt32) (archMmuMap : ℕ → ℤ) (j : ℕ) : Prop :=
  m.managed (frameAt paddr j) = true ∧ 0 < archMmuMap j

/-- The loop maps all pages, or stops at one that it has counted unless it could not look it up. -/
theorem allocLoop_cases {archMmuMap : ℕ → ℤ} (n k : ℕ) :
    (∀ j, k ≤ j → j < k + n → Maps m paddr archMmuMap j) ∧
      allocLoop space archMmuMap n (mapPages m space base paddr k) (base + k)
        (paddr + UInt32.ofNat (4096 * k)) k = (none, mapPages m space base paddr (k + n)) ∨
    ∃ j, k ≤ j ∧ j < k + n ∧ ¬ Maps m paddr archMmuMap j ∧ ∃ status m',
      allocLoop space archMmuMap n (mapPages m space base paddr k) (base + k)
        (paddr + UInt32.ofNat (4096 * k)) k = (some status, m') ∧
      (m' = mapPages m space base paddr j ∨
        m' = (mapPages m space base paddr j).incRef (frameAt paddr j)) := by
  induction n generalizing k with
  | zero => exact Or.inl ⟨fun j hle hlt => absurd hlt (by omega), rfl⟩
  | succ n ih =>
    by_cases hman : m.managed (frameAt paddr k) = false
    · refine Or.inr ⟨k, Nat.le_refl k, by omega, fun h => ?_, -einval, _, ?_, Or.inl rfl⟩
      · rw [h.1] at hman
        cases hman
      · refine if_pos ?_
        rw [mapPages_managed]
        exact hman
    · by_cases hmap : archMmuMap k ≤ 0
      · refine Or.inr ⟨k, Nat.le_refl k, by omega, fun h => absurd h.2 (Int.not_lt.mpr hmap), archMmuMap k, _,
          ?_, Or.inr rfl⟩
        refine (if_neg ?_).trans (if_pos hmap)
        rw [mapPages_managed]
        exact hman
      · have hstep : allocLoop space archMmuMap (n + 1) (mapPages m space base paddr k) (base + k)
            (paddr + UInt32.ofNat (4096 * k)) k
            = allocLoop space archMmuMap n (mapPages m space base paddr (k + 1)) (base + (k + 1))
              (paddr + UInt32.ofNat (4096 * (k + 1))) (k + 1) := by
          have hnext : paddr + UInt32.ofNat (4096 * k) + pageSize
              = paddr + UInt32.ofNat (4096 * (k + 1)) := by
            rw [Nat.mul_add, UInt32.ofNat_add, UInt32.add_assoc]
            rfl
          rw [← hnext]
          refine (if_neg ?_).trans (if_neg hmap)
          rw [mapPages_managed]
          exact hman
        rw [hstep]
        have hk : k + 1 + n = k + (n + 1) := by omega
        rcases ih (k + 1) with ⟨hall, hloop⟩ | ⟨j, hle, hlt, hnot, hstop⟩
        · rw [hk] at hall hloop
          refine Or.inl ⟨fun j hle hlt => ?_, hloop⟩
          by_cases hjk : j = k
          · subst hjk
            exact ⟨by simpa using hman, Int.not_le.mp hmap⟩
          · exact hall j (by omega) hlt
        · exact Or.inr ⟨j, by omega, by omega, hnot, hstop⟩

end MapPages

theorem unmapPage_owner {m : Memory} {space vpage frame : ℕ}
    (h : ∀ x ∈ m.maps, x.space = space → x.vpage = vpage → x.frame ≠ frame) :
    (m.unmapPage space vpage).owner frame = m.owner frame ∧
      ∀ x ∈ (m.unmapPage space vpage).maps, x ∈ m.maps := by
  unfold Memory.unmapPage
  cases hfind : m.find space vpage with
  | none => exact ⟨rfl, fun x hx => hx⟩
  | some x =>
    have hplace : x.space = space ∧ x.vpage = vpage := by simpa using List.find?_some hfind
    have hne : frame ≠ x.frame := (h x (find_some hfind) hplace.1 hplace.2).symm
    simp only [Memory.decRef]
    split
    · split
      · exact ⟨Function.update_of_ne hne _ _, fun y hy => List.mem_of_mem_erase hy⟩
      · exact ⟨rfl, fun y hy => List.mem_of_mem_erase hy⟩
    · exact ⟨rfl, fun y hy => List.mem_of_mem_erase hy⟩

/-- A frame that no page of the region is mapped to is not given back with the region. -/
theorem unmapPages_owner {m : Memory} {space vpage n frame : ℕ}
    (h : ∀ x ∈ m.maps, x.space = space → vpage ≤ x.vpage → x.vpage < vpage + n → x.frame ≠ frame) :
    (m.unmapPages space vpage n).owner frame = m.owner frame := by
  induction n generalizing m vpage with
  | zero => rfl
  | succ n ih =>
    obtain ⟨howner, hmaps⟩ := @unmapPage_owner m space vpage frame
      fun x hx hspace hpage => h x hx hspace (by omega) (by omega)
    refine (ih fun x hx hspace hle hlt => ?_).trans howner
    exact h x (hmaps x hx) hspace (by omega) (by omega)

theorem unmapPages_of_none {m : Memory} {space vpage n : ℕ}
    (h : ∀ j < n, m.find space (vpage + j) = none) : m.unmapPages space vpage n = m := by
  induction n generalizing vpage with
  | zero => rfl
  | succ n ih =>
    have hpage : m.unmapPage space vpage = m := by
      have hnone := h 0 (Nat.succ_pos n)
      rw [Nat.add_zero] at hnone
      simp only [Memory.unmapPage, hnone]
    rw [Memory.unmapPages, hpage]
    refine ih fun j hj => ?_
    rw [Nat.add_assoc, Nat.add_comm 1 j]
    exact h (j + 1) (by omega)

section Alloc

variable {k : Kernel} {space : ℕ} {cmd : Cmd} {mmzm : MmzMemory} {s : State}

def AllMap (k : Kernel) (s : State) (pages frame : ℕ) : Prop :=
  ∀ j < pages, s.memory.managed (frame + j) = true ∧ 0 < k.archMmuMap j

def Started (k : Kernel) (cmd : Cmd) (base frame : ℕ) : Prop :=
  (cmd = .mmzCache ∨ cmd = .mmzNocache) ∧ k.region = some base ∧ k.frame = some frame

theorem regionFree_regionAlloc {r : Region}
    (h : ∀ j < r.pages, s.memory.find r.space (r.base + j) = none) :
    regionFree (regionAlloc s r) r = s := by
  have hmemory : (regionAlloc s r).memory.unmapPages r.space r.base r.pages = s.memory :=
    unmapPages_of_none h
  rw [regionFree, hmemory, regionAlloc, List.erase_cons_head]

theorem enomem_fails : -enomem < 0 := by decide

theorem einval_fails : -einval < 0 := by decide

theorem alloc_of_not_started (hp : Promised k space mmzm.pages s)
    (h : ¬ ∃ base frame, Started k cmd base frame) :
    (mmzAlloc k space cmd mmzm s).ret < 0 ∧ (mmzAlloc k space cmd mmzm s).state = s := by
  unfold mmzAlloc
  by_cases hcmd : cmd = .mmzCache ∨ cmd = .mmzNocache
  · rw [if_pos hcmd]
    cases hregion : k.region with
    | none => exact ⟨enomem_fails, rfl⟩
    | some base =>
      cases hframe : k.frame with
      | none => exact ⟨enomem_fails, regionFree_regionAlloc (hp.region base hregion)⟩
      | some frame => exact absurd ⟨base, frame, hcmd, hregion, hframe⟩ h
  · rw [if_neg hcmd]
    exact ⟨einval_fails, rfl⟩

variable {base frame : ℕ}

theorem alloc_of_started (h : Started k cmd base frame) :
    mmzAlloc k space cmd mmzm s = mapBlock k.archMmuMap
      { regionAlloc s ⟨space, base, mmzm.pages⟩ with memory := s.memory.allocate frame mmzm.pages }
      ⟨space, base, mmzm.pages⟩ (UInt32.ofNat (4096 * frame)) mmzm := by
  obtain ⟨hcmd, hregion, hblock⟩ := h
  simp only [mmzAlloc, if_pos hcmd, hregion, hblock]

/-- The memory once `j` pages of the block are mapped. -/
abbrev blockPages (s : State) (space base frame pages j : ℕ) : Memory :=
  mapPages (s.memory.allocate frame pages) space base (UInt32.ofNat (4096 * frame)) j

theorem maps_iff (hframe : frame + mmzm.pages ≤ 1048576) {j : ℕ} (hj : j < mmzm.pages) :
    Maps (s.memory.allocate frame mmzm.pages) (UInt32.ofNat (4096 * frame)) k.archMmuMap j ↔
      s.memory.managed (frame + j) = true ∧ 0 < k.archMmuMap j := by
  rw [Maps, frameAt_ofNat hframe hj]
  exact Iff.rfl

theorem started_cases (h : Started k cmd base frame) (hframe : frame + mmzm.pages ≤ 1048576) :
    AllMap k s mmzm.pages frame ∧ (mmzAlloc k space cmd mmzm s).ret = losOk ∧
      (mmzAlloc k space cmd mmzm s).state = ⟨blockPages s space base frame mmzm.pages mmzm.pages,
        ⟨space, base, mmzm.pages⟩ :: s.regions⟩ ∨
    ∃ j < mmzm.pages, ¬ AllMap k s mmzm.pages frame ∧ ∃ m',
      (mmzAlloc k space cmd mmzm s).state = ⟨m'.unmapPages space base mmzm.pages, s.regions⟩ ∧
      (m' = blockPages s space base frame mmzm.pages j ∨
        m' = (blockPages s space base frame mmzm.pages j).incRef (frame + j)) := by
  have hloop := @allocLoop_cases (s.memory.allocate frame mmzm.pages) space base
    (UInt32.ofNat (4096 * frame)) k.archMmuMap mmzm.pages 0
  have hstart : UInt32.ofNat (4096 * frame) + UInt32.ofNat 0 = UInt32.ofNat (4096 * frame) :=
    UInt32.add_zero _
  simp only [Nat.zero_add, Nat.mul_zero, Nat.add_zero, hstart] at hloop
  rw [alloc_of_started h]
  unfold mapBlock
  rcases hloop with ⟨hall, hends⟩ | ⟨j, -, hj, hnot, status, m', hstops, hm'⟩
  · refine Or.inl ⟨fun j hj => (maps_iff hframe hj).mp (hall j (Nat.zero_le j) hj), ?_⟩
    simp only [mapPages] at hends
    simp only [hends]
    exact ⟨trivial, rfl⟩
  · refine Or.inr ⟨j, hj, fun hall => hnot ((maps_iff hframe hj).mpr (hall j hj)), m', ?_, ?_⟩
    · simp only [mapPages] at hstops
      simp only [hstops, regionFree, regionAlloc, List.erase_cons_head]
    · rwa [frameAt_ofNat hframe hj] at hm'

theorem allocated_of_allMap (hframe : frame + mmzm.pages ≤ 1048576) :
    Allocated space mmzm.pages s ⟨blockPages s space base frame mmzm.pages mmzm.pages,
      ⟨space, base, mmzm.pages⟩ :: s.regions⟩ base frame := by
  have hblock : ∀ j < mmzm.pages, frame ≤ frame + j ∧ frame + j < frame + mmzm.pages := by omega
  have hframes : ∀ j < mmzm.pages, frameAt (UInt32.ofNat (4096 * frame)) j = frame + j :=
    fun j hj => frameAt_ofNat hframe hj
  refine ⟨rfl, fun j hj => ?_, fun j hj => ?_, fun j hj => ?_⟩
  · rw [mapPages_find hj, hframes j hj]
  · rw [mapPages_owner]
    exact if_pos (hblock j hj)
  · rw [mapPages_refCounts hframes hj]
    have hfresh : (s.memory.allocate frame mmzm.pages).refCounts (frame + j) = 0 :=
      if_pos (hblock j hj)
    rw [hfresh]
    rfl

theorem stopped_owner (hp : Promised k space mmzm.pages s) (h : Started k cmd base frame)
    (hframe : frame + mmzm.pages ≤ 1048576) {j : ℕ} (hj : j < mmzm.pages) {m' : Memory}
    (hm' : m' = blockPages s space base frame mmzm.pages j ∨
      m' = (blockPages s space base frame mmzm.pages j).incRef (frame + j)) :
    (m'.unmapPages space base mmzm.pages).owner (frame + j) = .allocated := by
  have hmaps : m'.maps = (blockPages s space base frame mmzm.pages j).maps := by
    rcases hm' with rfl | rfl <;> rfl
  have howner : m'.owner = (blockPages s space base frame mmzm.pages j).owner := by
    rcases hm' with rfl | rfl <;> rfl
  rw [unmapPages_owner, howner, mapPages_owner]
  · exact if_pos (by omega)
  · intro x hx hspace hle hlt
    rw [hmaps] at hx
    rcases mem_mapPages hx with hold | ⟨i, hi, rfl⟩
    · have hnone := hp.region base h.2.1 (x.vpage - base) (by omega)
      rw [Nat.add_sub_cancel' hle] at hnone
      have hnot := List.find?_eq_none.mp hnone x hold
      simp [hspace] at hnot
    · rw [frameAt_ofNat hframe (by omega)]
      exact fun heq => absurd (Nat.add_left_cancel heq) (Nat.ne_of_lt hi)

theorem atomic_of_allMap (h : Started k cmd base frame) (hframe : frame + mmzm.pages ≤ 1048576)
    (hall : AllMap k s mmzm.pages frame) :
    Atomic space mmzm.pages s (mmzAlloc k space cmd mmzm s) := by
  rcases started_cases (s := s) h hframe with ⟨-, hret, hstate⟩ | ⟨-, -, hnot, -⟩
  · refine ⟨fun hneg => ?_, fun _ => ⟨base, frame, ?_⟩⟩
    · rw [hret] at hneg
      exact absurd hneg (by decide)
    · rw [hstate]
      exact allocated_of_allMap hframe
  · exact absurd hall hnot

/-- A page that fails is lost when the failure is reported, and missing when it is not. -/
theorem not_atomic (hp : Promised k space mmzm.pages s) (h : Started k cmd base frame)
    (hnot : ¬ AllMap k s mmzm.pages frame) :
    ¬ Atomic space mmzm.pages s (mmzAlloc k space cmd mmzm s) := by
  intro hatomic
  obtain ⟨hframe, hfree⟩ := hp.frame frame h.2.2
  rcases started_cases (s := s) h hframe with ⟨hall, -⟩ | ⟨j, hj, -, m', hstate, hm'⟩
  · exact hnot hall
  · by_cases hneg : (mmzAlloc k space cmd mmzm s).ret < 0
    · have howner := congrFun (hatomic.failed hneg).owner (frame + j)
      rw [hstate, stopped_owner hp h hframe hj hm', hfree j hj] at howner
      cases howner
    · obtain ⟨base', frame', hdone⟩ := hatomic.succeeded (Int.not_lt.mp hneg)
      have hregions := congrArg List.length hdone.regions
      rw [hstate, List.length_cons] at hregions
      exact absurd hregions (Nat.ne_of_lt (Nat.lt_succ_self _))

/-- MmzAlloc is all or nothing exactly when no page of its block fails. -/
theorem mmzAlloc_atomic_iff (hp : Promised k space mmzm.pages s) :
    Atomic space mmzm.pages s (mmzAlloc k space cmd mmzm s) ↔
      ∀ base frame, Started k cmd base frame → AllMap k s mmzm.pages frame := by
  constructor
  · intro hatomic base frame h
    by_contra hnot
    exact not_atomic hp h hnot hatomic
  · intro hall
    by_cases h : ∃ base frame, Started k cmd base frame
    · obtain ⟨base, frame, h⟩ := h
      exact atomic_of_allMap h (hp.frame frame h.2.2).1 (hall base frame h)
    · have hkept : (mmzAlloc k space cmd mmzm s).ret < 0 ∧ (mmzAlloc k space cmd mmzm s).state = s :=
        alloc_of_not_started hp h
      refine ⟨fun _ => ?_, fun hret => absurd hkept.1 (Int.not_lt.mpr hret)⟩
      rw [hkept.2]
      exact ⟨rfl, rfl, rfl, rfl⟩

end Alloc

theorem allocLoop_mapLoop {space : ℕ} {archMmuMap : ℕ → ℤ} {n : ℕ} {m : Memory} {vaddr : ℕ}
    {paddr : UInt32} {k : ℕ} :
    ((allocLoop space archMmuMap n m vaddr paddr k).1 = none ↔
        (mapLoop space (fun j => decide (0 < archMmuMap j)) n m vaddr paddr k).1 = .ok) ∧
      (allocLoop space archMmuMap n m vaddr paddr k).2
        = (mapLoop space (fun j => decide (0 < archMmuMap j)) n m vaddr paddr k).2 := by
  induction n generalizing m vaddr paddr k with
  | zero => exact ⟨iff_of_true rfl rfl, rfl⟩
  | succ n ih =>
    unfold allocLoop mapLoop
    by_cases hman : m.managed (frameOf paddr) = false
    · simp [hman]
    · by_cases hmap : archMmuMap k ≤ 0
      · have hfails : decide (0 < archMmuMap k) = false := by simpa using hmap
        simp [hman, hmap, hfails]
      · have hmaps : decide (0 < archMmuMap k) = true := by simpa using hmap
        simpa [hman, hmap, hmaps] using ih

/-- What MmzAlloc leaves is what the ioctl that only tells whether a page maps leaves. -/
theorem mmzAlloc_state {k : Kernel} {c : Mmz.Call} {s : State}
    (hcmd : c.cmd = .mmzCache ∨ c.cmd = .mmzNocache) (hregion : c.answers.region = k.region)
    (hframe : c.answers.frame = k.frame)
    (hmap : c.answers.mmuMap = fun j => decide (0 < k.archMmuMap j))
    (hp : Promised k c.space c.mmzm.pages s) :
    (mmzAlloc k c.space c.cmd c.mmzm s).state = (Mmz.mmzAlloc s c).2 := by
  unfold mmzAlloc Mmz.mmzAlloc
  rw [if_pos hcmd, hregion, hframe]
  cases hbase : k.region with
  | none => rfl
  | some base =>
    cases hblock : k.frame with
    | none => exact regionFree_regionAlloc (hp.region base hbase)
    | some frame =>
      have hloop := @allocLoop_mapLoop c.space k.archMmuMap c.mmzm.pages
        (s.memory.allocate frame c.mmzm.pages) base (UInt32.ofNat (4096 * frame)) 0
      simp only [mapBlock, Mmz.mapRegion, hmap]
      cases hends : (allocLoop c.space k.archMmuMap c.mmzm.pages
          (s.memory.allocate frame c.mmzm.pages) base (UInt32.ofNat (4096 * frame)) 0).1 with
      | none =>
        rw [if_pos (hloop.1.mp hends)]
        exact congrArg (fun m => State.mk m _) hloop.2
      | some status =>
        rw [if_neg fun hok => Option.some_ne_none status (hends.symm.trans (hloop.1.mpr hok))]
        simp only [regionFree, regionAlloc, List.erase_cons_head, hloop.2]

def empty : State := ⟨⟨fun _ => true, fun _ => .free, fun _ => 0, [], [], []⟩, []⟩

def twoPages : MmzMemory := ⟨0, 0, 8192⟩

/-- The second page is mapped as `status` says. -/
def secondPage (status : ℤ) : Kernel := ⟨some 16, some 256, fun j => if j = 0 then 1 else status⟩

theorem promised_secondPage (status : ℤ) : Promised (secondPage status) 1 twoPages.pages empty := by
  refine ⟨fun base _ j _ => rfl, fun frame hframe => ?_⟩
  obtain rfl : 256 = frame := Option.some.inj hframe
  exact ⟨by decide, fun j _ => rfl⟩

theorem mmzAlloc_atomic_twoPages :
    Atomic 1 2 empty (mmzAlloc (secondPage 1) 1 .mmzCache twoPages empty) := by
  refine (mmzAlloc_atomic_iff (promised_secondPage 1)).mpr fun base frame _ j _ => ⟨rfl, ?_⟩
  unfold secondPage
  dsimp only
  split <;> decide

/-- The second page cannot be mapped: 0 is returned for it, or it is not given back. -/
theorem second_page_lost :
    ((mmzAlloc (secondPage 0) 1 .mmzCache twoPages empty).ret = losOk ∧
      (mmzAlloc (secondPage 0) 1 .mmzCache twoPages empty).state.regions = [] ∧
      (mmzAlloc (secondPage (-1)) 1 .mmzCache twoPages empty).state.memory.owner 257 = .allocated) ∧
    ¬ Atomic 1 2 empty (mmzAlloc (secondPage 0) 1 .mmzCache twoPages empty) ∧
      ¬ Atomic 1 2 empty (mmzAlloc (secondPage (-1)) 1 .mmzCache twoPages empty) := by
  have hlost : ∀ status : ℤ, status ≤ 0 → ¬ AllMap (secondPage status) empty twoPages.pages 256 := by
    intro status hle hall
    exact absurd (hall 1 (by decide)).2 (Int.not_lt.mpr hle)
  have hstarted : ∀ status, Started (secondPage status) .mmzCache 16 256 :=
    fun status => ⟨Or.inl rfl, rfl, rfl⟩
  refine ⟨by decide, ?_, ?_⟩
  · exact not_atomic (promised_secondPage 0) (hstarted 0) (hlost 0 (by decide))
  · exact not_atomic (promised_secondPage (-1)) (hstarted (-1)) (hlost (-1) (by decide))

end MmzAllocAtomic
