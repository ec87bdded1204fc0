import DeviceQemu.PageFrames
import DeviceQemu.StepSystem

/-! MMZ character device.
Ioctls of processes on the pages that the driver allocates and maps. The kernel's functions
answer as an event says; regions and mappings are those of this driver. -/
namespace Mmz

open StepSystem PageFrames

def pageSize : UInt32 := 4096

structure MmzMemory where
  vaddr : UInt32
  paddr : UInt64
  size : Int32

/-- `pages` pages of the address space `space` from the page `base` on. -/
structure Region where
  space : ℕ
  base : ℕ
  pages : ℕ
  deriving DecidableEq

structure State where
  memory : Memory
  regions : List Region

/-- LOS_RegionAlloc gives the page `region`, LOS_PhysPagesAllocContiguous the frame `frame`,
LOS_ArchMmuMap maps the k-th page if `mmuMap k`, LOS_PaddrQuery finds `paddr` behind an address
that this driver has not mapped, OsUnMMap succeeds if `unMMap`. -/
structure Answers where
  region : Option ℕ
  frame : Option ℕ
  mmuMap : ℕ → Bool
  paddr : UInt32
  unMMap : Bool

inductive Cmd where
  | mmzCache
  | mmzNocache
  | mmzFree
  | mapCache
  | mapNocache
  | unmap
  | flushCache
  | flushNocache
  | invalidate
  | unknown
  deriving DecidableEq

structure Call where
  space : ℕ
  cmd : Cmd
  mmzm : MmzMemory
  answers : Answers

inductive Status where
  | ok
  | einval
  | enomem
  | mmuFailed
  | efault
  deriving DecidableEq

def roundup (x : UInt32) : UInt32 := (x + (pageSize - 1)) &&& ~~~(pageSize - 1)

/-- The pages of `ROUNDUP(mmzm->size, PAGE_SIZE)`. -/
def MmzMemory.pages (mmzm : MmzMemory) : ℕ := (roundup mmzm.size.toUInt32).toNat / 4096

def frameOf (paddr : UInt32) : ℕ := paddr.toNat / 4096

def Region.contains (r : Region) (space vpage : ℕ) : Bool :=
  r.space = space ∧ r.base ≤ vpage ∧ vpage < r.base + r.pages

/-- The while loop of MmzAlloc and MmzMap. -/
def mapLoop (space : ℕ) (mmuMap : ℕ → Bool) : ℕ → Memory → ℕ → UInt32 → ℕ → Status × Memory
  | 0, m, _, _, _ => (.ok, m)
  | n + 1, m, vpage, paddr, k =>
    if m.managed (frameOf paddr) = false then (.einval, m)
    else
      let m := m.incRef (frameOf paddr)
      if mmuMap k = false then (.mmuFailed, m)
      else
        mapLoop space mmuMap n (m.addMap space vpage (frameOf paddr)) (vpage + 1)
          (paddr + pageSize) (k + 1)

def mapRegion (s : State) (r : Region) (paddr : UInt32) (mmuMap : ℕ → Bool) : Status × State :=
  let loop := mapLoop r.space mmuMap r.pages s.memory r.base paddr 0
  if loop.1 = .ok then (.ok, ⟨loop.2, r :: s.regions⟩)
  else (loop.1, { s with memory := loop.2.unmapPages r.space r.base r.pages })

def mmzAlloc (s : State) (c : Call) : Status × State :=
  match c.answers.region with
  | none => (.enomem, s)
  | some base =>
    match c.answers.frame with
    | none => (.enomem, s)
    | some frame =>
      mapRegion { s with memory := s.memory.allocate frame c.mmzm.pages }
        ⟨c.space, base, c.mmzm.pages⟩ (UInt32.ofNat (4096 * frame)) c.answers.mmuMap

def mmzMap (s : State) (c : Call) : Status × State :=
  match c.answers.region with
  | none => (.enomem, s)
  | some base =>
    mapRegion s ⟨c.space, base, c.mmzm.pages⟩ c.mmzm.paddr.toUInt32 c.answers.mmuMap

/-- What is left of a region when the pages from `lo` to `hi` are taken out. -/
def Region.cut (r : Region) (space lo hi : ℕ) : List Region :=
  if r.space = space then
    [⟨space, r.base, min r.pages (lo - r.base)⟩,
      ⟨space, max r.base hi, r.base + r.pages - max r.base hi⟩].filter fun r => 0 < r.pages
  else [r]

def mmzUnMap (s : State) (c : Call) : Status × State :=
  if c.answers.unMMap then
    let lo := (roundup c.mmzm.vaddr).toNat / 4096
    (.ok,
      { memory := s.memory.unmapPages c.space lo c.mmzm.pages
        regions := s.regions.flatMap fun r => r.cut c.space lo (lo + c.mmzm.pages) })
  else (.efault, s)

def paddrQuery (s : State) (c : Call) : UInt32 :=
  match s.memory.find c.space (c.mmzm.vaddr.toNat / 4096) with
  | none => c.answers.paddr
  | some x => UInt32.ofNat (4096 * x.frame + c.mmzm.vaddr.toNat % 4096)

def mmzFree (s : State) (c : Call) : Status × State :=
  if c.mmzm.paddr.toUInt32 ≠ paddrQuery s c then (.einval, s)
  else
    match s.regions.find? fun r => r.contains c.space (c.mmzm.vaddr.toNat / 4096) with
    | none => (.einval, s)
    | some r =>
      (.ok,
        { memory := s.memory.unmapPages r.space r.base r.pages
          regions := s.regions.erase r })

def mmzIoctl (s : State) (c : Call) : Status × State :=
  match c.cmd with
  | .mmzCache => mmzAlloc s c
  | .mmzNocache => mmzAlloc s c
  | .mmzFree => mmzFree s c
  | .mapCache => mmzMap s c
  | .mapNocache => mmzMap s c
  | .unmap => mmzUnMap s c
  | .flushCache => (.ok, s)
  | .flushNocache => (.ok, s)
  | .invalidate => (.ok, s)
  | .unknown => (.einval, s)

/-- What the kernel promises: a new region is not in use, and the frames given out are free,
have page structures and 32-bit addresses. -/
structure Possible (s : State) (c : Call) : Prop where
  region : ∀ base ∈ c.answers.region, ∀ vpage < c.mmzm.pages,
    (∀ r ∈ s.regions, r.contains c.space (base + vpage) = false) ∧
      s.memory.find c.space (base + vpage) = none
  frame : c.cmd = .mmzCache ∨ c.cmd = .mmzNocache → ∀ frame ∈ c.answers.frame,
    frame + c.mmzm.pages ≤ 1048576 ∧ ∀ k < c.mmzm.pages,
      s.memory.owner (frame + k) = .free ∧ s.memory.managed (frame + k) = true

instance (s : State) (c : Call) : Decidable (Possible s c) :=
  decidable_of_iff (_ ∧ _) ⟨fun h => ⟨h.1, h.2⟩, fun h => ⟨h.region, h.frame⟩⟩

/-- No page of the driver is mapped or allocated; the other frames are as they are. -/
structure Init (s : State) : Prop where
  maps : s.memory.maps = []
  owner : ∀ f, s.memory.owner f ≠ .allocated
  allocs : s.memory.allocs = []
  releases : s.memory.releases = []
  regions : s.regions = []

def system : System State Call where
  Init := Init
  next := fun s c => if Possible s c then some (mmzIoctl s c).2 else none

end Mmz
