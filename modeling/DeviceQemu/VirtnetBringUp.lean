import DeviceQemu.BlockLedger
import DeviceQemu.VirtioInit
import DeviceQemu.VirtmmioLayout

/-! Start-up and teardown of the riscv32 virtnet driver.
VirtnetInit allocates the net interface, the driver's record, the block of the queues and the
records of the buffers. When a step fails, VirtnetDeInit frees what the record points to. An
address 0 is NULL. What ConfigRxBuffer and InitTxFreelist write is not followed, only where. -/
namespace VirtnetBringUp

open BlockLedger RegionLayout VirtmmioLayout
open VirtioInit (Bus virtmmioDeviceIdNet irqMask)

def virtmmioBaseAddr : UInt32 := 0x10001000
def virtmmioBaseSize : UInt32 := 0x1000
def virtmmioBaseIrq : UInt32 := 1
def numVirtioTransports : ℕ := 8
/-- IRQ_SPI_BASE, which is RISCV_SYS_MAX_IRQ. -/
def irqSpiBase : UInt32 := 11
def sizeofTbufRecord : ℕ := 8

/-- ALIGN, and the sizes of the structures that lwIP and the kernel define parts of. -/
structure Kernel extends VirtmmioLayout.Kernel where
  sizeofNetif : ℕ
  sizeofVirtNetif : ℕ
  sizeofRbufRecord : ℕ
  sizeofHwiIrqParam : ℕ

/-- What the allocators, lwIP, the kernel and the device answer. `netifAdd` is whether netif_add
gets as far as to call EthernetIfInit. -/
structure Env (k : Kernel) extends Bus where
  netif : UInt32
  netifAdd : Bool
  nic : UInt32
  base : UInt32
  rbufRec : UInt32
  tbufRec : UInt32
  param : UInt32
  hwiCreate : Bool
  /-- A block lies within the address space. -/
  base_fits : base.toNat + (configQueueSize k.toKernel).toNat ≤ 4294967296

/-- calloc, malloc and free, or mem_calloc and mem_free. -/
inductive Heap where
  | libc
  | lwip
  deriving DecidableEq, Repr

inductive Call where
  | memory (h : Heap) (op : Op)
  | hwiCreate (irq : UInt32)
  | hwiDelete (irq : UInt32)
  | reset
  | driverOk
  | failed
  | notify (queue : ℕ)
  deriving DecidableEq, Repr

def alloc (h : Heap) (a : UInt32) (size : ℕ) : List Call :=
  (block a.toNat size).map fun b => .memory h (.alloc b)

def access (h : Heap) (rs : List Region) : List Call := rs.map fun r => .memory h (.access r)

def freeIf (h : Heap) (a : UInt32) : List Call :=
  (release a.toNat).map (.memory h)

inductive Err where
  | ok
  | mem
  | interface
  deriving DecidableEq, Repr

structure VirtmmioDev where
  base : UInt32
  irq : UInt32
  vq : ℕ → Virtq

structure VirtNetif where
  dev : VirtmmioDev
  rbufRec : UInt32
  tbufRec : UInt32

def zeroNic : VirtNetif := ⟨⟨0, 0, fun _ => ⟨0, 0, 0, 0⟩⟩, 0, 0⟩

/-- The queues that VirtmmioConfigQueue got to. -/
def VirtNetif.setQueues (nic : VirtNetif) (qs : List Virtq) : VirtNetif :=
  { nic with dev := { nic.dev with vq := fun i => qs.getD i (nic.dev.vq i) } }

/-- The loop of VirtmmioDiscover, with the transports from `n - 1` down to 0 still to try. -/
def virtmmioDiscover (bus : Bus) (devId : UInt32) (dev : VirtmmioDev) : ℕ → Option VirtmmioDev
  | 0 => none
  | i + 1 =>
    if (bus.transports i).matches devId then
      some { dev with
        base := virtmmioBaseAddr + virtmmioBaseSize * UInt32.ofNat i
        irq := irqSpiBase + virtmmioBaseIrq + UInt32.ofNat i }
    else virtmmioDiscover bus devId dev i

/-- The iterations of ConfigRxBuffer: a descriptor, its entry of the ring and its record. -/
def rxAccesses (k : Kernel) (q : Virtq) (rbufRec : UInt32) : List Region :=
  (List.range q.qsz.toNat).flatMap fun i =>
    [⟨q.desc.toNat + 16 * i, 16⟩, ⟨q.avail.toNat + 4 + 2 * i, 2⟩,
      ⟨rbufRec.toNat + k.sizeofRbufRecord * i, k.sizeofRbufRecord⟩]

/-- The receive buffers themselves only get their address into a descriptor. -/
def configRxBuffer (k : Kernel) (env : Env k) (nic : VirtNetif) : List Call × Err × VirtNetif :=
  let q := nic.dev.vq 0
  let calls := alloc .libc env.rbufRec (q.qsz.toNat * k.sizeofRbufRecord)
  let nic := { nic with rbufRec := env.rbufRec }
  if nic.rbufRec = 0 then (calls, .mem, nic)
  else (calls ++ access .libc (rxAccesses k q nic.rbufRec), .ok, nic)

/-- The iterations of InitTxFreelist. -/
def txAccesses (q : Virtq) : List Region :=
  (List.range (q.qsz.toNat - 1)).map fun i => ⟨q.desc.toNat + 16 * i, 16⟩

def initTxFreelist (k : Kernel) (env : Env k) (nic : VirtNetif) : List Call × Err × VirtNetif :=
  let q := nic.dev.vq 1
  let calls := alloc .libc env.tbufRec (sizeofTbufRecord * q.qsz.toNat)
  let nic := { nic with tbufRec := env.tbufRec }
  if nic.tbufRec = 0 then (calls, .mem, nic)
  else (calls ++ access .libc (txAccesses q), .ok, nic)

def configQueue (k : Kernel) (env : Env k) (nic : VirtNetif) : List Call × Err × VirtNetif :=
  let calls := alloc .libc env.base (configQueueSize k.toKernel).toNat
  if env.base = 0 then (calls, .mem, nic)
  else
    let (buf, qs) := virtmmioConfigQueue k.toKernel env.queueNumMax env.base
      [virtmmioNetifDftRxqsz, virtmmioNetifDftTxqsz]
    let nic := nic.setQueues qs
    if buf = 0 then (calls, .interface, nic)
    else
      let (rx, ret, nic) := configRxBuffer k env nic
      if ret ≠ .ok then (calls ++ rx, ret, nic)
      else
        let (tx, ret, nic) := initTxFreelist k env nic
        (calls ++ rx ++ tx, ret, nic)

/-- `none` when the parameter block is missing: it is written to without a test. -/
def virtmmioRegisterIRQ (k : Kernel) (env : Env k) (dev : VirtmmioDev) : List Call × Option Bool :=
  let calls := alloc .lwip env.param k.sizeofHwiIrqParam ++
    access .lwip [⟨env.param.toNat, k.sizeofHwiIrqParam⟩]
  if env.param = 0 then (calls, none)
  else (calls ++ [.hwiCreate dev.irq], some env.hwiCreate)

def lowLevelInit (k : Kernel) (env : Env k) (nic : VirtNetif) :
    List Call × Option Err × VirtNetif :=
  match virtmmioDiscover env.toBus virtmmioDeviceIdNet nic.dev numVirtioTransports with
  | none => ([], some .interface, nic)
  | some dev =>
    let nic := { nic with dev }
    if !env.negotiate then ([.reset, .failed], some .interface, nic)
    else
      let (queues, ret, nic) := configQueue k env nic
      if ret ≠ .ok then (.reset :: queues ++ [.failed], some ret, nic)
      else
        let (irq, registered) := virtmmioRegisterIRQ k env nic.dev
        let calls := .reset :: queues ++ irq
        match registered with
        | none => (calls, none, nic)
        | some false => (calls ++ [.failed], some .interface, nic)
        | some true =>
          (calls ++ .driverOk :: access .libc [⟨(nic.dev.vq 0).avail.toNat + 2, 2⟩] ++ [.notify 0],
            some .ok, nic)

/-- What netif->state points to, if it is not NULL. -/
structure State where
  addr : UInt32
  nic : VirtNetif

def ethernetIfInit (k : Kernel) (env : Env k) : List Call × Option Err × State :=
  let calls := alloc .lwip env.nic k.sizeofVirtNetif
  if env.nic = 0 then (calls, some .mem, ⟨0, zeroNic⟩)
  else
    let (init, ret, nic) := lowLevelInit k env zeroNic
    (calls ++ access .lwip [⟨env.netif.toNat, k.sizeofNetif⟩, ⟨env.nic.toNat, k.sizeofVirtNetif⟩] ++
      init, ret, ⟨env.nic, nic⟩)

def hwiDelete (dev : VirtmmioDev) : List Call :=
  if dev.irq &&& ~~~irqMask != 0 then [.hwiDelete dev.irq] else []

def virtnetDeInit (k : Kernel) (netif : UInt32) (s : State) : List Call :=
  access .lwip [⟨netif.toNat, k.sizeofNetif⟩] ++
    (if s.addr ≠ 0 then
      access .lwip [⟨s.addr.toNat, k.sizeofVirtNetif⟩] ++ hwiDelete s.nic.dev ++
        freeIf .libc s.nic.rbufRec ++ freeIf .libc s.nic.tbufRec ++
        freeIf .libc (s.nic.dev.vq 0).desc ++ freeIf .lwip s.addr
    else []) ++
    [.memory .lwip (.free netif.toNat)]

/-- The calls of VirtnetInit and what it returns; `none` when it faults. lwIP's netif_add returns
NULL when it refuses the interface or when its init function reports an error. -/
def virtnetInit (k : Kernel) (env : Env k) : List Call × Option UInt32 :=
  let calls := alloc .lwip env.netif k.sizeofNetif
  if env.netif = 0 then (calls, some 0)
  else
    let (init, ret, s) :=
      if env.netifAdd then ethernetIfInit k env else ([], some .interface, ⟨0, zeroNic⟩)
    match ret with
    | none => (calls ++ init, none)
    | some .ok => (calls ++ init, some env.netif)
    | some _ => (calls ++ init ++ virtnetDeInit k env.netif s, some 0)

@[simp] def Call.op (h : Heap) : Call → Option Op
  | .memory h' op => if h' = h then some op else none
  | _ => none

def heapOps (h : Heap) (calls : List Call) : List Op := calls.filterMap (Call.op h)

/-- Every free is of an address as the allocator returned it, nothing is accessed that is not
allocated, and when VirtnetInit gives up each address was freed as often as it was returned. -/
structure Exact (h : Heap) (r : List Call × Option UInt32) : Prop where
  sound : ∃ live, Runs [] (heapOps h r.1) live
  freed : r.2 = some 0 → ∀ a, (heapOps h r.1).count (.free a) = allocs (heapOps h r.1) a

@[simp] theorem heapOps_append (h : Heap) (cs ds : List Call) :
    heapOps h (cs ++ ds) = heapOps h cs ++ heapOps h ds := List.filterMap_append

@[simp] theorem heapOps_nil (h : Heap) : heapOps h [] = [] := rfl

@[simp] theorem heapOps_cons (h : Heap) (c : Call) (cs : List Call) :
    heapOps h (c :: cs) = (c.op h).toList ++ heapOps h cs := by
  rw [heapOps, List.filterMap_cons]
  cases c.op h <;> rfl

theorem heapOps_map {α : Type} (h h' : Heap) (f : α → Op) (xs : List α) :
    heapOps h (xs.map fun x => .memory h' (f x)) = if h' = h then xs.map f else [] := by
  induction xs with
  | nil => simp
  | cons x xs ih => by_cases hh : h' = h <;> simp_all

@[simp] theorem heapOps_alloc (h h' : Heap) (a : UInt32) (size : ℕ) :
    heapOps h (alloc h' a size) = if h' = h then (block a.toNat size).map .alloc else [] :=
  heapOps_map h h' .alloc _

@[simp] theorem heapOps_access (h h' : Heap) (rs : List Region) :
    heapOps h (access h' rs) = if h' = h then rs.map .access else [] :=
  heapOps_map h h' .access rs

@[simp] theorem heapOps_freeIf (h h' : Heap) (a : UInt32) :
    heapOps h (freeIf h' a) = if h' = h then release a.toNat else [] := by
  rw [freeIf, heapOps_map h h' (fun op => op), List.map_id']

@[simp] theorem heapOps_hwiDelete (h : Heap) (dev : VirtmmioDev) : heapOps h (hwiDelete dev) = [] := by
  unfold hwiDelete
  split <;> rfl

variable {k : Kernel} {env : Env k}

/-- The queues as ConfigQueue asks for them. -/
def queuesOf (k : Kernel) (env : Env k) : UInt32 × List Virtq :=
  virtmmioConfigQueue k.toKernel env.queueNumMax env.base
    [virtmmioNetifDftRxqsz, virtmmioNetifDftTxqsz]

theorem queues_sound (hbuf : (queuesOf k env).1 ≠ 0) :
    Sound k.toKernel env.base [virtmmioNetifDftRxqsz, virtmmioNetifDftTxqsz] (queuesOf k env).1
      (queuesOf k env).2 := by
  apply configQueueFrom_sound k.toKernel env.queueNumMax _ hbuf
  have hfits := env.base_fits
  rw [configQueueSize_toNat] at hfits
  simp only [List.map_cons, List.map_nil, List.sum_cons, List.sum_nil]
  omega

theorem queues_pair (hbuf : (queuesOf k env).1 ≠ 0) :
    ∃ rx tx, (queuesOf k env).2 = [rx, tx] ∧ rx.qsz = 16 ∧ tx.qsz = 32 ∧
      ∀ r ∈ rx.regions ++ tx.regions,
        env.base.toNat ≤ r.start ∧ r.stop ≤ env.base.toNat + (configQueueSize k.toKernel).toNat := by
  have hsound := queues_sound hbuf
  have hsizes := hsound.sizes
  rcases hqs : (queuesOf k env).2 with _ | ⟨rx, _ | ⟨tx, _ | ⟨_, _⟩⟩⟩ <;>
    simp only [hqs, List.map_cons, List.map_nil, List.cons.injEq, reduceCtorEq, and_false,
      and_true] at hsizes
  refine ⟨rx, tx, rfl, hsizes.1, hsizes.2, ?_⟩
  intro r hr
  have hmem : r ∈ (queuesOf k env).2.flatMap Virtq.regions := by
    rw [hqs]
    simpa using hr
  obtain ⟨hlo, hhi⟩ := hsound.packed.within hmem
  have hstop := hsound.stop
  simp only [List.map_cons, List.map_nil, List.sum_cons, List.sum_nil] at hstop
  rw [configQueueSize_toNat]
  exact ⟨hlo, by omega⟩

theorem queues_desc (d : Virtq) :
    ((queuesOf k env).2.getD 0 d).desc = k.align env.base virtqAlignDesc := by
  simp only [queuesOf, virtmmioConfigQueue, configQueueFrom]
  split <;> rfl

/-- The blocks `nic` and the block of the queues at `b` are live, and vq[0].desc is `b` aligned. -/
structure Started (k : Kernel) (b : UInt32) (nic : VirtNetif) (ops : List Op) : Prop where
  runs : ∃ tx rx, Runs [] ops (block nic.tbufRec.toNat tx ++ block nic.rbufRec.toNat rx ++
    block b.toNat (configQueueSize k.toKernel).toNat)
  desc : (nic.dev.vq 0).desc = if b = 0 then 0 else k.align b virtqAlignDesc

/-- Before ConfigQueue the record names no block. -/
structure Fresh (nic : VirtNetif) : Prop where
  rbufRec : nic.rbufRec = 0
  tbufRec : nic.tbufRec = 0
  desc : (nic.dev.vq 0).desc = 0

theorem Fresh.started {nic : VirtNetif} (h : Fresh nic) : Started k 0 nic [] := by
  constructor
  · refine ⟨0, 0, ?_⟩
    rw [h.rbufRec, h.tbufRec]
    exact Runs.nil []
  · exact h.desc

theorem rxAccesses_sound {q : Virtq} {rbufRec : UInt32} {live : List Region} {b : Region}
    (hq : ∀ r ∈ q.regions, b.start ≤ r.start ∧ r.stop ≤ b.stop) (hb : b ∈ live)
    (hrec : ⟨rbufRec.toNat, q.qsz.toNat * k.sizeofRbufRecord⟩ ∈ live) :
    ∀ r ∈ rxAccesses k q rbufRec, (Op.access r).Sound live := by
  intro r hr
  obtain ⟨i, hi, hr⟩ := List.mem_flatMap.mp hr
  have hi := List.mem_range.mp hi
  simp only [Virtq.regions, List.forall_mem_cons, List.not_mem_nil, false_imp_iff, implies_true,
    and_true, Region.stop] at hq
  obtain ⟨hdesc, havail, -⟩ := hq
  simp only [List.mem_cons, List.not_mem_nil, or_false] at hr
  rcases hr with rfl | rfl | rfl
  · apply sound_access hb <;> simp only [Region.stop] <;> omega
  · apply sound_access hb <;> simp only [Region.stop] <;> omega
  · apply sound_access hrec
    · exact Nat.le_add_right _ _
    · have hle : (i + 1) * k.sizeofRbufRecord ≤ q.qsz.toNat * k.sizeofRbufRecord :=
        Nat.mul_le_mul_right _ hi
      simp only [Region.stop]
      rw [Nat.add_mul, Nat.one_mul, Nat.mul_comm] at hle
      omega

theorem txAccesses_sound {q : Virtq} {live : List Region} {b : Region}
    (hq : ∀ r ∈ q.regions, b.start ≤ r.start ∧ r.stop ≤ b.stop) (hb : b ∈ live) :
    ∀ r ∈ txAccesses q, (Op.access r).Sound live := by
  intro r hr
  obtain ⟨i, hi, rfl⟩ := List.mem_map.mp hr
  have hi := List.mem_range.mp hi
  have hdesc := hq _ List.mem_cons_self
  simp only [Region.stop] at hdesc
  apply sound_access hb <;> simp only [Region.stop] <;> omega

theorem configRxBuffer_runs {nic : VirtNetif} {live : List Region} {b : Region}
    (hq : ∀ r ∈ (nic.dev.vq 0).regions, b.start ≤ r.start ∧ r.stop ≤ b.stop) (hb : b ∈ live) :
    Runs live (heapOps .libc (configRxBuffer k env nic).1)
      (block env.rbufRec.toNat ((nic.dev.vq 0).qsz.toNat * k.sizeofRbufRecord) ++ live) := by
  have halloc := runs_alloc live env.rbufRec.toNat
    ((nic.dev.vq 0).qsz.toNat * k.sizeofRbufRecord)
  simp only [configRxBuffer]
  split_ifs with hnull
  · simpa using halloc
  · have hne : env.rbufRec.toNat ≠ 0 := fun h => hnull (UInt32.toNat_inj.mp h)
    have haccess : ∀ r ∈ rxAccesses k (nic.dev.vq 0) env.rbufRec, (Op.access r).Sound
        (block env.rbufRec.toNat ((nic.dev.vq 0).qsz.toNat * k.sizeofRbufRecord) ++ live) := by
      apply rxAccesses_sound hq (List.mem_append_right _ hb)
      rw [block_of_ne hne]
      exact List.mem_append_left _ List.mem_cons_self
    simpa using halloc.append (Runs.accesses haccess)

theorem initTxFreelist_runs {nic : VirtNetif} {live : List Region} {b : Region}
    (hq : ∀ r ∈ (nic.dev.vq 1).regions, b.start ≤ r.start ∧ r.stop ≤ b.stop) (hb : b ∈ live) :
    Runs live (heapOps .libc (initTxFreelist k env nic).1)
      (block env.tbufRec.toNat (sizeofTbufRecord * (nic.dev.vq 1).qsz.toNat) ++ live) := by
  have halloc := runs_alloc live env.tbufRec.toNat
    (sizeofTbufRecord * (nic.dev.vq 1).qsz.toNat)
  simp only [initTxFreelist]
  split_ifs with hnull
  · simpa using halloc
  · have haccess : ∀ r ∈ txAccesses (nic.dev.vq 1), (Op.access r).Sound
        (block env.tbufRec.toNat (sizeofTbufRecord * (nic.dev.vq 1).qsz.toNat) ++ live) :=
      txAccesses_sound hq (List.mem_append_right _ hb)
    simpa using halloc.append (Runs.accesses haccess)

theorem configRxBuffer_result (nic : VirtNetif) :
    (configRxBuffer k env nic).2 =
      (if env.rbufRec = 0 then .mem else .ok, { nic with rbufRec := env.rbufRec }) := by
  simp only [configRxBuffer]
  split_ifs <;> rfl

theorem initTxFreelist_result (nic : VirtNetif) :
    (initTxFreelist k env nic).2 =
      (if env.tbufRec = 0 then .mem else .ok, { nic with tbufRec := env.tbufRec }) := by
  simp only [initTxFreelist]
  split_ifs <;> rfl

/-- What ConfigQueue leaves when the queues are placed and `rx`, `tx` are the two of them. -/
theorem configQueue_eq (nic : VirtNetif) : configQueue k env nic =
    if env.base = 0 then ([], .mem, nic)
    else if (queuesOf k env).1 = 0 then
      (alloc .libc env.base (configQueueSize k.toKernel).toNat, .interface,
        nic.setQueues (queuesOf k env).2)
    else
      let rx := configRxBuffer k env (nic.setQueues (queuesOf k env).2)
      let tx := initTxFreelist k env rx.2.2
      let calls := alloc .libc env.base (configQueueSize k.toKernel).toNat ++ rx.1
      if rx.2.1 ≠ .ok then (calls, rx.2.1, rx.2.2) else (calls ++ tx.1, tx.2.1, tx.2.2) := by
  by_cases hbase : env.base = 0
  · simp only [configQueue, if_pos hbase, alloc]
    rw [hbase]
    rfl
  · simp only [configQueue, if_neg hbase]
    rfl

theorem queues_within {nic : VirtNetif} (hbuf : (queuesOf k env).1 ≠ 0) {i : ℕ} (hi : i < 2) :
    ∀ r ∈ ((nic.setQueues (queuesOf k env).2).dev.vq i).regions,
      env.base.toNat ≤ r.start ∧ r.stop ≤ env.base.toNat + (configQueueSize k.toKernel).toNat := by
  obtain ⟨rx, tx, hqs, -, -, hwithin⟩ := queues_pair hbuf
  intro r hr
  apply hwithin r
  simp only [VirtNetif.setQueues, hqs] at hr
  rcases i with _ | _ | i
  · exact List.mem_append_left _ hr
  · exact List.mem_append_right _ hr
  · omega

/-- ConfigRxBuffer and InitTxFreelist from queues that lie in the live block at `env.base`. -/
theorem configBuffers_started {nic : VirtNetif} (htx : nic.tbufRec = 0)
    (hq : ∀ i < 2, ∀ r ∈ (nic.dev.vq i).regions,
      env.base.toNat ≤ r.start ∧ r.stop ≤ env.base.toNat + (configQueueSize k.toKernel).toNat)
    (hbase : env.base ≠ 0) (hdesc : (nic.dev.vq 0).desc = k.align env.base virtqAlignDesc) :
    let rx := configRxBuffer k env nic
    let tx := initTxFreelist k env rx.2.2
    let calls := alloc .libc env.base (configQueueSize k.toKernel).toNat ++ rx.1
    let r := if rx.2.1 ≠ .ok then (calls, rx.2.1, rx.2.2) else (calls ++ tx.1, tx.2.1, tx.2.2)
    Started k env.base r.2.2 (heapOps .libc r.1) := by
  have hne : env.base.toNat ≠ 0 := fun h => hbase (UInt32.toNat_inj.mp h)
  have hmem : (⟨env.base.toNat, (configQueueSize k.toKernel).toNat⟩ : Region) ∈
      block env.base.toNat (configQueueSize k.toKernel).toNat ++ [] := by
    rw [block_of_ne hne]
    exact List.mem_append_left _ List.mem_cons_self
  have hruns := (runs_alloc [] env.base.toNat (configQueueSize k.toKernel).toNat).append
    (@configRxBuffer_runs k env nic _ _ (hq 0 (by decide)) hmem)
  intro rx tx calls r
  have hrx : rx.2 = _ := configRxBuffer_result nic
  by_cases hrec : env.rbufRec = 0
  · have hr : r = (calls, rx.2.1, rx.2.2) := if_pos (by rw [hrx, if_pos hrec]; nofun)
    rw [hr, hrx]
    constructor
    · refine ⟨0, (nic.dev.vq 0).qsz.toNat * k.sizeofRbufRecord, ?_⟩
      simpa [calls, htx] using hruns
    · rw [if_neg hbase]
      exact hdesc
  · have hr : r = (calls ++ tx.1, tx.2.1, tx.2.2) := if_neg (by rw [hrx, if_neg hrec]; exact fun h => h rfl)
    have htxruns := hruns.append (@initTxFreelist_runs k env rx.2.2 _ _
      (by rw [hrx]; exact hq 1 (by decide)) (List.mem_append_right _ hmem))
    have htxr : tx.2 = _ := initTxFreelist_result rx.2.2
    rw [hr, htxr, hrx]
    constructor
    · refine ⟨sizeofTbufRecord * (rx.2.2.dev.vq 1).qsz.toNat,
        (nic.dev.vq 0).qsz.toNat * k.sizeofRbufRecord, ?_⟩
      simpa [calls, tx] using htxruns
    · rw [if_neg hbase]
      exact hdesc

theorem configQueue_started {nic : VirtNetif} (h : Fresh nic) :
    Started k env.base (configQueue k env nic).2.2 (heapOps .libc (configQueue k env nic).1) := by
  have hruns := runs_alloc [] env.base.toNat (configQueueSize k.toKernel).toNat
  rw [configQueue_eq]
  split_ifs with hbase hbuf
  · rw [hbase]
    exact h.started
  · constructor
    · refine ⟨0, 0, ?_⟩
      simpa [VirtNetif.setQueues, h.rbufRec, h.tbufRec] using hruns
    · rw [if_neg hbase]
      exact queues_desc _
  · exact configBuffers_started h.tbufRec (fun i hi => queues_within hbuf hi) hbase (queues_desc _)

theorem configQueue_ok_iff (nic : VirtNetif) : (configQueue k env nic).2.1 = .ok ↔
    env.base ≠ 0 ∧ (queuesOf k env).1 ≠ 0 ∧ env.rbufRec ≠ 0 ∧ env.tbufRec ≠ 0 := by
  rw [configQueue_eq]
  by_cases hbase : env.base = 0
  · simp [hbase]
  · by_cases hbuf : (queuesOf k env).1 = 0
    · simp [hbase, hbuf]
    · by_cases hrx : env.rbufRec = 0
      · simp [hbase, hbuf, hrx, configRxBuffer_result]
      · simp [hbase, hbuf, hrx, configRxBuffer_result, initTxFreelist_result]

theorem configQueue_vq {nic : VirtNetif} (h : (configQueue k env nic).2.1 = .ok) :
    (configQueue k env nic).2.2.dev.vq = (nic.setQueues (queuesOf k env).2).dev.vq := by
  obtain ⟨hbase, hbuf, hrx, -⟩ := (configQueue_ok_iff nic).mp h
  rw [configQueue_eq, if_neg hbase, if_neg hbuf]
  simp [hrx, configRxBuffer_result, initTxFreelist_result]

def Env.accepts (env : Env k) : Prop :=
  ¬ env.queueNumMax 0 < virtmmioNetifDftRxqsz.toUInt32 ∧
    ¬ env.queueNumMax 1 < virtmmioNetifDftTxqsz.toUInt32

theorem queuesOf_ne_zero_iff : (queuesOf k env).1 ≠ 0 ↔ env.accepts := by
  have hfits := env.base_fits
  rw [configQueueSize_toNat] at hfits
  obtain ⟨hsize, -, -, hstop, -⟩ := @calculateQueueAddr_packed k.toKernel env.base
    virtmmioNetifDftRxqsz (by omega)
  obtain ⟨hsize', -, hpacked, -, -⟩ := @calculateQueueAddr_packed k.toKernel
    (calculateQueueAddr k.toKernel env.base virtmmioNetifDftRxqsz).1 virtmmioNetifDftTxqsz
    (by omega)
  simp only [queuesOf, virtmmioConfigQueue, configQueueFrom, completeConfigQueue, hsize, hsize',
    Env.accepts]
  by_cases hrx : env.queueNumMax 0 < virtmmioNetifDftRxqsz.toUInt32
  · simp [hrx]
  · by_cases htx : env.queueNumMax 1 < virtmmioNetifDftTxqsz.toUInt32
    · simp [hrx, htx]
    · have hpos : (calculateQueueAddr k.toKernel
          (calculateQueueAddr k.toKernel env.base virtmmioNetifDftRxqsz).1
          virtmmioNetifDftTxqsz).1 ≠ 0 := by
        intro hzero
        have hdescs := (hpacked.within List.mem_cons_self).2
        have hlen : 16 * virtmmioNetifDftTxqsz.toNat = 512 := rfl
        simp only [Region.stop, hsize', hzero, UInt32.toNat_zero] at hdescs
        omega
      simp [hrx, htx, hpos]

def Env.discovers (env : Env k) : Prop :=
  ∃ i < numVirtioTransports, (env.transports i).matches virtmmioDeviceIdNet = true

theorem virtmmioDiscover_eq_none {bus : Bus} {devId : UInt32} {dev : VirtmmioDev} {n : ℕ} :
    virtmmioDiscover bus devId dev n = none ↔
      ¬ ∃ i < n, (bus.transports i).matches devId = true := by
  induction n with
  | zero => simp [virtmmioDiscover]
  | succ n ih =>
    simp only [virtmmioDiscover]
    by_cases hm : (bus.transports n).matches devId = true
    · rw [if_pos hm]
      exact iff_of_false nofun fun hnone => hnone ⟨n, Nat.lt_succ_self n, hm⟩
    · rw [if_neg hm, ih]
      apply not_congr
      constructor
      · rintro ⟨i, hi, hdev⟩
        exact ⟨i, Nat.lt_succ_of_lt hi, hdev⟩
      · rintro ⟨i, hi, hdev⟩
        refine ⟨i, lt_of_le_of_ne (Nat.lt_succ_iff.mp hi) ?_, hdev⟩
        rintro rfl
        exact hm hdev

theorem virtmmioDiscover_vq {bus : Bus} {devId : UInt32} {dev dev' : VirtmmioDev} {n : ℕ}
    (h : virtmmioDiscover bus devId dev n = some dev') : dev'.vq = dev.vq := by
  induction n with
  | zero => cases h
  | succ n ih =>
    simp only [virtmmioDiscover] at h
    split_ifs at h with hm
    · cases h
      rfl
    · exact ih h

/-- LowLevelInit reaches ConfigQueue. -/
def Env.configures (env : Env k) : Prop := env.discovers ∧ env.negotiate = true

/-- ConfigQueue, once reached, succeeds. -/
def Env.queues (env : Env k) : Prop :=
  env.base ≠ 0 ∧ env.accepts ∧ env.rbufRec ≠ 0 ∧ env.tbufRec ≠ 0

theorem configQueue_ok (nic : VirtNetif) : (configQueue k env nic).2.1 = .ok ↔ env.queues := by
  rw [configQueue_ok_iff, queuesOf_ne_zero_iff, Env.queues]

theorem configQueue_lwip (nic : VirtNetif) : heapOps .lwip (configQueue k env nic).1 = [] := by
  have hrx (nic : VirtNetif) : heapOps .lwip (configRxBuffer k env nic).1 = [] := by
    simp only [configRxBuffer]
    split_ifs <;> simp
  have htx (nic : VirtNetif) : heapOps .lwip (initTxFreelist k env nic).1 = [] := by
    simp only [initTxFreelist]
    split_ifs <;> simp
  rw [configQueue_eq]
  dsimp only
  split_ifs <;> simp [hrx, htx]

/-- What VirtmmioRegisterIRQ does to its parameter block. -/
def paramOps (k : Kernel) (env : Env k) : List Op :=
  (block env.param.toNat k.sizeofHwiIrqParam).map .alloc ++
    [.access ⟨env.param.toNat, k.sizeofHwiIrqParam⟩]

/-- How LowLevelInit ends: before ConfigQueue, in ConfigQueue, or with the interrupt. -/
inductive Ending (k : Kernel) (env : Env k) : List Call × Option Err × VirtNetif → Prop where
  | absent {calls nic} (hc : ¬ env.configures) (hlwip : heapOps .lwip calls = [])
      (hlibc : Started k 0 nic (heapOps .libc calls)) :
      Ending k env (calls, some .interface, nic)
  | refused {calls ret nic} (hc : env.configures) (hq : ¬ env.queues) (hret : ret ≠ .ok)
      (hlwip : heapOps .lwip calls = [])
      (hlibc : Started k env.base nic (heapOps .libc calls)) :
      Ending k env (calls, some ret, nic)
  | interrupt {calls ret nic} (hc : env.configures) (hq : env.queues)
      (hret : ret = if env.param = 0 then none
        else if env.hwiCreate then some .ok else some .interface)
      (hlwip : heapOps .lwip calls = paramOps k env)
      (hlibc : Started k env.base nic (heapOps .libc calls)) :
      Ending k env (calls, ret, nic)

theorem Started.notify {nic : VirtNetif} {ops : List Op} (h : Started k env.base nic ops)
    (hbuf : (queuesOf k env).1 ≠ 0) (hbase : env.base ≠ 0) {nic' : VirtNetif}
    (hvq : nic.dev.vq = (nic'.setQueues (queuesOf k env).2).dev.vq) :
    Started k env.base nic (ops ++ [.access ⟨(nic.dev.vq 0).avail.toNat + 2, 2⟩]) := by
  obtain ⟨tx, rx, hruns⟩ := h.runs
  refine ⟨⟨tx, rx, hruns.append ?_⟩, h.desc⟩
  have hne : env.base.toNat ≠ 0 := fun h => hbase (UInt32.toNat_inj.mp h)
  have havail := @queues_within k env nic' hbuf 0 (by decide) _
    (List.mem_cons_of_mem _ List.mem_cons_self)
  rw [← hvq] at havail
  apply Runs.cons _ (Runs.nil _)
  rw [block_of_ne hne]
  apply sound_access (List.mem_append_right _ (List.mem_singleton_self _))
  · simp only [Region.stop] at havail ⊢
    omega
  · simp only [Region.stop] at havail ⊢
    omega

theorem lowLevelInit_ending {nic : VirtNetif} (h : Fresh nic) :
    Ending k env (lowLevelInit k env nic) := by
  unfold lowLevelInit
  cases hdisc : virtmmioDiscover env.toBus virtmmioDeviceIdNet nic.dev numVirtioTransports with
  | none =>
    have hnone := virtmmioDiscover_eq_none.mp hdisc
    exact .absent (fun hc => hnone hc.1) rfl h.started
  | some dev =>
    have hdev : env.discovers := by
      by_contra hnone
      rw [virtmmioDiscover_eq_none.mpr hnone] at hdisc
      cases hdisc
    have hfresh : Fresh { nic with dev } :=
      ⟨h.rbufRec, h.tbufRec, by rw [virtmmioDiscover_vq hdisc]; exact h.desc⟩
    by_cases hneg : env.negotiate = true
    · have hstarted := @configQueue_started k env _ hfresh
      have hlwip := @configQueue_lwip k env { nic with dev }
      have hok := @configQueue_ok k env { nic with dev }
      have hvq := @configQueue_vq k env { nic with dev }
      simp only [hneg, Bool.not_true, Bool.false_eq_true, if_false]
      generalize configQueue k env { nic with dev } = r at hstarted hlwip hok hvq ⊢
      obtain ⟨calls, ret, nic'⟩ := r
      by_cases hret : ret = .ok
      · have hq := hok.mp hret
        have hnotify := hstarted.notify (queuesOf_ne_zero_iff.mpr hq.2.1) hq.1 (hvq hret)
        simp only [hret, ne_eq, not_true_eq_false, if_false, virtmmioRegisterIRQ]
        by_cases hparam : env.param = 0
        · simp only [if_pos hparam]
          apply Ending.interrupt ⟨hdev, hneg⟩ hq (if_pos hparam).symm
          · simp [hlwip, paramOps]
          · simpa using hstarted
        · simp only [if_neg hparam]
          cases hhwi : env.hwiCreate with
          | false =>
            apply Ending.interrupt ⟨hdev, hneg⟩ hq (by rw [if_neg hparam, hhwi]; rfl)
            · simp [hlwip, paramOps]
            · simpa using hstarted
          | true =>
            apply Ending.interrupt ⟨hdev, hneg⟩ hq (by rw [if_neg hparam, hhwi]; rfl)
            · simp [hlwip, paramOps]
            · simpa using hnotify
      · simp only [ne_eq, hret, not_false_eq_true, if_true]
        apply Ending.refused ⟨hdev, hneg⟩ (fun hq => hret (hok.mpr hq)) hret
        · simpa using hlwip
        · simpa using hstarted
    · simp only [hneg, Bool.not_false, if_true]
      exact .absent (fun hc => hneg hc.2) rfl hfresh.started

/-- What VirtnetDeInit frees of calloc's and malloc's blocks. -/
def releases (nic : VirtNetif) : List Op :=
  release nic.rbufRec.toNat ++ release nic.tbufRec.toNat ++ release (nic.dev.vq 0).desc.toNat

theorem Started.desc_toNat {b : UInt32} {nic : VirtNetif} {ops : List Op}
    (h : Started k b nic ops) (hb : b.toNat + 16 ≤ 4294967296) :
    (nic.dev.vq 0).desc.toNat = (b.toNat + 15) / 16 * 16 := by
  rw [h.desc]
  split_ifs with hnull
  · rw [hnull]
    rfl
  · exact align_desc k.toKernel hb

/-- The queue block is freed through vq[0].desc, which is its address only when it is aligned. -/
theorem Started.runs_iff {b : UInt32} {nic : VirtNetif} {ops : List Op}
    (h : Started k b nic ops) (hb : b.toNat + 16 ≤ 4294967296) (live : List Region) :
    Runs [] (ops ++ releases nic) live ↔ b.toNat % 16 = 0 ∧ live = [] := by
  obtain ⟨tx, rx, hruns⟩ := h.runs
  have hrecords := hruns.append (runs_release_pair _ _ rx tx _)
  have hdesc := h.desc_toNat hb
  have hfree := runs_release b.toNat (configQueueSize k.toKernel).toNat []
  rw [List.append_nil] at hfree
  rw [releases, ← List.append_assoc, runs_append_iff]
  constructor
  · rintro ⟨mid, hmid, hrest⟩
    cases hrecords.unique hmid
    have hmod : b.toNat % 16 = 0 := by
      by_contra hne
      have hpos : (nic.dev.vq 0).desc.toNat ≠ 0 := by omega
      rw [release_of_ne hpos] at hrest
      cases hrest with
      | cons hop _ =>
        obtain ⟨b', hb', hstart⟩ := hop
        rw [block_of_ne (by omega)] at hb'
        cases List.mem_singleton.mp hb'
        dsimp only at hstart
        omega
    rw [show (nic.dev.vq 0).desc.toNat = b.toNat by omega] at hrest
    exact ⟨hmod, hrest.unique hfree⟩
  · rintro ⟨hmod, rfl⟩
    refine ⟨_, hrecords, ?_⟩
    rw [show (nic.dev.vq 0).desc.toNat = b.toNat by omega]
    exact hfree

/-- EthernetIfInit gets the driver's record. -/
def Env.attaches (env : Env k) : Prop := env.netif ≠ 0 ∧ env.netifAdd = true ∧ env.nic ≠ 0

/-- ConfigQueue gets the block of the queues. -/
def Env.allocates (env : Env k) : Prop := env.attaches ∧ env.configures ∧ env.base ≠ 0

/-- From there on something fails and VirtnetDeInit runs. -/
def Env.givesUp (env : Env k) : Prop :=
  ¬ env.queues ∨ env.param ≠ 0 ∧ env.hwiCreate = false

theorem Exact.of_runs {h : Heap} {r : List Call × Option UInt32}
    (hruns : Runs [] (heapOps h r.1) []) : Exact h r := ⟨⟨[], hruns⟩, fun _ a => hruns.freed a⟩

/-- The calls up to LowLevelInit and `calls` from there. -/
def upTo (k : Kernel) (env : Env k) (calls : List Call) : List Call :=
  alloc .lwip env.netif k.sizeofNetif ++ (alloc .lwip env.nic k.sizeofVirtNetif ++
    access .lwip [⟨env.netif.toNat, k.sizeofNetif⟩, ⟨env.nic.toNat, k.sizeofVirtNetif⟩] ++ calls)

@[simp] theorem upTo_libc (calls : List Call) :
    heapOps .libc (upTo k env calls) = heapOps .libc calls := by simp [upTo]

/-- VirtnetInit after LowLevelInit returned `ret`. -/
def attached (k : Kernel) (env : Env k) (r : List Call × Option Err × VirtNetif) :
    List Call × Option UInt32 :=
  match r.2.1 with
  | none => (upTo k env r.1, none)
  | some .ok => (upTo k env r.1, some env.netif)
  | some _ => (upTo k env r.1 ++ virtnetDeInit k env.netif ⟨env.nic, r.2.2⟩, some 0)

theorem virtnetInit_attached (h : env.attaches) :
    virtnetInit k env = attached k env (lowLevelInit k env zeroNic) := by
  obtain ⟨hnetif, hadd, hnic⟩ := h
  simp only [virtnetInit, if_neg hnetif, hadd, if_true, ethernetIfInit, if_neg hnic]
  rfl

theorem attached_of_ne {calls : List Call} {ret : Err} {nic : VirtNetif} (h : ret ≠ .ok) :
    attached k env (calls, some ret, nic) =
      (upTo k env calls ++ virtnetDeInit k env.netif ⟨env.nic, nic⟩, some 0) := by
  cases ret with
  | ok => exact absurd rfl h
  | mem => rfl
  | interface => rfl

theorem virtnetInit_detached (h : ¬ env.attaches) :
    heapOps .libc (virtnetInit k env).1 = [] := by
  simp only [virtnetInit]
  by_cases hnetif : env.netif = 0
  · simp [hnetif]
  · by_cases hadd : env.netifAdd = true
    · have hnic : env.nic = 0 := by
        by_contra hne
        exact h ⟨hnetif, hadd, hne⟩
      simp [hnetif, hadd, ethernetIfInit, hnic, virtnetDeInit]
    · simp [hnetif, hadd, virtnetDeInit]

theorem fresh_zeroNic : Fresh zeroNic := ⟨rfl, rfl, rfl⟩

theorem deInit_libc (netif : UInt32) {s : State} (h : s.addr ≠ 0) :
    heapOps .libc (virtnetDeInit k netif s) = releases s.nic := by
  simp [virtnetDeInit, h, releases]

/-- With the teardown the run is exact just when the queue block needed no aligning. -/
theorem Started.exact_iff {b : UInt32} {nic : VirtNetif} {calls : List Call}
    (h : Started k b nic (heapOps .libc calls)) (hb : b.toNat + 16 ≤ 4294967296)
    (hnic : env.nic ≠ 0) {ret : Err} (hret : ret ≠ .ok) :
    Exact .libc (attached k env (calls, some ret, nic)) ↔ b.toNat % 16 = 0 := by
  have hops : heapOps .libc (attached k env (calls, some ret, nic)).1 =
      heapOps .libc calls ++ releases nic := by
    rw [attached_of_ne hret, heapOps_append, upTo_libc, deInit_libc _ hnic]
  constructor
  · intro hexact
    obtain ⟨live, hruns⟩ := hexact.sound
    rw [hops] at hruns
    exact ((h.runs_iff hb live).mp hruns).1
  · intro hmod
    apply Exact.of_runs
    rw [hops]
    exact (h.runs_iff hb []).mpr ⟨hmod, rfl⟩

theorem Started.exact {b : UInt32} {nic : VirtNetif} {calls : List Call} {ret : Option UInt32}
    (h : Started k b nic (heapOps .libc calls)) (hret : ret ≠ some 0) :
    Exact .libc (upTo k env calls, ret) := by
  obtain ⟨tx, rx, hruns⟩ := h.runs
  rw [← @upTo_libc k env] at hruns
  exact ⟨⟨_, hruns⟩, fun hzero => absurd hzero hret⟩

/-- VirtnetInit and VirtnetDeInit free what was allocated, as it was allocated, unless the queue
block is not aligned to 16 bytes and a step after its allocation fails. -/
theorem frees_as_allocated_iff (k : Kernel) (env : Env k) :
    Exact .libc (virtnetInit k env) ↔
      ¬ (env.allocates ∧ env.givesUp) ∨ env.base.toNat % 16 = 0 := by
  by_cases hattach : env.attaches
  · have hfits : env.base.toNat + 16 ≤ 4294967296 := by
      have hfits := env.base_fits
      rw [configQueueSize_toNat] at hfits
      omega
    have hinterface : Err.interface ≠ .ok := nofun
    have hending := @lowLevelInit_ending k env zeroNic fresh_zeroNic
    rw [virtnetInit_attached hattach]
    generalize lowLevelInit k env zeroNic = r at hending
    cases hending with
    | absent hc _ hlibc =>
      have hexact := (hlibc.exact_iff (by decide) hattach.2.2 hinterface).mpr rfl
      exact iff_of_true hexact (Or.inl fun h => hc h.1.2.1)
    | refused hc hq hret _ hlibc =>
      rw [hlibc.exact_iff hfits hattach.2.2 hret]
      by_cases hbase : env.base = 0
      · exact iff_of_true (by rw [hbase]; rfl) (Or.inl fun h => h.1.2.2 hbase)
      · rw [or_iff_right (not_not.mpr ⟨⟨hattach, hc, hbase⟩, Or.inl hq⟩)]
    | interrupt hc hq hret _ hlibc =>
      by_cases hparam : env.param = 0
      · rw [hret, if_pos hparam]
        refine iff_of_true (hlibc.exact nofun) (Or.inl fun h => ?_)
        exact h.2.elim (fun hnot => hnot hq) fun hhwi => hhwi.1 hparam
      · rw [hret, if_neg hparam]
        cases hhwi : env.hwiCreate with
        | false =>
          refine (hlibc.exact_iff hfits hattach.2.2 hinterface).trans ?_
          rw [or_iff_right (not_not.mpr ⟨⟨hattach, hc, hq.1⟩, Or.inr ⟨hparam, hhwi⟩⟩)]
        | true =>
          have hnetif : some env.netif ≠ some 0 := fun h => hattach.1 (Option.some.inj h)
          refine iff_of_true (hlibc.exact hnetif) (Or.inl fun h => ?_)
          refine h.2.elim (fun hnot => hnot hq) fun hfalse => ?_
          rw [hhwi] at hfalse
          cases hfalse.2
  · have hnone := virtnetInit_detached hattach
    have hexact : Exact .libc (virtnetInit k env) := by
      apply Exact.of_runs
      rw [hnone]
      exact Runs.nil []
    exact iff_of_true hexact (Or.inl fun h => hattach h.1.1)

/-- netif and nic as allocated and written to, and as VirtnetDeInit reads and frees them. -/
def upOps (k : Kernel) (env : Env k) : List Op :=
  [.alloc ⟨env.netif.toNat, k.sizeofNetif⟩, .alloc ⟨env.nic.toNat, k.sizeofVirtNetif⟩,
    .access ⟨env.netif.toNat, k.sizeofNetif⟩, .access ⟨env.nic.toNat, k.sizeofVirtNetif⟩]

def downOps (k : Kernel) (env : Env k) : List Op :=
  [.access ⟨env.netif.toNat, k.sizeofNetif⟩, .access ⟨env.nic.toNat, k.sizeofVirtNetif⟩,
    .free env.nic.toNat, .free env.netif.toNat]

theorem toNat_of_attaches (h : env.attaches) : env.netif.toNat ≠ 0 ∧ env.nic.toNat ≠ 0 :=
  ⟨fun hz => h.1 (UInt32.toNat_inj.mp hz), fun hz => h.2.2 (UInt32.toNat_inj.mp hz)⟩

theorem upTo_lwip (h : env.attaches) (calls : List Call) :
    heapOps .lwip (upTo k env calls) = upOps k env ++ heapOps .lwip calls := by
  obtain ⟨hnetif, hnic⟩ := toNat_of_attaches h
  simp [upTo, upOps, block_of_ne hnetif, block_of_ne hnic]

theorem deInit_lwip (h : env.attaches) (nic : VirtNetif) :
    heapOps .lwip (virtnetDeInit k env.netif ⟨env.nic, nic⟩) = downOps k env := by
  have hnic := (toNat_of_attaches h).2
  simp [virtnetDeInit, downOps, h.2.2, release_of_ne hnic]

theorem upOps_runs (k : Kernel) (env : Env k) : Runs [] (upOps k env)
    [⟨env.nic.toNat, k.sizeofVirtNetif⟩, ⟨env.netif.toNat, k.sizeofNetif⟩] := by
  apply Runs.alloc
  apply Runs.alloc
  apply Runs.access (List.mem_cons_of_mem _ List.mem_cons_self)
  apply Runs.access List.mem_cons_self
  exact Runs.nil _

theorem downOps_runs (k : Kernel) (env : Env k) : Runs
    [⟨env.nic.toNat, k.sizeofVirtNetif⟩, ⟨env.netif.toNat, k.sizeofNetif⟩] (downOps k env) [] := by
  apply Runs.access (List.mem_cons_of_mem _ List.mem_cons_self)
  apply Runs.access List.mem_cons_self
  apply Runs.free (b := ⟨env.nic.toNat, k.sizeofVirtNetif⟩) List.mem_cons_self
  apply Runs.free (b := ⟨env.netif.toNat, k.sizeofNetif⟩) (by simp)
  simpa using Runs.nil []

theorem virtnetInit_detached_lwip (h : ¬ env.attaches) : Exact .lwip (virtnetInit k env) := by
  apply Exact.of_runs
  simp only [virtnetInit]
  by_cases hnetif : env.netif = 0
  · simpa [hnetif] using Runs.nil []
  · have hne : env.netif.toNat ≠ 0 := fun hz => hnetif (UInt32.toNat_inj.mp hz)
    have hruns : Runs [] [.alloc ⟨env.netif.toNat, k.sizeofNetif⟩,
        .access ⟨env.netif.toNat, k.sizeofNetif⟩, .free env.netif.toNat] [] := by
      apply Runs.alloc
      apply Runs.access List.mem_cons_self
      apply Runs.free (b := ⟨env.netif.toNat, k.sizeofNetif⟩) List.mem_cons_self
      simpa using Runs.nil []
    by_cases hadd : env.netifAdd = true
    · have hnic : env.nic = 0 := by
        by_contra hnic
        exact h ⟨hnetif, hadd, hnic⟩
      simpa [hnetif, hadd, ethernetIfInit, hnic, virtnetDeInit, block_of_ne hne] using hruns
    · simpa [hnetif, hadd, virtnetDeInit, block_of_ne hne] using hruns

theorem not_exact_of_null {calls : List Call} {nic : VirtNetif} (hattach : env.attaches)
    (hlwip : heapOps .lwip calls = paramOps k env) (hparam : env.param = 0) :
    ¬ Exact .lwip (attached k env (calls, none, nic)) := by
  intro hexact
  obtain ⟨live, hruns⟩ := hexact.sound
  simp only [attached, upTo_lwip hattach, hlwip, paramOps, hparam] at hruns
  obtain ⟨mid, hleft, hright⟩ := runs_append_iff.mp hruns
  cases (upOps_runs k env).unique hleft
  cases hright with
  | cons hop _ =>
    obtain ⟨b, hb, hlo, -⟩ := hop
    obtain ⟨hnetif, hnic⟩ := toNat_of_attaches hattach
    simp only [List.mem_cons, List.not_mem_nil, or_false] at hb
    rcases hb with rfl | rfl
    · exact hnic (Nat.le_zero.mp hlo)
    · exact hnetif (Nat.le_zero.mp hlo)

theorem not_exact_of_refused {calls : List Call} {nic : VirtNetif} (hattach : env.attaches)
    (hlwip : heapOps .lwip calls = paramOps k env) (hparam : env.param.toNat ≠ 0) {ret : Err}
    (hret : ret ≠ .ok) : ¬ Exact .lwip (attached k env (calls, some ret, nic)) := by
  rw [attached_of_ne hret]
  intro hexact
  have hfreed := hexact.freed rfl env.param.toNat
  simp only [heapOps_append, upTo_lwip hattach, deInit_lwip hattach, hlwip, upOps, paramOps, downOps,
    block_of_ne hparam] at hfreed
  simp [allocs, Op.address, List.count_cons, List.countP_cons] at hfreed
  omega

theorem exact_of_started {calls : List Call} {nic : VirtNetif} (hattach : env.attaches)
    (hlwip : heapOps .lwip calls = paramOps k env) (hparam : env.param.toNat ≠ 0) :
    Exact .lwip (attached k env (calls, some .ok, nic)) := by
  constructor
  · refine ⟨[⟨env.param.toNat, k.sizeofHwiIrqParam⟩, ⟨env.nic.toNat, k.sizeofVirtNetif⟩,
      ⟨env.netif.toNat, k.sizeofNetif⟩], ?_⟩
    simp only [attached, upTo_lwip hattach, hlwip, paramOps, block_of_ne hparam]
    apply (upOps_runs k env).append
    apply Runs.alloc
    apply Runs.access List.mem_cons_self
    exact Runs.nil _
  · exact fun hzero => absurd (Option.some.inj hzero) hattach.1

/-- The block that VirtmmioRegisterIRQ allocates is never freed, nor is it tested for NULL. -/
theorem lwip_frees_as_allocated_iff (k : Kernel) (env : Env k) :
    Exact .lwip (virtnetInit k env) ↔ ¬ (env.attaches ∧ env.configures ∧ env.queues ∧
      (env.param = 0 ∨ env.hwiCreate = false)) := by
  by_cases hattach : env.attaches
  · have hending := @lowLevelInit_ending k env zeroNic fresh_zeroNic
    have hinterface : Err.interface ≠ .ok := by decide
    have hdown := (upOps_runs k env).append (downOps_runs k env)
    rw [virtnetInit_attached hattach]
    generalize lowLevelInit k env zeroNic = r at hending
    cases hending with
    | absent hc hlwip _ =>
      refine iff_of_true (Exact.of_runs ?_) fun h => hc h.2.1
      rw [attached_of_ne hinterface]
      simpa [upTo_lwip hattach, deInit_lwip hattach, hlwip] using hdown
    | refused hc hq hret hlwip _ =>
      refine iff_of_true (Exact.of_runs ?_) fun h => hq h.2.2.1
      rw [attached_of_ne hret]
      simpa [upTo_lwip hattach, deInit_lwip hattach, hlwip] using hdown
    | interrupt hc hq hret hlwip _ =>
      by_cases hparam : env.param = 0
      · rw [hret, if_pos hparam]
        exact iff_of_false (not_exact_of_null hattach hlwip hparam)
          (not_not.mpr ⟨hattach, hc, hq, Or.inl hparam⟩)
      · have hne : env.param.toNat ≠ 0 := fun hz => hparam (UInt32.toNat_inj.mp hz)
        rw [hret, if_neg hparam]
        cases hhwi : env.hwiCreate with
        | false =>
          exact iff_of_false (not_exact_of_refused hattach hlwip hne hinterface)
            (not_not.mpr ⟨hattach, hc, hq, Or.inr rfl⟩)
        | true =>
          refine iff_of_true (exact_of_started hattach hlwip hne) fun h => ?_
          rcases h.2.2.2 with hzero | hfalse
          · exact hparam hzero
          · cases hfalse
  · exact iff_of_true (virtnetInit_detached_lwip hattach) fun h => hattach h.1

/-- A network device in the last transport, an allocator that aligns to 8 bytes, and no memory for
the records of the receive buffers. -/
def kernel : Kernel := { roundUp with
  sizeofNetif := 256, sizeofVirtNetif := 96, sizeofRbufRecord := 40, sizeofHwiIrqParam := 12 }

def shortOfMemory : Env kernel where
  transports i := if i = 7 then ⟨VirtioInit.virtmmioMagic, VirtioInit.virtmmioVersion, 1⟩ else ⟨0, 0, 0⟩
  negotiate := true
  queueNumMax _ := 1024
  netif := 0x80100000
  netifAdd := true
  nic := 0x80100100
  base := 0x80210008
  rbufRec := 0
  tbufRec := 0
  param := 0
  hwiCreate := true
  base_fits := by decide

/-- The queue block starts at 0x80210008 and 0x80210010 is freed. -/
theorem frees_inside_block :
    heapOps .libc (virtnetInit kernel shortOfMemory).1 =
        [.alloc ⟨0x80210008, 25745⟩, .free 0x80210010] ∧
      ¬ Exact .libc (virtnetInit kernel shortOfMemory) := by
  have hops : heapOps .libc (virtnetInit kernel shortOfMemory).1 =
      [.alloc ⟨0x80210008, 25745⟩, .free 0x80210010] := by decide
  refine ⟨hops, fun hexact => ?_⟩
  obtain ⟨live, hruns⟩ := hexact.sound
  rw [hops] at hruns
  cases hruns with
  | cons _ hfree =>
    cases hfree with
    | cons hop _ =>
      obtain ⟨b, hb, hstart⟩ := hop
      cases List.mem_singleton.mp hb
      exact absurd hstart (by decide)

end VirtnetBringUp
