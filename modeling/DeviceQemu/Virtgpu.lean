import DeviceQemu.StepSystem
import DeviceQemu.Virtmmio

/-! The control queue of virtgpu.
Initialisation sends requests one at a time and spins for each response. Afterwards
NormOpsRefresh queues a transfer and a flush command without waiting, and reuses `last` as
its next writable descriptor. -/
namespace Virtgpu

open StepSystem RingWindow Virtmmio

def virtqControlQsz : UInt16 := 4
def normalCmdEntries : UInt16 := 2
def virtioGpuRespOkNodata : UInt32 := 0x1100
def virtioGpuRespOkEdid : UInt32 := 0x1104

inductive Cmd where
  | getDisplayInfo
  | getEdid
  | resourceCreate2D
  | resourceAttachBacking
  | setScanout
  | transferToHost
  | resourceFlush
  deriving DecidableEq, Repr

/-- up_fbinitialize and VirtgpuBeginNormDisplay, in order. -/
def initCmds (edid : Bool) : List Cmd :=
  .getDisplayInfo :: (if edid then [.getEdid] else []) ++
    [.resourceCreate2D, .resourceAttachBacking, .setScanout, .transferToHost, .resourceFlush]

def Cmd.reqSize : Cmd → UInt32
  | .getDisplayInfo => 24
  | .getEdid => 32
  | .resourceCreate2D => 40
  | .resourceAttachBacking => 32
  | .setScanout => 48
  | .transferToHost => 56
  | .resourceFlush => 48

def Cmd.respSize : Cmd → UInt32
  | .getDisplayInfo => 408
  | .getEdid => 1056
  | _ => 24

/-- CMDGetDisplayInfo and CMDGetEdid go on with defaults when the device answers an error. -/
def Cmd.required : Cmd → Bool
  | .getDisplayInfo | .getEdid => false
  | _ => true

/-- Only CMDTransferToHost sets VIRTIO_GPU_FLAG_FENCE. -/
def Cmd.fenced : Cmd → Bool
  | .transferToHost => true
  | _ => false

/-- DMA addresses of the requests and responses, the size of virtgpu's backing entry, and
the fence id that CMDTransferToHost computes from the screen rectangle. -/
structure Memory where
  req : Cmd → UInt64
  data : UInt64
  resp : Cmd → UInt64
  transReq : UInt64
  flushReq : UInt64
  normResp : UInt64
  fenceId : UInt64

structure CtrlHdr where
  type : UInt32
  fenceId : UInt64
  deriving DecidableEq, Repr

/-- The two requests of NormOpsRefresh. -/
inductive Norm where
  | trans
  | flush
  deriving DecidableEq, Repr

/-- What one NormOpsRefresh found and did: whether the device had used every notified entry
when it began, which commands it published, and at its return the number of entries
published after the last notify and the number outstanding. -/
structure Report where
  caughtUp : Bool
  trans : Bool
  flush : Bool
  unnotified : UInt16
  outstanding : UInt16
  deriving DecidableEq, Repr

inductive Pc where
  | request (c : Cmd) (rest : List Cmd)
  | post (c : Cmd) (rest : List Cmd)
  | bump (c : Cmd) (rest : List Cmd)
  | notify (c : Cmd) (rest : List Cmd)
  | wait (c : Cmd) (rest : List Cmd)
  | populate
  | failed
  | idle
  | test (k : Norm) (r : Report)
  | fill (k : Norm) (head : UInt16) (r : Report)
  | normPost (k : Norm) (head : UInt16) (r : Report)
  | normBump (k : Norm) (r : Report)
  | normNotify (r : Report)
  | returned (r : Report)
  deriving DecidableEq, Repr

/-- `notified` is the value of avail.index at the latest queue notify. -/
structure State where
  q : Virtq
  notified : UInt16
  resp : CtrlHdr
  pc : Pc

/-- The queues start zeroed; the descriptors are written before they are used. -/
structure Init (edid : Bool) (s : State) : Prop where
  size : s.q.qsz = virtqControlQsz
  last : s.q.last = 0
  availIndex : s.q.avail.index = 0
  usedIndex : s.q.used.index = 0
  notified : s.notified = 0
  pc : s.pc = .request .getDisplayInfo (initCmds edid).tail

def zeroed (edid : Bool) : State where
  q := ⟨virtqControlQsz, 0, default, ⟨virtqAvailFNoInterrupt, 0, fun _ => 0⟩, ⟨0, 0, default⟩⟩
  notified := 0
  resp := ⟨0, 0⟩
  pc := .request .getDisplayInfo (initCmds edid).tail

theorem init_zeroed (edid : Bool) : Init edid (zeroed edid) := ⟨rfl, rfl, rfl, rfl, rfl, rfl⟩

def State.setDesc (s : State) (desc : UInt16 → VirtqDesc) : State :=
  { s with q := { s.q with desc } }

def State.setAvail (s : State) (avail : VirtqAvail) : State := { s with q := { s.q with avail } }

/-- RequestDataResponse for CMDResourceAttachBacking, RequestResponse for the others. -/
def request (m : Memory) (desc : UInt16 → VirtqDesc) (c : Cmd) : UInt16 → VirtqDesc :=
  let desc := Function.update desc 0 ⟨m.req c, c.reqSize, virtqDescFNext, 1⟩
  match c with
  | .resourceAttachBacking =>
    let desc := Function.update desc 1 ⟨m.data, 16, virtqDescFNext, 2⟩
    Function.update desc 2
      { desc 2 with pAddr := m.resp c, len := c.respSize, flag := virtqDescFWrite }
  | _ =>
    Function.update desc 1
      { desc 1 with pAddr := m.resp c, len := c.respSize, flag := virtqDescFWrite }

def spins (m : Memory) (s : State) (c : Cmd) : Bool :=
  s.q.last == s.q.used.index || (c.fenced && m.fenceId != s.resp.fenceId)

theorem used_of_not_spins {m : Memory} {s : State} {c : Cmd} (h : ¬ spins m s c)
    (hu : s.q.used.index = s.q.last ∨ s.q.used.index = s.q.avail.index) :
    s.q.used.index = s.q.avail.index := by
  simp only [spins, Bool.or_eq_true, not_or, beq_iff_eq] at h
  exact hu.resolve_left fun he => h.1 he.symm

def respFailed (b : CtrlHdr) : Bool :=
  b.type < virtioGpuRespOkNodata || b.type > virtioGpuRespOkEdid

def afterRequest : List Cmd → Pc
  | [] => .populate
  | c :: rest => .request c rest

/-- `abs(q->avail->index - q->used->index)` on the promoted counters. -/
def counterDistance (q : Virtq) : ℕ :=
  ((q.avail.index.toNat : ℤ) - (q.used.index.toNat : ℤ)).natAbs

def busy (q : Virtq) : Bool := virtqControlQsz.toNat ≤ counterDistance q

/-- The part of PopulateVirtQ for the control queue. -/
def populateVirtQ (m : Memory) (q : Virtq) : Virtq :=
  let fix (desc : UInt16 → VirtqDesc) (i : UInt16) : UInt16 → VirtqDesc :=
    let desc := Function.update desc i { desc i with flag := virtqDescFNext, next := i + 1 }
    Function.update desc (i + 1)
      { desc (i + 1) with pAddr := m.normResp, len := 24, flag := virtqDescFWrite }
  { q with desc := fix (fix q.desc 0) 2, last := 0 }

def Norm.reqAddr (m : Memory) : Norm → UInt64
  | .trans => m.transReq
  | .flush => m.flushReq

def Norm.reqSize : Norm → UInt32
  | .trans => 56
  | .flush => 48

def Report.published (r : Report) : Norm → Report
  | .trans => { r with trans := true }
  | .flush => { r with flush := true }

def State.returns (s : State) (r : Report) : State :=
  { s with pc := .returned { r with
      unnotified := s.q.avail.index - s.notified
      outstanding := s.q.avail.index - s.q.used.index } }

def driverStep (m : Memory) (s : State) : Option State :=
  match s.pc with
  | .request c rest =>
    some { s.setDesc (request m s.q.desc c) with resp := ⟨0, 0⟩, pc := .post c rest }
  | .post c rest =>
    let a := s.q.avail
    some { s.setAvail { a with ring := Function.update a.ring (slot s.q.qsz a.index) 0 } with
      pc := .bump c rest }
  | .bump c rest =>
    some { s.setAvail { s.q.avail with index := s.q.avail.index + 1 } with pc := .notify c rest }
  | .notify c rest => some { s with notified := s.q.avail.index, pc := .wait c rest }
  | .wait c rest =>
    if spins m s c then none
    else some { s with
      q := { s.q with last := s.q.last + 1 }
      pc := if c.required && respFailed s.resp then .failed else afterRequest rest }
  | .populate => some { s with q := populateVirtQ m s.q, pc := .idle }
  | .failed | .idle | .returned _ => none
  | .test k r =>
    if busy s.q then
      match k with
      | .trans => some { s with pc := .test .flush r }
      | .flush => some (s.returns r)
    else some { s with pc := .fill k (slot s.q.qsz s.q.last) r }
  | .fill k head r =>
    let desc := Function.update s.q.desc head
      { s.q.desc head with pAddr := k.reqAddr m, len := k.reqSize }
    some { s with
      q := { s.q with desc, last := s.q.last + normalCmdEntries }
      pc := .normPost k head r }
  | .normPost k head r =>
    let a := s.q.avail
    some { s.setAvail { a with ring := Function.update a.ring (slot s.q.qsz a.index) head } with
      pc := .normBump k r }
  | .normBump k r =>
    some { s.setAvail { s.q.avail with index := s.q.avail.index + 1 } with
      pc := match k with
        | .trans => .test .flush (r.published .trans)
        | .flush => .normNotify (r.published .flush) }
  | .normNotify r =>
    let s := { s with notified := s.q.avail.index }
    some (s.returns r)

theorem wait_cases {m : Memory} {s t : State} {c : Cmd} {rest : List Cmd} (hpc : s.pc = .wait c rest)
    (hu : s.q.used.index = s.q.last ∨ s.q.used.index = s.q.avail.index)
    (ht : driverStep m s = some t) :
    s.q.used.index = s.q.avail.index ∧
      t = { s with
        q := { s.q with last := s.q.last + 1 }
        pc := if c.required && respFailed s.resp then .failed else afterRequest rest } := by
  simp only [driverStep, hpc] at ht
  split at ht
  · simp at ht
  next hspin => exact ⟨used_of_not_spins hspin hu, (Option.some.inj ht).symm⟩

/-- The refresh timer fires while no NormOpsRefresh is running. -/
def normOpsRefresh (s : State) : Option State :=
  let r : Report := ⟨s.q.used.index == s.notified, false, false, 0, 0⟩
  match s.pc with
  | .idle | .returned _ => some { s with pc := .test .trans r }
  | _ => none

/-- The device uses the oldest entry: an `eager` one looks at avail.index by itself, another
only goes as far as it was notified. -/
def consume (eager : Bool) (s : State) (b : CtrlHdr) : Option State :=
  if s.q.used.index = (if eager then s.q.avail.index else s.notified) then none
  else
    let u := s.q.used
    let head := s.q.avail.ring (slot s.q.qsz u.index)
    some { s with
      q := { s.q with used := { u with
        ring := Function.update u.ring (slot s.q.qsz u.index) ⟨head.toUInt32, 24⟩
        index := u.index + 1 } }
      resp := b }

inductive Event where
  | driver
  | refresh
  | consume (b : CtrlHdr)
  deriving DecidableEq, Repr

def next (m : Memory) (eager : Bool) (s : State) : Event → Option State
  | .driver => driverStep m s
  | .refresh => normOpsRefresh s
  | .consume b => consume eager s b

def system (m : Memory) (eager edid : Bool) : System State Event where
  Init := Init edid
  next := next m eager

end Virtgpu
