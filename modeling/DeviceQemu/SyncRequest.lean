import DeviceQemu.StepSystem
import DeviceQemu.Virtmmio

/-! Synchronous requests of virtblock and virtrng.
VirtblkIO and VirtrngIO publish one request, wait for the event that the interrupt handler
signals, and return what the device left. The interrupt handlers are the same; the drivers
differ in what they fill in and where the result is. -/
namespace SyncRequest

open StepSystem RingWindow Virtmmio LinkedWalk

/-- What the device makes of a request: the byte it stores and the length it reports. -/
structure Answer where
  status : UInt8
  len : UInt32
  deriving DecidableEq, Repr

/-- A span of a descriptor chain, as the device reads it. -/
structure Span where
  pAddr : UInt64
  len : UInt32
  write : Bool
  deriving DecidableEq, Repr

def span (d : VirtqDesc) : Span := ⟨d.pAddr, d.len, d.flag &&& virtqDescFWrite != 0⟩

def spans (desc : UInt16 → VirtqDesc) (qsz head : UInt16) : List Span :=
  (chain (fun i => (desc i).hasNext) (fun i => (desc i).next) head qsz.toNat).map
    fun i => span (desc i)

/-- A driver with requests `ρ`, own memory `μ` and results `γ`; `ω` is what the device reads
of a request. The laws tie what the device reads and stores to what the driver means. -/
structure Driver (ρ μ ω γ : Type) where
  qsz : UInt16
  Populated : (UInt16 → VirtqDesc) → Prop
  acquire : μ → Option μ
  fill : ρ → (UInt16 → VirtqDesc) → μ → (UInt16 → VirtqDesc) × μ
  result : (UInt16 → VirtqUsedElem) → μ → γ
  release : μ → μ
  failed : γ
  read : (UInt16 → VirtqDesc) → μ → UInt16 → ω
  store : Answer → μ → μ
  request : ρ → ω
  value : Answer → γ
  populated_fill : ∀ r desc m, Populated desc → Populated (fill r desc m).1
  read_fill : ∀ r desc m, Populated desc →
    read (fill r desc m).1 (fill r desc m).2 0 = request r
  result_store : ∀ ring i id a m,
    result (Function.update ring (slot qsz i) ⟨id, a.len⟩) (store a m) = value a

def virtblkRequestQsz : UInt16 := 4
def virtioBlkTIn : UInt32 := 0
def virtioBlkSIoerr : UInt8 := 1
def mmcSecSize : UInt32 := 512
def virtblkReqSize : UInt32 := 16

structure VirtblkReq where
  type : UInt32
  reserved : UInt32
  startSector : UInt64
  deriving DecidableEq, Repr

structure Virtblk where
  req : VirtblkReq
  resp : UInt8
  deriving DecidableEq, Repr

structure BlkIO where
  cmd : UInt32
  startSector : UInt64
  buf : UInt64
  sectors : UInt32
  deriving DecidableEq, Repr

structure BlkView where
  type : UInt32
  startSector : UInt64
  chain : List Span
  deriving DecidableEq, Repr

/-- What PopulateRequestQ leaves, with `req` and `resp` at the given addresses. -/
structure PopulateRequestQ (req resp : UInt64) (desc : UInt16 → VirtqDesc) : Prop where
  header : desc 0 = ⟨req, virtblkReqSize, virtqDescFNext, 1⟩
  next : (desc 1).next = 2
  response : (desc 2).pAddr = resp ∧ (desc 2).len = 1 ∧ (desc 2).flag = virtqDescFWrite

def dataDesc (r : BlkIO) (d : VirtqDesc) : VirtqDesc :=
  { d with
    pAddr := r.buf
    len := r.sectors * mmcSecSize
    flag := if r.cmd = virtioBlkTIn then virtqDescFNext ||| virtqDescFWrite else virtqDescFNext }

def virtblkFill (r : BlkIO) (desc : UInt16 → VirtqDesc) (blk : Virtblk) :
    (UInt16 → VirtqDesc) × Virtblk :=
  (Function.update desc 1 (dataDesc r (desc 1)),
    { blk with req := { blk.req with type := r.cmd, startSector := r.startSector } })

def virtblkRequest (req resp : UInt64) (r : BlkIO) : BlkView where
  type := r.cmd
  startSector := r.startSector
  chain := [⟨req, virtblkReqSize, false⟩,
    ⟨r.buf, r.sectors * mmcSecSize, r.cmd = virtioBlkTIn⟩, ⟨resp, 1, true⟩]

theorem span_dataDesc (r : BlkIO) (d : VirtqDesc) :
    span (dataDesc r d) = ⟨r.buf, r.sectors * mmcSecSize, r.cmd = virtioBlkTIn⟩ := by
  by_cases hin : r.cmd = virtioBlkTIn
  · simp only [span, dataDesc, hin, if_true]
    rfl
  · simp only [span, dataDesc, hin, if_false]
    rfl

theorem hasNext_dataDesc (r : BlkIO) (d : VirtqDesc) : (dataDesc r d).hasNext = true := by
  by_cases hin : r.cmd = virtioBlkTIn
  · simp only [VirtqDesc.hasNext, dataDesc, hin, if_true]
    rfl
  · simp only [VirtqDesc.hasNext, dataDesc, hin, if_false]
    rfl

theorem virtblkFill_populated {req resp : UInt64} {desc : UInt16 → VirtqDesc} (r : BlkIO)
    (blk : Virtblk) (h : PopulateRequestQ req resp desc) :
    PopulateRequestQ req resp (virtblkFill r desc blk).1 := by
  rcases h with ⟨h0, h1, h2⟩
  constructor
  · simpa [virtblkFill] using h0
  · simpa [virtblkFill, dataDesc] using h1
  · simpa [virtblkFill] using h2

theorem virtblkFill_spans {req resp : UInt64} {desc : UInt16 → VirtqDesc} (r : BlkIO)
    (blk : Virtblk) (h : PopulateRequestQ req resp desc) :
    spans (virtblkFill r desc blk).1 virtblkRequestQsz 0 = (virtblkRequest req resp r).chain := by
  have hdata : (virtblkFill r desc blk).1 1 = dataDesc r (desc 1) := by simp [virtblkFill]
  have hmore := hasNext_dataDesc r (desc 1)
  have hspan := span_dataDesc r (desc 1)
  rcases virtblkFill_populated r blk h with ⟨h0, h1, hresp, hlen, hflag⟩
  have hheader : ((virtblkFill r desc blk).1 0).hasNext = true := by
    simp [h0, VirtqDesc.hasNext, virtqDescFNext]
  have hlast : ((virtblkFill r desc blk).1 2).hasNext = false := by
    rw [VirtqDesc.hasNext, hflag]
    rfl
  have hnext : ((virtblkFill r desc blk).1 0).next = 1 := by rw [h0]
  rw [← hdata] at hmore hspan
  have hchain : chain (fun i => ((virtblkFill r desc blk).1 i).hasNext)
      (fun i => ((virtblkFill r desc blk).1 i).next) 0 virtblkRequestQsz.toNat = [0, 1, 2] := by
    rw [show virtblkRequestQsz.toNat = 4 from rfl]
    simp [chain, hheader, hnext, hmore, h1, hlast]
  have hresponse : span ((virtblkFill r desc blk).1 2) = ⟨resp, 1, true⟩ := by
    rw [span, hresp, hlen, hflag]
    rfl
  have hfirst : span ((virtblkFill r desc blk).1 0) = ⟨req, virtblkReqSize, false⟩ := by
    have hread : virtqDescFNext &&& virtqDescFWrite = 0 := by decide
    simp [h0, span, hread]
  rw [spans, hchain, virtblkRequest]
  simp only [List.map_cons, List.map_nil, hfirst, hspan, hresponse]

def virtblk (req resp : UInt64) : Driver BlkIO Virtblk BlkView UInt8 where
  qsz := virtblkRequestQsz
  Populated := PopulateRequestQ req resp
  acquire := some
  fill := virtblkFill
  result _ blk := blk.resp
  release := id
  failed := virtioBlkSIoerr
  read desc blk head := ⟨blk.req.type, blk.req.startSector, spans desc virtblkRequestQsz head⟩
  store a blk := { blk with resp := a.status }
  request := virtblkRequest req resp
  value a := a.status
  populated_fill r _ blk := virtblkFill_populated r blk
  read_fill r desc blk h := by rw [virtblkFill_spans r blk h]; rfl
  result_store _ _ _ _ _ := rfl

def virtrngRequestQsz : UInt16 := 1

structure Virtrng where
  mutex : Bool
  deriving DecidableEq, Repr

structure RngIO where
  buffer : UInt64
  buflen : UInt32
  deriving DecidableEq, Repr

def virtrngFill (r : RngIO) (desc : UInt16 → VirtqDesc) (rng : Virtrng) :
    (UInt16 → VirtqDesc) × Virtrng :=
  (Function.update desc 0 { desc 0 with
      pAddr := r.buffer, len := r.buflen, flag := virtqDescFWrite }, rng)

theorem virtrngFill_spans (r : RngIO) (desc : UInt16 → VirtqDesc) (rng : Virtrng) :
    spans (virtrngFill r desc rng).1 virtrngRequestQsz 0 = [⟨r.buffer, r.buflen, true⟩] := by
  rw [spans, show virtrngRequestQsz.toNat = 1 from rfl]
  simp [chain, virtrngFill, span, virtqDescFWrite]

/-- `q->used->ring[0]` is the last used element, since the queue has one slot. -/
theorem slot_virtrng (i : UInt16) : slot virtrngRequestQsz i = 0 := by
  rw [← UInt16.toNat_inj]
  simp [slot, virtrngRequestQsz]

def virtrng : Driver RngIO Virtrng (List Span) Int32 where
  qsz := virtrngRequestQsz
  Populated _ := True
  acquire rng := if rng.mutex then none else some ⟨true⟩
  fill := virtrngFill
  result ring _ := (ring 0).len.toInt32
  release _ := ⟨false⟩
  failed := -1
  read desc _ head := spans desc virtrngRequestQsz head
  store _ rng := rng
  request r := [⟨r.buffer, r.buflen, true⟩]
  value a := a.len.toInt32
  populated_fill _ _ _ := id
  read_fill r desc rng _ := virtrngFill_spans r desc rng
  result_store ring i id a rng := by rw [slot_virtrng, Function.update_self]

variable {ρ μ ω γ : Type}

/-- VirtblkIO and VirtrngIO; VirtblkIO has no mutex and its `acquire` and `release` do nothing. -/
inductive CallPc (ρ γ : Type) where
  | idle
  | acquire (r : ρ)
  | fill (r : ρ)
  | ring (r : ρ)
  | publish (r : ρ)
  | notify
  | wait
  | result
  | release (v : γ)
  deriving DecidableEq, Repr

/-- VirtblkIRQhandle and VirtrngIRQhandle. -/
inductive IrqPc where
  | idle
  | status
  | signal
  | advance
  | ack
  deriving DecidableEq, Repr

/-- `current` is the request in service, with the head it was published under. -/
structure Device (ω : Type) where
  seen : UInt16
  current : Option (UInt16 × ω)
  raising : Bool
  deriving DecidableEq, Repr

/-- `issued`, `answered` and `returned` are histories: requests published, what the device read
and made of each, and the results of the calls. -/
structure State (ρ μ ω γ : Type) where
  q : Virtq
  mem : μ
  event : Bool
  isr : Bool
  pc : CallPc ρ γ
  irq : IrqPc
  dev : Device ω
  doorbell : ℕ
  issued : List ρ
  answered : List (ω × Answer)
  returned : List γ

/-- The driver's memory is zeroed except for the queue configuration and what is populated. -/
structure Init (d : Driver ρ μ ω γ) (s : State ρ μ ω γ) : Prop where
  size : s.q.qsz = d.qsz
  last : s.q.last = 0
  populated : d.Populated s.q.desc
  availFlag : s.q.avail.flag = 0
  availIndex : s.q.avail.index = 0
  usedIndex : s.q.used.index = 0
  event : s.event = false
  isr : s.isr = false
  pc : s.pc = .idle
  irq : s.irq = .idle
  dev : s.dev = ⟨0, none, false⟩
  issued : s.issued = []
  answered : s.answered = []
  returned : s.returned = []

/-- Waits for the sticky bit and clears it. -/
def dmaEventWait (event : Bool) : Option (UInt32 × Bool) :=
  if event then some (1, false) else none

def callStep (d : Driver ρ μ ω γ) (s : State ρ μ ω γ) : Option (State ρ μ ω γ) :=
  match s.pc with
  | .idle => none
  | .acquire r => (d.acquire s.mem).map fun mem => { s with mem, pc := .fill r }
  | .fill r =>
    let m := d.fill r s.q.desc s.mem
    some { s with q := { s.q with desc := m.1 }, mem := m.2, pc := .ring r }
  | .ring r =>
    let a := s.q.avail
    some { s with
      q := { s.q with avail := { a with
        ring := Function.update a.ring (slot s.q.qsz a.index) 0 } }
      pc := .publish r }
  | .publish r =>
    some { s with
      q := { s.q with avail := { s.q.avail with index := s.q.avail.index + 1 } }
      issued := s.issued ++ [r]
      pc := .notify }
  | .notify => some { s with doorbell := s.doorbell + 1, pc := .wait }
  | .wait =>
    (dmaEventWait s.event).map fun (ret, event) =>
      { s with event, pc := if ret ≠ 1 then .release d.failed else .result }
  | .result => some { s with pc := .release (d.result s.q.used.ring s.mem) }
  | .release v =>
    some { s with mem := d.release s.mem, returned := s.returned ++ [v], pc := .idle }

def irqStep (s : State ρ μ ω γ) : Option (State ρ μ ω γ) :=
  match s.irq with
  | .idle => some { s with irq := .status }
  | .status => some { s with irq := if s.isr then .signal else .idle }
  | .signal => some { s with event := true, irq := .advance }
  | .advance => some { s with q := { s.q with last := s.q.last + 1 }, irq := .ack }
  | .ack => some { s with isr := false, irq := .idle }

def deviceFetch (d : Driver ρ μ ω γ) (s : State ρ μ ω γ) : Option (State ρ μ ω γ) :=
  if s.dev.seen = s.q.avail.index ∨ s.dev.current.isSome then none
  else
    let head := s.q.avail.ring (slot s.q.qsz s.dev.seen)
    some { s with dev := { s.dev with
      seen := s.dev.seen + 1
      current := some (head, d.read s.q.desc s.mem head) } }

def deviceComplete (d : Driver ρ μ ω γ) (s : State ρ μ ω γ) (a : Answer) :
    Option (State ρ μ ω γ) :=
  match s.dev.current with
  | none => none
  | some (head, w) =>
    let u := s.q.used
    some { s with
      q := { s.q with used := { u with
        ring := Function.update u.ring (slot s.q.qsz u.index) ⟨head.toUInt32, a.len⟩
        index := u.index + 1 } }
      mem := d.store a s.mem
      dev := { s.dev with current := none, raising := true }
      answered := s.answered ++ [(w, a)] }

def deviceRaise (s : State ρ μ ω γ) : Option (State ρ μ ω γ) :=
  if s.dev.raising then
    some { s with
      isr := s.isr || s.q.avail.flag != virtqAvailFNoInterrupt
      dev := { s.dev with raising := false } }
  else none

inductive Event (ρ : Type) where
  | io (r : ρ)
  | call
  | irq
  | fetch
  | complete (a : Answer)
  | raise
  | usedFlag (flag : UInt16)
  deriving DecidableEq, Repr

def next (d : Driver ρ μ ω γ) (s : State ρ μ ω γ) : Event ρ → Option (State ρ μ ω γ)
  | .io r =>
    match s.pc with
    | .idle => some { s with pc := .acquire r }
    | _ => none
  | .call => callStep d s
  | .irq => irqStep s
  | .fetch => deviceFetch d s
  | .complete a => deviceComplete d s a
  | .raise => deviceRaise s
  | .usedFlag flag => some { s with q := { s.q with used := { s.q.used with flag } } }

def system (d : Driver ρ μ ω γ) : System (State ρ μ ω γ) (Event ρ) where
  Init := Init d
  next := next d

def zeroed (d : Driver ρ μ ω γ) (desc : UInt16 → VirtqDesc) (mem : μ) : State ρ μ ω γ where
  q := ⟨d.qsz, 0, desc, ⟨0, 0, default⟩, ⟨0, 0, default⟩⟩
  mem := mem
  event := false
  isr := false
  pc := .idle
  irq := .idle
  dev := ⟨0, none, false⟩
  doorbell := 0
  issued := []
  answered := []
  returned := []

theorem init_zeroed {d : Driver ρ μ ω γ} {desc : UInt16 → VirtqDesc} (h : d.Populated desc)
    (mem : μ) : Init d (zeroed d desc mem) := by
  constructor
  case populated => exact h
  all_goals rfl

end SyncRequest
