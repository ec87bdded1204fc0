import DeviceQemu.StepSystem
import DeviceQemu.VirtnetTx

/-! The receive side of the virtnet drivers.
VirtnetRxHandle drains the used ring and rechecks it after enabling interrupts. LiteOS-A
copies each packet and recycles its buffer in a batch; riscv32 lends the buffer to the
network stack, and ReleaseRxEntry publishes it again when the packet is dropped or freed. -/
namespace VirtnetRx

open StepSystem RingWindow Virtmmio VirtnetTx

inductive Mode where
  | copy
  | zeroCopy
  deriving DecidableEq, Repr

/-- ReleaseRxEntry, whose critical section is under recvLock. -/
inductive ReleasePc where
  | lock (id : UInt16)
  | ring (id : UInt16)
  | bump
  | unlock
  | notify
  deriving DecidableEq, Repr

inductive RxPc where
  | off
  | mask
  | test
  | unmask
  | recheck
  | remask
  | read
  | input (e : VirtqUsedElem)
  | recycle (e : VirtqUsedElem)
  | release (r : ReleasePc)
  | advance
  | publish
  | notify
  deriving DecidableEq, Repr

/-- What happens outside the driver: whether NetBufDevAlloc succeeds and whether the stack
takes the packet. -/
structure Verdict where
  alloc : Bool
  accept : Bool
  deriving DecidableEq, Repr

/-- `rbuf` holds the bytes behind the VirtnetHdr of each receive buffer, `lent` the buffers
the stack or the application has, `passed` the packets passed up so far, with their lengths. -/
structure State where
  q : Virtq
  rbuf : UInt32 → List UInt8
  add : UInt16
  recvLock : Bool
  handler : RxPc
  app : Option ReleasePc
  lent : List UInt16
  dev : Device
  doorbell : ℕ
  passed : List (UInt16 × List UInt8)

/-- sizeof(struct VirtnetHdr) + ETH_FRAME_LEN -/
def perRxBufSize : UInt32 := virtnetHdrSize + 1514

/-- PopulateRxBuffer and ConfigRxBuffer, then the first publication of all buffers. -/
structure Init (qsz : UInt16) (s : State) : Prop where
  size : s.q.qsz = qsz
  desc : ∀ i, i < qsz → (s.q.desc i).flag = virtqDescFWrite ∧ perRxBufSize ≤ (s.q.desc i).len
  last : s.q.last = 0
  availIndex : s.q.avail.index = qsz
  availFlag : s.q.avail.flag = 0
  availRing : ∀ i, i < qsz → s.q.avail.ring i = i
  usedIndex : s.q.used.index = 0
  add : s.add = 0
  recvLock : s.recvLock = false
  handler : s.handler = .off
  app : s.app = none
  lent : s.lent = []
  dev : s.dev = ⟨0, [], false⟩
  passed : s.passed = []

def zeroed (qsz : UInt16) : State where
  q := ⟨qsz, 0, fun _ => ⟨0, perRxBufSize, virtqDescFWrite, 0⟩, ⟨0, qsz, id⟩, ⟨0, 0, default⟩⟩
  rbuf := fun _ => []
  add := 0
  recvLock := false
  handler := .off
  app := none
  lent := []
  dev := ⟨0, [], false⟩
  doorbell := 0
  passed := []

theorem init_zeroed (qsz : UInt16) : Init qsz (zeroed qsz) := by
  constructor
  case desc => exact fun _ _ => ⟨rfl, UInt32.le_refl _⟩
  case availRing => exact fun _ _ => rfl
  all_goals rfl

def State.setAvail (s : State) (avail : VirtqAvail) : State := { s with q := { s.q with avail } }

def State.notify (s : State) : State :=
  { s with doorbell := if s.q.used.flag != virtqUsedFNoNotify then s.doorbell + 1 else s.doorbell }

/-- One step of ReleaseRxEntry; the second component is where it goes on, if it has not
returned. -/
def releaseStep (s : State) : ReleasePc → Option (State × Option ReleasePc)
  | .lock id => if s.recvLock then none else some ({ s with recvLock := true }, some (.ring id))
  | .ring id =>
    let a := s.q.avail
    some (s.setAvail { a with ring := Function.update a.ring (slot s.q.qsz a.index) id },
      some .bump)
  | .bump => some (s.setAvail { s.q.avail with index := s.q.avail.index + 1 }, some .unlock)
  | .unlock => some ({ s with recvLock := false }, some .notify)
  | .notify => some (s.notify, none)

theorem releaseStep_frame {s t : State} {r : ReleasePc} {r' : Option ReleasePc}
    (h : releaseStep s r = some (t, r')) :
    ∃ index ring recvLock doorbell,
      t = { s with q := { s.q with avail := { s.q.avail with index, ring } }, recvLock, doorbell } := by
  cases r <;> simp only [releaseStep, Option.ite_none_left_eq_some, Option.some.injEq,
    Prod.mk.injEq] at h
  case lock => rcases h with ⟨-, rfl, -⟩; exact ⟨_, _, _, _, rfl⟩
  all_goals rcases h with ⟨rfl, -⟩; exact ⟨_, _, _, _, rfl⟩

def packetLen (e : VirtqUsedElem) : UInt16 := (e.len - virtnetHdrSize).toUInt16

/-- The packet that `e` describes, as its buffer holds it now. -/
def State.packet (s : State) (e : VirtqUsedElem) : List UInt8 :=
  (s.rbuf e.id).take (packetLen e).toNat

/-- What LowLevelInput returns: the packet, unless there is no NetBuf for it. -/
def lowLevelInput (mode : Mode) (v : Verdict) (s : State) (e : VirtqUsedElem) :
    Option (UInt16 × List UInt8) :=
  match mode with
  | .copy => if v.alloc then some (packetLen e, s.packet e) else none
  | .zeroCopy => some (packetLen e, s.packet e)

/-- LowLevelInput, then NetIfRx or netif->input with what it returns. -/
def input (mode : Mode) (v : Verdict) (s : State) (e : VirtqUsedElem) : State :=
  let passed := s.passed ++ (lowLevelInput mode v s e).toList
  match mode with
  | .copy => { s with passed, handler := .recycle e }
  | .zeroCopy =>
    if v.accept then { s with passed, lent := s.lent ++ [e.id.toUInt16], handler := .advance }
    else { s with passed, handler := .release (.lock e.id.toUInt16) }

def handlerStep (mode : Mode) (v : Verdict) (s : State) : Option State :=
  match s.handler with
  | .off => none
  | .mask =>
    some { s.setAvail { s.q.avail with flag := virtqAvailFNoInterrupt } with
      add := 0
      handler := .test }
  | .test => some { s with handler := if s.q.last = s.q.used.index then .unmask else .read }
  | .unmask => some { s.setAvail { s.q.avail with flag := 0 } with handler := .recheck }
  | .recheck =>
    some { s with handler :=
      if s.q.last = s.q.used.index then
        match mode with
        | .copy => .publish
        | .zeroCopy => .off
      else .remask }
  | .remask =>
    some { s.setAvail { s.q.avail with flag := virtqAvailFNoInterrupt } with handler := .read }
  | .read => some { s with handler := .input (s.q.used.ring (slot s.q.qsz s.q.last)) }
  | .input e => some (input mode v s e)
  | .recycle e =>
    let a := s.q.avail
    some { s.setAvail { a with
        ring := Function.update a.ring (slot s.q.qsz (a.index + s.add)) e.id.toUInt16 } with
      add := s.add + 1
      handler := .advance }
  | .release r =>
    (releaseStep s r).map fun (s, r) =>
      { s with handler := match r with | some r => .release r | none => .advance }
  | .advance => some { s with q := { s.q with last := s.q.last + 1 }, handler := .test }
  | .publish =>
    some { s.setAvail { s.q.avail with index := s.q.avail.index + s.add } with handler := .notify }
  | .notify => some { s.notify with handler := .off }

/-- The application frees the `i`-th packet lent to it. -/
def appFree (s : State) (i : ℕ) : Option State :=
  match s.app, s.lent[i]? with
  | none, some id => some { s with lent := s.lent.eraseIdx i, app := some (.lock id) }
  | _, _ => none

def appStep (s : State) : Option State :=
  s.app.bind fun r => (releaseStep s r).map fun (s, r) => { s with app := r }

def deviceFetch (s : State) : Option State :=
  if s.dev.seen = s.q.avail.index then none
  else
    let id := s.q.avail.ring (slot s.q.qsz s.dev.seen)
    some { s with dev := { s.dev with
      seen := s.dev.seen + 1, inFlight := s.dev.inFlight ++ [id] } }

/-- The device writes a packet that fits into the `i`-th buffer it has in flight and appends
the buffer to the used ring. -/
def deviceDeliver (s : State) (i : ℕ) (packet : List UInt8) : Option State :=
  match s.dev.inFlight[i]? with
  | none => none
  | some id =>
    if virtnetHdrSize.toNat + packet.length ≤ (s.q.desc id).len.toNat then
      let u := s.q.used
      let len := virtnetHdrSize + UInt32.ofNat packet.length
      some { s with
        rbuf := Function.update s.rbuf id.toUInt32
          (packet ++ (s.rbuf id.toUInt32).drop packet.length)
        q := { s.q with used := { u with
          ring := Function.update u.ring (slot s.q.qsz u.index) ⟨id.toUInt32, len⟩
          index := u.index + 1 } }
        dev := { s.dev with inFlight := s.dev.inFlight.eraseIdx i, raising := true } }
    else none

inductive Event where
  | enter
  | handler (v : Verdict)
  | free (i : ℕ)
  | app
  | fetch
  | deliver (i : ℕ) (packet : List UInt8)
  | raise
  | usedFlag (flag : UInt16)
  deriving DecidableEq, Repr

def next (mode : Mode) (s : State) : Event → Option State
  | .enter =>
    match s.handler with
    | .off => some { s with handler := .mask }
    | _ => none
  | .handler v => handlerStep mode v s
  | .free i => appFree s i
  | .app => appStep s
  | .fetch => deviceFetch s
  | .deliver i packet => deviceDeliver s i packet
  | .raise => if s.dev.raising then some { s with dev := { s.dev with raising := false } } else none
  | .usedFlag flag => some { s with q := { s.q with used := { s.q.used with flag } } }

def system (mode : Mode) (qsz : UInt16) : System State Event where
  Init := Init qsz
  next := next mode

end VirtnetRx
