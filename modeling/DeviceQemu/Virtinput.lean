import DeviceQemu.StepSystem
import DeviceQemu.Virtmmio

/-! The event queue of virtinput.
VirtinHandleEv drains the used ring and recycles the buffers in one batch. LiteOS-A runs it
in the interrupt handler and reports from a work queue; riscv32 runs it in InputWorkTask,
woken by a binary semaphore, and reports at once what VirtinGrabbed lets through. -/
namespace Virtinput

open StepSystem RingWindow Virtmmio

inductive Platform where
  | liteosA
  | riscv32
  deriving DecidableEq, Repr

def virtqEventQsz : UInt16 := 8
def qemuTabletLen : UInt32 := 0x8000

def evKey : UInt16 := 1
def evAbs : UInt16 := 3
def absX : UInt16 := 0
def absY : UInt16 := 1
def absMtPositionX : UInt16 := 0x35
def absMtPositionY : UInt16 := 0x36
def btnLeft : UInt16 := 0x110

structure VirtinEvent where
  type : UInt16
  code : UInt16
  value : UInt32
  deriving DecidableEq, Repr, Inhabited

inductive PrecedeDown where
  | yes
  | no
  | syn
  deriving DecidableEq, Repr

def virtinGrabbed (precedeDown : PrecedeDown) (ev : VirtinEvent) : PrecedeDown × Bool :=
  if ev.type = evKey ∧ ev.code = btnLeft then
    if ev.value = 1 then (.yes, true)
    else if precedeDown = .yes then (.no, true)
    else (.syn, false)
  else if precedeDown = .syn then (.no, false)
  else (precedeDown, true)

inductive Axis where
  | x
  | y
  deriving DecidableEq, Repr

/-- VirtinWorkCallback, on the buffer it was queued with. -/
inductive CallbackPc where
  | idle
  | test (idx : UInt16)
  | scale (idx : UInt16) (axis : Axis)
  | recode (idx : UInt16) (axis : Axis)
  | report (idx : UInt16)
  deriving DecidableEq, Repr

/-- VirtinHandleEv, and the acknowledgement that follows it on both platforms. -/
inductive HandlerPc where
  | off
  | mask
  | test
  | read
  | process (idx : UInt16)
  | recycle (idx : UInt16)
  | advance
  | publish
  | unmask
  | notify
  | ack
  deriving DecidableEq, Repr

/-- VirtinIRQhandle: `handling` while it runs VirtinHandleEv, `post` before osSemaphoreRelease. -/
inductive IrqPc where
  | idle
  | status
  | handling
  | post
  deriving DecidableEq, Repr

/-- `filled` is the buffer the device has written and not yet appended, with what it wrote. -/
structure Device where
  seen : UInt16
  inFlight : List UInt16
  filled : Option (UInt16 × VirtinEvent)
  raising : Bool
  deriving DecidableEq, Repr

/-- `delivered` and `reported` are histories: events the device appended to the used ring, and
events passed to HidReportEvent. -/
structure State where
  q : Virtq
  ev : UInt16 → VirtinEvent
  add : UInt16
  precedeDown : PrecedeDown
  isr : Bool
  irq : IrqPc
  handler : HandlerPc
  sem : Bool
  wq : List UInt16
  callback : CallbackPc
  dev : Device
  doorbell : ℕ
  delivered : List VirtinEvent
  reported : List VirtinEvent

/-- PopulateEventQ over zeroed rings; the event buffers hold anything. -/
structure Init (s : State) : Prop where
  size : s.q.qsz = virtqEventQsz
  last : s.q.last = 0
  availIndex : s.q.avail.index = virtqEventQsz
  availFlag : s.q.avail.flag = 0
  availRing : ∀ i, i < virtqEventQsz → s.q.avail.ring i = i
  usedIndex : s.q.used.index = 0
  add : s.add = 0
  isr : s.isr = false
  irq : s.irq = .idle
  handler : s.handler = .off
  sem : s.sem = false
  wq : s.wq = []
  callback : s.callback = .idle
  dev : s.dev = ⟨0, [], none, false⟩
  delivered : s.delivered = []
  reported : s.reported = []

def zeroed : State where
  q := ⟨virtqEventQsz, 0, default, ⟨0, virtqEventQsz, id⟩, ⟨0, 0, default⟩⟩
  ev := default
  add := 0
  precedeDown := .no
  isr := false
  irq := .idle
  handler := .off
  sem := false
  wq := []
  callback := .idle
  dev := ⟨0, [], none, false⟩
  doorbell := 0
  delivered := []
  reported := []

theorem init_zeroed : Init zeroed := by
  constructor
  case availRing => exact fun _ _ => rfl
  all_goals rfl

def State.setAvail (s : State) (avail : VirtqAvail) : State := { s with q := { s.q with avail } }

def State.setEv (s : State) (idx : UInt16) (e : VirtinEvent) : State :=
  { s with ev := Function.update s.ev idx e }

def processEvent (pf : Platform) (s : State) (idx : UInt16) : State :=
  match pf with
  | .liteosA => { s with wq := s.wq ++ [idx] }
  | .riscv32 =>
    let r := virtinGrabbed s.precedeDown (s.ev idx)
    { s with
      precedeDown := r.1
      reported := if r.2 then s.reported ++ [s.ev idx] else s.reported }

def handlerStep (pf : Platform) (s : State) : Option State :=
  match s.handler with
  | .off => none
  | .mask =>
    some { s.setAvail { s.q.avail with flag := virtqAvailFNoInterrupt } with
      add := 0
      handler := .test }
  | .test => some { s with handler := if s.q.last ≠ s.q.used.index then .read else .publish }
  | .read =>
    some { s with handler := .process (s.q.used.ring (slot s.q.qsz s.q.last)).id.toUInt16 }
  | .process idx => some { processEvent pf s idx with handler := .recycle idx }
  | .recycle idx =>
    let a := s.q.avail
    some { s.setAvail { a with
        ring := Function.update a.ring (slot s.q.qsz (a.index + s.add)) idx } with
      add := s.add + 1
      handler := .advance }
  | .advance => some { s with q := { s.q with last := s.q.last + 1 }, handler := .test }
  | .publish =>
    some { s.setAvail { s.q.avail with index := s.q.avail.index + s.add } with
      add := 0
      handler := .unmask }
  | .unmask => some { s.setAvail { s.q.avail with flag := 0 } with handler := .notify }
  | .notify =>
    some { s with
      doorbell := if s.q.used.flag != virtqUsedFNoNotify then s.doorbell + 1 else s.doorbell
      handler := .ack }
  | .ack => some { s with isr := false, handler := .off }

def irqStep (pf : Platform) (s : State) : Option State :=
  match s.irq with
  | .idle => some { s with irq := .status }
  | .status =>
    if s.isr then
      match pf with
      | .liteosA => some { s with irq := .handling, handler := .mask }
      | .riscv32 => some { s with irq := .post }
    else some { s with irq := .idle }
  | .handling =>
    match s.handler with
    | .off => some { s with irq := .idle }
    | _ => handlerStep pf s
  | .post => some { s with sem := true, irq := .idle }

/-- InputWorkTask takes the semaphore, or goes on with VirtinHandleEv. -/
def taskStep (pf : Platform) (s : State) : Option State :=
  match pf with
  | .liteosA => none
  | .riscv32 =>
    match s.handler with
    | .off => if s.sem then some { s with sem := false, handler := .mask } else none
    | _ => handlerStep pf s

def axisCode : Axis → UInt16
  | .x => absMtPositionX
  | .y => absMtPositionY

/-- Screen resolution, as VirtgpuGetXres and VirtgpuGetYres return it. -/
structure Screen where
  xres : UInt32
  yres : UInt32
  deriving DecidableEq, Repr

def Screen.res (sc : Screen) : Axis → UInt32
  | .x => sc.xres
  | .y => sc.yres

def callbackStep (sc : Screen) (s : State) : Option State :=
  match s.callback with
  | .idle =>
    match s.wq with
    | [] => none
    | idx :: wq => some { s with wq, callback := .test idx }
  | .test idx =>
    let e := s.ev idx
    some { s with callback :=
      if e.type = evAbs ∧ e.code = absX then .scale idx .x
      else if e.type = evAbs ∧ e.code = absY then .scale idx .y
      else .report idx }
  | .scale idx axis =>
    let e := s.ev idx
    some { s.setEv idx { e with value := e.value * sc.res axis / qemuTabletLen } with
      callback := .recode idx axis }
  | .recode idx axis =>
    some { s.setEv idx { s.ev idx with code := axisCode axis } with callback := .report idx }
  | .report idx => some { s with reported := s.reported ++ [s.ev idx], callback := .idle }

/-- What VirtinWorkCallback is to report for a delivered event. -/
def scaled (sc : Screen) (e : VirtinEvent) : VirtinEvent :=
  if e.type = evAbs ∧ e.code = absX then
    ⟨e.type, absMtPositionX, e.value * sc.xres / qemuTabletLen⟩
  else if e.type = evAbs ∧ e.code = absY then
    ⟨e.type, absMtPositionY, e.value * sc.yres / qemuTabletLen⟩
  else e

def deviceFetch (s : State) : Option State :=
  if s.dev.seen = s.q.avail.index then none
  else
    let id := s.q.avail.ring (slot s.q.qsz s.dev.seen)
    some { s with dev := { s.dev with
      seen := s.dev.seen + 1, inFlight := s.dev.inFlight ++ [id] } }

/-- The device writes an event into the `i`-th buffer it holds. -/
def deviceWrite (s : State) (i : ℕ) (e : VirtinEvent) : Option State :=
  match s.dev.filled, s.dev.inFlight[i]? with
  | none, some id =>
    some { s.setEv id e with
      dev := { s.dev with inFlight := s.dev.inFlight.eraseIdx i, filled := some (id, e) } }
  | _, _ => none

def deviceAppend (s : State) : Option State :=
  match s.dev.filled with
  | none => none
  | some (id, e) =>
    let u := s.q.used
    some { s with
      q := { s.q with used := { u with
        ring := Function.update u.ring (slot s.q.qsz u.index) ⟨id.toUInt32, 8⟩
        index := u.index + 1 } }
      dev := { s.dev with filled := none, raising := true }
      delivered := s.delivered ++ [e] }

def deviceRaise (s : State) : Option State :=
  if s.dev.raising then
    some { s with
      isr := s.isr || s.q.avail.flag != virtqAvailFNoInterrupt
      dev := { s.dev with raising := false } }
  else none

inductive Event where
  | irq
  | task
  | callback
  | fetch
  | write (i : ℕ) (e : VirtinEvent)
  | append
  | raise
  | usedFlag (flag : UInt16)
  deriving DecidableEq, Repr

def next (pf : Platform) (sc : Screen) (s : State) : Event → Option State
  | .irq => irqStep pf s
  | .task => taskStep pf s
  | .callback => callbackStep sc s
  | .fetch => deviceFetch s
  | .write i e => deviceWrite s i e
  | .append => deviceAppend s
  | .raise => deviceRaise s
  | .usedFlag flag => some { s with q := { s.q with used := { s.q.used with flag } } }

def system (pf : Platform) (sc : Screen) : System State Event where
  Init := Init
  next := next pf sc

end Virtinput
