import DeviceQemu.HandoverLog
import DeviceQemu.VirtnetRx

/-! Where the receive buffers of the virtnet drivers are.
The receive side of both drivers with its history. Any number of tasks may free packets at
the same time; each of their calls of ReleaseRxEntry takes its own steps. -/
namespace VirtnetRxBuffers

open StepSystem RingWindow Virtmmio HandoverLog
open VirtnetRx (Mode ReleasePc Verdict handlerStep releaseStep deviceFetch deviceDeliver
  perRxBufSize)

/-- `apps` are the calls of ReleaseRxEntry outside the handler. The rest is history: the
packets of the device in used-ring order, whether LowLevelInput had a buffer for each of those
it saw, and the gives and takes of buffer ids. -/
structure State where
  rx : VirtnetRx.State
  apps : List ReleasePc
  sent : List (List UInt8)
  verdicts : List Bool
  log : List (Move UInt16)

def available (rx : VirtnetRx.State) : List UInt16 := rx.q.availFrom rx.dev.seen ++ rx.dev.inFlight

def position (rx : VirtnetRx.State) : UInt16 :=
  match rx.handler with
  | .release _ | .advance => rx.q.last + 1
  | _ => rx.q.last

def unprocessed (rx : VirtnetRx.State) : List UInt16 :=
  (rx.q.usedFrom (position rx)).map fun e => e.id.toUInt16

def batch (rx : VirtnetRx.State) : List UInt16 :=
  match rx.handler with
  | .off | .mask | .notify => []
  | _ => window rx.q.qsz rx.q.avail.ring rx.q.avail.index (rx.q.avail.index + rx.add)

/-- The calls of ReleaseRxEntry in progress, the one of the handler included. -/
def calls (s : State) : List ReleasePc :=
  match s.rx.handler with
  | .release r => r :: s.apps
  | _ => s.apps

/-- The buffer that a call of ReleaseRxEntry has still to publish. -/
def pending (rx : VirtnetRx.State) : ReleasePc → List UInt16
  | .lock id | .ring id => [id]
  | .bump => [rx.q.avail.ring (slot rx.q.qsz rx.q.avail.index)]
  | .unlock | .notify => []

def held (s : State) : List UInt16 := s.rx.lent ++ (calls s).flatMap (pending s.rx)

def unconsumed (rx : VirtnetRx.State) : List UInt16 :=
  (List.range (rx.q.avail.index - rx.dev.seen).toNat).map fun i =>
    slot rx.q.qsz (rx.dev.seen + UInt16.ofNat i)

def released (rx : VirtnetRx.State) (r : ReleasePc) : List UInt16 :=
  match r with
  | .bump => pending rx .bump
  | _ => []

def published (rx : VirtnetRx.State) : List UInt16 :=
  match rx.handler with
  | .publish => batch rx
  | .release r => released rx r
  | _ => []

/-- Whether LowLevelInput has a buffer for the packet. -/
def handed : Mode → Verdict → Bool
  | .copy, v => v.alloc
  | .zeroCopy, _ => true

def handlerNext (mode : Mode) (v : Verdict) (s : State) : Option State :=
  (handlerStep mode v s.rx).map fun rx =>
    let t := { s with rx, log := s.log ++ (published s.rx).map .give }
    match s.rx.handler with
    | .input _ => { t with verdicts := s.verdicts ++ [handed mode v] }
    | _ => t

/-- The application frees the `i`-th packet lent to it. -/
def freeNext (s : State) (i : ℕ) : Option State :=
  s.rx.lent[i]?.map fun id =>
    { s with
      rx := { s.rx with lent := s.rx.lent.eraseIdx i }
      apps := .lock id :: s.apps }

def appNext (s : State) (k : ℕ) : Option State :=
  s.apps[k]?.bind fun r =>
    (releaseStep s.rx r).map fun (rx, r') =>
      { s with
        rx
        apps := r'.toList ++ s.apps.eraseIdx k
        log := s.log ++ (released s.rx r).map .give }

def deliverNext (s : State) (i : ℕ) (packet : List UInt8) : Option State :=
  s.rx.dev.inFlight[i]?.bind fun id =>
    (deviceDeliver s.rx i packet).map fun rx =>
      { s with rx, sent := s.sent ++ [packet], log := s.log ++ [.take id] }

inductive Event where
  | enter
  | handler (v : Verdict)
  | free (i : ℕ)
  | app (k : ℕ)
  | fetch
  | deliver (i : ℕ) (packet : List UInt8)
  | raise
  | usedFlag (flag : UInt16)
  deriving DecidableEq, Repr

def next (mode : Mode) (s : State) : Event → Option State
  | .enter => (VirtnetRx.next mode s.rx .enter).map fun rx => { s with rx }
  | .handler v => handlerNext mode v s
  | .free i => freeNext s i
  | .app k => appNext s k
  | .fetch => (deviceFetch s.rx).map fun rx => { s with rx }
  | .deliver i packet => deliverNext s i packet
  | .raise => (VirtnetRx.next mode s.rx .raise).map fun rx => { s with rx }
  | .usedFlag flag => (VirtnetRx.next mode s.rx (.usedFlag flag)).map fun rx => { s with rx }

/-- Every buffer has just been published, and has room for exactly one frame. -/
structure Init (qsz : UInt16) (s : State) : Prop where
  rx : VirtnetRx.Init qsz s.rx
  len : ∀ i, i < qsz → (s.rx.q.desc i).len = perRxBufSize
  apps : s.apps = []
  sent : s.sent = []
  verdicts : s.verdicts = []
  log : s.log = (indices qsz).map .give

def system (mode : Mode) (qsz : UInt16) : System State Event where
  Init := Init qsz
  next := next mode

def zeroed (qsz : UInt16) : State where
  rx := VirtnetRx.zeroed qsz
  apps := []
  sent := []
  verdicts := []
  log := (indices qsz).map .give

theorem init_zeroed (qsz : UInt16) : Init qsz (zeroed qsz) := by
  constructor
  case rx => exact VirtnetRx.init_zeroed qsz
  case len => exact fun _ _ => rfl
  all_goals rfl

/-- The packets for which LowLevelInput had a buffer, each with its length. -/
def handedUp (sent : List (List UInt8)) (verdicts : List Bool) : List (ℕ × List UInt8) :=
  ((sent.zip verdicts).filter fun (_, v) => v).map fun (p, _) => (p.length, p)

end VirtnetRxBuffers
