import DeviceQemu.Uart
import DeviceQemu.UartPl011

/-! Reading in blocking mode.
Hi35xxRead waits for an event that PL011UartRecvNotify writes before it publishes wp. The event stays
set until a read in blocking mode has emptied the ring, and SetTransMode writes it too. -/
namespace UartBlockingRead

open StepSystem Uart

/-- Hi35xxRead: `reading` while Pl011Read runs, `recheck` and `clear` after it. -/
inductive HostPc where
  | idle
  | check (count : ℕ)
  | wait (count : ℕ)
  | reading
  | recheck
  | clear
  deriving DecidableEq, Repr

/-- `notified` is whether the reception in progress has written the event, and `results` records
the mode and the value of the reads that have returned. -/
structure State where
  ring : UartPl011.State
  block : Bool
  event : Bool
  notified : Bool
  host : HostPc
  results : List (Bool × UInt32)

/-- The mode that the port starts with comes from its configuration. -/
structure Init (s : State) : Prop where
  ring : UartPl011.Init s.ring
  event : s.event = false
  notified : s.notified = false
  host : s.host = .idle
  results : s.results = []

def attached (block : Bool) : State := ⟨UartPl011.zeroed, block, false, false, .idle, []⟩

theorem init_attached (block : Bool) : Init (attached block) :=
  ⟨UartPl011.init_zeroed, rfl, rfl, rfl, rfl⟩

/-- PL011UartRecvNotify: LOS_EventWrite, then the publication of wp. -/
def recvStep (bufSize : UInt32) (s : State) : Option State :=
  match s.ring.recv, s.notified with
  | .publish _ _ _, false => some { s with event := true, notified := true }
  | _, _ => (UartPl011.recvStep bufSize s.ring).map fun ring => { s with ring, notified := false }

def startRead (bufSize : UInt32) (s : State) (count : ℕ) : Option State :=
  (UartPl011.next bufSize s.ring (.read count)).map fun ring => { s with ring, host := .reading }

def returned (ring ring' : UartPl011.State) : List UInt32 :=
  (ring'.delivered.drop ring.delivered.length).map fun call => call.2.1

def afterRead (s : State) (ring : UartPl011.State) : State :=
  { s with
    ring
    host := if ring.read = .idle then .recheck else .reading
    results := s.results ++ (returned s.ring ring).map fun ret => (s.block, ret) }

/-- Both positions are read for PL011UartRxBufEmpty, of which only wp can change meanwhile.
LOS_EventRead leaves the event set. -/
def hostStep (bufSize : UInt32) (s : State) : Option State :=
  match s.host with
  | .idle => none
  | .check count =>
    if s.block && UartPl011.uartRxBufEmpty s.ring then some { s with host := .wait count }
    else startRead bufSize s count
  | .wait count => if s.event then startRead bufSize s count else none
  | .reading => (UartPl011.readStep bufSize s.ring).map (afterRead s)
  | .recheck =>
    some { s with
      host := if s.block && UartPl011.uartRxBufEmpty s.ring then .clear else .idle }
  | .clear => some { s with event := false, host := .idle }

def setTransMode (s : State) : UartTransMode → State
  | .rdBlock => { s with block := true }
  | .rdNonblock => { s with block := false, event := true }
  | .other => s

inductive Event where
  | recvNotify (buf : List UInt8)
  | recv
  | read (count : ℕ)
  | reader
  | setTransMode (mode : UartTransMode)
  deriving DecidableEq, Repr

def next (bufSize : UInt32) (s : State) : Event → Option State
  | .recvNotify buf =>
    (UartPl011.next bufSize s.ring (.recvNotify buf)).map fun ring => { s with ring }
  | .recv => recvStep bufSize s
  | .read count =>
    if s.host = .idle ∧ 0 < count then some { s with host := .check count } else none
  | .reader => hostStep bufSize s
  | .setTransMode mode => if s.host = .idle then some (setTransMode s mode) else none

def system (bufSize : UInt32) : System State Event where
  Init := Init
  next := next bufSize

/-- A read in blocking mode has returned data, and one that waits while the ring holds some goes on. -/
structure Delivers (bufSize : UInt32) (s : State) : Prop where
  data : ∀ r ∈ s.results, r.1 = true → 0 < r.2.toNat
  awake : ∀ count, s.host = .wait count → UartPl011.uartRxBufEmpty s.ring = false →
    ∃ t, next bufSize s .reader = some t ∧ t.host = .reading

def offered (bufSize : UInt32) : UartPl011.RecvPc → ℕ
  | .publish buf wp rp =>
    let halves := UartPl011.recvHalves bufSize wp rp buf.length
    halves.1.toNat + halves.2.toNat
  | _ => 0

def told (bufSize : UInt32) (s : State) : Bool :=
  !UartPl011.uartRxBufEmpty s.ring || s.notified && 0 < offered bufSize s.ring.recv

def looks (s : State) : Bool :=
  match s.ring.read with
  | .readWp _ => true
  | _ => false

def waits (s : State) : Bool :=
  match s.host with
  | .wait _ => true
  | _ => false

def signals (s : State) : Bool :=
  match s.ring.recv, s.notified with
  | .publish _ _ _, false => true
  | _, _ => false

/-- A read that finds the ring empty finds the event as it should be, and Pl011Read does not look at
the ring between the event and the publication. -/
def HostCalm (bufSize : UInt32) (s : State) : HostPc → Prop
  | .check _ => s.block = true → UartPl011.uartRxBufEmpty s.ring = true →
      s.event = told bufSize s
  | .reading => s.block = true → looks s = true → told bufSize s = true →
      UartPl011.uartRxBufEmpty s.ring = false
  | _ => True

def Calm (bufSize : UInt32) (s : State) : Event → Prop
  | .reader => HostCalm bufSize s s.host
  | .recv => signals s = true → waits s = true → UartPl011.uartRxBufEmpty s.ring = true →
      0 < offered bufSize s.ring.recv
  | _ => True

instance (bufSize : UInt32) (s : State) (pc : HostPc) : Decidable (HostCalm bufSize s pc) := by
  cases pc <;> unfold HostCalm <;> infer_instance

instance (bufSize : UInt32) (s : State) (e : Event) : Decidable (Calm bufSize s e) := by
  cases e <;> unfold Calm <;> infer_instance

end UartBlockingRead
