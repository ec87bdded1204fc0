import DeviceQemu.InterruptLine
import DeviceQemu.VirtnetRx
import DeviceQemu.VirtnetTxPartition

/-! VirtnetIRQhandle and the interrupt status it shares.
Both queues raise one status bit. The handler reads it, drains the receive queue, then the
transmit queue, and acknowledges the bit only after both. -/
namespace Virtnet

open StepSystem InterruptLine Virtmmio
open VirtnetTx (Driver HandlerPc SenderPc)
open VirtnetRx (Mode RxPc Verdict)

inductive IrqPc where
  | idle
  | status
  | rx
  | tx
  | ack
  deriving DecidableEq, Repr

structure State (β ρ : Type) where
  rx : VirtnetRx.State
  tx : VirtnetTx.State β ρ
  isr : Bool
  irq : IrqPc

inductive Event (β : Type) where
  | irq (v : Verdict)
  | rx (e : VirtnetRx.Event)
  | tx (e : VirtnetTx.Event β)

variable {β ρ : Type}

structure Init (rxQsz txQsz : UInt16) (s : State β ρ) : Prop where
  rx : VirtnetRx.Init rxQsz s.rx
  tx : VirtnetTx.Init txQsz s.tx
  isr : s.isr = false
  irq : s.irq = .idle

def zeroed [Inhabited ρ] (rxQsz txQsz : UInt16) : State β ρ where
  rx := VirtnetRx.zeroed rxQsz
  tx := VirtnetTx.zeroed txQsz
  isr := false
  irq := .idle

theorem init_zeroed [Inhabited ρ] (rxQsz txQsz : UInt16) :
    Init rxQsz txQsz (zeroed rxQsz txQsz : State β ρ) :=
  ⟨VirtnetRx.init_zeroed rxQsz, VirtnetTx.init_zeroed txQsz, rfl, rfl⟩

/-- One step of VirtnetIRQhandle; from `idle` the processor takes the interrupt. -/
def irqStep (d : Driver β ρ) (mode : Mode) (v : Verdict) (s : State β ρ) :
    Option (State β ρ) :=
  match s.irq with
  | .idle => some { s with irq := .status }
  | .status =>
    if s.isr then (VirtnetRx.next mode s.rx .enter).map fun rx => { s with rx, irq := .rx }
    else some { s with irq := .idle }
  | .rx =>
    match s.rx.handler with
    | .off => (VirtnetTx.next d s.tx .enter).map fun tx => { s with tx, irq := .tx }
    | _ => (VirtnetRx.next mode s.rx (.handler v)).map fun rx => { s with rx }
  | .tx =>
    match s.tx.handler with
    | .off => some { s with irq := .ack }
    | _ => (VirtnetTx.next d s.tx .handler).map fun tx => { s with tx }
  | .ack => some { s with isr := false, irq := .idle }

/-- The interrupt decision for a queue: the status bit is set unless the driver masks it. -/
def raises (q : Virtq) : Bool := q.avail.flag != virtqAvailFNoInterrupt

def rxStep (mode : Mode) (s : State β ρ) (e : VirtnetRx.Event) : Option (State β ρ) :=
  match e with
  | .enter | .handler _ => none
  | .raise => (VirtnetRx.next mode s.rx .raise).map fun rx =>
      { s with rx, isr := s.isr || raises s.rx.q }
  | e => (VirtnetRx.next mode s.rx e).map fun rx => { s with rx }

def txStep (d : Driver β ρ) (s : State β ρ) (e : VirtnetTx.Event β) : Option (State β ρ) :=
  match e with
  | .enter | .handler => none
  | .raise => (VirtnetTx.next d s.tx .raise).map fun tx =>
      { s with tx, isr := s.isr || raises s.tx.q }
  | e => (VirtnetTx.next d s.tx e).map fun tx => { s with tx }

def next (d : Driver β ρ) (mode : Mode) (s : State β ρ) : Event β → Option (State β ρ)
  | .irq v => irqStep d mode v s
  | .rx e => rxStep mode s e
  | .tx e => txStep d s e

def system (d : Driver β ρ) (mode : Mode) (rxQsz txQsz : UInt16) :
    System (State β ρ) (Event β) where
  Init := Init rxQsz txQsz
  next := next d mode

end Virtnet
