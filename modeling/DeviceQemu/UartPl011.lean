import DeviceQemu.StepSystem
import Mathlib.Data.List.Basic
import Mathlib.Data.UInt
import Mathlib.Logic.Function.Basic

/-! The receive ring of the PL011 driver.
PL011UartRecvNotify runs in the interrupt, Pl011Read in a task. Each reads both positions,
copies in at most two parts and then publishes its own position; here every read of a position,
every byte copied and every publication is a step of its own, in any interleaving. -/
namespace UartPl011

open StepSystem

structure UartTransfer where
  rp : UInt32
  wp : UInt32
  data : ℕ → UInt8

/-- The upperHalf and lowerHalf of PL011UartRecvNotify; `count` is a size_t. -/
def recvHalves (bufSize wp rp : UInt32) (count : ℕ) : UInt32 × UInt32 :=
  if wp < rp then
    (if count > (rp - wp - 1).toNat then rp - wp - 1 else .ofNat count, 0)
  else
    let room := bufSize - wp + rp - 1
    let count := if count > room.toNat then room.toNat else count
    (if count > (bufSize - wp).toNat then bufSize - wp else .ofNat count,
      if count > (bufSize - wp).toNat then .ofNat (count - (bufSize - wp).toNat) else 0)

def recvNext (bufSize wp rp : UInt32) (halves : UInt32 × UInt32) : UInt32 :=
  if wp < rp then wp + halves.1
  else if wp + halves.1 ≥ bufSize then halves.2 else wp + halves.1

/-- The upperHalf and lowerHalf of Pl011Read, when the positions differ. -/
def readHalves (bufSize wp rp : UInt32) (count : ℕ) : UInt32 × UInt32 :=
  if rp < wp then
    (if count > (wp - rp).toNat then wp - rp else .ofNat count, 0)
  else
    let queued := bufSize - rp + wp
    let count := if count > queued.toNat then queued.toNat else count
    (if count > (bufSize - rp).toNat then bufSize - rp else .ofNat count,
      if count > (bufSize - rp).toNat then .ofNat (count - (bufSize - rp).toNat) else 0)

def readNext (bufSize wp rp : UInt32) (halves : UInt32 × UInt32) : UInt32 :=
  if rp < wp then rp + halves.1
  else if rp + halves.1 ≥ bufSize then halves.2 else rp + halves.1

/-- PL011UartRecvNotify: `i` counts the bytes of the part that is being copied. -/
inductive RecvPc where
  | idle
  | readWp (buf : List UInt8)
  | readRp (buf : List UInt8) (wp : UInt32)
  | upper (buf : List UInt8) (wp rp : UInt32) (i : ℕ)
  | lower (buf : List UInt8) (wp rp : UInt32) (i : ℕ)
  | publish (buf : List UInt8) (wp rp : UInt32)
  deriving DecidableEq, Repr

/-- Pl011Read: `out` holds the bytes stored in the caller's buffer. -/
inductive ReadPc where
  | idle
  | readWp (count : ℕ)
  | readRp (count : ℕ) (wp : UInt32)
  | upper (count : ℕ) (wp rp : UInt32) (out : List UInt8)
  | lower (count : ℕ) (wp rp : UInt32) (out : List UInt8)
  | publish (count : ℕ) (wp rp : UInt32) (out : List UInt8)
  deriving DecidableEq, Repr

/-- `received` and `delivered` record the finished calls with the value each returned. -/
structure State where
  transfer : UartTransfer
  recv : RecvPc
  read : ReadPc
  received : List (List UInt8 × UInt32)
  delivered : List (ℕ × UInt32 × List UInt8)

structure Init (s : State) : Prop where
  rp : s.transfer.rp = 0
  wp : s.transfer.wp = 0
  recv : s.recv = .idle
  read : s.read = .idle
  received : s.received = []
  delivered : s.delivered = []

def zeroed : State := ⟨⟨0, 0, fun _ => 0⟩, .idle, .idle, [], []⟩

theorem init_zeroed : Init zeroed := ⟨rfl, rfl, rfl, rfl, rfl, rfl⟩

def uartRxBufEmpty (s : State) : Bool := s.transfer.wp == s.transfer.rp

/-- `memcpy_s(data + pos, ..)`, one byte of it. -/
def State.store (s : State) (pos : ℕ) (x : UInt8) : State :=
  { s with transfer := { s.transfer with data := Function.update s.transfer.data pos x } }

def recvStep (bufSize : UInt32) (s : State) : Option State :=
  match s.recv with
  | .idle => none
  | .readWp buf => some { s with recv := .readRp buf s.transfer.wp }
  | .readRp buf wp => some { s with recv := .upper buf wp s.transfer.rp 0 }
  | .upper buf wp rp i =>
    if i < (recvHalves bufSize wp rp buf.length).1.toNat then
      some { s.store (wp.toNat + i) (buf.getD i 0) with recv := .upper buf wp rp (i + 1) }
    else some { s with recv := .lower buf wp rp 0 }
  | .lower buf wp rp i =>
    let halves := recvHalves bufSize wp rp buf.length
    if i < halves.2.toNat then
      some { s.store i (buf.getD (halves.1.toNat + i) 0) with recv := .lower buf wp rp (i + 1) }
    else some { s with recv := .publish buf wp rp }
  | .publish buf wp rp =>
    -- Pl011Notify fails only without a wait queue, and `udd->wait` is part of `udd`
    let halves := recvHalves bufSize wp rp buf.length
    some { s with
      transfer := { s.transfer with wp := recvNext bufSize wp rp halves }
      recv := .idle
      received := s.received ++ [(buf, halves.1 + halves.2)] }

def readStep (bufSize : UInt32) (s : State) : Option State :=
  match s.read with
  | .idle => none
  | .readWp count => some { s with read := .readRp count s.transfer.wp }
  | .readRp count wp =>
    let rp := s.transfer.rp
    if rp = wp then some { s with read := .idle, delivered := s.delivered ++ [(count, 0, [])] }
    else some { s with read := .upper count wp rp [] }
  | .upper count wp rp out =>
    if out.length < (readHalves bufSize wp rp count).1.toNat then
      some { s with
        read := .upper count wp rp (out ++ [s.transfer.data (rp.toNat + out.length)]) }
    else some { s with read := .lower count wp rp out }
  | .lower count wp rp out =>
    let halves := readHalves bufSize wp rp count
    if out.length < halves.1.toNat + halves.2.toNat then
      some { s with
        read := .lower count wp rp (out ++ [s.transfer.data (out.length - halves.1.toNat)]) }
    else some { s with read := .publish count wp rp out }
  | .publish count wp rp out =>
    let halves := readHalves bufSize wp rp count
    some { s with
      transfer := { s.transfer with rp := readNext bufSize wp rp halves }
      read := .idle
      delivered := s.delivered ++ [(count, halves.1 + halves.2, out)] }

inductive Event where
  | recvNotify (buf : List UInt8)
  | recv
  | read (count : ℕ)
  | reader
  deriving DecidableEq, Repr

/-- A call with count 0 returns HDF_ERR_INVALID_PARAM at once. -/
def next (bufSize : UInt32) (s : State) : Event → Option State
  | .recvNotify buf =>
    match s.recv with
    | .idle => some (if buf = [] then s else { s with recv := .readWp buf })
    | _ => none
  | .recv => recvStep bufSize s
  | .read count =>
    match s.read with
    | .idle => some (if count = 0 then s else { s with read := .readWp count })
    | _ => none
  | .reader => readStep bufSize s

def system (bufSize : UInt32) : System State Event where
  Init := Init
  next := next bufSize

end UartPl011
