import DeviceQemu.VirtnetTx

/-! LowLevelOutput of the riscv32 driver and the pbufs it is handed.
The transmit queue is the one of VirtnetTx, which copies what the descriptors get from a pbuf
chain. Here the chains are memory: LowLevelOutput hides the padding word at entry and reveals it
at exit, takes a reference, and the handler gives it back. What lwIP does meanwhile with its own
references and with the chains no call is working on is open. -/
namespace VirtnetOutput

open StepSystem Virtmmio VirtnetTx

/-- A pbuf, the ones chained to it, and what only the first of them carries. -/
structure Chain where
  first : Pbuf
  rest : List Pbuf
  totLen : UInt16
  ref : ℕ
  /-- PBUF_ROM and PBUF_REF cannot be increased in size. -/
  growable : Bool
  deriving DecidableEq

def Chain.clen (c : Chain) : UInt16 := UInt16.ofNat (c.rest.length + 1)

/-- The first `n` bytes of the first pbuf are hidden. -/
def Chain.hide (c : Chain) (n : UInt16) : Chain :=
  { c with first := pbufDropPad n c.first, totLen := c.totLen - n }

/-- ETH_PAD_SIZE, and pbuf_header as lwIP documents it: it hides bytes of the first pbuf if that
is long enough, and reveals them again if the type of the pbuf lets it. -/
structure Lwip where
  ethPadSize : UInt16
  pbufHeader : Chain → ℤ → Chain
  hides : ∀ c n, n ≤ c.first.len → pbufHeader c (-(n.toNat : ℤ)) = c.hide n
  refuses : ∀ c n, c.first.len < n → pbufHeader c (-(n.toNat : ℤ)) = c
  reveals : ∀ c n, n ≤ c.first.len → c.growable = true → pbufHeader (c.hide n) n.toNat = c

inductive Err where
  | ok
  | errIf
  deriving DecidableEq

/-- Where LowLevelOutput is; `entry` is the chain as it was handed in, which no step reads.
After `lost` nothing more is modelled: the count of the chain has wrapped in 16 bits, and there
are fewer descriptors than pbufs. -/
inductive Call where
  | idle
  | running (p : UInt32) (entry : Chain)
  | restoring (p : UInt32) (entry : Chain)
  | lost
  deriving DecidableEq

/-- `lwipRefs` says how many of the references to a chain are lwIP's own; no step reads it but
those by which lwIP takes and drops them. `ret` is what the last call returned. -/
structure State where
  tx : VirtnetTx.State PbufChain TbufRecord
  pbufs : UInt32 → Chain
  call : Call
  ret : Err
  lwipRefs : UInt32 → ℕ

def State.setPbuf (s : State) (p : UInt32) (c : Chain) : State :=
  { s with pbufs := Function.update s.pbufs p c }

def State.pbufRef (s : State) (p : UInt32) : State :=
  s.setPbuf p { s.pbufs p with ref := (s.pbufs p).ref + 1 }

def State.pbufFree (s : State) (p : UInt32) : State :=
  s.setPbuf p { s.pbufs p with ref := (s.pbufs p).ref - 1 }

def Lwip.dropPad (l : Lwip) (c : Chain) : Chain :=
  if l.ethPadSize = 0 then c else l.pbufHeader c (-(l.ethPadSize.toNat : ℤ))

def Lwip.reclaimPad (l : Lwip) (c : Chain) : Chain :=
  if l.ethPadSize = 0 then c else l.pbufHeader c l.ethPadSize.toNat

/-- The transmit queue of a driver that is handed chains without padding. -/
def driver (vnHdr : UInt64) : Driver PbufChain TbufRecord := riscv32 vnHdr 0

def lowLevelOutput (l : Lwip) (vnHdr : UInt64) (s : State) (p : UInt32) : Option State :=
  match s.call with
  | .idle =>
    let c := l.dropPad (s.pbufs p)
    let add := c.clen + 1
    if add > s.tx.q.qsz then some { s.setPbuf p c with ret := .errIf }
    else if h : c.rest.length + 2 < 65536 then
      (VirtnetTx.lowLevelOutput (driver vnHdr) s.tx ⟨p, c.first, c.rest, h⟩).map fun tx =>
        { s.setPbuf p c with tx, call := .running p (s.pbufs p) }
    else some { s.setPbuf p c with call := .lost }
  | _ => none

def senderStep (l : Lwip) (vnHdr : UInt64) (s : State) : Option State :=
  match s.call with
  | .running p entry =>
    (VirtnetTx.senderStep (driver vnHdr) s.tx).map fun tx =>
      match s.tx.sender with
      -- pbuf_ref follows the stores to tbufRec
      | .record _ _ _ _ => { s.pbufRef p with tx }
      | .notify => { s with tx, call := .restoring p entry }
      | _ => { s with tx }
  | .restoring p _ =>
    some { s.setPbuf p (l.reclaimPad (s.pbufs p)) with call := .idle, ret := .ok }
  | _ => none

def handlerStep (vnHdr : UInt64) (s : State) : Option State :=
  (VirtnetTx.handlerStep (driver vnHdr) s.tx).map fun tx =>
    match s.tx.handler with
    -- pbuf_free_callback
    | .free nb => { s.pbufFree nb.ptr with tx }
    | _ => { s with tx }

/-- `queue` is what the interrupt and the device do; `edit`, `ref` and `unref` are lwIP. -/
inductive Event where
  | output (p : UInt32)
  | sender
  | handler
  | enter
  | fetch
  | complete (i : ℕ)
  | raise
  | usedFlag (flag : UInt16)
  | edit (p : UInt32) (c : Chain)
  | ref (p : UInt32)
  | unref (p : UInt32)

def Call.holds : Call → UInt32 → Bool
  | .running p _, p' => p == p'
  | .restoring p _, p' => p == p'
  | _, _ => false

def queueStep (vnHdr : UInt64) (s : State) (e : VirtnetTx.Event PbufChain) : Option State :=
  (VirtnetTx.next (driver vnHdr) s.tx e).map fun tx => { s with tx }

def next (l : Lwip) (vnHdr : UInt64) (s : State) : Event → Option State
  | .output p => lowLevelOutput l vnHdr s p
  | .sender => senderStep l vnHdr s
  | .handler => handlerStep vnHdr s
  | .enter => queueStep vnHdr s .enter
  | .fetch => queueStep vnHdr s .fetch
  | .complete i => queueStep vnHdr s (.complete i)
  | .raise => queueStep vnHdr s .raise
  | .usedFlag flag => queueStep vnHdr s (.usedFlag flag)
  | .edit p c =>
    if s.call.holds p then none else some (s.setPbuf p { c with ref := (s.pbufs p).ref })
  | .ref p =>
    some { s.pbufRef p with lwipRefs := Function.update s.lwipRefs p (s.lwipRefs p + 1) }
  | .unref p =>
    if s.lwipRefs p = 0 then none
    else some { s.pbufFree p with lwipRefs := Function.update s.lwipRefs p (s.lwipRefs p - 1) }

structure Init (qsz : UInt16) (s : State) : Prop where
  tx : VirtnetTx.Init qsz s.tx
  call : s.call = .idle
  refs : ∀ p, (s.pbufs p).ref = s.lwipRefs p

def system (l : Lwip) (vnHdr : UInt64) (qsz : UInt16) : System State Event where
  Init := Init qsz
  next := next l vnHdr

end VirtnetOutput
