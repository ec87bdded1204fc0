import DeviceQemu.StepSystem
import DeviceQemu.Virtmmio

/-! The transmit side of the virtnet drivers.
One sender in LowLevelOutput, the interrupt handler in VirtnetTxHandle and the device share
the transmit queue. The two drivers run the same steps and differ in what a buffer is, how
many descriptors it takes and what tbufRec remembers of it; `Driver` holds the difference.
Critical sections under transLock are single steps between acquiring and releasing it. -/
namespace VirtnetTx

open StepSystem RingWindow LinkedWalk Virtmmio

def virtnetHdrSize : UInt32 := 12

/-- `β` is what LowLevelOutput is handed, `ρ` an entry of tbufRec. -/
structure Driver (β ρ : Type) where
  vnHdr : UInt64
  segments : β → List (UInt64 × UInt32)
  entries : β → UInt16
  accepts : UInt16 → β → Bool
  record : β → UInt16 → UInt16 → ρ
  recBuf : ρ → β
  recCount : ρ → UInt16
  recTail : ρ → UInt16 → UInt16
  /-- FreeTxEntry reads tbufRec before it takes transLock, rather than while holding it. -/
  recordEarly : Bool
  /-- LowLevelOutput notifies without looking at the device's NO_NOTIFY flag. -/
  notifyAlways : Bool
  /-- Rings at least this large have room for every accepted buffer. -/
  minRing : ℕ
  entries_eq : ∀ b, (entries b).toNat = (segments b).length + 1
  segments_ne : ∀ b, segments b ≠ []
  accepts_le : ∀ q b, minRing ≤ q.toNat → accepts q b → (entries b).toNat ≤ q.toNat
  recBuf_record : ∀ b t, recBuf (record b (entries b) t) = b
  recCount_record : ∀ b t, recCount (record b (entries b) t) = entries b
  recTail_record : ∀ b t idx, ((segments b).length = 1 → t = idx) →
    recTail (record b (entries b) t) idx = t

structure NetBuf where
  ptr : UInt64
  /-- LOS_PaddrQuery(NetBufGetAddress(p, E_DATA_BUF)) -/
  data : UInt64
  len : UInt32
  deriving DecidableEq, Repr, Inhabited

def perTxEntries : UInt16 := 2

def liteosA (vnHdr : UInt64) : Driver NetBuf NetBuf where
  vnHdr
  segments p := [(p.data, p.len)]
  entries _ := perTxEntries
  accepts _ _ := true
  record p _ _ := p
  recBuf nb := nb
  recCount _ := perTxEntries
  recTail _ idx := idx
  recordEarly := false
  notifyAlways := false
  minRing := 2
  entries_eq _ := rfl
  segments_ne _ := by simp
  accepts_le _ _ h _ := h
  recBuf_record _ _ := rfl
  recCount_record _ _ := rfl
  recTail_record _ _ _ h := (h rfl).symm

structure Pbuf where
  payload : UInt32
  len : UInt16
  deriving DecidableEq, Repr, Inhabited

/-- A pbuf chain is never empty; pbuf_clen counts it in 16 bits. -/
structure PbufChain where
  ptr : UInt32
  first : Pbuf
  rest : List Pbuf
  fits : rest.length + 2 < 65536
  deriving DecidableEq

instance : Inhabited PbufChain := ⟨⟨0, default, [], by decide⟩⟩

def pbufClen (p : PbufChain) : UInt16 := UInt16.ofNat (p.rest.length + 1)

/-- `pbuf_header(p, -ETH_PAD_SIZE)` on the first pbuf. -/
def pbufDropPad (ethPadSize : UInt16) (p : Pbuf) : Pbuf :=
  ⟨p.payload + ethPadSize.toUInt32, p.len - ethPadSize⟩

structure TbufRecord where
  head : PbufChain
  count : UInt16
  tail : UInt16
  deriving Inhabited

def pbufSegments (ethPadSize : UInt16) (p : PbufChain) : List (UInt64 × UInt32) :=
  (pbufDropPad ethPadSize p.first :: p.rest).map fun q => (q.payload.toUInt64, q.len.toUInt32)

theorem pbufClen_succ_toNat (p : PbufChain) : (pbufClen p + 1).toNat = p.rest.length + 2 := by
  have := p.fits
  simp [pbufClen, UInt16.toNat_add]
  omega

def riscv32 (vnHdr : UInt64) (ethPadSize : UInt16) : Driver PbufChain TbufRecord where
  vnHdr
  segments := pbufSegments ethPadSize
  entries p := pbufClen p + 1
  accepts qsz p := !decide (pbufClen p + 1 > qsz)
  record p add tmp := ⟨p, add, tmp⟩
  recBuf r := r.head
  recCount r := r.count
  recTail r _ := r.tail
  recordEarly := true
  notifyAlways := true
  minRing := 0
  entries_eq p := by rw [pbufClen_succ_toNat]; simp [pbufSegments]
  segments_ne p := by simp [pbufSegments]
  accepts_le q p _ h := by simpa [UInt16.le_iff_toNat_le] using h
  recBuf_record _ _ := rfl
  recCount_record _ _ := rfl
  recTail_record _ _ _ _ := rfl

inductive SenderPc (β : Type) where
  | idle
  | lock (p : β)
  | take (p : β)
  | yield (p : β)
  | unlock (p : β) (head tail : UInt16)
  | clearTail (p : β) (head tail : UInt16)
  | fill (p : β) (head : UInt16)
  | record (p : β) (head idx tail : UInt16)
  | ring (p : β) (head : UInt16)
  | publish (p : β) (head : UInt16)
  | notify

inductive HandlerPc (β ρ : Type) where
  | off
  | mask
  | test
  | read
  | lookup (head : UInt16)
  | lock (head idx : UInt16) (early : Option ρ)
  | splice (head idx : UInt16) (early : Option ρ)
  | unlock (nb : β)
  | free (nb : β)
  | advance
  | unmask

/-- The device fetches published chains in ring order, and may use them in any order.
`raising` is set between appending to the used ring and the interrupt decision. -/
structure Device where
  seen : UInt16
  inFlight : List UInt16
  raising : Bool
  deriving DecidableEq, Repr

/-- `handed`, `completed` and `freed` are histories that no step reads: buffers accepted by
LowLevelOutput, buffers of chains the device used, and buffers passed to the free callback. -/
structure State (β ρ : Type) where
  q : Virtq
  tFreeHdr : UInt16
  tFreeNum : UInt16
  tbufRec : UInt16 → ρ
  transLock : Bool
  sender : SenderPc β
  handler : HandlerPc β ρ
  dev : Device
  doorbell : ℕ
  handed : List β
  completed : List β
  freed : List β

variable {β ρ : Type}

/-- The first `n` iterations of the loop in InitTxFreelist. -/
def initTxFreelist (desc : UInt16 → VirtqDesc) : ℕ → UInt16 → VirtqDesc
  | 0 => desc
  | n + 1 =>
    let desc := initTxFreelist desc n
    Function.update desc (UInt16.ofNat n)
      { desc (UInt16.ofNat n) with flag := virtqDescFNext, next := UInt16.ofNat (n + 1) }

/-- Ring memory outside the counters, descriptors and records start with any content. -/
structure Init (qsz : UInt16) (s : State β ρ) : Prop where
  size : s.q.qsz = qsz
  desc : ∃ desc, s.q.desc = initTxFreelist desc (qsz.toNat - 1)
  last : s.q.last = 0
  availIndex : s.q.avail.index = 0
  availFlag : s.q.avail.flag = 0
  usedIndex : s.q.used.index = 0
  tFreeHdr : s.tFreeHdr = 0
  tFreeNum : s.tFreeNum = qsz
  transLock : s.transLock = false
  sender : s.sender = .idle
  handler : s.handler = .off
  dev : s.dev = ⟨0, [], false⟩
  handed : s.handed = []
  completed : s.completed = []
  freed : s.freed = []

/-- InitTxFreelist over zeroed memory. -/
def zeroed [Inhabited ρ] (qsz : UInt16) : State β ρ where
  q := ⟨qsz, 0, initTxFreelist default (qsz.toNat - 1), ⟨0, 0, fun _ => 0⟩, ⟨0, 0, default⟩⟩
  tFreeHdr := 0
  tFreeNum := qsz
  tbufRec := default
  transLock := false
  sender := .idle
  handler := .off
  dev := ⟨0, [], false⟩
  doorbell := 0
  handed := []
  completed := []
  freed := []

theorem init_zeroed [Inhabited ρ] (qsz : UInt16) : Init qsz (zeroed qsz : State β ρ) := by
  constructor
  case desc => exact ⟨default, rfl⟩
  all_goals rfl

/-- The `while (count--)` loop of GetTxFreeEntry: the last entry taken, and the one after. -/
def takeEntries (desc : UInt16 → VirtqDesc) : ℕ → UInt16 → UInt16 → UInt16 × UInt16
  | 0, idx, tail => (tail, idx)
  | n + 1, idx, _ => takeEntries desc n (desc idx).next idx

/-- The loop of LowLevelOutput over the buffer, and the last descriptor it wrote. -/
def fillSegments : (UInt16 → VirtqDesc) → UInt16 → List (UInt64 × UInt32) →
    (UInt16 → VirtqDesc) × UInt16
  | desc, tmp, [] => (desc, tmp)
  | desc, tmp, (pAddr, len) :: segs =>
    let tmp := (desc tmp).next
    fillSegments (Function.update desc tmp { desc tmp with pAddr, len }) tmp segs

def State.setDesc (s : State β ρ) (desc : UInt16 → VirtqDesc) : State β ρ :=
  { s with q := { s.q with desc } }

def State.setAvail (s : State β ρ) (avail : VirtqAvail) : State β ρ :=
  { s with q := { s.q with avail } }

/-- LowLevelOutput is called while no call is running; it may refuse the buffer. -/
def lowLevelOutput (d : Driver β ρ) (s : State β ρ) (p : β) : Option (State β ρ) :=
  match s.sender with
  | .idle =>
    if d.accepts s.q.qsz p then some { s with sender := .lock p, handed := s.handed ++ [p] }
    else some s
  | _ => none

def senderStep (d : Driver β ρ) (s : State β ρ) : Option (State β ρ) :=
  match s.sender with
  | .idle => none
  -- GetTxFreeEntry
  | .lock p => if s.transLock then none else some { s with transLock := true, sender := .take p }
  | .take p =>
    if d.entries p > s.tFreeNum then some { s with transLock := false, sender := .yield p }
    else
      let r := takeEntries s.q.desc (d.entries p).toNat s.tFreeHdr s.tFreeHdr
      some { s with
        tFreeNum := s.tFreeNum - d.entries p
        tFreeHdr := r.2
        sender := .unlock p s.tFreeHdr r.1 }
  | .yield p => some { s with sender := .lock p }
  | .unlock p head tail => some { s with transLock := false, sender := .clearTail p head tail }
  | .clearTail p head tail =>
    some { s.setDesc (Function.update s.q.desc tail (s.q.desc tail).clearNext) with
      sender := .fill p head }
  -- the rest of LowLevelOutput
  | .fill p head =>
    let desc := Function.update s.q.desc head
      { s.q.desc head with pAddr := d.vnHdr, len := virtnetHdrSize }
    let r := fillSegments desc head (d.segments p)
    some { s.setDesc r.1 with sender := .record p head (desc head).next r.2 }
  | .record p head idx tail =>
    some { s with
      tbufRec := Function.update s.tbufRec idx (d.record p (d.entries p) tail)
      sender := .ring p head }
  | .ring p head =>
    let a := s.q.avail
    some { s.setAvail { a with ring := Function.update a.ring (slot s.q.qsz a.index) head } with
      sender := .publish p head }
  | .publish _ _ =>
    some { s.setAvail { s.q.avail with index := s.q.avail.index + 1 } with sender := .notify }
  | .notify =>
    some { s with
      doorbell :=
        if d.notifyAlways || s.q.used.flag != virtqUsedFNoNotify then s.doorbell + 1
        else s.doorbell
      sender := .idle }

/-- The splice of FreeTxEntry, under transLock. -/
def spliceEntry (d : Driver β ρ) (s : State β ρ) (head idx : UInt16) (r : ρ) : State β ρ :=
  let tail := d.recTail r idx
  { s.setDesc
      (if s.tFreeNum > 0 then
        Function.update s.q.desc tail
          { s.q.desc tail with next := s.tFreeHdr, flag := virtqDescFNext }
      else s.q.desc) with
    tFreeNum := s.tFreeNum + d.recCount r
    tFreeHdr := head
    handler := .unlock (d.recBuf r) }

def handlerStep (d : Driver β ρ) (s : State β ρ) : Option (State β ρ) :=
  match s.handler with
  | .off => none
  | .mask =>
    some { s.setAvail { s.q.avail with flag := virtqAvailFNoInterrupt } with handler := .test }
  | .test => some { s with handler := if s.q.last ≠ s.q.used.index then .read else .unmask }
  | .read =>
    some { s with handler := .lookup (s.q.used.ring (slot s.q.qsz s.q.last)).id.toUInt16 }
  -- FreeTxEntry
  | .lookup head =>
    let idx := (s.q.desc head).next
    some { s with handler := .lock head idx (if d.recordEarly then some (s.tbufRec idx) else none) }
  | .lock head idx early =>
    if s.transLock then none
    else some { s with transLock := true, handler := .splice head idx early }
  | .splice head idx early => some (spliceEntry d s head idx (early.getD (s.tbufRec idx)))
  | .unlock nb => some { s with transLock := false, handler := .free nb }
  | .free nb => some { s with freed := s.freed ++ [nb], handler := .advance }
  | .advance => some { s with q := { s.q with last := s.q.last + 1 }, handler := .test }
  | .unmask => some { s.setAvail { s.q.avail with flag := 0 } with handler := .off }

/-- The buffer whose record FreeTxEntry will find for the chain at `head`. -/
def State.bufOf (d : Driver β ρ) (s : State β ρ) (head : UInt16) : β :=
  d.recBuf (s.tbufRec (s.q.desc head).next)

def deviceFetch (s : State β ρ) : Option (State β ρ) :=
  if s.dev.seen = s.q.avail.index then none
  else
    let head := s.q.avail.ring (slot s.q.qsz s.dev.seen)
    some { s with dev := { s.dev with
      seen := s.dev.seen + 1, inFlight := s.dev.inFlight ++ [head] } }

/-- The device appends the `i`-th chain it has in flight to the used ring. -/
def deviceComplete (d : Driver β ρ) (s : State β ρ) (i : ℕ) : Option (State β ρ) :=
  match s.dev.inFlight[i]? with
  | none => none
  | some head =>
    let u := s.q.used
    some { s with
      q := { s.q with used := { u with
        ring := Function.update u.ring (slot s.q.qsz u.index) ⟨head.toUInt32, 0⟩
        index := u.index + 1 } }
      dev := { s.dev with inFlight := s.dev.inFlight.eraseIdx i, raising := true }
      completed := s.completed ++ [s.bufOf d head] }

inductive Event (β : Type) where
  | output (p : β)
  | sender
  | enter
  | handler
  | fetch
  | complete (i : ℕ)
  | raise
  | usedFlag (flag : UInt16)

def next (d : Driver β ρ) (s : State β ρ) : Event β → Option (State β ρ)
  | .output p => lowLevelOutput d s p
  | .sender => senderStep d s
  | .enter =>
    match s.handler with
    | .off => some { s with handler := .mask }
    | _ => none
  | .handler => handlerStep d s
  | .fetch => deviceFetch s
  | .complete i => deviceComplete d s i
  | .raise => if s.dev.raising then some { s with dev := { s.dev with raising := false } } else none
  | .usedFlag flag => some { s with q := { s.q with used := { s.q.used with flag } } }

def system (d : Driver β ρ) (qsz : UInt16) : System (State β ρ) (Event β) where
  Init := Init qsz
  next := next d

end VirtnetTx
