import DeviceQemu.Lan9118Tx
import DeviceQemu.StepSystem

/-! Frames received through the LAN9118.
The chip queues a status word and the words of the bytes for each frame, and its interrupt bit says
that one came in. EthernetReceiveHandler clears the bit, takes one frame, and enables the interrupt
again. Frames may come in between any two of its steps. -/
namespace Lan9118Rx

open StepSystem ByteMemory Lan9118Tx

def rxFifoStatusPktLengthPos : UInt32 := 16
def rxFifoStatusPktLengthMask : UInt32 := 0x3FFF
def ethMaxFrameSize : ℕ := 1522
def buffAlignment : ℕ := 4
def rxStatusFifoLevel : UInt32 := (1 : UInt32) <<< 3

/-- The FIFOs and the interrupt registers. -/
structure Chip where
  rxStatus : List UInt32
  rxData : List UInt32
  irqStatus : UInt32
  irqEnable : UInt32
  deriving DecidableEq, Repr

def packetLength (status : UInt32) : ℕ :=
  ((status >>> rxFifoStatusPktLengthPos) &&& rxFifoStatusPktLengthMask).toNat

/-- A read of the data port; an empty FIFO reads as 0. -/
def popWord : List UInt32 → UInt32 × List UInt32
  | [] => (0, [])
  | w :: ws => (w, ws)

/-- The while loop of empty_rx_fifo: the bytes of `n` words, and what is left in the FIFO. -/
def takeWords : ℕ → List UInt32 → List UInt8 × List UInt32
  | 0, ws => ([], ws)
  | n + 1, ws =>
    let rest := takeWords n (popWord ws).2
    (wordBytes (popWord ws).1 ++ rest.1, rest.2)

def emptyRxFifo (sizeBytes : ℕ) (ws : List UInt32) : List UInt8 × List UInt32 :=
  let whole := takeWords (sizeBytes / 4) ws
  if 0 < sizeBytes % 4 then
    (whole.1 ++ (wordBytes (popWord whole.2).1).take (sizeBytes % 4), (popWord whole.2).2)
  else whole

/-- RX_FIFO_INF counts the bytes in the data FIFO. -/
def rxfifoDataUsedSpace (c : Chip) : ℕ := 4 * c.rxData.length % 2 ^ 16

def peekNextPacketSize (c : Chip) : ℕ :=
  if rxfifoDataUsedSpace c ≠ 0 then packetLength (popWord c.rxStatus).1 else 0

/-- lan9118_receive_by_chunks: the bytes that it stores behind the padding. -/
def receiveByChunks (c : Chip) : List UInt8 × Chip :=
  if rxfifoDataUsedSpace c ≠ 0 then
    let status := (popWord c.rxStatus).1
    let length := if status ≠ 0 then packetLength status else 0
    let taken := emptyRxFifo length c.rxData
    (taken.1, { c with rxStatus := (popWord c.rxStatus).2, rxData := taken.2 })
  else ([], c)

/-- A packet buffer from AllocHeap: the memory of pbuf_alloc, and the payload that AlignMemory moves. -/
structure Buffer where
  memory : ℕ
  payload : ℕ
  frame : List UInt8
  len : ℕ
  deriving DecidableEq, Repr

/-- AlignMemory: the next address that is a multiple of `align`. -/
def alignMemory (payload align : ℕ) : ℕ :=
  if payload % align = 0 then payload else payload + (align - payload % align)

/-- LowLevelInput, where pbuf_alloc gives memory or not. -/
def lowLevelInput (alloc : Option ℕ) (c : Chip) : Option Buffer × Chip :=
  if peekNextPacketSize c = 0 then (none, c)
  else
    match alloc with
    | none => (none, c)
    | some memory =>
      let received := receiveByChunks c
      if received.1.length = 0 then (none, received.2)
      else (some ⟨memory, alignMemory memory buffAlignment, received.1, received.1.length + 2⟩,
        received.2)

/-- lan9118_clear_interrupt sets one bit of what it reads and writes it back, and the chip clears every
bit that is written. -/
def clearInterrupt (c : Chip) : Chip :=
  { c with irqStatus := c.irqStatus &&& ~~~(c.irqStatus ||| rxStatusFifoLevel) }

/-- Where EthernetReceiveHandler is. -/
inductive Pc where
  | outside
  | cleared
  | received
  deriving DecidableEq, Repr

/-- `handed` is what went to netif.input, `arrived` what came in. -/
structure State where
  chip : Chip
  pc : Pc
  handed : List Buffer
  arrived : List (List UInt8)
  deriving DecidableEq, Repr

inductive Event where
  | arrive (frame : List UInt8) (status : UInt32)
  | enter
  | receive (alloc : Option ℕ)
  | leave
  deriving DecidableEq, Repr

/-- The words of a frame in the data FIFO, the last one padded. -/
def frameData : List UInt8 → List UInt32
  | [] => []
  | [a] => [wordOf a 0 0 0]
  | [a, b] => [wordOf a b 0 0]
  | [a, b, c] => [wordOf a b c 0]
  | a :: b :: c :: d :: bytes => wordOf a b c d :: frameData bytes

/-- A frame comes in if the counter of the FIFO does not overflow. The status says its length; that
the level is 0 makes each frame set the bit. -/
def Fits (c : Chip) (frame : List UInt8) (status : UInt32) : Prop :=
  frame ≠ [] ∧ packetLength status = frame.length ∧
    4 * (c.rxData ++ frameData frame).length < 2 ^ 16

instance (c : Chip) (frame : List UInt8) (status : UInt32) : Decidable (Fits c frame status) :=
  inferInstanceAs (Decidable (_ ∧ _ ∧ _))

def Noticed (c : Chip) : Prop := c.irqStatus &&& rxStatusFifoLevel ≠ 0

instance (c : Chip) : Decidable (Noticed c) := inferInstanceAs (Decidable (_ ≠ _))

def Enabled (c : Chip) : Prop := c.irqEnable &&& rxStatusFifoLevel ≠ 0

instance (c : Chip) : Decidable (Enabled c) := inferInstanceAs (Decidable (_ ≠ _))

def next (s : State) : Event → Option State
  | .arrive frame status =>
    if Fits s.chip frame status then
      some { s with
        chip := { s.chip with
          rxStatus := s.chip.rxStatus ++ [status], rxData := s.chip.rxData ++ frameData frame
          irqStatus := s.chip.irqStatus ||| rxStatusFifoLevel }
        arrived := s.arrived ++ [frame] }
    else none
  | .enter =>
    if s.pc = .outside ∧ Noticed s.chip ∧ Enabled s.chip then
      let c := clearInterrupt s.chip
      some { s with chip := { c with irqEnable := c.irqEnable &&& ~~~rxStatusFifoLevel }, pc := .cleared }
    else none
  | .receive alloc =>
    if s.pc = .cleared then
      let input := lowLevelInput alloc s.chip
      some { s with chip := input.2, pc := .received, handed := s.handed ++ input.1.toList }
    else none
  | .leave =>
    if s.pc = .received then
      some { s with
        chip := { s.chip with irqEnable := s.chip.irqEnable ||| rxStatusFifoLevel }, pc := .outside }
    else none

def start : State := ⟨⟨[], [], 0, rxStatusFifoLevel⟩, .outside, [], []⟩

def ethernet : System State Event where
  Init := (· = start)
  next := next

/-- An interrupt is to come for the frames that are left, once the handler has looked. -/
def NoneStranded (s : State) : Prop :=
  s.pc ≠ .cleared → s.chip.rxStatus ≠ [] → Noticed s.chip ∧ (s.pc = .outside → Enabled s.chip)

/-- The handler takes the last frame, or one came in since it cleared the bit. -/
def TakesAll (s : State) : Event → Prop
  | .receive alloc =>
    s.chip.rxStatus = [] ∨ (s.chip.rxStatus.length = 1 ∧ alloc.isSome) ∨ Noticed s.chip
  | _ => True

instance TakesAll.decidable : ∀ (s : State) (e : Event), Decidable (TakesAll s e)
  | _, .receive _ => inferInstanceAs (Decidable (_ ∨ _ ∨ _))
  | _, .arrive _ _ => isTrue trivial
  | _, .enter => isTrue trivial
  | _, .leave => isTrue trivial

def Buffer.InBounds (b : Buffer) : Prop :=
  b.memory ≤ b.payload + ethPadSize ∧
    b.payload + ethPadSize + b.frame.length ≤ b.memory + (ethMaxFrameSize + buffAlignment)

theorem emptyRxFifo_word (n : ℕ) (w : UInt32) (ws : List UInt32) :
    emptyRxFifo (n + 4) (w :: ws) =
      (wordBytes w ++ (emptyRxFifo n ws).1, (emptyRxFifo n ws).2) := by
  have hdiv : (n + 4) / 4 = n / 4 + 1 := by omega
  have hmod : (n + 4) % 4 = n % 4 := by omega
  rw [emptyRxFifo, emptyRxFifo, hdiv, hmod, takeWords, popWord]
  split
  · exact Prod.ext (List.append_assoc _ _ _) rfl
  · rfl

theorem emptyRxFifo_rest {n : ℕ} (hn : 0 < n) (hlt : n < 4) (w : UInt32) (ws : List UInt32) :
    emptyRxFifo n (w :: ws) = ((wordBytes w).take n, ws) := by
  rw [emptyRxFifo, Nat.div_eq_of_lt hlt, Nat.mod_eq_of_lt hlt, if_pos hn]
  rfl

/-- Taking as many bytes as a frame has takes its words and gives its bytes. -/
theorem emptyRxFifo_frameData (frame : List UInt8) (ws : List UInt32) :
    emptyRxFifo frame.length (frameData frame ++ ws) = (frame, ws) := by
  induction frame using frameData.induct with
  | case1 => rfl
  | case2 a =>
    exact (emptyRxFifo_rest (n := 1) (by decide) (by decide) _ ws).trans (by rw [wordBytes_wordOf]; rfl)
  | case3 a b =>
    exact (emptyRxFifo_rest (n := 2) (by decide) (by decide) _ ws).trans (by rw [wordBytes_wordOf]; rfl)
  | case4 a b c =>
    exact (emptyRxFifo_rest (n := 3) (by decide) (by decide) _ ws).trans (by rw [wordBytes_wordOf]; rfl)
  | case5 a b c d bytes ih =>
    rw [frameData, List.cons_append, List.length_cons, List.length_cons, List.length_cons,
      List.length_cons, emptyRxFifo_word, ih, wordBytes_wordOf]
    rfl

theorem frameData_ne_nil {frame : List UInt8} (h : frame ≠ []) : frameData frame ≠ [] := by
  induction frame using frameData.induct with
  | case1 => exact absurd rfl h
  | case2 | case3 | case4 | case5 => exact List.cons_ne_nil _ _

/-- The FIFOs hold the frames `q`. -/
structure Holds (c : Chip) (q : List (List UInt8)) : Prop where
  status : c.rxStatus.map packetLength = q.map List.length
  data : c.rxData = q.flatMap frameData
  nonempty : ∀ frame ∈ q, frame ≠ []
  counted : 4 * c.rxData.length < 2 ^ 16

theorem Holds.nil_iff {c : Chip} {q : List (List UInt8)} (h : Holds c q) :
    c.rxStatus = [] ↔ q = [] := by
  rw [← List.map_eq_nil_iff (f := packetLength), h.status, List.map_eq_nil_iff]

theorem Holds.used_ne_zero {c : Chip} {frame : List UInt8} {q : List (List UInt8)}
    (h : Holds c (frame :: q)) : rxfifoDataUsedSpace c ≠ 0 := by
  have hwords : frameData frame ≠ [] := frameData_ne_nil (h.nonempty frame List.mem_cons_self)
  have hpos : 0 < c.rxData.length := by
    rw [h.data, List.flatMap_cons, List.length_append]
    exact Nat.add_pos_left (List.length_pos_iff.mpr hwords) _
  rw [rxfifoDataUsedSpace, Nat.mod_eq_of_lt h.counted]
  omega

theorem Holds.first {c : Chip} {frame : List UInt8} {q : List (List UInt8)}
    (h : Holds c (frame :: q)) :
    ∃ status rest, c.rxStatus = status :: rest ∧ packetLength status = frame.length ∧
      rest.map packetLength = q.map List.length := by
  have hs := h.status
  rw [List.map_cons] at hs
  obtain ⟨status, rest, hc, hlen, hrest⟩ := List.map_eq_cons_iff.mp hs
  exact ⟨status, rest, hc, hlen, hrest⟩

theorem Holds.receiveByChunks {c : Chip} {frame : List UInt8} {q : List (List UInt8)}
    (h : Holds c (frame :: q)) :
    (receiveByChunks c).1 = frame ∧ Holds (receiveByChunks c).2 q ∧
      (receiveByChunks c).2.rxStatus = c.rxStatus.tail ∧
      (receiveByChunks c).2.irqStatus = c.irqStatus ∧
      (receiveByChunks c).2.irqEnable = c.irqEnable := by
  obtain ⟨status, rest, hc, hlen, hrest⟩ := h.first
  have hne : status ≠ 0 := by
    rintro rfl
    exact h.nonempty frame List.mem_cons_self (List.length_eq_zero_iff.mp hlen.symm)
  have htaken : emptyRxFifo (packetLength status) c.rxData = (frame, q.flatMap frameData) := by
    rw [h.data, List.flatMap_cons, hlen, emptyRxFifo_frameData]
  have hreceive : Lan9118Rx.receiveByChunks c =
      (frame, { c with rxStatus := rest, rxData := q.flatMap frameData }) := by
    rw [Lan9118Rx.receiveByChunks, if_pos h.used_ne_zero, hc, popWord]
    simp only [if_pos hne, htaken]
  have hcounted := h.counted
  rw [h.data, List.flatMap_cons, List.length_append] at hcounted
  rw [hreceive, hc]
  exact ⟨rfl, ⟨hrest, rfl, fun g hg => h.nonempty g (List.mem_cons_of_mem frame hg),
    Nat.lt_of_le_of_lt (by dsimp only; omega) hcounted⟩, rfl, rfl, rfl⟩

theorem Holds.arrive {c : Chip} {q : List (List UInt8)} {frame : List UInt8} {status : UInt32}
    (h : Holds c q) (hfits : Fits c frame status) (irq : UInt32) :
    Holds { c with
      rxStatus := c.rxStatus ++ [status], rxData := c.rxData ++ frameData frame, irqStatus := irq }
      (q ++ [frame]) := by
  obtain ⟨hne, hlen, hroom⟩ := hfits
  refine ⟨?_, ?_, ?_, hroom⟩
  · rw [List.map_append, List.map_append, h.status, List.map_singleton, List.map_singleton, hlen]
  · rw [List.flatMap_append, List.flatMap_singleton, ← h.data]
  · intro f hf
    rcases List.mem_append.mp hf with hf | hf
    · exact h.nonempty f hf
    · rw [List.mem_singleton.mp hf]
      exact hne

theorem lowLevelInput_cases {c : Chip} {q : List (List UInt8)} (h : Holds c q)
    (alloc : Option ℕ) :
    (lowLevelInput alloc c = (none, c) ∧ (q = [] ∨ alloc = none)) ∨
      ∃ memory frame rest, alloc = some memory ∧ q = frame :: rest ∧
        lowLevelInput alloc c =
          (some ⟨memory, alignMemory memory buffAlignment, frame, frame.length + 2⟩,
            (receiveByChunks c).2) := by
  cases q with
  | nil =>
    have hdata : c.rxData = [] := h.data
    have hpeek : peekNextPacketSize c = 0 := by
      rw [peekNextPacketSize, rxfifoDataUsedSpace, hdata]
      rfl
    exact .inl ⟨by unfold lowLevelInput; rw [if_pos hpeek], .inl rfl⟩
  | cons frame rest =>
    obtain ⟨status, others, hc, hlen, -⟩ := h.first
    have hpos : frame.length ≠ 0 := fun h0 =>
      h.nonempty frame List.mem_cons_self (List.length_eq_zero_iff.mp h0)
    have hpeek : peekNextPacketSize c ≠ 0 := by
      rw [peekNextPacketSize, if_pos h.used_ne_zero, hc, popWord, hlen]
      exact hpos
    cases alloc with
    | none => exact .inl ⟨by unfold lowLevelInput; rw [if_neg hpeek], .inr rfl⟩
    | some memory =>
      refine .inr ⟨memory, frame, rest, rfl, rfl, ?_⟩
      unfold lowLevelInput
      rw [if_neg hpeek]
      simp only [h.receiveByChunks.1, if_neg hpos]

theorem lowLevelInput_left {c : Chip} {q : List (List UInt8)} (h : Holds c q) (alloc : Option ℕ) :
    ((lowLevelInput alloc c).2.rxStatus = [] ↔
        c.rxStatus = [] ∨ c.rxStatus.length = 1 ∧ alloc.isSome) ∧
      (lowLevelInput alloc c).2.irqStatus = c.irqStatus := by
  rcases lowLevelInput_cases h alloc with ⟨hnone, hwhy⟩ | ⟨memory, frame, rest, rfl, rfl, hsome⟩
  · rw [hnone]
    refine ⟨⟨.inl, ?_⟩, rfl⟩
    rintro (hempty | ⟨-, halloc⟩)
    · exact hempty
    · rcases hwhy with rfl | rfl
      · exact h.nil_iff.mpr rfl
      · cases halloc
  · obtain ⟨status, others, hc, -⟩ := h.first
    obtain ⟨-, -, htail, hirq, -⟩ := h.receiveByChunks
    rw [hsome]
    refine ⟨?_, hirq⟩
    dsimp only
    rw [htail, hc, List.tail_cons]
    simp

/-- The frames handed on and the frames `q` in the chip are those that came in. -/
structure Conserved (s : State) (q : List (List UInt8)) : Prop where
  holds : Holds s.chip q
  frames : s.handed.map Buffer.frame ++ q = s.arrived
  buffers : ∀ b ∈ s.handed,
    b.payload = alignMemory b.memory buffAlignment ∧ b.len = b.frame.length + 2
  enabled : s.pc = .outside → Enabled s.chip

theorem conserved_start : Conserved start [] := by
  refine ⟨⟨rfl, rfl, by simp, by decide⟩, rfl, by simp [start], fun _ => by decide⟩

theorem or_and_bit (x y : UInt32) : (x ||| y) &&& y = y := by
  apply UInt32.toNat_inj.mp
  rw [UInt32.toNat_and, UInt32.toNat_or]
  apply Nat.eq_of_testBit_eq
  intro i
  simp only [Nat.testBit_and, Nat.testBit_or]
  cases x.toNat.testBit i <;> cases y.toNat.testBit i <;> rfl

theorem or_bit_set (x : UInt32) : (x ||| rxStatusFifoLevel) &&& rxStatusFifoLevel ≠ 0 := by
  rw [or_and_bit]
  decide

theorem conserved_step {s t : State} {e : Event} {q : List (List UInt8)} (h : Conserved s q)
    (ht : next s e = some t) : ∃ q', Conserved t q' := by
  cases e with
  | arrive frame status =>
    obtain ⟨hfits, ht⟩ := Option.ite_none_right_eq_some.mp ht
    obtain rfl := Option.some.inj ht
    refine ⟨q ++ [frame], h.holds.arrive hfits _, ?_, h.buffers, h.enabled⟩
    rw [← List.append_assoc, h.frames]
  | enter =>
    obtain ⟨-, ht⟩ := Option.ite_none_right_eq_some.mp ht
    obtain rfl := Option.some.inj ht
    exact ⟨q, ⟨h.holds.status, h.holds.data, h.holds.nonempty, h.holds.counted⟩, h.frames, h.buffers,
      fun hpc => by cases hpc⟩
  | receive alloc =>
    obtain ⟨-, ht⟩ := Option.ite_none_right_eq_some.mp ht
    obtain rfl := Option.some.inj ht
    rcases lowLevelInput_cases h.holds alloc with ⟨hnone, -⟩ | ⟨memory, frame, rest, -, rfl, hsome⟩
    · rw [hnone]
      exact ⟨q, h.holds, by rw [Option.toList_none, List.append_nil]; exact h.frames,
        by simpa using h.buffers, fun hpc => by cases hpc⟩
    · rw [hsome]
      refine ⟨rest, h.holds.receiveByChunks.2.1, ?_, ?_, fun hpc => by cases hpc⟩
      · rw [← h.frames, Option.toList_some, List.map_append, List.append_assoc]
        rfl
      · intro b hb
        rcases List.mem_append.mp hb with hb | hb
        · exact h.buffers b hb
        · rw [Option.toList_some, List.mem_singleton] at hb
          rw [hb]
          exact ⟨rfl, rfl⟩
  | leave =>
    obtain ⟨-, ht⟩ := Option.ite_none_right_eq_some.mp ht
    obtain rfl := Option.some.inj ht
    exact ⟨q, ⟨h.holds.status, h.holds.data, h.holds.nonempty, h.holds.counted⟩, h.frames, h.buffers,
      fun _ => or_bit_set _⟩

theorem conserved {s : State} (h : Reachable ethernet s) : ∃ q, Conserved s q := by
  refine Reachable.invariant (I := fun s => ∃ q, Conserved s q) ?_ ?_ h
  · rintro s rfl
    exact ⟨[], conserved_start⟩
  · rintro s e t ⟨q, hq⟩ ht
    exact conserved_step hq ht

theorem alignMemory_eq (memory : ℕ) : alignMemory memory buffAlignment = memory + (4 - memory % 4) % 4 := by
  unfold alignMemory buffAlignment
  split <;> omega

/-- The frames go to the stack in order and byte for byte; those not there yet are in the chip. One
is stored past its buffer exactly if it is longer than what the alignment leaves. -/
theorem frames_handed_in_order {s : State} (h : Reachable ethernet s) :
    (∃ q, Holds s.chip q ∧ s.handed.map Buffer.frame ++ q = s.arrived) ∧
      ∀ b ∈ s.handed, b.len = b.frame.length + 2 ∧
        (b.InBounds ↔ b.frame.length + (4 - b.memory % 4) % 4 ≤ 1524) := by
  obtain ⟨q, hq⟩ := conserved h
  refine ⟨⟨q, hq.holds, hq.frames⟩, fun b hb => ?_⟩
  obtain ⟨hpayload, hlen⟩ := hq.buffers b hb
  refine ⟨hlen, ?_⟩
  rw [Buffer.InBounds, hpayload, alignMemory_eq, ethPadSize, ethMaxFrameSize, buffAlignment]
  omega

/-- A frame of five bytes is handed on while another waits. -/
theorem frames_handed_in_order_waiting : ∃ s, Reachable ethernet s ∧ s.handed.length = 1 ∧
    s.arrived.length = 2 ∧ (∃ q, Holds s.chip q ∧ s.handed.map Buffer.frame ++ q = s.arrived) ∧
      ∀ b ∈ s.handed, b.len = b.frame.length + 2 ∧
        (b.InBounds ↔ b.frame.length + (4 - b.memory % 4) % 4 ≤ 1524) := by
  have hrun : ∃ s, Reachable ethernet s ∧
      decide (s.handed.length = 1 ∧ s.arrived.length = 2) = true :=
    exists_reachable (S := ethernet) (s := start) rfl (by decide : (ethernet.run start
      [.arrive [1, 2, 3, 4, 5] 0x50000, .arrive [6] 0x10000, .enter, .receive (some 62)]).map
        (fun s => decide (s.handed.length = 1 ∧ s.arrived.length = 2)) = some true)
  obtain ⟨s, hs, hcount⟩ := hrun
  obtain ⟨hhanded, harrived⟩ := of_decide_eq_true hcount
  exact ⟨s, hs, hhanded, harrived, frames_handed_in_order hs⟩

theorem noneStranded_step {s t : State} {e : Event} (h : (∃ q, Conserved s q) ∧ NoneStranded s)
    (hc : TakesAll s e) (ht : next s e = some t) : (∃ q, Conserved t q) ∧ NoneStranded t := by
  obtain ⟨⟨q, hq⟩, hnone⟩ := h
  refine ⟨conserved_step hq ht, ?_⟩
  cases e with
  | arrive frame status =>
    obtain ⟨-, ht⟩ := Option.ite_none_right_eq_some.mp ht
    obtain rfl := Option.some.inj ht
    exact fun _ _ => ⟨or_bit_set _, hq.enabled⟩
  | enter =>
    obtain ⟨-, ht⟩ := Option.ite_none_right_eq_some.mp ht
    obtain rfl := Option.some.inj ht
    exact fun hpc => absurd rfl hpc
  | receive alloc =>
    obtain ⟨-, ht⟩ := Option.ite_none_right_eq_some.mp ht
    obtain rfl := Option.some.inj ht
    obtain ⟨hleft, hirq⟩ := lowLevelInput_left hq.holds alloc
    intro _ hrest
    refine ⟨?_, fun hpc => by cases hpc⟩
    rw [Noticed, hirq]
    rcases hc with hempty | hone | hnoticed
    · exact absurd (hleft.mpr (.inl hempty)) hrest
    · exact absurd (hleft.mpr (.inr hone)) hrest
    · exact hnoticed
  | leave =>
    obtain ⟨hpc, ht⟩ := Option.ite_none_right_eq_some.mp ht
    obtain rfl := Option.some.inj ht
    intro _ hleft
    exact ⟨(hnone (by rw [hpc]; decide) hleft).1, fun _ => or_bit_set _⟩

theorem stranded_step {s t : State} {e : Event} (h : (∃ q, Conserved s q) ∧ NoneStranded s)
    (hc : ¬ TakesAll s e) (ht : next s e = some t) : ¬ NoneStranded t := by
  obtain ⟨⟨q, hq⟩, -⟩ := h
  cases e with
  | receive alloc =>
    obtain ⟨-, ht⟩ := Option.ite_none_right_eq_some.mp ht
    obtain rfl := Option.some.inj ht
    obtain ⟨hleft, hirq⟩ := lowLevelInput_left hq.holds alloc
    obtain ⟨hempty, hone, hnotice⟩ := not_or.mp hc |>.imp_right not_or.mp
    intro hnone
    have hnoticed := (hnone (fun hpc => by cases hpc) fun hrest => (hleft.mp hrest).elim hempty hone).1
    rw [Noticed, hirq] at hnoticed
    exact hnotice hnoticed
  | arrive | enter | leave => exact absurd trivial hc

/-- Frames are left with no interrupt to come for them exactly where the handler finds two of them, or
no memory for one, and none has come in since it cleared the bit. -/
theorem none_stranded_iff (es : List Event) :
    StatesMeet ethernet NoneStranded start es ↔ StepsMeet ethernet TakesAll start es := by
  refine statesMeet_iff_stepsMeet (I := fun s => (∃ q, Conserved s q) ∧ NoneStranded s)
    (fun _ hs => hs.2) (fun _ _ _ => noneStranded_step) (fun _ _ _ => stranded_step) ?_ es
  exact ⟨⟨[], conserved_start⟩, fun _ h => absurd rfl h⟩

/-- Two frames in a row, then the handler. -/
example : ¬ StepsMeet ethernet TakesAll start
    [.arrive [1, 2] 0x20000, .arrive [3] 0x10000, .enter, .receive (some 64)] := by decide

end Lan9118Rx
