import DeviceQemu.BitFields
import DeviceQemu.ByteMemory
import DeviceQemu.FramedStream

/-! Frames sent through the LAN9118.
Lan9118LinkOut hands a frame to the chip as words for its transmit data FIFO: two command words and
the bytes, with filler in front so that they end on a word. The chip takes the command words apart
and skips as many bytes as they say. -/
namespace Lan9118Tx

open BitFields ByteMemory FramedStream

def ethPadSize : ℕ := 2
def txCmdPktLenBytesMask : ℕ := 0x7FF
def txCmdDataStartOffsetBytesMask : ℕ := 0x1F
def txCmdPktTagMask : ℕ := 0xFFFF
def fifoUsedSpaceMask : UInt32 := 0xFFFF

def bufferSize : Field := ⟨0, 11⟩
def lastSegment : Field := ⟨12, 1⟩
def firstSegment : Field := ⟨13, 1⟩
def dataStartOffset : Field := ⟨16, 5⟩
def pktTag : Field := ⟨16, 16⟩

inductive Lan9118Error where
  | none
  | timeout
  | busy
  | param
  | internal
  deriving DecidableEq, Repr

/-- The part of lan9118_eth_dev_data_t for a packet that is sent in chunks. -/
structure DevData where
  ongoingPacketLength : UInt32
  ongoingPacketLengthSent : UInt32
  deriving DecidableEq, Repr

def wordOf (a b c d : UInt8) : UInt32 :=
  UInt32.ofNat (a.toNat + 256 * b.toNat + 65536 * c.toNat + 16777216 * d.toNat)

/-- The words of the while loop, `n` of them from `data` on. -/
def wholeWords (data : ℕ → UInt8) : ℕ → ℕ → List UInt32
  | _, 0 => []
  | o, n + 1 => wordOf (data o) (data (o + 1)) (data (o + 2)) (data (o + 3)) ::
      wholeWords data (o + 4) n

def filledByte (data : ℕ → UInt8) (o filler i : ℕ) : UInt8 :=
  if i < filler then 0 else data (o + (i - filler))

/-- fill_tx_fifo: what is stored to the data port. -/
def fillTxFifo (data : ℕ → UInt8) (sizeBytes : ℕ) : List UInt32 :=
  let remainder := sizeBytes % 4
  if 0 < remainder then
    let byte := filledByte data ethPadSize (4 - remainder)
    wordOf (byte 0) (byte 1) (byte 2) (byte 3) ::
      wholeWords data (ethPadSize + remainder) (sizeBytes / 4)
  else wholeWords data ethPadSize (sizeBytes / 4)

def txcmdA (isFirst isLast : Bool) (size : ℕ) : ℕ :=
  pack 0 [(lastSegment, isLast.toNat), (firstSegment, isFirst.toNat),
    (bufferSize, size &&& txCmdPktLenBytesMask),
    (dataStartOffset, (4 - size % 4) &&& txCmdDataStartOffsetBytesMask)]

def txcmdB (size : ℕ) : ℕ :=
  pack 0 [(bufferSize, size &&& txCmdPktLenBytesMask), (pktTag, size &&& txCmdPktTagMask)]

/-- lan9118_send_by_chunks. `port` is what a read of the write-only data port gives, which the stores
are OR-ed to, and `inf` what TX_FIFO_INF reads. -/
def sendByChunks (port inf : UInt32) (total : UInt32) (isNewPacket : Bool)
    (data : Option (ℕ → UInt8)) (size : UInt32) (d : DevData) :
    Lan9118Error × DevData × List UInt32 :=
  match data with
  | none => (.param, d, [])
  | some data =>
    if ¬ isNewPacket ∧ (d.ongoingPacketLength ≠ total ∨ total ≤ d.ongoingPacketLengthSent) then
      (.param, d, [])
    else
      let d := if isNewPacket then ⟨total, 0⟩ else d
      if inf &&& fifoUsedSpaceMask < size then (.internal, d, [])
      else
        let isLast := d.ongoingPacketLengthSent + size == total
        let words := UInt32.ofNat (txcmdA isNewPacket isLast size.toNat) ::
          UInt32.ofNat (txcmdB size.toNat) :: fillTxFifo data size.toNat
        (.none, { d with ongoingPacketLengthSent := d.ongoingPacketLengthSent + size },
          words.map (port ||| ·))

/-- A packet buffer: where its payload lies, and how many bytes of the packet that is. -/
structure Pbuf where
  payload : ℕ
  len : UInt16
  deriving DecidableEq, Repr

/-- A chain of packet buffers; its head knows how many bytes all of them have. -/
structure Packet where
  head : Pbuf
  next : List Pbuf
  totLen : UInt16
  total : ((head :: next).map fun buf => buf.len.toNat).sum = totLen.toNat

/-- Lan9118LinkOut, which passes on the payload of the head and the length of the whole chain. It
answers ERR_OK whatever the send does. -/
def lan9118LinkOut (mem : ℕ → UInt8) (port inf : UInt32) (packet : Packet) (d : DevData) :
    DevData × List UInt32 :=
  let length := packet.totLen.toUInt32 - UInt32.ofNat ethPadSize
  let data := if packet.head.payload = 0 then none else some fun i => mem (packet.head.payload + i)
  (sendByChunks port inf length true data length d).2

/-- Waiting for a command with the bytes of the packet so far, or in the middle of a buffer: how
many bytes to skip, how many to take, and whether the packet ends with it. -/
inductive TxState where
  | commandA (packet : List UInt8)
  | commandB (packet : List UInt8) (a : ℕ)
  | data (packet : List UInt8) (offset left : ℕ) (last : Bool)
  deriving DecidableEq, Repr

def txPush : Decoder TxState UInt32 (List UInt8)
  | .commandA packet, w =>
    (.commandB (if firstSegment.get w.toNat = 1 then [] else packet) w.toNat, [])
  | .commandB packet a, _ =>
    (.data packet (dataStartOffset.get a) (bufferSize.get a) (lastSegment.get a = 1), [])
  | .data packet offset left last, w =>
    let bytes := ((wordBytes w).drop offset).take left
    if left - bytes.length = 0 then
      if last then (.commandA [], [packet ++ bytes]) else (.commandA (packet ++ bytes), [])
    else (.data (packet ++ bytes) (offset - 4) (left - bytes.length) last, [])

def idle : TxState := .commandA []

def frameOf (payload : ℕ → UInt8) (length : ℕ) : List UInt8 :=
  (List.range length).map fun i => payload (ethPadSize + i)

/-- The frame that Lan9118LinkOut is given: what the buffers of the chain hold, without the padding. -/
def frame (mem : ℕ → UInt8) (packet : Packet) : List UInt8 :=
  ((packet.head :: packet.next).flatMap fun buf => read mem buf.payload buf.len.toNat).drop ethPadSize

theorem wordBytes_wordOf (a b c d : UInt8) : wordBytes (wordOf a b c d) = [a, b, c, d] := by
  have ha := a.toNat_lt
  have hb := b.toNat_lt
  have hc := c.toNat_lt
  have hd := d.toNat_lt
  have hword : (wordOf a b c d).toNat =
      a.toNat + 256 * b.toNat + 65536 * c.toNat + 16777216 * d.toNat :=
    UInt32.toNat_ofNat_of_lt' (by change _ < 4294967296; omega)
  have hbyte : ∀ (i : ℕ) (x : UInt8), (wordOf a b c d).toNat / 256 ^ i % 256 = x.toNat →
      byteOf (wordOf a b c d) i = x := by
    intro i x hx
    apply UInt8.toNat_inj.mp
    rw [byteOf, UInt8.toNat_ofNat']
    exact hx
  have h0 := hbyte 0 a (by rw [hword]; omega)
  have h1 := hbyte 1 b (by rw [hword]; omega)
  have h2 := hbyte 2 c (by rw [hword]; omega)
  have h3 := hbyte 3 d (by rw [hword]; omega)
  rw [wordBytes, h0, h1, h2, h3]

theorem toBytes_cons (w : UInt32) (ws : List UInt32) : toBytes (w :: ws) = wordBytes w ++ toBytes ws :=
  rfl

theorem toBytes_wholeWords (data : ℕ → UInt8) (o n : ℕ) :
    toBytes (wholeWords data o n) = (List.range (4 * n)).map fun i => data (o + i) := by
  induction n generalizing o with
  | zero => rfl
  | succ n ih =>
    have hrange : List.range (4 * (n + 1)) =
        [0, 1, 2, 3] ++ (List.range (4 * n)).map (4 + ·) := by
      rw [Nat.mul_succ, Nat.add_comm, List.range_add]
      rfl
    rw [wholeWords, toBytes_cons, wordBytes_wordOf, ih, hrange, List.map_append, List.map_map]
    congr 1
    refine List.map_congr_left fun i _ => ?_
    change data (o + 4 + i) = data (o + (4 + i))
    rw [Nat.add_assoc]

theorem toBytes_fillTxFifo (data : ℕ → UInt8) {n : ℕ} (h : n % 4 ≠ 0) :
    toBytes (fillTxFifo data n) = List.replicate (4 - n % 4) 0 ++ frameOf data n := by
  have hlt : n % 4 < 4 := Nat.mod_lt n (by decide)
  have hsplit : frameOf data n = (List.range (n % 4)).map (fun i => data (ethPadSize + i)) ++
      (List.range (4 * (n / 4))).map fun i => data (ethPadSize + n % 4 + i) := by
    rw [frameOf]
    conv_lhs => rw [← Nat.mod_add_div n 4, List.range_add, List.map_append, List.map_map]
    congr 1
    refine List.map_congr_left fun i _ => ?_
    change data (ethPadSize + (n % 4 + i)) = _
    rw [Nat.add_assoc]
  rw [fillTxFifo, if_pos (Nat.pos_of_ne_zero h), toBytes_cons, wordBytes_wordOf, toBytes_wholeWords,
    hsplit, ← List.append_assoc]
  congr 1
  obtain hr | hr | hr : n % 4 = 1 ∨ n % 4 = 2 ∨ n % 4 = 3 := by omega
  all_goals rw [hr]; rfl

@[simp] theorem length_wordBytes (w : UInt32) : (wordBytes w).length = 4 := rfl

theorem txPush_middle (p : List UInt8) {offset left : ℕ} (last : Bool) (w : UInt32)
    (ho : offset ≤ 4) (h : 4 < offset + left) : txPush (.data p offset left last) w =
      (.data (p ++ (wordBytes w).drop offset) 0 (left - (4 - offset)) last, []) := by
  have htake : ((wordBytes w).drop offset).take left = (wordBytes w).drop offset :=
    List.take_of_length_le (by rw [List.length_drop, length_wordBytes]; omega)
  have hlen : ((wordBytes w).drop offset).length = 4 - offset := by
    rw [List.length_drop, length_wordBytes]
  rw [txPush, htake, hlen, if_neg (by omega), Nat.sub_eq_zero_of_le ho]

theorem txPush_end {p : List UInt8} {offset left : ℕ} (w : UInt32) (h : offset + left = 4) :
    txPush (.data p offset left true) w = (idle, [p ++ (wordBytes w).drop offset]) := by
  have htake : ((wordBytes w).drop offset).take left = (wordBytes w).drop offset :=
    List.take_of_length_le (by rw [List.length_drop, length_wordBytes]; omega)
  have hlen : ((wordBytes w).drop offset).length = 4 - offset := by
    rw [List.length_drop, length_wordBytes]
  rw [txPush, htake, hlen, if_pos (by omega)]
  rfl

theorem run_data_short (ws : List UInt32) (p : List UInt8) {offset left : ℕ} (last : Bool)
    (ho : offset ≤ 4) (h : 4 * ws.length < offset + left) :
    ∃ p' offset' left', run txPush (.data p offset left last) ws = (.data p' offset' left' last, []) := by
  induction ws generalizing p offset left with
  | nil => exact ⟨p, offset, left, rfl⟩
  | cons w ws ih =>
    rw [List.length_cons] at h
    have hmiddle := txPush_middle p last w ho (by omega : 4 < offset + left)
    obtain ⟨p', o', l', hrun⟩ := ih (p ++ (wordBytes w).drop offset) (Nat.zero_le 4)
      (by omega : 4 * ws.length < 0 + (left - (4 - offset)))
    refine ⟨p', o', l', ?_⟩
    rw [run, hmiddle, hrun]
    rfl

theorem run_data_exact {ws : List UInt32} {p : List UInt8} {offset left : ℕ} (ho : offset < 4)
    (hleft : 0 < left) (h : 4 * ws.length = offset + left) :
    run txPush (.data p offset left true) ws = (idle, [p ++ (toBytes ws).drop offset]) := by
  induction ws generalizing p offset left with
  | nil => exact absurd h (by simp; omega)
  | cons w ws ih =>
    rw [List.length_cons] at h
    have hdrop : (toBytes (w :: ws)).drop offset = (wordBytes w).drop offset ++ toBytes ws := by
      rw [toBytes_cons, List.drop_append_of_le_length (by rw [length_wordBytes]; omega)]
    rw [run, hdrop]
    by_cases hend : ws = []
    · subst hend
      rw [txPush_end w (by simpa using h.symm)]
      simp [run, toBytes]
    · have hpos : 0 < ws.length := List.length_pos_iff.mpr hend
      rw [txPush_middle p true w ho.le (by omega), ih (by decide) (by omega) (by omega), List.append_assoc]
      rfl

/-- With words enough for the buffer, the first packet that comes out has its bytes. -/
theorem run_data_head {ws : List UInt32} (hne : ws ≠ []) (p : List UInt8) {offset left : ℕ}
    (ho : offset ≤ 4) (h : offset + left ≤ 4 * ws.length) :
    ∃ s f fs, run txPush (.data p offset left true) ws = (s, f :: fs) ∧ f.length = p.length + left := by
  induction ws generalizing p offset left with
  | nil => exact absurd rfl hne
  | cons w ws ih =>
    rw [List.length_cons] at h
    by_cases hmiddle : 4 < offset + left
    · have hws : ws ≠ [] := by
        rintro rfl
        simp at h
        omega
      have hlen : (p ++ (wordBytes w).drop offset).length = p.length + (4 - offset) := by
        rw [List.length_append, List.length_drop, length_wordBytes]
      obtain ⟨s, f, fs, hrun, hf⟩ := ih hws (p ++ (wordBytes w).drop offset) (Nat.zero_le 4)
        (by omega : 0 + (left - (4 - offset)) ≤ 4 * ws.length)
      refine ⟨s, f, fs, ?_, by omega⟩
      rw [run, txPush_middle p true w ho hmiddle, hrun]
      rfl
    · have hlen : (((wordBytes w).drop offset).take left).length = left := by
        rw [List.length_take, List.length_drop, length_wordBytes]
        omega
      have hput : txPush (.data p offset left true) w =
          (idle, [p ++ ((wordBytes w).drop offset).take left]) := by
        rw [txPush, hlen, Nat.sub_self, if_pos rfl, if_pos rfl, idle]
      refine ⟨(run txPush idle ws).1, p ++ ((wordBytes w).drop offset).take left,
        (run txPush idle ws).2, ?_, ?_⟩
      · rw [run, hput]
        rfl
      · rw [List.length_append, hlen]

theorem get_ofNat {f : Field} (h : f.start + f.width ≤ 32) (n : ℕ) :
    f.get (UInt32.ofNat n).toNat = f.get n := by
  apply Nat.eq_of_testBit_eq
  intro i
  rw [Field.testBit_get, Field.testBit_get, UInt32.toNat_ofNat', Nat.testBit_mod_two_pow]
  by_cases hi : i < f.width
  · rw [decide_eq_true (by omega : f.start + i < 32), Bool.true_and]
  · rw [decide_eq_false hi, Bool.false_and, Bool.false_and]

theorem get_txcmdA (isFirst isLast : Bool) (n : ℕ) :
    firstSegment.get (txcmdA isFirst isLast n) = isFirst.toNat ∧
      lastSegment.get (txcmdA isFirst isLast n) = isLast.toNat ∧
      bufferSize.get (txcmdA isFirst isLast n) = n % 2048 ∧
      dataStartOffset.get (txcmdA isFirst isLast n) = 4 - n % 4 := by
  have hsize : n &&& txCmdPktLenBytesMask = n % 2048 := Nat.and_two_pow_sub_one_eq_mod n 11
  have hoffset : (4 - n % 4) &&& txCmdDataStartOffsetBytesMask = 4 - n % 4 := by
    rw [txCmdDataStartOffsetBytesMask, show 0x1F = 2 ^ 5 - 1 from rfl,
      Nat.and_two_pow_sub_one_eq_mod]
    exact Nat.mod_eq_of_lt (by omega)
  have hfirst := isFirst.toNat_lt
  have hlast := isLast.toNat_lt
  have hlt : n % 2048 < 2048 := Nat.mod_lt n (by decide)
  have hfits : ∀ f ∈ [(lastSegment, isLast.toNat), (firstSegment, isFirst.toNat),
      (bufferSize, n % 2048), (dataStartOffset, 4 - n % 4)], Fits f := by
    simp only [List.forall_mem_cons, Fits, lastSegment, firstSegment, bufferSize, dataStartOffset]
    refine ⟨hlast, hfirst, hlt, by omega, by simp⟩
  have hapart : [(lastSegment, isLast.toNat), (firstSegment, isFirst.toNat),
      (bufferSize, n % 2048), (dataStartOffset, 4 - n % 4)].Pairwise fun f g => f.1.Apart g.1 := by
    simp [Field.Apart, lastSegment, firstSegment, bufferSize, dataStartOffset]
  rw [txcmdA, hsize, hoffset]
  refine ⟨?_, ?_, ?_, ?_⟩
  · exact get_pack (f := (firstSegment, isFirst.toNat)) hfits hapart rfl (by simp)
  · exact get_pack (f := (lastSegment, isLast.toNat)) hfits hapart rfl (by simp)
  · exact get_pack (f := (bufferSize, n % 2048)) hfits hapart rfl (by simp)
  · exact get_pack (f := (dataStartOffset, 4 - n % 4)) hfits hapart rfl (by simp)

def frameWords (data : ℕ → UInt8) (n : ℕ) : List UInt32 :=
  UInt32.ofNat (txcmdA true true n) :: UInt32.ofNat (txcmdB n) :: fillTxFifo data n

theorem run_frameWords (data : ℕ → UInt8) (n : ℕ) : run txPush idle (frameWords data n) =
    run txPush (.data [] (4 - n % 4) (n % 2048) true) (fillTxFifo data n) := by
  obtain ⟨hfirst, hlast, hsize, hoffset⟩ := get_txcmdA true true n
  have hA : txPush idle (UInt32.ofNat (txcmdA true true n)) =
      (.commandB [] (UInt32.ofNat (txcmdA true true n)).toNat, []) := by
    rw [idle, txPush, ite_self]
  have hB : txPush (.commandB [] (UInt32.ofNat (txcmdA true true n)).toNat)
      (UInt32.ofNat (txcmdB n)) = (.data [] (4 - n % 4) (n % 2048) true, []) := by
    rw [txPush, get_ofNat (by decide), get_ofNat (by decide), get_ofNat (by decide), hlast, hsize,
      hoffset]
    rfl
  rw [frameWords, run, run, hA, hB]
  rfl

theorem length_wholeWords (data : ℕ → UInt8) (o n : ℕ) : (wholeWords data o n).length = n := by
  induction n generalizing o with
  | zero => rfl
  | succ n ih => rw [wholeWords, List.length_cons, ih]

theorem length_fillTxFifo (data : ℕ → UInt8) (n : ℕ) :
    (fillTxFifo data n).length = n / 4 + if n % 4 = 0 then 0 else 1 := by
  unfold fillTxFifo
  by_cases h : n % 4 = 0
  · rw [if_neg (by omega), if_pos h, length_wholeWords]
    rfl
  · rw [if_pos (Nat.pos_of_ne_zero h), if_neg h, List.length_cons, length_wholeWords]

@[simp] theorem length_frameOf (data : ℕ → UInt8) (n : ℕ) : (frameOf data n).length = n := by
  rw [frameOf, List.length_map, List.length_range]

theorem frameWords_long (data : ℕ → UInt8) {n : ℕ} (h : 2048 ≤ n) {g : List UInt8}
    (hg : g.length = n) : run txPush idle (frameWords data n) ≠ (idle, [g]) := by
  intro hrun
  have hlen := length_fillTxFifo data n
  have hmod : n % 2048 + 4 ≤ n := by omega
  have hne : fillTxFifo data n ≠ [] := List.ne_nil_of_length_pos (by omega)
  rw [run_frameWords] at hrun
  have hroom : 4 - n % 4 + n % 2048 ≤ 4 * (fillTxFifo data n).length := by
    split at hlen <;> omega
  obtain ⟨s, f, fs, hhead, hf⟩ := run_data_head hne [] (Nat.sub_le 4 _) hroom
  rw [hhead] at hrun
  obtain ⟨-, hfs⟩ := Prod.mk.inj hrun
  obtain ⟨rfl, -⟩ := List.cons.inj hfs
  rw [List.length_nil] at hf
  omega

/-- If the length is a multiple of four, the chip skips the first word and waits for one more. -/
theorem frameWords_aligned (data : ℕ → UInt8) {n : ℕ} (h : n < 2048) (hz : n % 4 = 0)
    {g : List UInt8} : run txPush idle (frameWords data n) ≠ (idle, [g]) := by
  intro hrun
  have hlen := length_fillTxFifo data n
  rw [if_pos hz] at hlen
  rw [run_frameWords, Nat.mod_eq_of_lt h] at hrun
  obtain ⟨p, o, l, hshort⟩ := run_data_short (fillTxFifo data n) [] true (Nat.sub_le 4 (n % 4))
    (by omega : _ < 4 - n % 4 + n)
  rw [hshort] at hrun
  cases hrun

theorem frameWords_carried (data : ℕ → UInt8) {n : ℕ} (h : n < 2048) (hn : n % 4 ≠ 0) :
    run txPush idle (frameWords data n) = (idle, [frameOf data n]) := by
  have hbytes := toBytes_fillTxFifo data hn
  have hlen : 4 * (fillTxFifo data n).length = 4 - n % 4 + n := by
    rw [← length_toBytes, hbytes, List.length_append, List.length_replicate, length_frameOf]
  rw [run_frameWords, Nat.mod_eq_of_lt h, run_data_exact (by omega) (by omega) hlen, hbytes,
    List.drop_left' List.length_replicate]
  rfl

/-- One call after the other, each with what TX_FIFO_INF reads; all the words. -/
def linkOutAll (mem : ℕ → UInt8) (port : UInt32) : DevData → List (Packet × UInt32) →
    DevData × List UInt32
  | d, [] => (d, [])
  | d, b :: bs =>
    let sent := lan9118LinkOut mem port b.2 b.1 d
    let rest := linkOutAll mem port sent.1 bs
    (rest.1, sent.2 ++ rest.2)

/-- The length that Lan9118LinkOut computes, which wraps for a packet without the padding. -/
def frameLength (packet : Packet) : ℕ := (packet.totLen.toUInt32 - UInt32.ofNat ethPadSize).toNat

/-- The chip reports room for the frame, whose bytes lie one after the other behind the payload of
the head; its length is one that the command words can say, and no multiple of four. -/
structure Sendable (mem : ℕ → UInt8) (b : Packet × UInt32) : Prop where
  payload : b.1.head.payload ≠ 0
  room : frameLength b.1 ≤ (b.2 &&& fifoUsedSpaceMask).toNat
  short : frameLength b.1 < 2048
  filled : frameLength b.1 % 4 ≠ 0
  inPlace : read mem (b.1.head.payload + ethPadSize) (frameLength b.1) = frame mem b.1

theorem length_frame (mem : ℕ → UInt8) (packet : Packet) :
    (frame mem packet).length = packet.totLen.toNat - ethPadSize := by
  have hread : ∀ buf : Pbuf, (read mem buf.payload buf.len.toNat).length = buf.len.toNat := by
    intro buf
    rw [ByteMemory.read, List.length_map, List.length_range]
  rw [frame, List.length_drop, List.length_flatMap, funext hread, packet.total]

theorem frameLength_eq {packet : Packet} (h : ethPadSize ≤ packet.totLen.toNat) :
    frameLength packet = packet.totLen.toNat - ethPadSize :=
  UInt32.toNat_sub_of_le _ _ (UInt32.le_iff_toNat_le.mpr h)

theorem padded_of_room {b : Packet × UInt32}
    (h : frameLength b.1 ≤ (b.2 &&& fifoUsedSpaceMask).toNat) : ethPadSize ≤ b.1.totLen.toNat := by
  by_contra hpad
  have hroom : (b.2 &&& fifoUsedSpaceMask).toNat ≤ fifoUsedSpaceMask.toNat := by
    rw [UInt32.toNat_and]
    exact Nat.and_le_right
  have hwrap : frameLength b.1 = (2 ^ 32 - 2 + b.1.totLen.toNat) % 2 ^ 32 := UInt32.toNat_sub ..
  have hmask : fifoUsedSpaceMask.toNat = 65535 := rfl
  rw [ethPadSize] at hpad
  omega

/-- The frame of a packet of a single buffer is in place. -/
theorem sendable_single (mem : ℕ → UInt8) {b : Packet × UInt32} (hone : b.1.next = [])
    (hnull : b.1.head.payload ≠ 0) : Sendable mem b ↔
      frameLength b.1 ≤ (b.2 &&& fifoUsedSpaceMask).toNat ∧ frameLength b.1 < 2048 ∧
        frameLength b.1 % 4 ≠ 0 := by
  constructor
  · intro h
    exact ⟨h.room, h.short, h.filled⟩
  rintro ⟨hroom, hshort, hfilled⟩
  refine ⟨hnull, hroom, hshort, hfilled, ?_⟩
  have htotal := b.1.total
  rw [hone, List.map_singleton, List.sum_singleton] at htotal
  have hpad := padded_of_room hroom
  have hsplit : b.1.totLen.toNat = ethPadSize + (b.1.totLen.toNat - ethPadSize) := by omega
  rw [frame, hone, List.flatMap_singleton, frameLength_eq hpad, htotal, ByteMemory.read,
    ByteMemory.read]
  conv_rhs => rw [hsplit, List.range_add, List.map_append]
  rw [List.drop_left' (by rw [List.length_map, List.length_range]), List.map_map]
  refine List.map_congr_left fun i _ => ?_
  change mem (b.1.head.payload + ethPadSize + i) = mem (b.1.head.payload + (ethPadSize + i))
  rw [Nat.add_assoc]

/-- The words that a call of Lan9118LinkOut stores. -/
def words (mem : ℕ → UInt8) (b : Packet × UInt32) : List UInt32 :=
  if b.1.head.payload ≠ 0 ∧ frameLength b.1 ≤ (b.2 &&& fifoUsedSpaceMask).toNat then
    frameWords (fun i => mem (b.1.head.payload + i)) (frameLength b.1)
  else []

theorem sendByChunks_words (data : ℕ → UInt8) (length inf : UInt32) (d : DevData) :
    (sendByChunks 0 inf length true (some data) length d).2.2 =
      if length.toNat ≤ (inf &&& fifoUsedSpaceMask).toNat then frameWords data length.toNat
      else [] := by
  have hfull : inf &&& fifoUsedSpaceMask < length ↔
      ¬ length.toNat ≤ (inf &&& fifoUsedSpaceMask).toNat := by
    rw [UInt32.lt_iff_toNat_lt, not_le]
  have hwhole : (0 + length == length) = true := by rw [UInt32.zero_add, beq_self_eq_true]
  have hport : ∀ ws : List UInt32, ws.map ((0 : UInt32) ||| ·) = ws := fun ws => by
    simp only [UInt32.zero_or, List.map_id']
  unfold sendByChunks
  dsimp only
  rw [if_neg (by simp), if_pos rfl]
  by_cases hroom : length.toNat ≤ (inf &&& fifoUsedSpaceMask).toNat
  · rw [if_neg fun h => hfull.mp h hroom, if_pos hroom, hwhole, hport]
    rfl
  · rw [if_pos (hfull.mpr hroom), if_neg hroom]

theorem linkOut_words (mem : ℕ → UInt8) (b : Packet × UInt32) (d : DevData) :
    (lan9118LinkOut mem 0 b.2 b.1 d).2 = words mem b := by
  unfold lan9118LinkOut words
  by_cases hnull : b.1.head.payload = 0
  · simp only [hnull, if_true, ne_eq, not_true_eq_false, false_and, if_false]
    rfl
  · simp only [hnull, if_false, ne_eq, not_false_eq_true, true_and]
    exact sendByChunks_words _ _ b.2 d

theorem linkOutAll_words (mem : ℕ → UInt8) (bs : List (Packet × UInt32)) (d : DevData) :
    (linkOutAll mem 0 d bs).2 = bs.flatMap (words mem) := by
  induction bs generalizing d with
  | nil => rfl
  | cons b bs ih => rw [linkOutAll, List.flatMap_cons, ← linkOut_words mem b d, ← ih]

theorem carries_iff (mem : ℕ → UInt8) (b : Packet × UInt32) :
    Carries txPush idle (words mem) (fun b => frame mem b.1) b ↔ Sendable mem b := by
  have hframeOf : frameOf (fun i => mem (b.1.head.payload + i)) (frameLength b.1) =
      read mem (b.1.head.payload + ethPadSize) (frameLength b.1) := by
    refine List.map_congr_left fun i _ => ?_
    rw [Nat.add_assoc]
  constructor
  · intro hrun
    by_cases hsent : b.1.head.payload ≠ 0 ∧ frameLength b.1 ≤ (b.2 &&& fifoUsedSpaceMask).toNat
    · rw [Carries, words, if_pos hsent] at hrun
      have hlen : (frame mem b.1).length = frameLength b.1 :=
        (length_frame mem b.1).trans (frameLength_eq (padded_of_room hsent.2)).symm
      have hshort : frameLength b.1 < 2048 :=
        Nat.lt_of_not_le fun hlong => frameWords_long _ hlong hlen hrun
      have hfilled : frameLength b.1 % 4 ≠ 0 :=
        fun hz => frameWords_aligned _ hshort hz hrun
      rw [frameWords_carried _ hshort hfilled, hframeOf] at hrun
      exact ⟨hsent.1, hsent.2, hshort, hfilled, (List.cons.inj (Prod.mk.inj hrun).2).1⟩
    · rw [Carries, words, if_neg hsent] at hrun
      cases hrun
  · rintro ⟨hnull, hroom, hshort, hfilled, hplace⟩
    rw [Carries, words, if_pos ⟨hnull, hroom⟩, frameWords_carried _ hshort hfilled, hframeOf, hplace]

/-- The headers in one buffer and the data in another that does not follow it. -/
example : ¬ Sendable (fun a => UInt8.ofNat a) (⟨⟨0x100, 44⟩, [⟨0x200, 3⟩], 47, rfl⟩, 0x400) := by
  intro h
  exact absurd h.inPlace (by decide)

end Lan9118Tx
