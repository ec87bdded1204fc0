import DeviceQemu.RegionLayout
import Mathlib.Data.List.Basic
import Mathlib.Data.UInt

/-! Where the queues lie in memory.
CalculateQueueAddr places one queue behind the other, VirtqSize says independently how much
memory a queue may need, and ConfigQueue of the riscv32 virtnet driver puts the receive buffers
behind the rings. Addresses and sizes are 32-bit. -/
namespace VirtmmioLayout

open RegionLayout

def virtqAlignDesc : UInt32 := 16
def virtqAlignAvail : UInt32 := 2
def virtqAlignUsed : UInt32 := 4

/-- ALIGN of the kernel headers, as far as it is used: the next multiple of the boundary. -/
structure Kernel where
  align : UInt32 → UInt32 → UInt32
  align_spec : ∀ a b, b ∈ [virtqAlignDesc, virtqAlignAvail, virtqAlignUsed] →
    a.toNat + b.toNat ≤ 2 ^ 32 → (align a b).toNat = (a.toNat + b.toNat - 1) / b.toNat * b.toNat

def sizeofVirtqDesc : UInt32 := 16
def sizeofVirtqAvail : UInt32 := 4
def sizeofVirtqUsed : UInt32 := 4
def sizeofVirtqUsedElem : UInt32 := 8

structure Virtq where
  qsz : UInt16
  desc : UInt32
  avail : UInt32
  used : UInt32
  deriving DecidableEq, Repr

def virtqSize (k : Kernel) (qsz : UInt16) : UInt32 :=
  virtqAlignDesc - 1 +
    k.align (sizeofVirtqDesc * qsz.toUInt32) virtqAlignAvail +
    k.align (sizeofVirtqAvail + 2 * qsz.toUInt32) virtqAlignUsed +
    sizeofVirtqUsed + sizeofVirtqUsedElem * qsz.toUInt32

def calculateQueueAddr (k : Kernel) (base : UInt32) (qsz : UInt16) : UInt32 × Virtq :=
  let desc := k.align base virtqAlignDesc
  let avail := k.align (desc + sizeofVirtqDesc * qsz.toUInt32) virtqAlignAvail
  let used := k.align (avail + sizeofVirtqAvail + 2 * qsz.toUInt32) virtqAlignUsed
  (used + sizeofVirtqUsed + sizeofVirtqUsedElem * qsz.toUInt32, ⟨qsz, desc, avail, used⟩)

/-- CompleteConfigQueue: `queueNumMax` is what the device reads back for the queue. -/
def completeConfigQueue (queueNumMax : ℕ → UInt32) (queue : ℕ) (q : Virtq) : Bool :=
  !(queueNumMax queue < q.qsz.toUInt32)

/-- The loop of VirtmmioConfigQueue from queue `i` on; 0 when the device refuses a queue. -/
def configQueueFrom (k : Kernel) (queueNumMax : ℕ → UInt32) (i : ℕ) (base : UInt32) :
    List UInt16 → UInt32 × List Virtq
  | [] => (base, [])
  | qsz :: rest =>
    let (base, q) := calculateQueueAddr k base qsz
    if completeConfigQueue queueNumMax i q then
      let (base, qs) := configQueueFrom k queueNumMax (i + 1) base rest
      (base, q :: qs)
    else (0, [q])

def virtmmioConfigQueue (k : Kernel) (queueNumMax : ℕ → UInt32) (base : UInt32)
    (qsz : List UInt16) : UInt32 × List Virtq :=
  configQueueFrom k queueNumMax 0 base qsz

def virtmmioNetifDftRxqsz : UInt16 := 16
def virtmmioNetifDftTxqsz : UInt16 := 32
def virtqRxbufAlign : UInt32 := 4
def sizeofVirtnetHdr : UInt32 := 12
def ethFrameLen : UInt32 := 1514

def virtqRxbufSize (k : Kernel) : UInt32 := k.align (sizeofVirtnetHdr + ethFrameLen) virtqRxbufAlign

def configQueueSize (k : Kernel) : UInt32 :=
  virtqSize k virtmmioNetifDftRxqsz + virtqSize k virtmmioNetifDftTxqsz + virtqRxbufAlign - 1 +
    virtmmioNetifDftRxqsz.toUInt32 * virtqRxbufSize k

def rxPad (ethPadSize buf : UInt32) : UInt32 :=
  let pad := (buf + sizeofVirtnetHdr - ethPadSize) % virtqRxbufAlign
  if pad != 0 then virtqRxbufAlign - pad else pad

/-- ConfigRxBuffer: the address that descriptor `i` gets. -/
def rxBuffer (k : Kernel) (buf : UInt32) : ℕ → UInt32
  | 0 => buf
  | i + 1 => rxBuffer k buf i + virtqRxbufSize k

/-- The queues and the first receive buffer; `none` for ERR_IF. -/
def configQueue (k : Kernel) (queueNumMax : ℕ → UInt32) (ethPadSize base : UInt32) :
    Option (List Virtq × UInt32) :=
  let (buf, qs) := virtmmioConfigQueue k queueNumMax base
    [virtmmioNetifDftRxqsz, virtmmioNetifDftTxqsz]
  if buf = 0 then none else some (qs, buf + rxPad ethPadSize buf)

def Virtq.regions (q : Virtq) : List Region :=
  [⟨q.desc.toNat, 16 * q.qsz.toNat⟩, ⟨q.avail.toNat, 4 + 2 * q.qsz.toNat⟩,
    ⟨q.used.toNat, 4 + 8 * q.qsz.toNat⟩]

structure Aligned (q : Virtq) : Prop where
  desc : q.desc.toNat % 16 = 0
  avail : q.avail.toNat % 2 = 0
  used : q.used.toNat % 4 = 0

theorem align_desc (k : Kernel) {a : UInt32} (h : a.toNat + 16 ≤ 4294967296) :
    (k.align a virtqAlignDesc).toNat = (a.toNat + 15) / 16 * 16 :=
  k.align_spec a virtqAlignDesc (by decide) h

theorem align_avail (k : Kernel) {a : UInt32} (h : a.toNat + 2 ≤ 4294967296) :
    (k.align a virtqAlignAvail).toNat = (a.toNat + 1) / 2 * 2 :=
  k.align_spec a virtqAlignAvail (by decide) h

theorem align_used (k : Kernel) {a : UInt32} (h : a.toNat + 4 ≤ 4294967296) :
    (k.align a virtqAlignUsed).toNat = (a.toNat + 3) / 4 * 4 :=
  k.align_spec a virtqAlignUsed (by decide) h

theorem toNat_mul_qsz {c : UInt32} (hc : c.toNat ≤ 16) (qsz : UInt16) :
    (c * qsz.toUInt32).toNat = c.toNat * qsz.toNat := by
  have hle : c.toNat * qsz.toNat ≤ 16 * 65536 := Nat.mul_le_mul hc (le_of_lt qsz.toNat_lt)
  rw [UInt32.toNat_mul, UInt16.toNat_toUInt32]
  omega

theorem virtqSize_toNat (k : Kernel) (qsz : UInt16) :
    (virtqSize k qsz).toNat =
      15 + 16 * qsz.toNat + (4 + 2 * qsz.toNat + 3) / 4 * 4 + 4 + 8 * qsz.toNat := by
  have hq := qsz.toNat_lt
  have hdesc : (sizeofVirtqDesc * qsz.toUInt32).toNat = 16 * qsz.toNat :=
    toNat_mul_qsz (by decide) qsz
  have helem : (sizeofVirtqUsedElem * qsz.toUInt32).toNat = 8 * qsz.toNat :=
    toNat_mul_qsz (by decide) qsz
  have hring : (sizeofVirtqAvail + 2 * qsz.toUInt32).toNat = 4 + 2 * qsz.toNat := by
    have hidx : (2 * qsz.toUInt32).toNat = 2 * qsz.toNat := toNat_mul_qsz (by decide) qsz
    rw [UInt32.toNat_add, hidx, show sizeofVirtqAvail.toNat = 4 by rfl]
    omega
  have havail := align_avail k (a := sizeofVirtqDesc * qsz.toUInt32) (by omega)
  have hused := align_used k (a := sizeofVirtqAvail + 2 * qsz.toUInt32) (by omega)
  rw [hdesc] at havail
  rw [hring] at hused
  simp only [virtqSize, UInt32.toNat_add, havail, hused, helem,
    show (virtqAlignDesc - 1).toNat = 15 by rfl, show sizeofVirtqUsed.toNat = 4 by rfl]
  omega

/-- A queue lies within VirtqSize of the address it was asked to start from. -/
theorem calculateQueueAddr_packed (k : Kernel) {base : UInt32} {qsz : UInt16}
    (h : base.toNat + (virtqSize k qsz).toNat < 4294967296) :
    let r := calculateQueueAddr k base qsz
    r.2.qsz = qsz ∧ Aligned r.2 ∧ Packed base.toNat r.1.toNat r.2.regions ∧
      r.1.toNat ≤ base.toNat + (virtqSize k qsz).toNat ∧ r.1.toNat % 4 = 0 := by
  have hq := qsz.toNat_lt
  rw [virtqSize_toNat] at h ⊢
  have hdescs : (sizeofVirtqDesc * qsz.toUInt32).toNat = 16 * qsz.toNat :=
    toNat_mul_qsz (by decide) qsz
  have helems : (sizeofVirtqUsedElem * qsz.toUInt32).toNat = 8 * qsz.toNat :=
    toNat_mul_qsz (by decide) qsz
  have hidx : (2 * qsz.toUInt32).toNat = 2 * qsz.toNat := toNat_mul_qsz (by decide) qsz
  dsimp only [calculateQueueAddr]
  have hdesc := align_desc k (a := base) (by omega)
  generalize k.align base virtqAlignDesc = desc at hdesc ⊢
  have hend : (desc + sizeofVirtqDesc * qsz.toUInt32).toNat = desc.toNat + 16 * qsz.toNat := by
    rw [UInt32.toNat_add, hdescs]
    omega
  have havail := align_avail k (a := desc + sizeofVirtqDesc * qsz.toUInt32) (by omega)
  generalize k.align (desc + sizeofVirtqDesc * qsz.toUInt32) virtqAlignAvail = avail at havail ⊢
  have hring : (avail + sizeofVirtqAvail + 2 * qsz.toUInt32).toNat =
      avail.toNat + 4 + 2 * qsz.toNat := by
    simp only [UInt32.toNat_add, hidx, show sizeofVirtqAvail.toNat = 4 by rfl]
    omega
  have hused := align_used k (a := avail + sizeofVirtqAvail + 2 * qsz.toUInt32) (by omega)
  generalize k.align (avail + sizeofVirtqAvail + 2 * qsz.toUInt32) virtqAlignUsed = used
    at hused ⊢
  have hbehind : (used + sizeofVirtqUsed + sizeofVirtqUsedElem * qsz.toUInt32).toNat =
      used.toNat + 4 + 8 * qsz.toNat := by
    simp only [UInt32.toNat_add, helems, show sizeofVirtqUsed.toNat = 4 by rfl]
    omega
  refine ⟨rfl, ⟨?_, ?_, ?_⟩, ⟨?_, ?_, ?_, ?_⟩, ?_, ?_⟩ <;>
    simp only [Region.stop, Packed, hbehind] <;> omega

/-- What VirtmmioConfigQueue owes its caller for queues placed from `base`. -/
structure Sound (k : Kernel) (base : UInt32) (qszs : List UInt16) (stop : UInt32)
    (qs : List Virtq) : Prop where
  sizes : qs.map Virtq.qsz = qszs
  aligned : ∀ q ∈ qs, Aligned q
  packed : Packed base.toNat stop.toNat (qs.flatMap Virtq.regions)
  stop : stop.toNat ≤ base.toNat + (qszs.map fun q => (virtqSize k q).toNat).sum

theorem configQueueFrom_sound (k : Kernel) (queueNumMax : ℕ → UInt32) {qszs : List UInt16} :
    ∀ {i : ℕ} {base : UInt32},
      base.toNat + (qszs.map fun q => (virtqSize k q).toNat).sum < 4294967296 →
      (configQueueFrom k queueNumMax i base qszs).1 ≠ 0 →
      Sound k base qszs (configQueueFrom k queueNumMax i base qszs).1
        (configQueueFrom k queueNumMax i base qszs).2 := by
  induction qszs with
  | nil =>
    intro i base _ _
    exact ⟨rfl, by simp [configQueueFrom], Nat.le_refl _, by simp [configQueueFrom]⟩
  | cons qsz rest ih =>
    intro i base h hne
    simp only [List.map_cons, List.sum_cons] at h
    obtain ⟨hsize, haligned, hpacked, hstop, -⟩ :=
      @calculateQueueAddr_packed k base qsz (by omega)
    simp only [configQueueFrom] at hne ⊢
    by_cases hc : completeConfigQueue queueNumMax i (calculateQueueAddr k base qsz).2 = true
    · simp only [if_pos hc] at hne ⊢
      have hrest := @ih (i + 1) (calculateQueueAddr k base qsz).1 (by omega) hne
      constructor
      · simp [hsize, hrest.sizes]
      · intro q hq
        rcases List.mem_cons.mp hq with rfl | hq
        · exact haligned
        · exact hrest.aligned q hq
      · simpa using hpacked.append hrest.packed
      · have := hrest.stop
        simp only [List.map_cons, List.sum_cons]
        omega
    · simp [if_neg hc] at hne

theorem virtqRxbufSize_toNat (k : Kernel) : (virtqRxbufSize k).toNat = 1528 :=
  align_used k (a := sizeofVirtnetHdr + ethFrameLen) (by decide)

theorem configQueueSize_toNat (k : Kernel) :
    (configQueueSize k).toNat = (virtqSize k virtmmioNetifDftRxqsz).toNat +
      (virtqSize k virtmmioNetifDftTxqsz).toNat + 3 + 24448 := by
  have hrx : (virtqSize k virtmmioNetifDftRxqsz).toNat = 439 := virtqSize_toNat k _
  have htx : (virtqSize k virtmmioNetifDftTxqsz).toNat = 855 := virtqSize_toNat k _
  simp only [configQueueSize, UInt32.toNat_add, UInt32.toNat_sub, UInt32.toNat_mul, hrx, htx,
    virtqRxbufSize_toNat, show virtqRxbufAlign.toNat = 4 by rfl, UInt32.toNat_one,
    show virtmmioNetifDftRxqsz.toUInt32.toNat = 16 by rfl]

theorem rxPad_toNat (ethPadSize buf : UInt32) :
    (rxPad ethPadSize buf).toNat ≤ 3 ∧
      ((buf + sizeofVirtnetHdr - ethPadSize).toNat + (rxPad ethPadSize buf).toNat) % 4 = 0 := by
  have hmod : ((buf + sizeofVirtnetHdr - ethPadSize) % virtqRxbufAlign).toNat =
      (buf + sizeofVirtnetHdr - ethPadSize).toNat % 4 := UInt32.toNat_mod _ _
  simp only [rxPad]
  split_ifs with hif
  · have hne : ((buf + sizeofVirtnetHdr - ethPadSize) % virtqRxbufAlign).toNat ≠ 0 := by
      intro hz
      exact (bne_iff_ne.mp hif) (UInt32.toNat_inj.mp hz)
    have hpad : (virtqRxbufAlign - (buf + sizeofVirtnetHdr - ethPadSize) % virtqRxbufAlign).toNat =
        4 - (buf + sizeofVirtnetHdr - ethPadSize).toNat % 4 := by
      rw [UInt32.toNat_sub, hmod, show virtqRxbufAlign.toNat = 4 by rfl]
      omega
    rw [hpad]
    rw [hmod] at hne
    exact ⟨by omega, by omega⟩
  · have hz : ((buf + sizeofVirtnetHdr - ethPadSize) % virtqRxbufAlign).toNat = 0 := by
      have hzero : (buf + sizeofVirtnetHdr - ethPadSize) % virtqRxbufAlign = 0 := by
        simpa using hif
      rw [hzero, UInt32.toNat_zero]
    rw [hz] at hmod ⊢
    exact ⟨by omega, by omega⟩

theorem rxBuffer_toNat (k : Kernel) {buf : UInt32} {i : ℕ}
    (h : buf.toNat + 1528 * i < 4294967296) : (rxBuffer k buf i).toNat = buf.toNat + 1528 * i := by
  induction i with
  | zero => simp [rxBuffer]
  | succ i ih =>
    rw [rxBuffer, UInt32.toNat_add, ih (by omega), virtqRxbufSize_toNat]
    omega

def rxRegions (k : Kernel) (buf : UInt32) : List Region :=
  (List.range virtmmioNetifDftRxqsz.toNat).map fun i =>
    ⟨(rxBuffer k buf i).toNat, (sizeofVirtnetHdr + ethFrameLen).toNat⟩

theorem packed_rxRegions (k : Kernel) {buf : UInt32} (h : buf.toNat < 4294967296 - 24448) :
    Packed buf.toNat (buf.toNat + 24448) (rxRegions k buf) := by
  have heq : rxRegions k buf = slots buf.toNat 1528 1526 16 := by
    refine List.map_congr_left fun i hi => ?_
    have hi : i < 16 := List.mem_range.mp hi
    rw [rxBuffer_toNat k (by omega)]
    rfl
  rw [heq]
  exact packed_slots (by decide) 16

/-- Rings and receive buffers share the allocated block; lwip's address of packet `i` is
aligned. -/
structure RxSound (k : Kernel) (ethPadSize base : UInt32) (qs : List Virtq) (buf : UInt32) :
    Prop where
  packed : Packed base.toNat (base.toNat + (configQueueSize k).toNat)
    (qs.flatMap Virtq.regions ++ rxRegions k buf)
  aligned : ∀ i, i < virtmmioNetifDftRxqsz.toNat →
    (rxBuffer k buf i + sizeofVirtnetHdr - ethPadSize).toNat % virtqRxbufAlign.toNat = 0

theorem configQueue_sound (k : Kernel) {queueNumMax : ℕ → UInt32} {ethPadSize base : UInt32}
    {qs : List Virtq} {buf : UInt32}
    (h : base.toNat + (configQueueSize k).toNat < 4294967296)
    (hr : configQueue k queueNumMax ethPadSize base = some (qs, buf)) :
    RxSound k ethPadSize base qs buf := by
  simp only [configQueue] at hr
  split_ifs at hr with hne
  obtain ⟨rfl, rfl⟩ := Prod.mk.inj (Option.some.inj hr)
  rw [configQueueSize_toNat] at h
  have hs : Sound k base [virtmmioNetifDftRxqsz, virtmmioNetifDftTxqsz]
      (virtmmioConfigQueue k queueNumMax base [virtmmioNetifDftRxqsz, virtmmioNetifDftTxqsz]).1
      (virtmmioConfigQueue k queueNumMax base [virtmmioNetifDftRxqsz, virtmmioNetifDftTxqsz]).2 := by
    apply configQueueFrom_sound k queueNumMax _ hne
    simp only [List.map_cons, List.map_nil, List.sum_cons, List.sum_nil]
    omega
  have hstop := hs.stop
  simp only [List.map_cons, List.map_nil, List.sum_cons, List.sum_nil] at hstop
  generalize virtmmioConfigQueue k queueNumMax base
    [virtmmioNetifDftRxqsz, virtmmioNetifDftTxqsz] = r at *
  obtain ⟨hpad, hmod⟩ := rxPad_toNat ethPadSize r.1
  have hbuf : (r.1 + rxPad ethPadSize r.1).toNat = r.1.toNat + (rxPad ethPadSize r.1).toNat := by
    rw [UInt32.toNat_add]
    omega
  constructor
  · have hlt : (r.1 + rxPad ethPadSize r.1).toNat < 4294967296 - 24448 := by omega
    have hrx := packed_rxRegions k hlt
    rw [hbuf] at hrx
    rw [configQueueSize_toNat]
    have hlo : r.1.toNat ≤ r.1.toNat + (rxPad ethPadSize r.1).toNat := by omega
    refine hs.packed.append (hrx.mono hlo ?_)
    omega
  · intro i hi
    have hi : i < 16 := hi
    rw [UInt32.toNat_sub, UInt32.toNat_add, rxBuffer_toNat k (by omega), hbuf,
      show virtqRxbufAlign.toNat = 4 by rfl]
    rw [UInt32.toNat_sub, UInt32.toNat_add] at hmod
    omega

def roundUp : Kernel where
  align a b := .ofNat ((a.toNat + b.toNat - 1) / b.toNat * b.toNat)
  align_spec a b hb h := by
    have hpos : 0 < b.toNat := by
      simp only [List.mem_cons, List.not_mem_nil, or_false] at hb
      rcases hb with rfl | rfl | rfl <;> decide
    have hle := Nat.div_mul_le_self (a.toNat + b.toNat - 1) b.toNat
    rw [UInt32.toNat_ofNat']
    omega

end VirtmmioLayout
