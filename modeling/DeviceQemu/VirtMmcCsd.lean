import DeviceQemu.BitFields
import DeviceQemu.VirtMmc

/-! The CSD register that the card reports.
The four words of the response are one number of 128 bits, and FillCidCsdBits puts a value into
it. The values keep to their fields unless the block size needs five bits or the card is too small
for one unit of C_SIZE. -/
namespace VirtMmcCsd

open BitFields VirtMmc
open VersionedReads (Reads)

def respNat (resp : Resp) : ℕ :=
  (resp 3).toNat + 2 ^ 32 * ((resp 2).toNat + 2 ^ 32 * ((resp 1).toNat + 2 ^ 32 * (resp 0).toNat))

theorem testBit_word (w : UInt32) {i : ℕ} (hi : 32 ≤ i) : w.toNat.testBit i = false :=
  testBit_of_lt w.toNat_lt hi

theorem testBit_step (w : UInt32) (n i : ℕ) :
    (w.toNat + 2 ^ 32 * n).testBit i = if i < 32 then w.toNat.testBit i else n.testBit (i - 32) := by
  rw [Nat.add_comm]
  exact Nat.testBit_two_pow_mul_add n w.toNat_lt i

theorem testBit_respNat (resp : Resp) {i : ℕ} (hi : i < 128) :
    (respNat resp).testBit i = (resp (3 - i / 32)).toNat.testBit (i % 32) := by
  rw [respNat, testBit_step, testBit_step, testBit_step]
  obtain h | h | h | h : i / 32 = 0 ∨ i / 32 = 1 ∨ i / 32 = 2 ∨ i / 32 = 3 := by omega
  all_goals rw [h]
  · rw [if_pos (by omega), Nat.mod_eq_of_lt (by omega)]
  · rw [if_neg (by omega), if_pos (by omega), show i - 32 = i % 32 by omega]
  · rw [if_neg (by omega), if_neg (by omega), if_pos (by omega), show i - 32 - 32 = i % 32 by omega]
  · rw [if_neg (by omega), if_neg (by omega), if_neg (by omega),
      show i - 32 - 32 - 32 = i % 32 by omega]

theorem testBit_respNat_high (resp : Resp) {i : ℕ} (hi : 128 ≤ i) :
    (respNat resp).testBit i = false := by
  rw [respNat, testBit_step, testBit_step, testBit_step]
  rw [if_neg (by omega), if_neg (by omega), if_neg (by omega)]
  exact testBit_word _ (by omega)

theorem testBit_shiftLeft (w : UInt32) {lsb : ℕ} (hlsb : lsb < 32) {i : ℕ} (hi : i < 32) :
    (w <<< UInt32.ofNat lsb).toNat.testBit i =
      (decide (lsb ≤ i) && w.toNat.testBit (i - lsb)) := by
  have hmod : (UInt32.ofNat lsb).toNat % 32 = lsb := by
    rw [UInt32.toNat_ofNat']
    omega
  rw [UInt32.toNat_shiftLeft, hmod, Nat.testBit_mod_two_pow, Nat.testBit_shiftLeft]
  simp [hi]

theorem testBit_shiftRight (w : UInt32) {n : ℕ} (hn : n < 32) (i : ℕ) :
    (w >>> UInt32.ofNat n).toNat.testBit i = w.toNat.testBit (n + i) := by
  have hmod : (UInt32.ofNat n).toNat % 32 = n := by
    rw [UInt32.toNat_ofNat']
    omega
  rw [UInt32.toNat_shiftRight, hmod, Nat.testBit_shiftRight]

/-- The value stays in its word, or FillCidCsdBits carries it over to the next one. -/
structure Reaches (start bits : ℕ) (value : UInt32) : Prop where
  pos : 1 ≤ bits
  width : bits ≤ 32
  stop : start + bits ≤ 128
  carried : 32 < start % 32 + bits ∨ value.toNat < 2 ^ (32 - start % 32)

theorem Reaches.testBit_far {start bits : ℕ} {value : UInt32} (h : Reaches start bits value) {i : ℕ}
    (hi : ¬ (32 < start % 32 + bits ∧ i / 32 = start / 32 + 1)) (hword : i / 32 ≠ start / 32) :
    (decide (start ≤ i) && value.toNat.testBit (i - start)) = false := by
  by_cases hlo : start ≤ i
  · have hbit : value.toNat.testBit (i - start) = false := by
      by_cases hcarry : 32 < start % 32 + bits
      · exact testBit_word _ (by omega)
      · exact testBit_of_lt (h.carried.resolve_left hcarry) (by omega)
    simp [hbit]
  · simp [hlo]

theorem testBit_fill {start bits : ℕ} {value : UInt32} (h : Reaches start bits value)
    (resp : Resp) {i : ℕ} (hi : i < 128) :
    ((fillCidCsdBits resp start bits value) (3 - i / 32)).toNat.testBit (i % 32) =
      ((resp (3 - i / 32)).toNat.testBit (i % 32) ||
        (decide (start ≤ i) && value.toNat.testBit (i - start))) := by
  have hpos := h.pos
  have hwidth := h.width
  have hstop := h.stop
  have hlsb : start % 32 < 32 := Nat.mod_lt _ (by omega)
  have hmod : i % 32 < 32 := Nat.mod_lt _ (by omega)
  simp only [fillCidCsdBits, u32Bits, cidLen, gt_iff_lt]
  by_cases hword : i / 32 = start / 32
  · have hindex : 4 - 1 - start / 32 = 3 - i / 32 := by omega
    have hcarried : 32 < start % 32 + bits → 3 - i / 32 ≠ 4 - 1 - start / 32 - 1 := by omega
    have hle : start % 32 ≤ i % 32 ↔ start ≤ i := by omega
    split_ifs with hcarry
    · rw [Function.update_of_ne (hcarried hcarry), hindex, Function.update_self, UInt32.toNat_or,
        Nat.testBit_or, testBit_shiftLeft _ hlsb hmod, decide_eq_decide.mpr hle,
        show i % 32 - start % 32 = i - start by omega]
    · rw [hindex, Function.update_self, UInt32.toNat_or, Nat.testBit_or,
        testBit_shiftLeft _ hlsb hmod, decide_eq_decide.mpr hle,
        show i % 32 - start % 32 = i - start by omega]
  · have hindex : 3 - i / 32 ≠ 4 - 1 - start / 32 := by omega
    split_ifs with hcarry
    · by_cases hnext : i / 32 = start / 32 + 1
      · have hprev : 4 - 1 - start / 32 - 1 = 3 - i / 32 := by omega
        rw [hprev, Function.update_self, Function.update_of_ne hindex, UInt32.toNat_or,
          Nat.testBit_or, testBit_shiftRight _ (by omega),
          show 32 - start % 32 + i % 32 = i - start by omega, decide_eq_true (by omega : start ≤ i),
          Bool.true_and]
      · rw [Function.update_of_ne (by omega), Function.update_of_ne hindex,
          h.testBit_far (fun hc => hnext hc.2) hword, Bool.or_false]
    · rw [Function.update_of_ne hindex, h.testBit_far (fun hc => hcarry hc.1) hword, Bool.or_false]

theorem respNat_fill {start bits : ℕ} {value : UInt32} (h : Reaches start bits value)
    (resp : Resp) :
    respNat (fillCidCsdBits resp start bits value) = put (respNat resp) start value.toNat := by
  have hstop := h.stop
  have hpos := h.pos
  apply Nat.eq_of_testBit_eq
  intro i
  rw [testBit_put]
  by_cases hi : i < 128
  · rw [testBit_respNat _ hi, testBit_respNat _ hi, testBit_fill h resp hi]
  · have hfar := h.testBit_far (i := i) (by omega) (by omega)
    rw [testBit_respNat_high _ (not_lt.mp hi), testBit_respNat_high _ (not_lt.mp hi), hfar,
      Bool.or_false]

inductive CsdField where
  | csdStructure
  | specVers
  | reserved120
  | taac
  | nsac
  | tranSpeed
  | ccc
  | readBlLen
  | readBlPartial
  | writeBlkMisalign
  | readBlkMisalign
  | dsrImp
  | reserved74
  | cSize
  | vddRCurrMin
  | vddRCurrMax
  | vddWCurrMin
  | vddWCurrMax
  | cSizeMult
  | eraseGrpSize
  | eraseGrpMult
  | wpGrpSize
  | wpGrpEnable
  | defaultEcc
  | r2wFactor
  | writeBlLen
  | writeBlPartial
  | reserved17
  | contentProtApp
  | fileFormatGrp
  | copy
  | permWriteProtect
  | tmpWriteProtect
  | fileFormat
  | ecc
  | crc
  | notUsed0
  deriving DecidableEq, Repr

/-- The layout of the CSD register of an eMMC device. -/
def CsdField.place : CsdField → Field
  | csdStructure => ⟨126, 2⟩
  | specVers => ⟨122, 4⟩
  | reserved120 => ⟨120, 2⟩
  | taac => ⟨112, 8⟩
  | nsac => ⟨104, 8⟩
  | tranSpeed => ⟨96, 8⟩
  | ccc => ⟨84, 12⟩
  | readBlLen => ⟨80, 4⟩
  | readBlPartial => ⟨79, 1⟩
  | writeBlkMisalign => ⟨78, 1⟩
  | readBlkMisalign => ⟨77, 1⟩
  | dsrImp => ⟨76, 1⟩
  | reserved74 => ⟨74, 2⟩
  | cSize => ⟨62, 12⟩
  | vddRCurrMin => ⟨59, 3⟩
  | vddRCurrMax => ⟨56, 3⟩
  | vddWCurrMin => ⟨53, 3⟩
  | vddWCurrMax => ⟨50, 3⟩
  | cSizeMult => ⟨47, 3⟩
  | eraseGrpSize => ⟨42, 5⟩
  | eraseGrpMult => ⟨37, 5⟩
  | wpGrpSize => ⟨32, 5⟩
  | wpGrpEnable => ⟨31, 1⟩
  | defaultEcc => ⟨29, 2⟩
  | r2wFactor => ⟨26, 3⟩
  | writeBlLen => ⟨22, 4⟩
  | writeBlPartial => ⟨21, 1⟩
  | reserved17 => ⟨17, 4⟩
  | contentProtApp => ⟨16, 1⟩
  | fileFormatGrp => ⟨15, 1⟩
  | copy => ⟨14, 1⟩
  | permWriteProtect => ⟨13, 1⟩
  | tmpWriteProtect => ⟨12, 1⟩
  | fileFormat => ⟨10, 2⟩
  | ecc => ⟨8, 2⟩
  | crc => ⟨1, 7⟩
  | notUsed0 => ⟨0, 1⟩

def decode (f : CsdField) (csd : ℕ) : ℕ := f.place.get csd

/-- The block length that the driver means to report, as a power of two. -/
def blLen (conf : VirtmmioNegotiate.Virtblk) : ℕ :=
  if conf.capacity > capacity2G then conf.blkSize.toNat.log2 else VirtMmc.readBlLen.toNat

/-- The fields that do not depend on the card; those the driver leaves alone are zero. -/
def constant (mmc : Mmc) : CsdField → ℕ
  | .csdStructure => mmc.csdStructureVer12.toNat
  | .specVers => mmc.csdSpecVer4.toNat
  | .ccc => mmc.ccc.toNat
  | .cSizeMult => VirtMmc.cSizeMult.toNat
  | .eraseGrpSize => mmcCsdEgrpsizeVal.toNat
  | .eraseGrpMult => mmcCsdEgrpmultVal.toNat
  | _ => 0

def cSizeUnit (csd : ℕ) : ℕ := 2 ^ (decode .cSizeMult csd + 2) * 2 ^ decode .readBlLen csd

def csdCapacity (csd : ℕ) : ℕ := (decode .cSize csd + 1) * cSizeUnit csd

def deviceBytes (conf : VirtmmioNegotiate.Virtblk) : ℕ := 512 * conf.capacity.toNat

/-- Decoding the register gives back what the driver meant to put in. -/
structure RoundTrips (mmc : Mmc) (conf : VirtmmioNegotiate.Virtblk) (csd : ℕ) : Prop where
  readBlLen : decode .readBlLen csd = blLen conf
  writeBlLen : decode .writeBlLen csd = blLen conf
  marker : conf.capacity > capacity2G → decode .cSize csd = 0xFFF
  capacity : ¬ conf.capacity > capacity2G →
    csdCapacity csd ≤ deviceBytes conf ∧ deviceBytes conf < csdCapacity csd + cSizeUnit csd
  others : ∀ f, f ∉ [CsdField.readBlLen, .writeBlLen, .cSize] → decode f csd = constant mmc f

/-- The fields that FillCidCsdBits is called for, in the order of the calls. -/
def order : List CsdField :=
  [.csdStructure, .specVers, .ccc, .readBlPartial, .writeBlkMisalign, .readBlkMisalign, .dsrImp,
    .readBlLen, .writeBlLen, .cSize, .cSizeMult, .eraseGrpSize, .eraseGrpMult, .writeBlPartial,
    .fileFormatGrp, .fileFormat]

/-- The value each field is given, with the block length and C_SIZE that were worked out. -/
def value (mmc : Mmc) (len size : UInt32) : CsdField → UInt32
  | .csdStructure => mmc.csdStructureVer12
  | .specVers => mmc.csdSpecVer4
  | .ccc => mmc.ccc
  | .readBlLen => len
  | .writeBlLen => len
  | .cSize => size
  | .cSizeMult => VirtMmc.cSizeMult
  | .eraseGrpSize => mmcCsdEgrpsizeVal
  | .eraseGrpMult => mmcCsdEgrpmultVal
  | _ => 0

def lenValue (conf : VirtmmioNegotiate.Virtblk) : UInt32 :=
  if conf.capacity > capacity2G then UInt32.ofNat u32Bits - builtinClz conf.blkSize - 1
  else VirtMmc.readBlLen

def sizeValue (conf : VirtmmioNegotiate.Virtblk) : UInt32 :=
  if conf.capacity > capacity2G then mmcCsdCsizeVal else VirtMmc.cSize conf.capacity

def filled (v : CsdField → UInt32) (resp : Resp) (fs : List CsdField) : Resp :=
  fs.foldl (fun resp f => fillCidCsdBits resp f.place.start f.place.width (v f)) resp

theorem fillRespCsd_eq (mmc : Mmc) (resp : Resp) (blk : VirtMmc.Virtblk) :
    virtMmcFillRespCsd mmc resp blk =
      filled (value mmc (lenValue blk.conf) (sizeValue blk.conf)) resp order := by
  unfold virtMmcFillRespCsd lenValue sizeValue
  split_ifs <;> rfl

def packed (v : CsdField → UInt32) (fs : List CsdField) : List (Field × ℕ) :=
  fs.map fun f => (f.place, (v f).toNat)

theorem respNat_filled {v : CsdField → UInt32}
    (h : ∀ f : CsdField, Reaches f.place.start f.place.width (v f)) (resp : Resp)
    (fs : List CsdField) : respNat (filled v resp fs) = pack (respNat resp) (packed v fs) := by
  induction fs generalizing resp with
  | nil => rfl
  | cons f fs ih =>
    rw [filled, List.foldl_cons, ← filled, ih, respNat_fill (h f)]
    rfl

/-- The card as Feature0 left it when it accepted the features of the device, whose configuration
may change at any time. -/
def Accepted (conf : VirtmmioNegotiate.Virtblk) : Prop :=
  ∃ (hdf : VirtmmioNegotiate.Hdf) (features supported supported' : UInt32)
    (before : VirtmmioNegotiate.Virtblk) (value : ℕ → VirtmmioNegotiate.VirtblkConfig) (t t' : ℕ),
    hdf.mmcSecSize = SyncRequest.mmcSecSize ∧
      (VirtmmioNegotiate.blkFeature0 hdf features supported before).run value t =
        ((true, supported', conf), t')

theorem usable_size {hdf : VirtmmioNegotiate.Hdf} (hsec : hdf.mmcSecSize = SyncRequest.mmcSecSize)
    {bs : UInt32} (h : VirtmmioNegotiate.usableBlkSize hdf bs) :
    ∃ k, 9 ≤ k ∧ k ≤ 16 ∧ bs.toNat = 2 ^ k := by
  simp only [VirtmmioNegotiate.usableBlkSize, hsec, Bool.and_eq_true, decide_eq_true_eq,
    UInt32.le_iff_toNat_le] at h
  rcases h with ⟨⟨hlo, hhi⟩, hpow⟩
  have hlo : 512 ≤ bs.toNat := hlo
  have hhi : bs.toNat ≤ 65536 := hhi
  have hsub : (bs - 1).toNat = bs.toNat - 1 :=
    UInt32.toNat_sub_of_le _ _ (UInt32.le_iff_toNat_le.mpr (by simp; omega))
  have hand : bs.toNat &&& (bs.toNat - 1) = 0 := by
    rw [← hsub, ← UInt32.toNat_and, hpow]
    rfl
  obtain ⟨k, hk⟩ := (Nat.and_sub_one_eq_zero_iff_isPowerOfTwo (by omega)).mp hand
  refine ⟨k, ?_, ?_, hk⟩
  · by_contra hlt
    have := Nat.pow_le_pow_right (n := 2) (by omega) (by omega : k ≤ 8)
    omega
  · by_contra hgt
    have := Nat.pow_le_pow_right (n := 2) (by omega) (by omega : 17 ≤ k)
    omega

theorem Accepted.size {conf : VirtmmioNegotiate.Virtblk} (h : Accepted conf) :
    ∃ k, 9 ≤ k ∧ k ≤ 16 ∧ conf.blkSize.toNat = 2 ^ k := by
  obtain ⟨hdf, features, supported, supported', before, value, t, t', hsec, hrun⟩ := h
  have hdefault : VirtmmioNegotiate.virtblkDefBlkSize.toNat = 2 ^ 13 := rfl
  unfold VirtmmioNegotiate.blkFeature0 VirtmmioNegotiate.readBlkSize at hrun
  split_ifs at hrun with hro hoffered
  · cases hrun
  · simp only [Bind.bind, Reads.bind, Reads.get, Pure.pure, Reads.run,
      VirtmmioNegotiate.readCapacity] at hrun
    cases husable : VirtmmioNegotiate.usableBlkSize hdf (value t).blkSize with
    | true =>
      rw [husable] at hrun
      cases hrun
      exact usable_size hsec husable
    | false =>
      rw [husable] at hrun
      cases hrun
      exact ⟨13, by omega, by omega, hdefault⟩
  · cases hrun
    exact ⟨13, by omega, by omega, hdefault⟩

theorem log2_toNat (x : UInt32) : x.log2.toNat = x.toNat.log2 := rfl

theorem lenValue_toNat {conf : VirtmmioNegotiate.Virtblk} (h : conf.blkSize ≠ 0) :
    (lenValue conf).toNat = blLen conf := by
  unfold lenValue blLen
  split_ifs with hbig
  · have hlog : conf.blkSize.toNat.log2 < 32 := by
      apply (Nat.log2_lt ?_).mpr conf.blkSize.toNat_lt
      exact fun h0 => h (UInt32.toNat_inj.mp h0)
    have hclz : (builtinClz conf.blkSize).toNat = 31 - conf.blkSize.toNat.log2 := by
      rw [builtinClz, UInt32.toNat_sub_of_le, log2_toNat]
      · rfl
      · rw [UInt32.le_iff_toNat_le, log2_toNat]
        exact Nat.le_of_lt_succ hlog
    rw [UInt32.toNat_sub, UInt32.toNat_sub, hclz, show (UInt32.ofNat u32Bits).toNat = 32 by rfl,
      UInt32.toNat_one]
    omega
  · rfl

theorem cSize_toNat {capacity : UInt64} (h : ¬ capacity > capacity2G) :
    (VirtMmc.cSize capacity).toNat = (capacity.toNat / 2048 + (2 ^ 32 - 1)) % 2 ^ 32 := by
  have hle : capacity.toNat ≤ 4194304 := UInt64.le_iff_toNat_le.mp (UInt64.not_lt.mp h)
  have hbytes : (capacity * SyncRequest.mmcSecSize.toUInt64).toNat = capacity.toNat * 512 := by
    rw [UInt64.toNat_mul, show SyncRequest.mmcSecSize.toUInt64.toNat = 512 by rfl]
    omega
  rw [VirtMmc.cSize, UInt64.toNat_toUInt32, UInt64.toNat_sub, UInt64.toNat_div, UInt64.toNat_div,
    hbytes, show ((1 : UInt64) <<< VirtMmc.readBlLen.toUInt64).toNat = 2048 by decide,
    show ((1 : UInt64) <<< (VirtMmc.cSizeMult + 2).toUInt64).toNat = 512 by decide,
    UInt64.toNat_one]
  omega

theorem sizeValue_toNat (conf : VirtmmioNegotiate.Virtblk) :
    (sizeValue conf).toNat = if conf.capacity > capacity2G then 0xFFF
      else (conf.capacity.toNat / 2048 + (2 ^ 32 - 1)) % 2 ^ 32 := by
  unfold sizeValue
  split_ifs with hbig
  · rfl
  · exact cSize_toNat hbig

/-- The CSD that the card reports in a zeroed response. -/
def csd (mmc : Mmc) (blk : VirtMmc.Virtblk) : ℕ := respNat (virtMmcFillRespCsd mmc (fun _ => 0) blk)

theorem Accepted.lenValue_toNat {conf : VirtmmioNegotiate.Virtblk} (h : Accepted conf) :
    (lenValue conf).toNat = blLen conf := by
  obtain ⟨k, -, -, hsize⟩ := h.size
  apply VirtMmcCsd.lenValue_toNat
  intro h0
  have hpos := Nat.two_pow_pos k
  rw [← hsize, h0] at hpos
  exact absurd hpos (by decide)

theorem place_bounds (f : CsdField) :
    1 ≤ f.place.width ∧ f.place.width ≤ 32 ∧ f.place.start + f.place.width ≤ 128 := by
  cases f <;> decide

theorem value_fits (mmc : Mmc) (len size : UInt32) {f : CsdField}
    (hf : f ∉ [CsdField.readBlLen, .writeBlLen, .cSize]) :
    (value mmc len size f).toNat < 2 ^ f.place.width := by
  cases f
  case csdStructure => exact mmc.structure_lt
  case specVers => exact mmc.spec_lt
  case ccc => exact mmc.ccc_lt
  case readBlLen => exact absurd (by decide) hf
  case writeBlLen => exact absurd (by decide) hf
  case cSize => exact absurd (by decide) hf
  case cSizeMult => exact (by decide : VirtMmc.cSizeMult.toNat < 2 ^ 3)
  case eraseGrpSize => exact (by decide : mmcCsdEgrpsizeVal.toNat < 2 ^ 5)
  case eraseGrpMult => exact (by decide : mmcCsdEgrpmultVal.toNat < 2 ^ 5)
  all_goals exact Nat.two_pow_pos _

theorem value_reaches (mmc : Mmc) {len : UInt32} (hlen : len.toNat ≤ 16) (size : UInt32)
    (f : CsdField) : Reaches f.place.start f.place.width (value mmc len size f) := by
  obtain ⟨hpos, hwidth, hstop⟩ := place_bounds f
  refine ⟨hpos, hwidth, hstop, ?_⟩
  by_cases hf : f ∉ [CsdField.readBlLen, .writeBlLen, .cSize]
  · by_cases hcarry : 32 < f.place.start % 32 + f.place.width
    · exact .inl hcarry
    · exact .inr (lt_of_lt_of_le (value_fits mmc len size hf)
        (Nat.pow_le_pow_right (by omega) (by omega)))
  · obtain rfl | rfl | rfl : f = .readBlLen ∨ f = .writeBlLen ∨ f = .cSize := by
      simpa using not_not.mp hf
    · exact .inr (lt_of_le_of_lt hlen (by decide))
    · exact .inr (lt_of_le_of_lt hlen (by decide))
    · exact .inl (by decide)

theorem Accepted.lenValue_le {conf : VirtmmioNegotiate.Virtblk} (h : Accepted conf) :
    (lenValue conf).toNat ≤ 16 := by
  rw [h.lenValue_toNat, blLen]
  obtain ⟨k, -, hk, hsize⟩ := h.size
  split_ifs
  · rw [hsize, Nat.log2_two_pow]
    exact hk
  · decide

theorem csd_eq (mmc : Mmc) {blk : VirtMmc.Virtblk} (h : Accepted blk.conf) :
    csd mmc blk = pack 0 (packed (value mmc (lenValue blk.conf) (sizeValue blk.conf)) order) := by
  rw [csd, fillRespCsd_eq, respNat_filled (value_reaches mmc h.lenValue_le _)]
  rfl

theorem order_apart : order.Pairwise fun f g => f.place.Apart g.place := by decide

theorem apart_of_not_mem_order {f : CsdField} (hf : f ∉ order) :
    ∀ g ∈ order, g.place.Apart f.place := by
  revert hf
  cases f <;> decide

theorem get_zero (f : Field) : f.get 0 = 0 := by simp [Field.get]

/-- When the block length and C_SIZE fit, every field of the register decodes to its value. -/
theorem decode_packed (mmc : Mmc) {len size : UInt32} (hlen : len.toNat < 2 ^ 4)
    (hsize : size.toNat < 2 ^ 12) (f : CsdField) :
    decode f (pack 0 (packed (value mmc len size) order)) = (value mmc len size f).toNat := by
  have hfits : ∀ p ∈ packed (value mmc len size) order, Fits p := by
    intro p hp
    obtain ⟨g, -, rfl⟩ := List.mem_map.mp hp
    by_cases hg : g ∉ [CsdField.readBlLen, .writeBlLen, .cSize]
    · exact value_fits mmc len size hg
    · obtain rfl | rfl | rfl : g = .readBlLen ∨ g = .writeBlLen ∨ g = .cSize := by
        simpa using not_not.mp hg
      · exact hlen
      · exact hlen
      · exact hsize
  by_cases hf : f ∈ order
  · exact get_pack hfits (List.pairwise_map.mpr order_apart) (get_zero f.place)
      (List.mem_map.mpr ⟨f, hf, rfl⟩)
  · have hzero : value mmc len size f = 0 := by
      revert hf
      cases f <;> first | (intro _; rfl) | (intro hf; exact absurd (by decide) hf)
    rw [decode, get_pack_of_spares, get_zero, hzero]
    · rfl
    · intro p hp
      have hp' := hfits p hp
      obtain ⟨g, hg, rfl⟩ := List.mem_map.mp hp
      exact hp'.spares (apart_of_not_mem_order hf g hg)

theorem constant_eq (mmc : Mmc) (len size : UInt32) {f : CsdField}
    (hf : f ∉ [CsdField.readBlLen, .writeBlLen, .cSize]) :
    constant mmc f = (value mmc len size f).toNat := by
  cases f <;> first | rfl | exact absurd (by decide) hf

def Fitting (conf : VirtmmioNegotiate.Virtblk) : Prop :=
  if conf.capacity > capacity2G then conf.blkSize ≠ 65536 else 2048 ≤ conf.capacity.toNat

instance (conf : VirtmmioNegotiate.Virtblk) : Decidable (Fitting conf) :=
  inferInstanceAs (Decidable (if conf.capacity > capacity2G then conf.blkSize ≠ 65536
    else 2048 ≤ conf.capacity.toNat))

theorem not_big_le {capacity : UInt64} (h : ¬ capacity > capacity2G) :
    capacity.toNat ≤ 4194304 := UInt64.le_iff_toNat_le.mp (UInt64.not_lt.mp h)

theorem roundTrips {mmc : Mmc} {blk : VirtMmc.Virtblk} (h : Accepted blk.conf)
    (hfit : Fitting blk.conf) : RoundTrips mmc blk.conf (csd mmc blk) := by
  have hlen : (lenValue blk.conf).toNat < 2 ^ 4 := by
    rw [h.lenValue_toNat, blLen]
    split_ifs with hbig
    · obtain ⟨k, -, hk, hsize⟩ := h.size
      have hne : k ≠ 16 := by
        rintro rfl
        rw [Fitting, if_pos hbig] at hfit
        exact hfit (UInt32.toNat_inj.mp hsize)
      rw [hsize, Nat.log2_two_pow]
      omega
    · decide
  have hsize : (sizeValue blk.conf).toNat < 2 ^ 12 := by
    rw [sizeValue_toNat]
    split_ifs with hbig
    · decide
    · rw [Fitting, if_neg hbig] at hfit
      have := not_big_le hbig
      omega
  rw [csd_eq mmc h]
  have hdecode := decode_packed mmc hlen hsize
  constructor
  · rw [hdecode, ← h.lenValue_toNat]
    rfl
  · rw [hdecode, ← h.lenValue_toNat]
    rfl
  · intro hbig
    rw [hdecode]
    exact (sizeValue_toNat blk.conf).trans (if_pos hbig)
  · intro hbig
    rw [Fitting, if_neg hbig] at hfit
    have hle := not_big_le hbig
    have hvalue : (value mmc (lenValue blk.conf) (sizeValue blk.conf) .cSize).toNat =
        blk.conf.capacity.toNat / 2048 - 1 := by
      rw [value, sizeValue_toNat, if_neg hbig]
      omega
    have hunit : (value mmc (lenValue blk.conf) (sizeValue blk.conf) .readBlLen).toNat = 11 := by
      rw [value, h.lenValue_toNat, blLen, if_neg hbig]
      rfl
    have hmult : (value mmc (lenValue blk.conf) (sizeValue blk.conf) .cSizeMult).toNat = 7 := rfl
    simp only [csdCapacity, cSizeUnit, hdecode, hvalue, hunit, hmult, deviceBytes]
    omega
  · intro f hf
    rw [hdecode, constant_eq mmc _ _ hf]

theorem spills {mmc : Mmc} {blk : VirtMmc.Virtblk} (h : Accepted blk.conf)
    (hfit : ¬ Fitting blk.conf) : ¬ RoundTrips mmc blk.conf (csd mmc blk) := by
  intro hr
  have hlen := hr.readBlLen
  rw [Fitting] at hfit
  split_ifs at hfit with hbig
  · -- a block of 65536 bytes needs the length 16
    have h16 : blLen blk.conf = 16 := by
      rw [blLen, if_pos hbig, not_not.mp hfit]
      decide
    have hlt := CsdField.readBlLen.place.get_lt (csd mmc blk)
    rw [decode, h16] at hlen
    rw [hlen] at hlt
    exact absurd hlt (by decide)
  · -- C_SIZE is 0xFFFFFFFF and sets the bits of READ_BL_LEN
    have hset : (csd mmc blk).testBit 82 = true := by
      rw [csd_eq mmc h]
      apply testBit_pack
      refine .inr ⟨_, List.mem_map.mpr ⟨.cSize, by decide, rfl⟩, (by decide : 62 ≤ 82), ?_⟩
      have hsize : (sizeValue blk.conf).toNat = 2 ^ 32 - 1 := by
        rw [sizeValue_toNat, if_neg hbig]
        omega
      rw [value, hsize]
      decide
    have hbit := CsdField.readBlLen.place.testBit_get (csd mmc blk) 2
    rw [← decode, hlen, blLen, if_neg hbig, show CsdField.readBlLen.place.start + 2 = 82 by rfl,
      hset] at hbit
    exact absurd hbit (by decide)

theorem csd_iff (mmc : Mmc) {blk : VirtMmc.Virtblk} (h : Accepted blk.conf) :
    RoundTrips mmc blk.conf (csd mmc blk) ↔ Fitting blk.conf := by
  constructor
  · intro hr
    by_contra hfit
    exact spills h hfit hr
  · exact roundTrips h

def emmc : Mmc where
  cardBusyStatus := 0x80000000
  readyForData := 0x100
  stateReady := 1
  csdStructureVer12 := 2
  csdSpecVer4 := 4
  cccBasic := 1
  cccBlockRead := 4
  cccBlockWrite := 16
  dataRead := 2
  extCsdRelWrSecC := 222
  extCsdSecCnt := 212
  extCsdCardType := 196
  extCsdStructure := 194
  extCsdRev := 192
  extCsdBusWidth := 183
  cardType26 := 1
  cardType52 := 2
  extCsdStructureVer12 := 2
  extCsdRev13 := 3
  extCsdBusWidth1 := 0
  busy_mode := by decide
  structure_lt := by decide
  spec_lt := by decide
  ccc_lt := by decide
  secCnt_apart := by decide

def card (capacity : UInt64) : VirtMmc.Virtblk where
  addr := 0
  conf := ⟨capacity, VirtmmioNegotiate.virtblkDefBlkSize⟩
  io := ⟨⟨0, 0, 0⟩, 0⟩
  desc := default

theorem card_accepted (capacity : UInt64) : Accepted (card capacity).conf := by
  refine ⟨⟨SyncRequest.mmcSecSize, 0, 0, 0⟩, 0, 0, 0, ⟨0, 0⟩, fun _ => ⟨capacity, 0⟩, 0, _, rfl,
    Prod.ext ?_ rfl⟩
  have hconf : ∀ j, (fun _ : ℕ => (⟨capacity, 0⟩ : VirtmmioNegotiate.VirtblkConfig)) j =
      ⟨capacity, 0⟩ := fun _ => rfl
  refine (Reads.run_eq_eval _ fun j _ _ => hconf j).trans ?_
  simp only [VirtmmioNegotiate.blkFeature0, VirtmmioNegotiate.readBlkSize]
  rw [if_neg (by decide), if_neg (by decide)]
  simp only [Reads.eval_bind, Reads.eval_pure, VirtmmioNegotiate.readCapacity_eval]
  rfl

theorem csd_iff_gigabyte :
    RoundTrips emmc (card 2097152).conf (csd emmc (card 2097152)) ↔ Fitting (card 2097152).conf :=
  csd_iff emmc (card_accepted 2097152)

/-- A device of half a mebibyte. -/
theorem csd_spills : Accepted (card 1024).conf ∧
    ¬ RoundTrips emmc (card 1024).conf (csd emmc (card 1024)) :=
  ⟨card_accepted 1024, spills (card_accepted 1024) (by decide)⟩

end VirtMmcCsd
