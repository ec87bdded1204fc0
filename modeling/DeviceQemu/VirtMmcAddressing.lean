import DeviceQemu.VirtMmcCsd

/-! How the card is addressed.
The host learns from SEND_OP_COND whether sectors or bytes are counted, and from the CSD or
EXT_CSD how many there are; VirtMmcIO turns the argument of a transfer back into a sector. -/
namespace VirtMmcAddressing

open BitFields VirtMmc VirtMmcCsd

/-- The circumstances of a call of VirtMmcDoRequest. -/
structure Call where
  at_ : Addrs
  c : Completion
  blockAddr : Bool
  buffer : ℕ → UInt8
  cmd : MmcCmd

def Call.request (call : Call) (mmc : Mmc) (blk : VirtMmc.Virtblk) (cmdCode : UInt32) : Outcome :=
  virtMmcDoRequest mmc call.at_ call.c call.blockAddr blk call.buffer { call.cmd with cmdCode }

/-- The MMC core sets blockAddr from bit 30 of the OCR. -/
def learnedBlockAddr (mmc : Mmc) (blk : VirtMmc.Virtblk) (call : Call) : Bool :=
  ((call.request mmc blk 1).cmd.resp 0).toNat.testBit 30

/-- The CSD, read into a zeroed response. -/
def learnedCsd (mmc : Mmc) (blk : VirtMmc.Virtblk) (call : Call) : ℕ :=
  let call := { call with cmd := { call.cmd with resp := fun _ => 0 } }
  respNat (call.request mmc blk 9).cmd.resp

def u32At (b : ℕ → UInt8) (o : ℕ) : ℕ :=
  (b o).toNat + 256 * ((b (o + 1)).toNat + 256 * ((b (o + 2)).toNat + 256 * (b (o + 3)).toNat))

def learnedSecCnt (mmc : Mmc) (blk : VirtMmc.Virtblk) (call : Call) : ℕ :=
  u32At (call.request mmc blk 8).buffer mmc.extCsdSecCnt

def announced (mmc : Mmc) (blk : VirtMmc.Virtblk) (call : Call) : ℕ :=
  if learnedBlockAddr mmc blk call then learnedSecCnt mmc blk call
  else csdCapacity (learnedCsd mmc blk call) / 512

/-- A transfer of `n` sectors from `s` on that a host may ask for, in the mode it learned. -/
structure Conforming (mmc : Mmc) (blk : VirtMmc.Virtblk) (learned call : Call) (s n : ℕ) : Prop where
  mode : call.blockAddr = learnedBlockAddr mmc blk learned
  pos : 1 ≤ n
  fits : 512 * n < 2 ^ 32
  within : s + n ≤ announced mmc blk learned
  argument : call.cmd.argument.toNat = if call.blockAddr then s else 512 * s
  blockNum : call.cmd.data.blockNum.toNat = n

/-- READ_SINGLE_BLOCK, READ_MULTIPLE_BLOCK, WRITE_BLOCK and WRITE_MULTIPLE_BLOCK. -/
def transfers : List UInt32 := [17, 18, 24, 25]

/-- The device is handed the sectors that the host asked for, and its failure is passed on. -/
structure Transferred (blk : VirtMmc.Virtblk) (call : Call) (out : Outcome) (s n : ℕ) : Prop where
  io : ∃ r, out.io = some r ∧ r.startSector.toNat = s
  header : out.blk.io.req.startSector.toNat = s
  length : (out.blk.desc 1).len.toNat = 512 * n
  within : s + n ≤ blk.conf.capacity.toNat
  failure : call.c.answer.status ≠ virtioBlkSOk → out.cmd.data.returnError ≠ .success

structure Addresses (mmc : Mmc) (blk : VirtMmc.Virtblk) : Prop where
  consistent : ∀ call, learnedBlockAddr mmc blk call = true ↔
    decode .cSize (learnedCsd mmc blk call) = 0xFFF
  transferred : ∀ learned call s n, Conforming mmc blk learned call s n →
    ∀ cmdCode ∈ transfers, Transferred blk call (call.request mmc blk cmdCode) s n

theorem learnedBlockAddr_iff (mmc : Mmc) (blk : VirtMmc.Virtblk) (call : Call) :
    learnedBlockAddr mmc blk call = true ↔ blk.conf.capacity > capacity2G := by
  have hocr : (call.request mmc blk 1).cmd.resp 0 =
      if blk.conf.capacity > capacity2G then mmc.ocrGt2G else mmc.ocrLe2G := rfl
  rw [learnedBlockAddr, hocr]
  split_ifs with hbig
  · have hmode : (0x40FF8080 : UInt32).toNat.testBit 30 = true := by decide
    rw [Mmc.ocrGt2G, UInt32.toNat_or, Nat.testBit_or, hmode, Bool.true_or]
    exact iff_of_true rfl hbig
  · have hmode : (0x00FF8080 : UInt32).toNat.testBit 30 = false := by decide
    rw [Mmc.ocrLe2G, UInt32.toNat_or, Nat.testBit_or, hmode, mmc.busy_mode]
    exact iff_of_false (by decide) hbig

theorem learnedCsd_eq (mmc : Mmc) (blk : VirtMmc.Virtblk) (call : Call) :
    learnedCsd mmc blk call = csd mmc blk := rfl

theorem toUInt8_shiftRight (v : UInt32) {k : ℕ} (hk : k < 4) :
    (v >>> UInt32.ofNat (8 * k)).toUInt8.toNat = v.toNat / 256 ^ k % 256 := by
  have hmod : (UInt32.ofNat (8 * k)).toNat % 32 = 8 * k := by
    rw [UInt32.toNat_ofNat']
    omega
  rw [UInt32.toNat_toUInt8, UInt32.toNat_shiftRight, hmod, Nat.shiftRight_eq_div_pow, Nat.pow_mul]

theorem u32At_setU32 (b : ℕ → UInt8) (o : ℕ) (v : UInt32) : u32At (setU32 b o v) o = v.toNat := by
  have hbyte : ∀ k < 4, (setU32 b o v (o + k)).toNat = v.toNat / 256 ^ k % 256 := by
    intro k hk
    rw [setU32, if_pos (by omega), Nat.add_sub_cancel_left]
    exact toUInt8_shiftRight v hk
  have hlt := v.toNat_lt
  have h0 := hbyte 0 (by omega)
  rw [Nat.add_zero] at h0
  rw [u32At, h0, hbyte 1 (by omega), hbyte 2 (by omega), hbyte 3 (by omega)]
  omega

theorem u32At_update {b : ℕ → UInt8} {o i : ℕ} (h : i < o ∨ o + 4 ≤ i) (v : UInt8) :
    u32At (Function.update b i v) o = u32At b o := by
  simp (disch := omega) only [u32At, Function.update_of_ne]

theorem learnedSecCnt_eq (mmc : Mmc) (blk : VirtMmc.Virtblk) (call : Call) :
    learnedSecCnt mmc blk call = blk.conf.capacity.toNat % 2 ^ 32 := by
  have hapart := mmc.secCnt_apart
  have hbuffer : (call.request mmc blk 8).buffer = virtMmcFillDataExtCsd mmc call.buffer blk := rfl
  rw [learnedSecCnt, hbuffer, virtMmcFillDataExtCsd]
  simp only [List.mem_cons, List.not_mem_nil, or_false, forall_eq_or_imp, forall_eq] at hapart
  rcases hapart with ⟨h1, h2, h3, h4, h5, h6⟩
  rw [u32At_update h6, u32At_update (i := emmcExtCsdCmdSetRev) h5,
    u32At_update (i := emmcExtCsdCmdSet) h4, u32At_update h3, u32At_update h2, u32At_update h1,
    u32At_setU32, UInt64.toNat_toUInt32]

/-- No other value reaches the field of C_SIZE, not even a block length of 16. -/
theorem spares_cSize (mmc : Mmc) {len : UInt32} (hlen : len.toNat ≤ 16) (size : UInt32) {f : CsdField}
    (hf : f ≠ .cSize) : Spares (f.place, (value mmc len size f).toNat) CsdField.cSize.place := by
  by_cases hconst : f ∉ [CsdField.readBlLen, .writeBlLen, .cSize]
  · have hapart : f.place.Apart CsdField.cSize.place := by
      revert hf
      cases f <;> decide
    exact Fits.spares (f := (f.place, _)) (value_fits mmc len size hconst) hapart
  · obtain rfl | rfl | rfl : f = .readBlLen ∨ f = .writeBlLen ∨ f = .cSize := by
      simpa using not_not.mp hconst
    · exact .inl (by decide : 62 + 12 ≤ 80)
    · exact .inr (lt_of_le_of_lt hlen (by decide : 16 < 2 ^ (62 - 22)))
    · exact absurd rfl hf

theorem decode_cSize (mmc : Mmc) {blk : VirtMmc.Virtblk} (h : Accepted blk.conf)
    (hsize : (sizeValue blk.conf).toNat < 2 ^ 12) :
    decode .cSize (csd mmc blk) = (sizeValue blk.conf).toNat := by
  rw [csd_eq mmc h]
  have hsplit : packed (value mmc (lenValue blk.conf) (sizeValue blk.conf)) order =
      packed (value mmc (lenValue blk.conf) (sizeValue blk.conf)) (order.take 9) ++
        (CsdField.cSize.place, (sizeValue blk.conf).toNat) ::
          packed (value mmc (lenValue blk.conf) (sizeValue blk.conf)) (order.drop 10) := rfl
  rw [hsplit]
  refine get_pack_split (f := (CsdField.cSize.place, _)) hsize ?_ (get_zero _)
  intro p hp
  rw [packed, packed, ← List.map_append] at hp
  obtain ⟨f, hf, rfl⟩ := List.mem_map.mp hp
  apply spares_cSize mmc h.lenValue_le
  rintro rfl
  exact absurd hf (by decide)

/-- Below one unit of C_SIZE the field has the value that announces more than 2 GiB. -/
theorem decode_cSize_tiny (mmc : Mmc) {blk : VirtMmc.Virtblk} (h : Accepted blk.conf)
    (htiny : blk.conf.capacity.toNat < 2048) : decode .cSize (csd mmc blk) = 0xFFF := by
  have hbig : ¬ blk.conf.capacity > capacity2G := by
    intro hbig
    have hlt : 4194304 < blk.conf.capacity.toNat := UInt64.lt_iff_toNat_lt.mp hbig
    omega
  have hsize : (sizeValue blk.conf).toNat = 2 ^ 32 - 1 := by
    rw [sizeValue_toNat, if_neg hbig]
    omega
  apply Nat.eq_of_testBit_eq
  intro i
  rw [decode, CsdField.cSize.place.testBit_get, show (0xFFF : ℕ) = 2 ^ 12 - 1 by rfl,
    Nat.testBit_two_pow_sub_one, show CsdField.cSize.place.width = 12 by rfl]
  by_cases hi : i < 12
  · have hset : (csd mmc blk).testBit (CsdField.cSize.place.start + i) = true := by
      rw [csd_eq mmc h]
      apply testBit_pack
      refine .inr ⟨_, List.mem_map.mpr ⟨.cSize, by decide, rfl⟩, Nat.le_add_right _ _, ?_⟩
      rw [Nat.add_sub_cancel_left, value, hsize, Nat.testBit_two_pow_sub_one]
      exact decide_eq_true (by omega)
    rw [hset, Bool.and_true]
  · simp [hi]

theorem consistent_iff (mmc : Mmc) {blk : VirtMmc.Virtblk} (h : Accepted blk.conf) (call : Call) :
    (learnedBlockAddr mmc blk call = true ↔ decode .cSize (learnedCsd mmc blk call) = 0xFFF) ↔
      2048 ≤ blk.conf.capacity.toNat := by
  rw [learnedBlockAddr_iff, learnedCsd_eq]
  by_cases hbig : blk.conf.capacity > capacity2G
  · have hlt : 4194304 < blk.conf.capacity.toNat := UInt64.lt_iff_toNat_lt.mp hbig
    have hsize : (sizeValue blk.conf).toNat = 0xFFF := (sizeValue_toNat blk.conf).trans (if_pos hbig)
    rw [decode_cSize mmc h (by rw [hsize]; decide)]
    exact iff_of_true (iff_of_true hbig hsize) (by omega)
  · have hle := not_big_le hbig
    by_cases hunit : 2048 ≤ blk.conf.capacity.toNat
    · have hsize := sizeValue_toNat blk.conf
      rw [if_neg hbig] at hsize
      rw [decode_cSize mmc h (by omega)]
      exact iff_of_true (iff_of_false hbig (by omega)) hunit
    · refine iff_of_false ?_ hunit
      rw [decode_cSize_tiny mmc h (by omega)]
      exact fun hiff => hbig (hiff.mpr rfl)

theorem announced_le {mmc : Mmc} {blk : VirtMmc.Virtblk} (h : Accepted blk.conf)
    (hunit : 2048 ≤ blk.conf.capacity.toNat) (call : Call) :
    announced mmc blk call ≤ blk.conf.capacity.toNat := by
  rw [announced]
  split_ifs with hmode
  · rw [learnedSecCnt_eq]
    exact Nat.mod_le _ _
  · have hbig : ¬ blk.conf.capacity > capacity2G := mt (learnedBlockAddr_iff mmc blk call).mpr hmode
    have hfit : Fitting blk.conf := by
      rw [Fitting, if_neg hbig]
      exact hunit
    have hround : RoundTrips mmc blk.conf (csd mmc blk) := roundTrips h hfit
    have hcapacity := (hround.capacity hbig).1
    rw [learnedCsd_eq]
    rw [deviceBytes] at hcapacity
    omega

theorem blkRequest_startSector {mmc : Mmc} {cmd : MmcCmd} {blockAddr : Bool} {s : ℕ}
    (h : cmd.argument.toNat = if blockAddr then s else 512 * s) :
    (blkRequest mmc blockAddr cmd).startSector.toNat = s := by
  cases blockAddr with
  | true => simpa [blkRequest] using h
  | false =>
    have hshift : mmcSecShift.toNat % 64 = 9 := rfl
    simp only [Bool.false_eq_true, if_false] at h
    simp only [blkRequest, Bool.false_eq_true, if_false]
    rw [UInt64.toNat_shiftRight, hshift, UInt32.toNat_toUInt64, h, Nat.shiftRight_eq_div_pow]
    omega

theorem transferred {mmc : Mmc} {blk : VirtMmc.Virtblk} (h : Accepted blk.conf)
    (hunit : 2048 ≤ blk.conf.capacity.toNat) {learned call : Call} {s n : ℕ}
    (hcall : Conforming mmc blk learned call s n) {cmdCode : UInt32} (hcode : cmdCode ∈ transfers) :
    Transferred blk call (call.request mmc blk cmdCode) s n := by
  have hcommand : command cmdCode = .transfer := by
    simp only [transfers, List.mem_cons, List.not_mem_nil, or_false] at hcode
    obtain rfl | rfl | rfl | rfl := hcode
    all_goals rfl
  have hrequest : call.request mmc blk cmdCode =
      let cmd := { call.cmd with cmdCode, returnError := HdfStatus.success }
      let io := virtMmcIo mmc call.at_ call.c call.blockAddr blk cmd
      ⟨io.1, io.2.2.1, call.buffer, io.2.2.2, some io.2.1⟩ := by
    rw [Call.request, virtMmcDoRequest, hcommand]
  have hsector : (blkRequest mmc call.blockAddr
      { call.cmd with cmdCode, returnError := HdfStatus.success }).startSector.toNat = s :=
    blkRequest_startSector hcall.argument
  rw [hrequest]
  constructor
  · exact ⟨_, rfl, hsector⟩
  · exact hsector
  · have hlen : (call.cmd.data.blockNum * SyncRequest.mmcSecSize).toNat = 512 * n := by
      have hfits := hcall.fits
      rw [UInt32.toNat_mul, hcall.blockNum, show SyncRequest.mmcSecSize.toNat = 512 by rfl]
      omega
    exact hlen
  · exact hcall.within.trans (announced_le h hunit learned)
  · intro hstatus
    have hret : (virtblkIo call.at_ call.c blk (blkRequest mmc call.blockAddr
        { call.cmd with cmdCode, returnError := HdfStatus.success })).1 ≠ virtioBlkSOk := by
      by_cases hevent : call.c.event = 1
      · simpa [virtblkIo, SyncRequest.virtblk, hevent] using hstatus
      · simp [virtblkIo, SyncRequest.virtblk, hevent, SyncRequest.virtioBlkSIoerr, virtioBlkSOk]
    simp only [virtMmcIo, if_neg hret]
    decide

def someCall : Call where
  at_ := ⟨0, 0⟩
  c := ⟨1, ⟨0, 0⟩⟩
  blockAddr := false
  buffer := fun _ => 0
  cmd := ⟨0, 0, fun _ => 0, ⟨0, 0, 0, .success⟩, .success⟩

theorem unit_of_addresses {mmc : Mmc} {blk : VirtMmc.Virtblk} (h : Accepted blk.conf)
    (ha : Addresses mmc blk) : 2048 ≤ blk.conf.capacity.toNat :=
  (consistent_iff mmc h someCall).mp (ha.consistent someCall)

theorem addresses_iff (mmc : Mmc) {blk : VirtMmc.Virtblk} (h : Accepted blk.conf) :
    Addresses mmc blk ↔ 2048 ≤ blk.conf.capacity.toNat := by
  constructor
  · exact unit_of_addresses h
  · intro hunit
    constructor
    · exact fun call => (consistent_iff mmc h call).mpr hunit
    · exact fun learned call s n hcall cmdCode hcode => transferred h hunit hcall hcode

/-- A card of 8 GiB. -/
theorem addresses_iff_sectors :
    Addresses emmc (card 16777216) ↔ 2048 ≤ (card 16777216).conf.capacity.toNat :=
  addresses_iff emmc (card_accepted 16777216)

/-- A device of half a mebibyte counts bytes and has the C_SIZE of cards that count sectors. -/
theorem tiny_not_addressed : Accepted (card 1024).conf ∧ ¬ Addresses emmc (card 1024) := by
  refine ⟨card_accepted 1024, fun ha => ?_⟩
  have hunit := unit_of_addresses (card_accepted 1024) ha
  exact absurd hunit (by decide)

end VirtMmcAddressing
