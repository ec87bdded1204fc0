import DeviceQemu.CfiFlashArray

/-! What the range checks of the CFI flash driver let through.
They compare a 32-bit sum with the capacity, so a range that leaves the device is refused
unless the sum wraps, and the last valid offset of an erasure is taken one too far. -/
namespace CfiFlashBounds

open NorFlash ByteMemory CfiFlash CfiFlashArray

variable {b : Board} {pdrv base offset nbytes : UInt32}

def Ready (b : Board) (pdrv : UInt32) : Prop :=
  ∀ base, getCfiDrvPriv b pdrv = some base → Quiet (b.chips base)

def Confined (b b' : Board) : Prop :=
  ∀ base, (b'.chips base).mode = .fault → (b.chips base).mode = .fault

theorem Confined.refl (b : Board) : Confined b b := fun _ h => h

theorem Confined.setChip {p : Chip} (h : Quiet p) : Confined b (b.setChip base p) := by
  intro base' hfault
  by_cases hb : base' = base
  · subst hb
    rw [Board.chips_setChip, h.mode] at hfault
    cases hfault
  · have hchip : (b.setChip base p).chips base' = b.chips base' := Function.update_of_ne hb ..
    rwa [hchip] at hfault

def readAccesses : ℕ → UInt32 → List Access
  | 0, _ => []
  | n + 1, wordOffset => .read wordOffset.toNat :: readAccesses n (wordOffset + 1)

theorem readLoop_accesses (n : ℕ) (wordOffset : UInt32) (p : Chip) :
    (readLoop n wordOffset p).2 = (readAccesses n wordOffset).foldl (Chip.access geometry) p := by
  induction n generalizing wordOffset p with
  | zero => rfl
  | succ n ih =>
    simp only [readLoop, readAccesses, List.foldl_cons, ih]
    rfl

/-- What a confined read amounts to: it asks the chip for words inside only. -/
theorem Confined.inside (hbase : getCfiDrvPriv b pdrv = some base) (hq : Quiet (b.chips base))
    (hcheck : ¬ offset + nbytes > cfiflashCapacity)
    (h : Confined b (cfiFlashRead b pdrv offset nbytes).2.2) :
    ∀ x ∈ readAccesses (b2w nbytes).toNat (b2w offset), x.address < geometry.words := by
  apply @inside_of_accesses geometry (b.chips base)
  rw [← readLoop_accesses]
  intro hfault
  simp only [cfiFlashRead, if_neg hcheck, hbase] at h
  have hbefore := h base (by rw [Board.chips_setChip]; exact hfault)
  rw [hq.mode] at hbefore
  cases hbefore

def InRange (offset nbytes : UInt32) : Prop :=
  offset.toNat + nbytes.toNat ≤ cfiflashCapacity.toNat

instance : Decidable (InRange offset nbytes) := inferInstanceAs (Decidable (_ ≤ _))

/-- A read that succeeds stays on the device and hands over the bytes asked for. -/
def ReadRight (pdrv offset nbytes : UInt32) : Prop :=
  ∀ b, Ready b pdrv →
    Confined b (cfiFlashRead b pdrv offset nbytes).2.2 ∧
    ((cfiFlashRead b pdrv offset nbytes).1 = .ok →
      InRange offset nbytes ∧
      ∀ base, getCfiDrvPriv b pdrv = some base →
        toBytes (cfiFlashRead b pdrv offset nbytes).2.1 =
          ByteMemory.read (bytes (b.chips base).mem) offset.toNat nbytes.toNat)

/-- The same for a write of a buffer that holds the bytes asked for; flash is programmed. -/
def WriteRight (pdrv offset nbytes : UInt32) : Prop :=
  ∀ b buffer, Ready b pdrv → nbytes.toNat ≤ 4 * buffer.length →
    ∃ r b' n, (∀ fuel, n ≤ fuel → cfiFlashWrite fuel b pdrv buffer offset nbytes = some (r, b')) ∧
      Confined b b' ∧
      (r = .ok → InRange offset nbytes ∧
        ∀ base, getCfiDrvPriv b pdrv = some base →
          bytes (b'.chips base).mem = program (bytes (b.chips base).mem) offset.toNat
            ((toBytes buffer).take nbytes.toNat))

def EraseRight (pdrv offset : UInt32) : Prop :=
  ∀ b, Ready b pdrv →
    ∃ r b' n, (∀ fuel, n ≤ fuel → cfiFlashErase fuel b pdrv offset = some (r, b')) ∧
      Confined b b' ∧
      (r = .ok → offset.toNat < cfiflashCapacity.toNat ∧
        ∀ base, getCfiDrvPriv b pdrv = some base →
          bytes (b'.chips base).mem = eraseBytes (bytes (b.chips base).mem) offset)

def SectorsInRange (startSector nSectors : UInt32) : Prop :=
  startSector.toNat + nSectors.toNat ≤ cfiflashSectors

def SectorReadRight (startSector nSectors : UInt32) : Prop :=
  ∀ (b : Board) (pdrv : UInt8) (base : UInt32), getCfiDrvPriv b pdrv.toUInt32 = some base →
    Quiet (b.chips base) →
    ((disckRead b pdrv startSector nSectors).1 = .ok ↔ SectorsInRange startSector nSectors) ∧
    ((disckRead b pdrv startSector nSectors).1 = .ok →
      toBytes (disckRead b pdrv startSector nSectors).2.1 =
        ByteMemory.read (bytes (b.chips base).mem) (startSector.toNat * cfiflashSecSize)
          (nSectors.toNat * cfiflashSecSize))

def SectorWriteRight (startSector nSectors : UInt32) : Prop :=
  ∀ (b : Board) (pdrv : UInt8) (base : UInt32) (buffer : List UInt32),
    getCfiDrvPriv b pdrv.toUInt32 = some base → Quiet (b.chips base) →
    nSectors.toNat * cfiflashSecSize ≤ 4 * buffer.length →
    ∃ r b' n,
      (∀ fuel, n ≤ fuel → diskWrite fuel b pdrv buffer startSector nSectors = some (r, b')) ∧
      (r = .ok ↔ SectorsInRange startSector nSectors) ∧
      (r = .ok → bytes (b'.chips base).mem = program (bytes (b.chips base).mem)
        (startSector.toNat * cfiflashSecSize)
        ((toBytes buffer).take (nSectors.toNat * cfiflashSecSize)))

theorem toNat_capacity : cfiflashCapacity.toNat = 33554432 := by decide

theorem refused_iff :
    offset + nbytes > cfiflashCapacity ↔
      cfiflashCapacity.toNat < (offset.toNat + nbytes.toNat) % 2 ^ 32 := by
  rw [gt_iff_lt, UInt32.lt_iff_toNat_lt, UInt32.toNat_add]

theorem getCfiDrvPriv_none (h : cfiflashMaxNum ≤ pdrv.toNat) : getCfiDrvPriv b pdrv = none := by
  simp [getCfiDrvPriv, Nat.not_lt.mpr h]

theorem read_refused (h : offset + nbytes > cfiflashCapacity) :
    cfiFlashRead b pdrv offset nbytes = (.error, [], b) := if_pos h

theorem read_ok_iff (hbase : getCfiDrvPriv b pdrv = some base) :
    (cfiFlashRead b pdrv offset nbytes).1 = .ok ↔ ¬ offset + nbytes > cfiflashCapacity := by
  by_cases h : offset + nbytes > cfiflashCapacity
  · simp [cfiFlashRead, h]
  · simp [cfiFlashRead, h, hbase]

theorem write_refused {buffer : List UInt32} (fuel : ℕ) (h : offset + nbytes > cfiflashCapacity) :
    cfiFlashWrite fuel b pdrv buffer offset nbytes = some (.error, b) := if_pos h

theorem write_ok {fuel : ℕ} {buffer : List UInt32} {r : FlashDresult} {b' : Board}
    (hbase : getCfiDrvPriv b pdrv = some base) (h : ¬ offset + nbytes > cfiflashCapacity)
    (hrun : cfiFlashWrite fuel b pdrv buffer offset nbytes = some (r, b')) : r = .ok := by
  simp only [cfiFlashWrite, if_neg h, hbase, Option.map_eq_some_iff, Prod.mk.injEq] at hrun
  obtain ⟨p, -, hr, -⟩ := hrun
  exact hr.symm

theorem no_drive {fuel : ℕ} {buffer : List UInt32} (h : getCfiDrvPriv b pdrv = none) :
    cfiFlashRead b pdrv offset nbytes = (.error, [], b) ∧
    cfiFlashWrite fuel b pdrv buffer offset nbytes = some (.error, b) ∧
    cfiFlashErase fuel b pdrv offset = some (.error, b) := by
  simp [cfiFlashRead, cfiFlashWrite, cfiFlashErase, h]

theorem toBytes_take (ws : List UInt32) (k : ℕ) :
    toBytes (ws.take k) = (toBytes ws).take (4 * k) := by
  apply List.ext_getElem?
  intro i
  rw [getElem?_toBytes, List.getElem?_take, List.getElem?_take, getElem?_toBytes]
  by_cases hi : i / 4 < k
  · rw [if_pos hi, if_pos (by omega)]
  · rw [if_neg hi, if_neg (by omega)]
    rfl

theorem toBytes_words (m : ℕ → UInt32) (o n : ℕ) :
    toBytes ((List.range n).map fun k => m (o + k)) = ByteMemory.read (bytes m) (4 * o) (4 * n) := by
  apply List.ext_getElem?
  intro i
  rw [getElem?_toBytes]
  by_cases hi : i < 4 * n
  · have hdiv : (4 * o + i) / 4 = o + i / 4 := by omega
    have hlt : i / 4 < n := by omega
    simp [ByteMemory.read, bytes, hi, hdiv, hlt]
  · have hlt : ¬ i / 4 < n := by omega
    simp [ByteMemory.read, hi, hlt]

theorem read_bytes (hbase : getCfiDrvPriv b pdrv = some base) (hq : Quiet (b.chips base))
    (hrange : InRange offset nbytes) :
    (cfiFlashRead b pdrv offset nbytes).1 = .ok ∧
    toBytes (cfiFlashRead b pdrv offset nbytes).2.1 = ByteMemory.read (bytes (b.chips base).mem)
      (4 * (offset.toNat / 4)) (4 * (nbytes.toNat / 4)) ∧
    (cfiFlashRead b pdrv offset nbytes).2.2 = b := by
  rw [read_spec hbase hq hrange]
  exact ⟨rfl, toBytes_words _ _ _, rfl⟩

theorem write_bytes {buffer : List UInt32} (hbase : getCfiDrvPriv b pdrv = some base)
    (hq : Quiet (b.chips base)) (hlen : nbytes.toNat ≤ 4 * buffer.length)
    (hrange : InRange offset nbytes) :
    ∃ p n, Quiet p ∧
      bytes p.mem = program (bytes (b.chips base).mem) (4 * (offset.toNat / 4))
        ((toBytes buffer).take (4 * (nbytes.toNat / 4))) ∧
      ∀ fuel, n ≤ fuel →
        cfiFlashWrite fuel b pdrv buffer offset nbytes = some (.ok, b.setChip base p) := by
  have htake : nbytes.toNat / 4 = (buffer.take (nbytes.toNat / 4)).length := by
    rw [List.length_take]
    omega
  obtain ⟨p, n, hprog, hquiet, hrun⟩ :=
    write_spec (buffer.drop (nbytes.toNat / 4)) hbase hq htake hrange
  rw [List.take_append_drop] at hrun
  refine ⟨p, n, hquiet, ?_, hrun⟩
  rw [hprog.mem, ← toBytes_take]
  refine (congrArg bytes (funext fun a => ?_)).trans (bytes_program _ _ _)
  exact programWords_addressed _ _ _ a

/-- Both drives have a chip, and every word of it is `w`. -/
def uniform (w : UInt32) : Board where
  cfiDrvBase := fun _ => 0x22000000
  chips := fun _ =>
    { mem := fun _ => w
      mode := .readArray
      busy := 0
      delays := fun _ => 0
      started := 0
      programs := [] }

def counting : UInt32 := 0x03020100

theorem ready_uniform (w : UInt32) : Ready (uniform w) pdrv := fun _ _ => ⟨rfl, rfl⟩

theorem drive_uniform (w : UInt32) (h : pdrv.toNat < cfiflashMaxNum) :
    getCfiDrvPriv (uniform w) pdrv = some 0x22000000 := by
  simp only [getCfiDrvPriv, uniform, if_pos h]
  rfl

theorem byteOf_counting {i : ℕ} (hi : i < 4) : byteOf counting i = UInt8.ofNat i := by
  obtain rfl | rfl | rfl | rfl : i = 0 ∨ i = 1 ∨ i = 2 ∨ i = 3 := by omega
  all_goals decide

theorem byteOf_erased {i : ℕ} (hi : i < 4) : byteOf erased i = 0xFF := by
  obtain rfl | rfl | rfl | rfl : i = 0 ∨ i = 1 ∨ i = 2 ∨ i = 3 := by omega
  all_goals decide

theorem byte_inj {i j : ℕ} (hi : i < 4) (hj : j < 4) (h : UInt8.ofNat i = UInt8.ofNat j) :
    i = j := by
  have := congrArg UInt8.toNat h
  rw [UInt8.toNat_ofNat', UInt8.toNat_ofNat'] at this
  omega

theorem byte_ne_erased {i : ℕ} (hi : i < 4) : UInt8.ofNat i ≠ 0xFF := by
  obtain rfl | rfl | rfl | rfl : i = 0 ∨ i = 1 ∨ i = 2 ∨ i = 3 := by omega
  all_goals decide

theorem program_nil (m : ℕ → UInt8) (o : ℕ) : program m o [] = m := by
  funext k
  simp [program]

theorem program_counting {len n : ℕ} (hn : n ≤ 4 * len) (o k : ℕ) :
    program (bytes ((uniform erased).chips 0x22000000).mem) o
        ((toBytes (List.replicate len counting)).take n) k =
      if o ≤ k ∧ k < o + n then UInt8.ofNat ((k - o) % 4) else 0xFF := by
  have hold : bytes ((uniform erased).chips 0x22000000).mem k = 0xFF :=
    byteOf_erased (Nat.mod_lt _ (by omega))
  have hlen : ((toBytes (List.replicate len counting)).take n).length = n := by
    rw [List.length_take, length_toBytes, List.length_replicate]
    omega
  rw [program, hold, hlen]
  by_cases hk : o ≤ k ∧ k < o + n
  · rw [if_pos hk, if_pos hk, List.getD_eq_getElem?_getD, List.getElem?_take, if_pos (by omega),
      getElem?_toBytes, List.getElem?_replicate, if_pos (by omega)]
    simp only [Option.map_some, Option.getD_some]
    rw [byteOf_counting (Nat.mod_lt _ (by omega))]
    exact UInt8.neg_one_and
  · rw [if_neg hk, if_neg hk]

/-- Whole words are asked for inside the device, or the check sees that the range leaves it. -/
def Checked (offset nbytes : UInt32) : Prop :=
  if InRange offset nbytes then nbytes.toNat = 0 ∨ (4 ∣ offset.toNat ∧ 4 ∣ nbytes.toNat)
  else cfiflashCapacity.toNat < (offset.toNat + nbytes.toNat) % 2 ^ 32

theorem readRight_of_checked (h : Checked offset nbytes) : ReadRight pdrv offset nbytes := by
  intro b hready
  cases hbase : getCfiDrvPriv b pdrv with
  | none =>
    rw [(@no_drive b pdrv offset nbytes 0 [] hbase).1]
    exact ⟨Confined.refl b, by simp⟩
  | some base =>
    by_cases hrange : InRange offset nbytes
    · obtain ⟨hok, hbytes, hboard⟩ := read_bytes hbase (hready base hbase) hrange
      rw [hboard, hbytes]
      refine ⟨Confined.refl b, fun _ => ⟨hrange, ?_⟩⟩
      intro base' hbase'
      obtain rfl := Option.some.inj hbase'
      rw [Checked, if_pos hrange] at h
      rcases h with hzero | ⟨ho, hn⟩
      · simp [hzero, ByteMemory.read]
      · rw [Nat.mul_div_cancel' ho, Nat.mul_div_cancel' hn]
    · rw [Checked, if_neg hrange] at h
      rw [read_refused (refused_iff.mpr h)]
      exact ⟨Confined.refl b, by simp⟩

theorem checked_of_readRight (hdrive : pdrv.toNat < cfiflashMaxNum)
    (h : ReadRight pdrv offset nbytes) : Checked offset nbytes := by
  have hbase := drive_uniform counting hdrive
  obtain ⟨-, h⟩ := h (uniform counting) (ready_uniform counting)
  by_cases hrange : InRange offset nbytes
  · rw [Checked, if_pos hrange]
    obtain ⟨hok, hbytes, -⟩ := read_bytes hbase ⟨rfl, rfl⟩ hrange
    have heq := ((h hok).2 _ hbase).symm
    rw [hbytes] at heq
    by_cases hzero : nbytes.toNat = 0
    · exact .inl hzero
    · right
      have hlen := congrArg List.length heq
      simp only [ByteMemory.read, List.length_map, List.length_range] at hlen
      have hn : 4 ∣ nbytes.toNat := by omega
      have hfirst := congrArg (fun l : List UInt8 => l[0]?) heq
      simp only [ByteMemory.read, List.getElem?_map] at hfirst
      rw [List.getElem?_range (by omega), List.getElem?_range (by omega)] at hfirst
      have hbyte : byteOf counting (offset.toNat % 4) =
          byteOf counting (4 * (offset.toNat / 4) % 4) := Option.some.inj hfirst
      have hmod : 4 * (offset.toNat / 4) % 4 = 0 := by omega
      rw [hmod, byteOf_counting (by omega), byteOf_counting (by omega)] at hbyte
      have := byte_inj (by omega) (by omega) hbyte
      exact ⟨by omega, hn⟩
  · rw [Checked, if_neg hrange]
    by_contra hwrap
    exact hrange (h ((read_ok_iff hbase).mpr (mt refused_iff.mp hwrap))).1

theorem writeRight_of_checked (h : Checked offset nbytes) : WriteRight pdrv offset nbytes := by
  intro b buffer hready hlen
  cases hbase : getCfiDrvPriv b pdrv with
  | none =>
    refine ⟨.error, b, 0, ?_, Confined.refl b, by simp⟩
    intro fuel _
    exact (no_drive hbase).2.1
  | some base =>
    by_cases hrange : InRange offset nbytes
    · obtain ⟨p, n, hquiet, hmem, hrun⟩ := write_bytes hbase (hready base hbase) hlen hrange
      refine ⟨.ok, b.setChip base p, n, hrun, Confined.setChip hquiet, fun _ => ⟨hrange, ?_⟩⟩
      intro base' hbase'
      obtain rfl := Option.some.inj hbase'
      rw [Board.chips_setChip, hmem]
      rw [Checked, if_pos hrange] at h
      rcases h with hzero | ⟨ho, hn⟩
      · rw [hzero, List.take_zero, program_nil, program_nil]
      · rw [Nat.mul_div_cancel' ho, Nat.mul_div_cancel' hn]
    · rw [Checked, if_neg hrange] at h
      refine ⟨.error, b, 0, ?_, Confined.refl b, by simp⟩
      intro fuel _
      exact write_refused fuel (refused_iff.mpr h)

/-- Looking at the last byte is enough: it must be there, and it must be the right one. -/
theorem checked_of_writeRight (hdrive : pdrv.toNat < cfiflashMaxNum)
    (h : WriteRight pdrv offset nbytes) : Checked offset nbytes := by
  have hbase := drive_uniform erased hdrive
  obtain ⟨r, b', n, hrun, -, hok⟩ := h (uniform erased) (List.replicate (nbytes.toNat + 1) counting)
    (ready_uniform erased) (by rw [List.length_replicate]; omega)
  by_cases hrange : InRange offset nbytes
  · rw [Checked, if_pos hrange]
    obtain ⟨p, m, -, hmem, hrun'⟩ := @write_bytes (uniform erased) pdrv _ offset nbytes
      (List.replicate (nbytes.toNat + 1) counting) hbase ⟨rfl, rfl⟩
      (by rw [List.length_replicate]; omega) hrange
    have hsame := (hrun (max n m) (by omega)).symm.trans (hrun' (max n m) (by omega))
    obtain ⟨rfl, rfl⟩ := Prod.mk.inj (Option.some.inj hsame)
    have heq := (hok rfl).2 _ hbase
    rw [Board.chips_setChip, hmem] at heq
    by_cases hzero : nbytes.toNat = 0
    · exact .inl hzero
    · right
      have hlast := congrFun heq (offset.toNat + nbytes.toNat - 1)
      rw [program_counting (by omega), program_counting (by omega)] at hlast
      by_cases hin : 4 * (offset.toNat / 4) ≤ offset.toNat + nbytes.toNat - 1 ∧
          offset.toNat + nbytes.toNat - 1 <
            4 * (offset.toNat / 4) + 4 * (nbytes.toNat / 4)
      · rw [if_pos hin, if_pos (by omega)] at hlast
        have := byte_inj (Nat.mod_lt _ (by omega)) (Nat.mod_lt _ (by omega)) hlast
        constructor
        · omega
        · omega
      · rw [if_neg hin, if_pos (by omega)] at hlast
        exact absurd hlast.symm (byte_ne_erased (Nat.mod_lt _ (by omega)))
  · rw [Checked, if_neg hrange]
    by_contra hwrap
    have hr := write_ok hbase (mt refused_iff.mp hwrap) (hrun n le_rfl)
    exact hrange (hok hr).1

theorem waitReady_fault {p : Chip} (h : p.mode = .fault) (blkAddr : UInt32) (fuel : ℕ) :
    waitReady blkAddr fuel p = none := by
  induction fuel generalizing p with
  | zero => rfl
  | succ fuel ih =>
    have hstore : (store p blkAddr cfiflashCmdReadStatus).mode = .fault :=
      access_fault h (.write blkAddr.toNat cfiflashCmdReadStatus)
    have hload : (load (store p blkAddr cfiflashCmdReadStatus) blkAddr).2.mode = .fault :=
      access_fault hstore (.read blkAddr.toNat)
    have hzero : (load (store p blkAddr cfiflashCmdReadStatus) blkAddr).1 = 0 := by
      rw [load, read_fault hstore]
    simp only [waitReady, cfiFlashIsReady, hzero]
    exact ih hload

theorem erase_past_end (hbase : getCfiDrvPriv b pdrv = some base) (fuel : ℕ) :
    cfiFlashErase fuel b pdrv cfiflashCapacity = none := by
  have hout : geometry.words ≤
      (Access.write (cfiFlashEraseBlkWordAddr (b2w cfiflashCapacity)).toNat
        cfiflashCmdErase).address := by decide
  have hfault : (store (b.chips base) (cfiFlashEraseBlkWordAddr (b2w cfiflashCapacity))
      cfiflashCmdErase).mode = .fault := access_outside hout
  have hstay := @access_fault geometry _ hfault
    (.write (cfiFlashEraseBlkWordAddr (b2w cfiflashCapacity)).toNat cfiflashCmdConfirm)
  simp only [cfiFlashErase, hbase, gt_iff_lt, UInt32.lt_irrefl, if_false]
  exact congrArg (Option.map _) (waitReady_fault hstay _ fuel)

theorem eraseRight_of_ne (h : offset ≠ cfiflashCapacity) : EraseRight pdrv offset := by
  intro b hready
  cases hbase : getCfiDrvPriv b pdrv with
  | none =>
    refine ⟨.error, b, 0, ?_, Confined.refl b, by simp⟩
    intro fuel _
    exact (@no_drive b pdrv offset 0 fuel [] hbase).2.2
  | some base =>
    by_cases hin : offset.toNat < cfiflashCapacity.toNat
    · obtain ⟨n, hrun⟩ := erase_spec hbase (hready base hbase) hin
      refine ⟨.ok, _, n, hrun, Confined.setChip ⟨rfl, rfl⟩, fun _ => ⟨hin, ?_⟩⟩
      intro base' hbase'
      obtain rfl := Option.some.inj hbase'
      rw [Board.chips_setChip]
      exact bytes_foldl_eraseBlock [offset] (b.chips base).mem
    · have hne : offset.toNat ≠ cfiflashCapacity.toNat := mt UInt32.toNat_inj.mp h
      have hcheck : offset > cfiflashCapacity := by
        rw [gt_iff_lt, UInt32.lt_iff_toNat_lt]
        omega
      refine ⟨.error, b, 0, ?_, Confined.refl b, by simp⟩
      intro fuel _
      exact if_pos hcheck

/-- The block after the last one is accepted; the command goes outside the device. -/
theorem ne_of_eraseRight (hdrive : pdrv.toNat < cfiflashMaxNum) (h : EraseRight pdrv offset) :
    offset ≠ cfiflashCapacity := by
  rintro rfl
  obtain ⟨r, b', n, hrun, -⟩ := h (uniform erased) (ready_uniform erased)
  have hnone := erase_past_end (drive_uniform erased hdrive) n
  rw [hrun n le_rfl] at hnone
  cases hnone

variable {startSector nSectors : UInt32}

theorem toNat_sec2Bytes (sector : UInt32) :
    (cfiFlashSec2Bytes sector).toNat = sector.toNat * 512 % 2 ^ 32 := by
  have hbits : cfiflashSecSizeBits.toNat = 9 := by decide
  rw [cfiFlashSec2Bytes, UInt32.toNat_shiftLeft, hbits, Nat.shiftLeft_eq]

theorem sectors_refused_iff :
    cfiFlashSec2Bytes startSector + cfiFlashSec2Bytes nSectors > cfiflashCapacity ↔
      cfiflashSectors < (startSector.toNat + nSectors.toNat) % 2 ^ 23 := by
  have hsectors : cfiflashSectors = 65536 := by decide
  rw [refused_iff, toNat_sec2Bytes, toNat_sec2Bytes, toNat_capacity, hsectors]
  omega

theorem inRange_sectors (h : SectorsInRange startSector nSectors) :
    (cfiFlashSec2Bytes startSector).toNat = startSector.toNat * cfiflashSecSize ∧
    (cfiFlashSec2Bytes nSectors).toNat = nSectors.toNat * cfiflashSecSize ∧
    InRange (cfiFlashSec2Bytes startSector) (cfiFlashSec2Bytes nSectors) := by
  have hsectors : cfiflashSectors = 65536 := by decide
  have hsize : cfiflashSecSize = 512 := rfl
  rw [SectorsInRange, hsectors] at h
  rw [InRange, toNat_sec2Bytes, toNat_sec2Bytes, toNat_capacity, hsize]
  omega

/-- The range is inside the device, or the byte sum the check looks at says that it is not. -/
def SectorsChecked (startSector nSectors : UInt32) : Prop :=
  SectorsInRange startSector nSectors ∨
    cfiflashSectors < (startSector.toNat + nSectors.toNat) % 2 ^ 23

theorem mul_secSize_div (k : ℕ) : 4 * (k * cfiflashSecSize / 4) = k * cfiflashSecSize := by
  have hsize : cfiflashSecSize = 512 := rfl
  rw [hsize]
  omega

theorem sectorRead_iff :
    SectorReadRight startSector nSectors ↔ SectorsChecked startSector nSectors := by
  constructor
  · intro h
    by_contra hnot
    obtain ⟨hout, hwrap⟩ := not_or.mp hnot
    have hbase := drive_uniform counting (show (0 : UInt8).toUInt32.toNat < cfiflashMaxNum by decide)
    have hok := (read_ok_iff hbase).mpr (mt sectors_refused_iff.mp hwrap)
    exact hout ((h (uniform counting) 0 _ hbase ⟨rfl, rfl⟩).1.mp hok)
  · intro h b pdrv base hbase hq
    by_cases hin : SectorsInRange startSector nSectors
    · obtain ⟨ho, hn, hrange⟩ := inRange_sectors hin
      obtain ⟨hok, hbytes, -⟩ := read_bytes hbase hq hrange
      refine ⟨iff_of_true hok hin, fun _ => ?_⟩
      rw [disckRead, hbytes, ho, hn, mul_secSize_div, mul_secSize_div]
    · have hrefused := sectors_refused_iff.mpr (h.resolve_left hin)
      rw [disckRead, read_refused hrefused]
      exact ⟨iff_of_false (by simp) hin, by simp⟩

theorem sectorWrite_iff :
    SectorWriteRight startSector nSectors ↔ SectorsChecked startSector nSectors := by
  constructor
  · intro h
    by_contra hnot
    obtain ⟨hout, hwrap⟩ := not_or.mp hnot
    have hbase := drive_uniform counting (show (0 : UInt8).toUInt32.toNat < cfiflashMaxNum by decide)
    obtain ⟨r, b', n, hrun, hr, -⟩ := h (uniform counting) 0 _
      (List.replicate (nSectors.toNat * cfiflashSecSize) 0) hbase ⟨rfl, rfl⟩
      (by rw [List.length_replicate]; omega)
    exact hout (hr.mp (write_ok hbase (mt sectors_refused_iff.mp hwrap) (hrun n le_rfl)))
  · intro h b pdrv base buffer hbase hq hlen
    by_cases hin : SectorsInRange startSector nSectors
    · obtain ⟨ho, hn, hrange⟩ := inRange_sectors hin
      obtain ⟨p, n, -, hmem, hrun⟩ := write_bytes hbase hq (by rw [hn]; exact hlen) hrange
      refine ⟨.ok, b.setChip base p, n, hrun, iff_of_true rfl hin, fun _ => ?_⟩
      rw [Board.chips_setChip, hmem, ho, hn, mul_secSize_div, mul_secSize_div]
    · refine ⟨.error, b, 0, ?_, iff_of_false (by simp) hin, by simp⟩
      intro fuel _
      exact write_refused fuel (sectors_refused_iff.mpr (h.resolve_left hin))

theorem right_of_no_drive (h : cfiflashMaxNum ≤ pdrv.toNat) :
    ReadRight pdrv offset nbytes ∧ WriteRight pdrv offset nbytes ∧ EraseRight pdrv offset := by
  have hnone : ∀ b, getCfiDrvPriv b pdrv = none := fun _ => getCfiDrvPriv_none h
  refine ⟨?_, ?_, ?_⟩
  · intro b _
    rw [(@no_drive b pdrv offset nbytes 0 [] (hnone b)).1]
    exact ⟨Confined.refl b, by simp⟩
  · intro b buffer _ _
    exact ⟨.error, b, 0, fun fuel _ => (no_drive (hnone b)).2.1, Confined.refl b, by simp⟩
  · intro b _
    exact ⟨.error, b, 0, fun fuel _ => (@no_drive b pdrv offset 0 fuel [] (hnone b)).2.2,
      Confined.refl b, by simp⟩

/-- Which ranges each operation decides right and then transfers in full. -/
theorem bounds_exact_iff (pdrv offset nbytes startSector nSectors : UInt32) :
    (ReadRight pdrv offset nbytes ↔
      cfiflashMaxNum ≤ pdrv.toNat ∨ Checked offset nbytes) ∧
    (WriteRight pdrv offset nbytes ↔
      cfiflashMaxNum ≤ pdrv.toNat ∨ Checked offset nbytes) ∧
    (EraseRight pdrv offset ↔ cfiflashMaxNum ≤ pdrv.toNat ∨ offset ≠ cfiflashCapacity) ∧
    (SectorReadRight startSector nSectors ↔ SectorsChecked startSector nSectors) ∧
    (SectorWriteRight startSector nSectors ↔ SectorsChecked startSector nSectors) := by
  refine ⟨?_, ?_, ?_, sectorRead_iff, sectorWrite_iff⟩
  all_goals
    by_cases hdrive : cfiflashMaxNum ≤ pdrv.toNat
  · exact iff_of_true (right_of_no_drive hdrive).1 (.inl hdrive)
  · rw [or_iff_right hdrive]
    exact ⟨checked_of_readRight (Nat.lt_of_not_le hdrive), readRight_of_checked⟩
  · exact iff_of_true (right_of_no_drive hdrive).2.1 (.inl hdrive)
  · rw [or_iff_right hdrive]
    exact ⟨checked_of_writeRight (Nat.lt_of_not_le hdrive), writeRight_of_checked⟩
  · exact iff_of_true (@right_of_no_drive pdrv offset nbytes hdrive).2.2 (.inl hdrive)
  · rw [or_iff_right hdrive]
    exact ⟨ne_of_eraseRight (Nat.lt_of_not_le hdrive), eraseRight_of_ne⟩

/-- The sum of the last word's offset and 4 wraps to zero: the word is read and written far
outside the device. The same goes for the last of 2 ^ 23 sectors. -/
theorem top_word_accepted :
    (cfiFlashRead (uniform counting) 0 0xFFFFFFFC 4).1 = .ok ∧
    ((cfiFlashRead (uniform counting) 0 0xFFFFFFFC 4).2.2.chips 0x22000000).mode = .fault ∧
    ¬ ReadRight 0 0xFFFFFFFC 4 ∧ ¬ WriteRight 0 0xFFFFFFFC 4 ∧
    ¬ EraseRight 0 cfiflashCapacity ∧
    ¬ SectorReadRight 0x7FFFFF 1 ∧ ¬ SectorWriteRight 0x7FFFFF 1 := by
  have hdrive : (0 : UInt32).toNat < cfiflashMaxNum := by decide
  have hchecked : ¬ Checked 0xFFFFFFFC 4 := by
    unfold Checked
    decide
  have hsectors : ¬ SectorsChecked 0x7FFFFF 1 := by
    unfold SectorsChecked SectorsInRange
    decide
  refine ⟨by decide, by decide, ?_, ?_, ?_, ?_, ?_⟩
  · exact mt (checked_of_readRight hdrive) hchecked
  · exact mt (checked_of_writeRight hdrive) hchecked
  · intro h
    exact ne_of_eraseRight hdrive h rfl
  · exact mt sectorRead_iff.mp hsectors
  · exact mt sectorWrite_iff.mp hsectors

end CfiFlashBounds
