import DeviceQemu.ByteMemory
import DeviceQemu.CfiFlash

/-! The CFI flash driver refines a plain array of bytes.
The write loop keeps one invariant: the burst about to be sent is the smaller of what is left
of the page and what is left of the buffer. -/
namespace CfiFlashArray

open NorFlash ByteMemory CfiFlash

theorem toNat_pageWordOffset (wordOffset : UInt32) :
    (cfiFlashPageWordOffset wordOffset).toNat = wordOffset.toNat % 1024 := by
  have hmask : cfiflashPageWordsMask.toNat = 2 ^ 10 - 1 := by decide
  rw [cfiFlashPageWordOffset, UInt32.toNat_and, hmask, Nat.and_two_pow_sub_one_eq_mod]

theorem toNat_eraseBlkWordAddr (wordOffset : UInt32) :
    (cfiFlashEraseBlkWordAddr wordOffset).toNat = 65536 * (wordOffset.toNat / 65536) := by
  have hmask : cfiflashEraseblkWordmask.toNat = (2 ^ 16 - 1) <<< 16 := by decide
  have hshift : 65536 * (wordOffset.toNat / 65536) = (wordOffset.toNat >>> 16) <<< 16 := by
    rw [Nat.shiftLeft_eq, Nat.shiftRight_eq_div_pow, Nat.mul_comm]
  rw [cfiFlashEraseBlkWordAddr, UInt32.toNat_and, hmask, hshift]
  apply Nat.eq_of_testBit_eq
  intro i
  have hlt := wordOffset.toNat_lt
  simp only [Nat.testBit_and, Nat.testBit_shiftLeft, Nat.testBit_shiftRight,
    Nat.testBit_two_pow_sub_one]
  by_cases hlo : 16 ≤ i
  · by_cases hhi : i - 16 < 16
    · simp [hlo, hhi]
    · have hbit : wordOffset.toNat.testBit i = false :=
        Nat.testBit_lt_two_pow (Nat.lt_of_lt_of_le hlt (Nat.pow_le_pow_right (by omega) (by omega)))
      simp [hlo, hbit]
  · simp [hlo]

theorem toNat_b2w (bytes : UInt32) : (b2w bytes).toNat = bytes.toNat / 4 := by
  simp [b2w, UInt32.toNat_shiftRight, Nat.shiftRight_eq_div_pow]

theorem toNat_succ {a : UInt32} (h : a.toNat < 2 ^ 32 - 1) : (a + 1).toNat = a.toNat + 1 := by
  rw [UInt32.toNat_add]
  exact Nat.mod_eq_of_lt (by simp; omega)

variable {p : Chip} {wordOffset : UInt32}

theorem isReady_eq (hm : p.mode = .readStatus) (ha : wordOffset.toNat < geometry.words) :
    cfiFlashIsReady wordOffset p =
      (if p.busy = 0 then 0x80 else 0, { p with busy := p.busy - 1 }) := by
  have hstore : store p wordOffset cfiflashCmdReadStatus = p := write_readStatus hm ha
  rw [cfiFlashIsReady, hstore, load, read_readStatus hm ha]
  by_cases hb : p.busy = 0
  · simp only [hb, if_true]
    rfl
  · simp only [hb, if_false]
    rfl

theorem waitReady_eq (hm : p.mode = .readStatus) (ha : wordOffset.toNat < geometry.words)
    {fuel : ℕ} (hf : p.busy < fuel) :
    waitReady wordOffset fuel p = some { p with busy := 0 } := by
  induction fuel generalizing p with
  | zero => omega
  | succ fuel ih =>
    simp only [waitReady, isReady_eq hm ha]
    by_cases hb : p.busy = 0
    · simp [hb]
    · rw [if_neg hb, if_pos rfl]
      have := @ih { p with busy := p.busy - 1 } hm (by dsimp only; omega)
      exact this

theorem programData_append {ws : List UInt32} (rest : List UInt32)
    (h : wordOffset.toNat + ws.length < 2 ^ 32) :
    ∃ wordOffset', wordOffset'.toNat = wordOffset.toNat + ws.length ∧
      programData ws.length wordOffset (ws ++ rest) p =
        some (wordOffset', rest, p.writeFrom geometry wordOffset.toNat ws) := by
  induction ws generalizing wordOffset p with
  | nil => exact ⟨wordOffset, rfl, rfl⟩
  | cons w ws ih =>
    simp only [List.length_cons] at h
    have hsucc : (wordOffset + 1).toNat = wordOffset.toNat + 1 := toNat_succ (by omega)
    obtain ⟨wordOffset', hw, hp⟩ :=
      @ih (store p wordOffset w) (wordOffset + 1) (by rw [hsucc]; omega)
    refine ⟨wordOffset', ?_, ?_⟩
    · rw [hw, hsucc, List.length_cons]
      omega
    · rw [hsucc] at hp
      exact hp

structure BurstOk (ws : List (ℕ × UInt32)) : Prop where
  nonempty : 1 ≤ ws.length
  fits : ws.length ≤ cfiflashPageWords.toNat
  page : ∀ x ∈ ws, ∀ y ∈ ws, x.1 / cfiflashPageWords.toNat = y.1 / cfiflashPageWords.toNat
  block : ∀ x ∈ ws, ∀ y ∈ ws, x.1 / cfiflashEraseblkWords.toNat = y.1 / cfiflashEraseblkWords.toNat

theorem burstOk {o : ℕ} {ws : List UInt32} (hne : 1 ≤ ws.length) (hpage : o % 1024 + ws.length ≤ 1024) :
    BurstOk (addressed o ws) := by
  have hsame : ∀ x ∈ addressed o ws, x.1 / geometry.pageWords = o / geometry.pageWords := by
    intro x hx
    obtain ⟨h₁, h₂⟩ := mem_addressed hx
    exact div_eq_of_mod_add_le geometry.page_pos hpage h₁ h₂
  constructor
  · simpa using hne
  · rw [length_addressed, show cfiflashPageWords.toNat = 1024 by decide]
    omega
  · intro x hx y hy
    exact (hsame x hx).trans (hsame y hy).symm
  · intro x hx y hy
    exact block_eq_of_page_eq ((hsame x hx).trans (hsame y hy).symm)

/-- `p` has programmed the words of `buffer` from `o` on, burst by burst, and become `p'`. -/
structure Programmed (p p' : Chip) (o : ℕ) (buffer : List UInt32) : Prop where
  idle : p'.Idle
  mem : p'.mem = programWords p.mem (addressed o buffer)
  bursts : ∃ bs, p'.programs = p.programs ++ bs ∧ (∀ ws ∈ bs, BurstOk ws) ∧
    bs.flatten = addressed o buffer

theorem Programmed.trans {p p' p'' : Chip} {o : ℕ} {ws rest : List UInt32}
    (h : Programmed p p' o ws) (h' : Programmed p' p'' (o + ws.length) rest) :
    Programmed p p'' o (ws ++ rest) := by
  obtain ⟨bs, hbs, hok, hflat⟩ := h.bursts
  obtain ⟨bs', hbs', hok', hflat'⟩ := h'.bursts
  refine ⟨h'.idle, ?_, bs ++ bs', ?_, ?_, ?_⟩
  · rw [h'.mem, h.mem, addressed_append, programWords_append]
  · rw [hbs', hbs, List.append_assoc]
  · intro b hb
    rcases List.mem_append.mp hb with hb | hb
    · exact hok b hb
    · exact hok' b hb
  · rw [List.flatten_append, hflat, hflat', addressed_append]

/-- The chip once a buffered program of `ws` at `o` is over. -/
def programmed (p : Chip) (o : ℕ) (ws : List UInt32) : Chip :=
  { p.start (programWords p.mem (addressed o ws)) with
    busy := 0
    programs := p.programs ++ [addressed o ws] }

theorem programmed_spec {o : ℕ} {ws : List UInt32} (hne : 1 ≤ ws.length)
    (hpage : o % 1024 + ws.length ≤ 1024) : Programmed p (programmed p o ws) o ws := by
  refine ⟨⟨.inr rfl, rfl⟩, rfl, [addressed o ws], rfl, ?_, by simp⟩
  intro b hb
  obtain rfl := List.mem_singleton.mp hb
  exact burstOk hne hpage

theorem writeLoop_burst (hp : p.Idle) {ws rest : List UInt32} {words wordCount : UInt32}
    (hcount : wordCount.toNat = ws.length) (hne : 1 ≤ ws.length) (hwords : words ≠ 0)
    (hpage : wordOffset.toNat % 1024 + ws.length ≤ 1024)
    (hw : wordOffset.toNat + ws.length ≤ geometry.words) :
    ∃ wordOffset', wordOffset'.toNat = wordOffset.toNat + ws.length ∧
      ∀ poll fuel, p.delays p.started < poll →
        writeLoop poll (fuel + 1) wordOffset (ws ++ rest) words wordCount p =
          writeLoop poll fuel wordOffset' rest (words - wordCount)
            (if words - wordCount ≥ cfiflashPageWords then cfiflashPageWords
              else words - wordCount) (programmed p wordOffset.toNat ws) := by
  have hwords' : geometry.words = 8388608 := rfl
  have hblkAddr := toNat_eraseBlkWordAddr wordOffset
  have hb : (cfiFlashEraseBlkWordAddr wordOffset).toNat < geometry.words := by omega
  have hblk : (cfiFlashEraseBlkWordAddr wordOffset).toNat / geometry.blockWords =
      wordOffset.toNat / geometry.blockWords := by
    rw [hblkAddr]
    exact Nat.mul_div_cancel_left _ geometry.block_pos
  have hn : (wordCount - 1).toNat + 1 = ws.length := by
    have hle : (1 : UInt32) ≤ wordCount := by
      rw [UInt32.le_iff_toNat_le]
      simpa [hcount] using hne
    rw [UInt32.toNat_sub_of_le _ _ hle, hcount]
    simp only [UInt32.toNat_one]
    omega
  obtain ⟨wordOffset', hoff, hdata⟩ := @programData_append
    (store (store p (cfiFlashEraseBlkWordAddr wordOffset) cfiflashCmdBufwrite)
      (cfiFlashEraseBlkWordAddr wordOffset) (wordCount - 1)) wordOffset ws rest (by omega)
  refine ⟨wordOffset', hoff, ?_⟩
  intro poll fuel hpoll
  have hprogram := hp.program hn hb hblk hw hpage
  have hwait : waitReady (cfiFlashEraseBlkWordAddr wordOffset) poll
      { p.start (programWords p.mem (addressed wordOffset.toNat ws)) with
        programs := p.programs ++ [addressed wordOffset.toNat ws] } =
      some (programmed p wordOffset.toNat ws) := waitReady_eq rfl hb hpoll
  simp only [writeLoop, if_neg hwords]
  rw [hcount, hdata]
  have hdone := (congrArg (waitReady (cfiFlashEraseBlkWordAddr wordOffset) poll) hprogram).trans hwait
  exact congrArg (Option.bind · _) hdone

theorem toNat_nextCount (words : UInt32) :
    (if words ≥ cfiflashPageWords then cfiflashPageWords else words).toNat =
      min 1024 words.toNat := by
  have hpage : cfiflashPageWords.toNat = 1024 := by decide
  by_cases h : words ≥ cfiflashPageWords
  · rw [if_pos h, hpage]
    have := UInt32.le_iff_toNat_le.mp h
    omega
  · rw [if_neg h]
    have := mt UInt32.le_iff_toNat_le.mpr h
    omega

theorem toNat_firstCount (wordOffset words : UInt32) :
    (if cfiflashPageWords - cfiFlashPageWordOffset wordOffset > words then words
      else cfiflashPageWords - cfiFlashPageWordOffset wordOffset).toNat =
      min (1024 - wordOffset.toNat % 1024) words.toNat := by
  have hpage : cfiflashPageWords.toNat = 1024 := by decide
  have hoff := toNat_pageWordOffset wordOffset
  have hi : (cfiflashPageWords - cfiFlashPageWordOffset wordOffset).toNat =
      1024 - wordOffset.toNat % 1024 := by
    rw [UInt32.toNat_sub_of_le _ _ (by rw [UInt32.le_iff_toNat_le]; omega), hoff, hpage]
  by_cases h : cfiflashPageWords - cfiFlashPageWordOffset wordOffset > words
  · rw [if_pos h]
    have := UInt32.lt_iff_toNat_lt.mp h
    omega
  · rw [if_neg h]
    have := mt UInt32.lt_iff_toNat_lt.mpr h
    omega

/-- The invariant of the write loop gives its end: each round sends the longest burst that fits
its page, and the head is page-aligned from the second round on. What the caller's buffer holds
beyond the words asked for does not matter. -/
theorem writeLoop_spec {buffer : List UInt32} (rest : List UInt32) {words wordCount : UInt32}
    (hp : p.Idle)
    (hw : wordOffset.toNat + buffer.length ≤ geometry.words) (hwords : words.toNat = buffer.length)
    (hcount : wordCount.toNat = min (1024 - wordOffset.toNat % 1024) buffer.length) :
    ∃ p' n, Programmed p p' wordOffset.toNat buffer ∧
      ∀ poll fuel, n ≤ poll → n ≤ fuel →
        writeLoop poll fuel wordOffset (buffer ++ rest) words wordCount p = some p' := by
  induction hlen : buffer.length using Nat.strong_induction_on
    generalizing p wordOffset buffer words wordCount with
  | _ len ih =>
    subst hlen
    by_cases hzero : words = 0
    · subst hzero
      obtain rfl := List.length_eq_zero_iff.mp hwords.symm
      refine ⟨p, 1, ⟨hp, rfl, [], by simp, by simp, rfl⟩, ?_⟩
      intro poll fuel _ hfuel
      obtain ⟨fuel, rfl⟩ := Nat.exists_eq_add_of_le' hfuel
      rfl
    · have hpos : 0 < buffer.length := by
        by_contra hn
        exact hzero (UInt32.toNat_inj.mp (by simp only [UInt32.toNat_zero]; omega))
      have hsplit := List.take_append_drop wordCount.toNat buffer
      have htake : (buffer.take wordCount.toNat).length = wordCount.toNat := by
        rw [List.length_take]
        omega
      obtain ⟨wordOffset', hoff, hround⟩ := @writeLoop_burst p wordOffset hp
        (buffer.take wordCount.toNat) (buffer.drop wordCount.toNat ++ rest) words wordCount
        htake.symm (by omega) hzero (by omega) (by omega)
      rw [← List.append_assoc, hsplit] at hround
      have hleft : (words - wordCount).toNat = (buffer.drop wordCount.toNat).length := by
        rw [UInt32.toNat_sub_of_le _ _ (by rw [UInt32.le_iff_toNat_le]; omega), List.length_drop]
        omega
      have hnext : (if words - wordCount ≥ cfiflashPageWords then cfiflashPageWords
          else words - wordCount).toNat =
            min (1024 - wordOffset'.toNat % 1024) (buffer.drop wordCount.toNat).length := by
        rw [toNat_nextCount, hleft, hoff, htake, List.length_drop, hcount]
        omega
      have hdone := @programmed_spec p wordOffset.toNat
        (buffer.take wordCount.toNat) (by omega) (by omega)
      obtain ⟨p', n, hprog, hrun⟩ := ih _ (by rw [List.length_drop]; omega) hdone.idle
        (by rw [hoff, htake, List.length_drop]; omega) hleft hnext rfl
      refine ⟨p', max n (p.delays p.started) + 1, ?_, ?_⟩
      · rw [← hsplit]
        exact hdone.trans (hoff ▸ hprog)
      · intro poll fuel hpoll hfuel
        obtain ⟨fuel, rfl⟩ : ∃ k, fuel = k + 1 := ⟨fuel - 1, by omega⟩
        rw [hround poll fuel (by omega)]
        exact hrun poll fuel (by omega) (by omega)

/-- Between two calls of the driver: the chip answers reads with its contents. -/
structure Quiet (p : Chip) : Prop where
  mode : p.mode = .readArray
  busy : p.busy = 0

theorem Quiet.idle (h : Quiet p) : p.Idle := ⟨.inl h.mode, h.busy⟩

theorem store_clearStatus (h : p.Idle) :
    store p 0 cfiflashCmdClearStatus = { p with mode := .readArray } :=
  h.clearStatus (by decide)

theorem writeBuf_spec {buffer : List UInt32} (rest : List UInt32) {words : UInt32} (hp : p.Idle)
    (hw : wordOffset.toNat + buffer.length ≤ geometry.words)
    (hwords : words.toNat = buffer.length) :
    ∃ p' n, Programmed p p' wordOffset.toNat buffer ∧ Quiet p' ∧
      ∀ fuel, n ≤ fuel → cfiFlashWriteBuf fuel wordOffset (buffer ++ rest) words p = some p' := by
  obtain ⟨p', n, hprog, hrun⟩ := writeLoop_spec rest hp hw hwords
    (by rw [← hwords]; exact toNat_firstCount wordOffset words)
  refine ⟨store p' 0 cfiflashCmdClearStatus, n, ?_, ?_, ?_⟩
  · rw [store_clearStatus hprog.idle]
    exact ⟨⟨.inl rfl, hprog.idle.busy⟩, hprog.mem, hprog.bursts⟩
  · rw [store_clearStatus hprog.idle]
    exact ⟨rfl, hprog.idle.busy⟩
  · intro fuel hfuel
    simp only [cfiFlashWriteBuf]
    rw [hrun fuel fuel hfuel hfuel]
    rfl

theorem readLoop_spec (h : Quiet p) {n : ℕ} (hw : wordOffset.toNat + n ≤ geometry.words) :
    readLoop n wordOffset p = ((List.range n).map fun k => p.mem (wordOffset.toNat + k), p) := by
  have hwords' : geometry.words = 8388608 := rfl
  induction n generalizing wordOffset with
  | zero => rfl
  | succ n ih =>
    have hload : load p wordOffset = (p.mem wordOffset.toNat, p) :=
      read_readArray h.mode (by omega)
    have hsucc : (wordOffset + 1).toNat = wordOffset.toNat + 1 := toNat_succ (by omega)
    simp only [readLoop, hload]
    rw [ih (by omega), hsucc, List.range_succ_eq_map, List.map_cons, List.map_map]
    refine congrArg (fun ws => (_ :: ws, p)) (List.map_congr_left fun k _ => ?_)
    rw [Function.comp_apply, Nat.add_right_comm, Nat.add_assoc]

variable {b : Board} {pdrv base offset nbytes : UInt32}

def erasedChip (p : Chip) (block : ℕ) : Chip :=
  { p.start (eraseBlock geometry p.mem block) with mode := .readArray, busy := 0 }

theorem erase_spec (hbase : getCfiDrvPriv b pdrv = some base) (hq : Quiet (b.chips base))
    (hoff : offset.toNat < cfiflashCapacity.toNat) :
    ∃ n, ∀ fuel, n ≤ fuel → cfiFlashErase fuel b pdrv offset =
      some (.ok, b.setChip base
        (erasedChip (b.chips base) (offset.toNat / cfiflashEraseblkSize.toNat))) := by
  have hcap : cfiflashCapacity.toNat = 33554432 := by decide
  have hblksize : cfiflashEraseblkSize.toNat = 262144 := by decide
  have hwords' : geometry.words = 8388608 := rfl
  have hblkWords : geometry.blockWords = 65536 := rfl
  have hcheck : ¬ offset > cfiflashCapacity := by
    intro h
    have := UInt32.lt_iff_toNat_lt.mp h
    omega
  have haddr := toNat_eraseBlkWordAddr (b2w offset)
  rw [toNat_b2w] at haddr
  have hb : (cfiFlashEraseBlkWordAddr (b2w offset)).toNat < geometry.words := by omega
  have hblk : (cfiFlashEraseBlkWordAddr (b2w offset)).toNat / geometry.blockWords =
      offset.toNat / cfiflashEraseblkSize.toNat := by
    rw [haddr, hblkWords, hblksize]
    omega
  have herase := hq.idle.erase hb
  rw [hblk] at herase
  refine ⟨(b.chips base).delays (b.chips base).started + 1, ?_⟩
  intro fuel hfuel
  have hwait : waitReady (cfiFlashEraseBlkWordAddr (b2w offset)) fuel
      ((b.chips base).start (eraseBlock geometry (b.chips base).mem
        (offset.toNat / cfiflashEraseblkSize.toNat))) = some _ := waitReady_eq rfl hb hfuel
  simp only [cfiFlashErase, if_neg hcheck, hbase]
  have hdone := (congrArg (waitReady _ fuel) herase).trans hwait
  exact congrArg (Option.map _) hdone

theorem range_check (h : offset.toNat + nbytes.toNat ≤ cfiflashCapacity.toNat) :
    ¬ offset + nbytes > cfiflashCapacity := by
  intro hlt
  have hcap : cfiflashCapacity.toNat = 33554432 := by decide
  have := UInt32.lt_iff_toNat_lt.mp hlt
  rw [UInt32.toNat_add, Nat.mod_eq_of_lt (by omega)] at this
  omega

theorem setChip_self (b : Board) (base : UInt32) : b.setChip base (b.chips base) = b := by
  simp [Board.setChip]

theorem write_spec {buffer : List UInt32} (rest : List UInt32)
    (hbase : getCfiDrvPriv b pdrv = some base) (hq : Quiet (b.chips base))
    (hlen : nbytes.toNat / 4 = buffer.length)
    (hrange : offset.toNat + nbytes.toNat ≤ cfiflashCapacity.toNat) :
    ∃ p' n, Programmed (b.chips base) p' (offset.toNat / 4) buffer ∧ Quiet p' ∧
      ∀ fuel, n ≤ fuel →
        cfiFlashWrite fuel b pdrv (buffer ++ rest) offset nbytes = some (.ok, b.setChip base p') := by
  have hwords' : geometry.words = 8388608 := rfl
  have hcap : cfiflashCapacity.toNat = 33554432 := by decide
  have hb2w := toNat_b2w offset
  obtain ⟨p', n, hprog, hquiet, hrun⟩ :=
    @writeBuf_spec (b.chips base) (b2w offset) buffer rest (b2w nbytes) hq.idle
      (by rw [hb2w]; omega) (by rw [toNat_b2w, hlen])
  refine ⟨p', n, hb2w ▸ hprog, hquiet, ?_⟩
  intro fuel hfuel
  simp only [cfiFlashWrite, if_neg (range_check hrange), hbase]
  rw [hrun fuel hfuel]
  rfl

theorem read_spec (hbase : getCfiDrvPriv b pdrv = some base) (hq : Quiet (b.chips base))
    (hrange : offset.toNat + nbytes.toNat ≤ cfiflashCapacity.toNat) :
    cfiFlashRead b pdrv offset nbytes =
      (.ok, (List.range (nbytes.toNat / 4)).map
        (fun k => (b.chips base).mem (offset.toNat / 4 + k)), b) := by
  have hwords' : geometry.words = 8388608 := rfl
  have hcap : cfiflashCapacity.toNat = 33554432 := by decide
  simp only [cfiFlashRead, if_neg (range_check hrange), hbase]
  rw [readLoop_spec hq (by rw [toNat_b2w, toNat_b2w]; omega), toNat_b2w, toNat_b2w, setChip_self]

def blockOf (offset : UInt32) : ℕ := offset.toNat / cfiflashEraseblkSize.toNat

def eraseBytes (m : ℕ → UInt8) (offset : UInt32) : ℕ → UInt8 :=
  fill m (cfiflashEraseblkSize.toNat * blockOf offset) cfiflashEraseblkSize.toNat 0xFF

structure Erased (b b' : Board) (base : UInt32) (offsets : List UInt32) : Prop where
  drvBase : b'.cfiDrvBase = b.cfiDrvBase
  quiet : Quiet (b'.chips base)
  mem : (b'.chips base).mem =
    (offsets.map blockOf).foldl (eraseBlock geometry) (b.chips base).mem
  programs : (b'.chips base).programs = (b.chips base).programs
  others : ∀ base' ≠ base, b'.chips base' = b.chips base'

theorem eraseAll_spec {offsets : List UInt32} (hbase : getCfiDrvPriv b pdrv = some base)
    (hq : Quiet (b.chips base)) (hoffs : ∀ e ∈ offsets, e.toNat < cfiflashCapacity.toNat) :
    ∃ b' n, Erased b b' base offsets ∧ ∀ fuel, n ≤ fuel → eraseAll fuel pdrv offsets b = some b' := by
  induction offsets generalizing b with
  | nil => exact ⟨b, 0, ⟨rfl, hq, rfl, rfl, fun _ _ => rfl⟩, fun _ _ => rfl⟩
  | cons e offsets ih =>
    obtain ⟨n, hn⟩ := erase_spec hbase hq (hoffs e (by simp))
    have hchip : (b.setChip base (erasedChip (b.chips base) (blockOf e))).chips base =
        erasedChip (b.chips base) (blockOf e) := Function.update_self ..
    obtain ⟨b', n', herased, hrun⟩ :=
      @ih (b.setChip base (erasedChip (b.chips base) (blockOf e))) hbase
        (by rw [hchip]; exact ⟨rfl, rfl⟩) (fun x hx => hoffs x (List.mem_cons_of_mem _ hx))
    refine ⟨b', max n n', ⟨herased.drvBase, herased.quiet, ?_, ?_, ?_⟩, ?_⟩
    · rw [herased.mem, hchip]
      rfl
    · rw [herased.programs, hchip]
      rfl
    · intro base' hne
      rw [herased.others base' hne]
      exact Function.update_of_ne hne ..
    · intro fuel hfuel
      simp only [eraseAll]
      rw [hn fuel (by omega)]
      exact hrun fuel (by omega)

theorem foldl_eraseBlock_outside {blocks : List ℕ} {a : ℕ} (mem : ℕ → UInt32)
    (h : ∀ k ∈ blocks, a / geometry.blockWords ≠ k) :
    blocks.foldl (eraseBlock geometry) mem a = mem a := by
  induction blocks generalizing mem with
  | nil => rfl
  | cons k blocks ih =>
    rw [List.foldl_cons, ih _ fun x hx => h x (List.mem_cons_of_mem _ hx)]
    exact if_neg (h k (by simp))

theorem foldl_eraseBlock_erased {blocks : List ℕ} {a : ℕ} {mem : ℕ → UInt32}
    (h : mem a = erased ∨ a / geometry.blockWords ∈ blocks) :
    blocks.foldl (eraseBlock geometry) mem a = erased := by
  induction blocks generalizing mem with
  | nil =>
    rcases h with h | h
    · exact h
    · simp at h
  | cons k blocks ih =>
    rw [List.foldl_cons]
    apply ih
    by_cases hk : a / geometry.blockWords = k
    · exact .inl (if_pos hk)
    · rcases h with h | h
      · exact .inl ((if_neg hk).trans h)
      · exact .inr ((List.mem_cons.mp h).resolve_left hk)

theorem bytes_foldl_eraseBlock (offsets : List UInt32) (mem : ℕ → UInt32) :
    bytes ((offsets.map blockOf).foldl (eraseBlock geometry) mem) =
      offsets.foldl eraseBytes (bytes mem) := by
  induction offsets generalizing mem with
  | nil => rfl
  | cons e offsets ih =>
    rw [List.map_cons, List.foldl_cons, ih, List.foldl_cons]
    exact congrArg (offsets.foldl eraseBytes)
      (bytes_fill mem geometry.block_pos (blockOf e) (by decide))

theorem programmed_mem {p' : Chip} {o : ℕ} {buffer : List UInt32} (h : Programmed p p' o buffer)
    (herased : ∀ a, o ≤ a → a < o + buffer.length → p.mem a = erased) :
    p'.mem = fun a => if o ≤ a ∧ a < o + buffer.length then buffer.getD (a - o) 0 else p.mem a := by
  funext a
  rw [h.mem, programWords_addressed]
  by_cases ha : o ≤ a ∧ a < o + buffer.length
  · rw [if_pos ha, if_pos ha, herased a ha.1 ha.2]
    exact UInt32.neg_one_and
  · rw [if_neg ha, if_neg ha]

/-- The chip at `base` seen as an array of bytes before (`b`), after the erasures (`b₁`) and
after the write (`b₂`). -/
structure Refines (b b₁ b₂ : Board) (base offset nbytes : UInt32) (buffer erases : List UInt32) :
    Prop where
  erased : bytes (b₁.chips base).mem = erases.foldl eraseBytes (bytes (b.chips base).mem)
  written : bytes (b₂.chips base).mem =
    ByteMemory.write (bytes (b₁.chips base).mem) offset.toNat (toBytes buffer)
  readBack : ByteMemory.read (bytes (b₂.chips base).mem) offset.toNat nbytes.toNat = toBytes buffer
  outside : ∀ a, (∀ e ∈ erases, a / cfiflashEraseblkWords.toNat ≠ blockOf e) →
    (b₂.chips base).mem a = (b.chips base).mem a
  bursts : ∃ bs, (b₂.chips base).programs = (b.chips base).programs ++ bs ∧ ∀ ws ∈ bs, BurstOk ws
  quietErased : Quiet (b₁.chips base)
  quietWritten : Quiet (b₂.chips base)
  others : ∀ base' ≠ base, b₂.chips base' = b.chips base'

theorem erase_write_read {erases buffer : List UInt32}
    (hbase : getCfiDrvPriv b pdrv = some base) (hq : Quiet (b.chips base))
    (halign : 4 ∣ offset.toNat) (hlen : nbytes.toNat = 4 * buffer.length)
    (hrange : offset.toNat + nbytes.toNat ≤ cfiflashCapacity.toNat)
    (herases : ∀ e ∈ erases, e.toNat < cfiflashCapacity.toNat)
    (hcover : ∀ k, offset.toNat ≤ k → k < offset.toNat + nbytes.toNat →
      ∃ e ∈ erases, blockOf e = k / cfiflashEraseblkSize.toNat) :
    (∀ es₁ es₂, erases = es₁ ++ es₂ → ∃ b' n, Quiet (b'.chips base) ∧
      ∀ fuel, n ≤ fuel → eraseAll fuel pdrv es₁ b = some b') ∧
    ∃ b₁ b₂ n, Refines b b₁ b₂ base offset nbytes buffer erases ∧
      ∀ fuel, n ≤ fuel → eraseAll fuel pdrv erases b = some b₁ ∧
        cfiFlashWrite fuel b₁ pdrv buffer offset nbytes = some (.ok, b₂) ∧
        cfiFlashRead b₂ pdrv offset nbytes = (.ok, buffer, b₂) := by
  have hblkWords : geometry.blockWords = 65536 := rfl
  have hblksize : cfiflashEraseblkSize.toNat = 262144 := by decide
  constructor
  · rintro es₁ es₂ rfl
    obtain ⟨b', n, her, hrun⟩ := eraseAll_spec hbase hq fun e he =>
      herases e (List.mem_append_left _ he)
    exact ⟨b', n, her.quiet, hrun⟩
  obtain ⟨b₁, n₁, her, hrun₁⟩ := eraseAll_spec hbase hq herases
  have hbase₁ : getCfiDrvPriv b₁ pdrv = some base := by
    simpa only [getCfiDrvPriv, her.drvBase] using hbase
  obtain ⟨p', n₂, hprog, hquiet, hrun₂⟩ :=
    write_spec [] hbase₁ her.quiet (by omega : nbytes.toNat / 4 = buffer.length) hrange
  rw [List.append_nil] at hrun₂
  have hclean : ∀ a, offset.toNat / 4 ≤ a → a < offset.toNat / 4 + buffer.length →
      (b₁.chips base).mem a = erased := by
    intro a h₁ h₂
    obtain ⟨e, he, hblk⟩ := hcover (4 * a) (by omega) (by omega)
    rw [her.mem]
    refine foldl_eraseBlock_erased (.inr (List.mem_map.mpr ⟨e, he, ?_⟩))
    rw [hblk, hblksize, hblkWords]
    omega
  have hchip : (b₁.setChip base p').chips base = p' := Function.update_self ..
  have hquiet₂ : Quiet ((b₁.setChip base p').chips base) := by
    rw [hchip]
    exact hquiet
  have hmem := programmed_mem hprog hclean
  have hwritten : bytes p'.mem =
      ByteMemory.write (bytes (b₁.chips base).mem) offset.toNat (toBytes buffer) := by
    rw [hmem, bytes_store, Nat.mul_div_cancel' halign]
  obtain ⟨bs, hbs, hok, -⟩ := hprog.bursts
  refine ⟨b₁, b₁.setChip base p', max n₁ n₂, ?_, ?_⟩
  · constructor
    · rw [her.mem, bytes_foldl_eraseBlock]
    · rw [hchip, hwritten]
    · rw [hchip, hwritten, hlen, ← length_toBytes, read_write]
    · intro a ha
      have hnot : ¬ (offset.toNat / 4 ≤ a ∧ a < offset.toNat / 4 + buffer.length) := by
        rintro ⟨h₁, h₂⟩
        obtain ⟨e, he, hblk⟩ := hcover (4 * a) (by omega) (by omega)
        refine ha e he ?_
        rw [hblk, hblksize, show cfiflashEraseblkWords.toNat = 65536 by decide]
        omega
      have hkept : p'.mem a = (b₁.chips base).mem a := (congrFun hmem a).trans (if_neg hnot)
      rw [hchip, hkept, her.mem]
      refine foldl_eraseBlock_outside _ ?_
      intro k hk
      obtain ⟨e, he, rfl⟩ := List.mem_map.mp hk
      exact ha e he
    · exact ⟨bs, by rw [hchip, hbs, her.programs], hok⟩
    · exact her.quiet
    · exact hquiet₂
    · intro base' hne
      exact (Function.update_of_ne hne ..).trans (her.others base' hne)
  · intro fuel hfuel
    refine ⟨hrun₁ fuel (by omega), hrun₂ fuel (by omega), ?_⟩
    have hbase₂ : getCfiDrvPriv (b₁.setChip base p') pdrv = some base := hbase₁
    rw [read_spec hbase₂ hquiet₂ hrange, hchip, hmem, hlen]
    refine congrArg (fun ws => (FlashDresult.ok, ws, _)) (List.ext_getElem? fun k => ?_)
    rw [Nat.mul_div_cancel_left _ (by omega)]
    by_cases hk : k < buffer.length
    · simp [hk]
    · simp [hk]

/-- A full chip of other data, slow to finish each operation. -/
def usedBoard : Board where
  cfiDrvBase := fun _ => 0x22000000
  chips := fun _ =>
    { mem := fun a => UInt32.ofNat a
      mode := .readArray
      busy := 0
      delays := fun k => k + 3
      started := 0
      programs := [] }

/-- Three words on both sides of the border of two blocks. -/
theorem erase_write_read_border :
    (∀ es₁ es₂, [0, 262144] = es₁ ++ es₂ → ∃ b' n, Quiet (b'.chips 0x22000000) ∧
      ∀ fuel, n ≤ fuel → eraseAll fuel 0 es₁ usedBoard = some b') ∧
    ∃ b₁ b₂ n, Refines usedBoard b₁ b₂ 0x22000000 262136 12 [1, 2, 3] [0, 262144] ∧
      ∀ fuel, n ≤ fuel → eraseAll fuel 0 [0, 262144] usedBoard = some b₁ ∧
        cfiFlashWrite fuel b₁ 0 [1, 2, 3] 262136 12 = some (.ok, b₂) ∧
        cfiFlashRead b₂ 0 262136 12 = (.ok, [1, 2, 3], b₂) := by
  have h₁ : (262136 : UInt32).toNat = 262136 := by decide
  have h₂ : (12 : UInt32).toNat = 12 := by decide
  refine erase_write_read rfl ⟨rfl, rfl⟩ (by decide) rfl (by decide) ?_ ?_
  · intro e he
    rcases List.mem_pair.mp he with rfl | rfl
    · decide
    · decide
  · intro k hlo hhi
    rw [h₁] at hlo hhi
    rw [h₂] at hhi
    rw [show cfiflashEraseblkSize.toNat = 262144 by decide]
    by_cases hk : k < 262144
    · refine ⟨0, by decide, ?_⟩
      rw [show blockOf 0 = 0 by decide]
      omega
    · refine ⟨262144, by decide, ?_⟩
      rw [show blockOf 262144 = 1 by decide]
      omega

end CfiFlashArray
