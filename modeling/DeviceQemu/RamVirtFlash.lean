import DeviceQemu.ByteMemory

/-! RAM-backed flash of arm_mps2_an386.
The bounds functions of `securec` are parameters. Every access through a pointer is recorded,
so that staying inside a partition can be stated for reads as well. -/
namespace RamVirtFlash

structure Ram where
  bytes : ℕ → UInt8
  accessed : List (ℕ × ℕ)

def Ram.fill (ram : Ram) (dest n : ℕ) (c : UInt8) : Ram :=
  { bytes := ByteMemory.fill ram.bytes dest n c, accessed := (dest, n) :: ram.accessed }

def Ram.store (ram : Ram) (dest : ℕ) (data : List UInt8) : Ram :=
  { bytes := ByteMemory.write ram.bytes dest data, accessed := (dest, data.length) :: ram.accessed }

def Ram.load (ram : Ram) (src n : ℕ) : List UInt8 × Ram :=
  (ByteMemory.read ram.bytes src n, { ram with accessed := (src, n) :: ram.accessed })

/-- `memset_s`, and `memcpy_s` to the flash from a caller's buffer and back. -/
structure Securec where
  memMaxLen : ℕ
  memsetS : Ram → (dest destMax : ℕ) → UInt8 → (count : ℕ) → Ram
  memcpyTo : Ram → (dest destMax : ℕ) → List UInt8 → (count : ℕ) → Ram
  memcpyFrom : Ram → List UInt8 → (destMax src count : ℕ) → List UInt8 × Ram

/-- What they act on: a pointer that is not NULL, and a length in their range. -/
def Takes (limit addr n : ℕ) : Prop := addr ≠ 0 ∧ 0 < n ∧ n ≤ limit

instance (limit addr n : ℕ) : Decidable (Takes limit addr n) := by
  unfold Takes
  infer_instance

/-- Else they do nothing; only a copy from NULL clears its destination. -/
structure Securec.Documented (s : Securec) : Prop where
  memset : ∀ ram dest n c, Takes s.memMaxLen dest n → s.memsetS ram dest n c n = ram.fill dest n c
  memset_refused : ∀ ram dest n c, ¬ Takes s.memMaxLen dest n → s.memsetS ram dest n c n = ram
  memcpyTo : ∀ ram dest n buf, Takes s.memMaxLen dest n → n ≤ buf.length →
    s.memcpyTo ram dest n buf n = ram.store dest (buf.take n)
  memcpyTo_refused : ∀ ram dest n buf, ¬ Takes s.memMaxLen dest n →
    s.memcpyTo ram dest n buf n = ram
  memcpyFrom : ∀ ram buf src n, Takes s.memMaxLen src n → n ≤ buf.length →
    s.memcpyFrom ram buf n src n = ((ram.load src n).1 ++ buf.drop n, (ram.load src n).2)
  memcpyFrom_refused : ∀ ram buf src n, n = 0 ∨ s.memMaxLen < n →
    s.memcpyFrom ram buf n src n = (buf, ram)
  memcpyFrom_null : ∀ ram buf n, 0 < n → n ≤ s.memMaxLen → n ≤ buf.length →
    s.memcpyFrom ram buf n 0 n = (List.replicate n 0 ++ buf.drop n, ram)

inductive HalPartition where
  | flashPartitionData0
  | flashPartitionData1
  deriving DecidableEq

structure HalLogicPartition where
  partitionStartAddr : UInt32
  partitionLength : UInt32

def halPartitions : HalPartition → HalLogicPartition
  | .flashPartitionData0 => { partitionStartAddr := 0x21800000, partitionLength := 0x800000 }
  | .flashPartitionData1 => { partitionStartAddr := 0x21800000, partitionLength := 0x800000 }

def HalLogicPartition.partitionEnd (part : HalLogicPartition) : UInt32 :=
  part.partitionStartAddr + part.partitionLength

/-- The check all four operations begin with; `body` gets the trimmed size. -/
def withinPartition {β : Type} (part : HalLogicPartition) (startAddr size : UInt32) (refused : β)
    (body : UInt32 → β) : Int × β :=
  if startAddr ≥ part.partitionEnd then (-1, refused)
  else
    let size := if startAddr + size > part.partitionEnd then part.partitionEnd - startAddr else size
    (0, body size)

section Operations

variable (s : Securec) (partitions : HalPartition → HalLogicPartition) (pdrv : HalPartition)

def virtFlashErase (offSet size : UInt32) (ram : Ram) : Int × Ram :=
  withinPartition (partitions pdrv) offSet size ram fun size =>
    s.memsetS ram offSet.toNat size.toNat 0 size.toNat

def virtFlashWrite (offSet : UInt32) (buf : List UInt8) (bufLen : UInt32) (ram : Ram) : Int × Ram :=
  withinPartition (partitions pdrv) offSet bufLen ram fun bufLen =>
    s.memcpyTo ram offSet.toNat bufLen.toNat buf bufLen.toNat

def virtFlashEraseWrite (offSet : UInt32) (buf : List UInt8) (bufLen : UInt32) (ram : Ram) :
    Int × Ram :=
  withinPartition (partitions pdrv) offSet bufLen ram fun bufLen =>
    let ram := s.memsetS ram offSet.toNat bufLen.toNat 0 bufLen.toNat
    s.memcpyTo ram offSet.toNat bufLen.toNat buf bufLen.toNat

def virtFlashRead (offSet : UInt32) (buf : List UInt8) (bufLen : UInt32) (ram : Ram) :
    Int × List UInt8 × Ram :=
  withinPartition (partitions pdrv) offSet bufLen (buf, ram) fun bufLen =>
    s.memcpyFrom ram buf bufLen.toNat offSet.toNat bufLen.toNat

end Operations

variable {s : Securec} {partitions : HalPartition → HalLogicPartition} {pdrv : HalPartition}
  {part : HalLogicPartition} {startAddr size : UInt32}

def HalLogicPartition.Inside (part : HalLogicPartition) (a n : ℕ) : Prop :=
  part.partitionStartAddr.toNat ≤ a ∧
    a + n ≤ part.partitionStartAddr.toNat + part.partitionLength.toNat

def HalLogicPartition.NoWrap (part : HalLogicPartition) : Prop :=
  part.partitionStartAddr.toNat + part.partitionLength.toNat ≤ 2 ^ 32

/-- Whatever was read or written on the way from `ram` to `ram'` lies in the partition. -/
structure Confined (part : HalLogicPartition) (ram ram' : Ram) : Prop where
  accessed : ∀ r ∈ ram'.accessed, r ∈ ram.accessed ∨ part.Inside r.1 r.2
  kept : ∀ a, ¬ part.Inside a 1 → ram'.bytes a = ram.bytes a

def EraseRight (s : Securec) (partitions : HalPartition → HalLogicPartition) (pdrv : HalPartition)
    (offSet size : UInt32) : Prop :=
  ∀ ram, Confined (partitions pdrv) ram (virtFlashErase s partitions pdrv offSet size ram).2 ∧
    ((virtFlashErase s partitions pdrv offSet size ram).1 = 0 → ∀ k < size.toNat,
      (virtFlashErase s partitions pdrv offSet size ram).2.bytes (offSet.toNat + k) = 0)

def WriteRight (write : List UInt8 → Ram → Int × Ram) (part : HalLogicPartition)
    (offSet bufLen : UInt32) : Prop :=
  ∀ buf, bufLen.toNat ≤ buf.length → ∀ ram, Confined part ram (write buf ram).2 ∧
    ((write buf ram).1 = 0 → ∀ k < bufLen.toNat,
      (write buf ram).2.bytes (offSet.toNat + k) = buf.getD k 0)

def ReadRight (s : Securec) (partitions : HalPartition → HalLogicPartition) (pdrv : HalPartition)
    (offSet bufLen : UInt32) : Prop :=
  ∀ buf, bufLen.toNat ≤ buf.length → ∀ ram,
    Confined (partitions pdrv) ram (virtFlashRead s partitions pdrv offSet buf bufLen ram).2.2 ∧
    ((virtFlashRead s partitions pdrv offSet buf bufLen ram).1 = 0 → ∀ k < bufLen.toNat,
      (virtFlashRead s partitions pdrv offSet buf bufLen ram).2.1.getD k 0 =
        ram.bytes (offSet.toNat + k))

/-- The request is refused, or empty, or inside the partition and one that `securec` takes. -/
def Admitted (limit : ℕ) (part : HalLogicPartition) (startAddr size : UInt32) : Prop :=
  part.partitionEnd ≤ startAddr ∨ size.toNat = 0 ∨
    (part.Inside startAddr.toNat size.toNat ∧ Takes limit startAddr.toNat size.toNat)

theorem withinPartition_refused {β : Type} {refused : β} {body : UInt32 → β}
    (h : part.partitionEnd ≤ startAddr) :
    withinPartition part startAddr size refused body = (-1, refused) := if_pos h

theorem withinPartition_accepted (h : ¬ part.partitionEnd ≤ startAddr) :
    ∃ n : UInt32, (∀ (β : Type) (refused : β) (body : UInt32 → β),
        withinPartition part startAddr size refused body = (0, body n)) ∧
      n.toNat ≤ size.toNat ∧ (size.toNat = 0 → n.toNat = 0) ∧
      (part.NoWrap → part.Inside startAddr.toNat size.toNat → n = size) := by
  have hlt : startAddr.toNat < part.partitionEnd.toNat := by
    rw [UInt32.le_iff_toNat_le] at h
    omega
  have hsum : (startAddr + size).toNat = (startAddr.toNat + size.toNat) % 2 ^ 32 :=
    UInt32.toNat_add ..
  have hend : part.partitionEnd.toNat =
      (part.partitionStartAddr.toNat + part.partitionLength.toNat) % 2 ^ 32 := UInt32.toNat_add ..
  have hsize := size.toNat_lt
  have hlast := part.partitionEnd.toNat_lt
  by_cases htrim : startAddr + size > part.partitionEnd
  · have hover := UInt32.lt_iff_toNat_lt.mp htrim
    have hrest : (part.partitionEnd - startAddr).toNat =
        part.partitionEnd.toNat - startAddr.toNat :=
      UInt32.toNat_sub_of_le _ _ (UInt32.le_iff_toNat_le.mpr (Nat.le_of_lt hlt))
    refine ⟨part.partitionEnd - startAddr, ?_, ?_, ?_, ?_⟩
    · intro β refused body
      simp only [withinPartition, ge_iff_le, if_neg h, if_pos htrim]
    · rw [hrest]
      omega
    · intro hzero
      rw [hsum, hzero] at hover
      omega
    · intro hwrap hin
      unfold HalLogicPartition.NoWrap at hwrap
      unfold HalLogicPartition.Inside at hin
      omega
  · refine ⟨size, ?_, Nat.le_refl _, id, fun _ _ => rfl⟩
    intro β refused body
    simp only [withinPartition, ge_iff_le, if_neg h, if_neg htrim]

/-- An operation of which `body` does the part that is left after the check: all of it where
`securec` takes it. `done ram x k` says that byte `k` of the request is done in the outcome `x`; some
memory tells whether it is. -/
structure Transfers {β : Type} (limit : ℕ) (startAddr size : UInt32) (ramOf : β → Ram)
    (refused : Ram → β) (body : Ram → UInt32 → β) (done : Ram → β → ℕ → Prop) : Prop where
  ram_refused : ∀ ram, ramOf (refused ram) = ram
  skipped : ∀ ram n, n.toNat = 0 → body ram n = refused ram
  accessed : ∀ ram n, Takes limit startAddr.toNat n.toNat → n.toNat ≤ size.toNat →
    ∀ r, r ∈ (ramOf (body ram n)).accessed ↔ r ∈ ram.accessed ∨ r = (startAddr.toNat, n.toNat)
  kept : ∀ ram n, Takes limit startAddr.toNat n.toNat → n.toNat ≤ size.toNat →
    ∀ a, ¬ (startAddr.toNat ≤ a ∧ a < startAddr.toNat + n.toNat) →
      (ramOf (body ram n)).bytes a = ram.bytes a
  complete : ∀ ram n, Takes limit startAddr.toNat n.toNat → n.toNat ≤ size.toNat →
    ∀ k < n.toNat, done ram (body ram n) k
  incomplete : ∃ ram, ram.accessed = [] ∧ ∀ n k, n.toNat ≤ size.toNat → k < size.toNat →
    (n.toNat ≤ k ∨ ¬ Takes limit startAddr.toNat n.toNat) → ¬ done ram (body ram n) k

section Transfers

variable {β : Type} {limit : ℕ} {ramOf : β → Ram} {refused : Ram → β} {body : Ram → UInt32 → β}
  {done : Ram → β → ℕ → Prop}

theorem Confined.refl (part : HalLogicPartition) (ram : Ram) : Confined part ram ram :=
  ⟨fun _ h => .inl h, fun _ _ => rfl⟩

theorem Transfers.confined (h : Transfers limit startAddr size ramOf refused body done) {ram : Ram}
    (hin : part.Inside startAddr.toNat size.toNat)
    (htakes : Takes limit startAddr.toNat size.toNat) :
    Confined part ram (ramOf (body ram size)) := by
  constructor
  · intro r hr
    rcases (h.accessed ram size htakes (Nat.le_refl _) r).mp hr with hr | rfl
    · exact .inl hr
    · exact .inr hin
  · intro a ha
    apply h.kept ram size htakes (Nat.le_refl _)
    intro hrange
    apply ha
    unfold HalLogicPartition.Inside at hin ⊢
    omega

/-- If all of the request gets done and the accesses stay inside, nothing was trimmed. -/
theorem Transfers.inside (h : Transfers limit startAddr size ramOf refused body done) {n : UInt32}
    (hn : n.toNat ≤ size.toNat) (hpos : 0 < size.toNat)
    (hconf : ∀ ram, Confined part ram (ramOf (body ram n)))
    (hdone : ∀ ram, ∀ k < size.toNat, done ram (body ram n) k) :
    part.Inside startAddr.toNat size.toNat ∧ Takes limit startAddr.toNat size.toNat := by
  obtain ⟨ram, hempty, hundone⟩ := h.incomplete
  have htakes : Takes limit startAddr.toNat n.toNat := by
    by_contra hnot
    exact hundone n 0 hn hpos (.inr hnot) (hdone ram 0 hpos)
  have hsame : n.toNat = size.toNat := by
    by_contra hne
    have hlt : n.toNat < size.toNat := by omega
    exact hundone n n.toNat hn hlt (.inl (Nat.le_refl _)) (hdone ram n.toNat hlt)
  have hacc := (hconf ram).accessed (startAddr.toNat, n.toNat)
    ((h.accessed ram n htakes hn _).mpr (.inr rfl))
  rw [hempty] at hacc
  rw [← hsame]
  exact ⟨hacc.resolve_left (by simp), htakes⟩

theorem Transfers.right_iff (h : Transfers limit startAddr size ramOf refused body done)
    (hwrap : part.NoWrap) :
    (∀ ram,
      Confined part ram
        (ramOf (withinPartition part startAddr size (refused ram) (body ram)).2) ∧
      ((withinPartition part startAddr size (refused ram) (body ram)).1 = 0 →
        ∀ k < size.toNat,
          done ram (withinPartition part startAddr size (refused ram) (body ram)).2 k)) ↔
      Admitted limit part startAddr size := by
  by_cases hend : part.partitionEnd ≤ startAddr
  · refine iff_of_true ?_ (.inl hend)
    intro ram
    rw [withinPartition_refused hend, h.ram_refused]
    exact ⟨Confined.refl part ram, by simp⟩
  · obtain ⟨n, hrun, hn, hnil, hwhole⟩ := @withinPartition_accepted part startAddr size hend
    simp only [hrun]
    constructor
    · intro hright
      by_cases hzero : size.toNat = 0
      · exact .inr (.inl hzero)
      · exact .inr (.inr (h.inside hn (Nat.pos_of_ne_zero hzero) (fun ram => (hright ram).1)
          fun ram => (hright ram).2 trivial))
    · intro hadm ram
      rcases hadm.resolve_left hend with hzero | ⟨hin, htakes⟩
      · rw [h.skipped ram n (hnil hzero), h.ram_refused]
        exact ⟨Confined.refl part ram, fun _ k hk => by omega⟩
      · obtain rfl := hwhole hwrap hin
        exact ⟨h.confined hin htakes, fun _ k hk => h.complete ram n htakes (Nat.le_refl _) k hk⟩

end Transfers

theorem fill_kept (ram : Ram) {dest n a : ℕ} (c : UInt8) (h : ¬ (dest ≤ a ∧ a < dest + n)) :
    (ram.fill dest n c).bytes a = ram.bytes a := if_neg h

theorem store_kept (ram : Ram) {dest a : ℕ} {data : List UInt8}
    (h : ¬ (dest ≤ a ∧ a < dest + data.length)) : (ram.store dest data).bytes a = ram.bytes a := by
  simp only [Ram.store, ByteMemory.write]
  by_cases hlo : dest ≤ a
  · rw [if_pos hlo, List.getElem?_eq_none (by omega)]
    rfl
  · rw [if_neg hlo]

theorem store_stored (ram : Ram) {dest k : ℕ} {data : List UInt8} (h : k < data.length) :
    (ram.store dest data).bytes (dest + k) = data.getD k 0 := by
  simp only [Ram.store, ByteMemory.write]
  rw [if_pos (by omega), Nat.add_sub_cancel_left, List.getD_eq_getElem?_getD,
    List.getElem?_eq_getElem h]
  rfl

/-- Memory in which no byte of the request is 0, nor that of `buf`. -/
def Ram.unlike (dest : ℕ) (buf : List UInt8) : Ram :=
  { bytes := fun a => if buf.getD (a - dest) 0 = 1 then 2 else 1, accessed := [] }

theorem unlike_eq (dest k : ℕ) (buf : List UInt8) :
    (Ram.unlike dest buf).bytes (dest + k) = if buf.getD k 0 = 1 then 2 else 1 := by
  simp only [Ram.unlike, Nat.add_sub_cancel_left]

theorem unlike_ne (dest k : ℕ) (buf : List UInt8) :
    (Ram.unlike dest buf).bytes (dest + k) ≠ buf.getD k 0 := by
  rw [unlike_eq]
  split
  · rename_i hone
    rw [hone]
    decide
  · rename_i hone
    exact fun h => hone h.symm

theorem unlike_ne_zero (dest k : ℕ) (buf : List UInt8) :
    (Ram.unlike dest buf).bytes (dest + k) ≠ 0 := by
  rw [unlike_eq]
  split <;> decide

theorem not_takes_zero (limit addr : ℕ) : ¬ Takes limit addr 0 :=
  fun h => Nat.lt_irrefl 0 h.2.1

theorem erase_transfers (hs : s.Documented) :
    Transfers s.memMaxLen startAddr size id id
      (fun ram n => s.memsetS ram startAddr.toNat n.toNat 0 n.toNat)
      (fun _ ram k => ram.bytes (startAddr.toNat + k) = 0) := by
  constructor
  · exact fun _ => rfl
  · intro ram n hzero
    exact hs.memset_refused _ _ _ _ (hzero ▸ not_takes_zero _ _)
  · intro ram n htakes _ r
    rw [hs.memset _ _ _ _ htakes]
    simp [Ram.fill, or_comm]
  · intro ram n htakes _ a ha
    rw [hs.memset _ _ _ _ htakes]
    exact fill_kept ram 0 ha
  · intro ram n htakes _ k hk
    rw [hs.memset _ _ _ _ htakes]
    exact if_pos (by omega)
  · refine ⟨{ bytes := fun _ => 1, accessed := [] }, rfl, ?_⟩
    intro n k _ _ hnot
    by_cases htakes : Takes s.memMaxLen startAddr.toNat n.toNat
    · have hle := hnot.resolve_right (not_not.mpr htakes)
      rw [hs.memset _ _ _ _ htakes, fill_kept _ _ (by omega)]
      simp
    · rw [hs.memset_refused _ _ _ _ htakes]
      simp

theorem write_transfers (hs : s.Documented) {buf : List UInt8} (hbuf : size.toNat ≤ buf.length) :
    Transfers s.memMaxLen startAddr size id id
      (fun ram n => s.memcpyTo ram startAddr.toNat n.toNat buf n.toNat)
      (fun _ ram k => ram.bytes (startAddr.toNat + k) = buf.getD k 0) := by
  have htake : ∀ n : UInt32, n.toNat ≤ size.toNat → (buf.take n.toNat).length = n.toNat := by
    intro n hn
    rw [List.length_take]
    omega
  constructor
  · exact fun _ => rfl
  · intro ram n hzero
    exact hs.memcpyTo_refused _ _ _ _ (hzero ▸ not_takes_zero _ _)
  · intro ram n htakes hn r
    rw [hs.memcpyTo _ _ _ _ htakes (by omega)]
    simp [Ram.store, htake n hn, or_comm]
  · intro ram n htakes hn a ha
    rw [hs.memcpyTo _ _ _ _ htakes (by omega)]
    exact store_kept ram (by rw [htake n hn]; exact ha)
  · intro ram n htakes hn k hk
    rw [hs.memcpyTo _ _ _ _ htakes (by omega)]
    refine (store_stored ram (by rw [htake n hn]; exact hk)).trans ?_
    simp [List.getD_eq_getElem?_getD, hk]
  · refine ⟨Ram.unlike startAddr.toNat buf, rfl, ?_⟩
    intro n k hn hk hnot
    by_cases htakes : Takes s.memMaxLen startAddr.toNat n.toNat
    · have hle := hnot.resolve_right (not_not.mpr htakes)
      rw [hs.memcpyTo _ _ _ _ htakes (by omega), store_kept _ (by rw [htake n hn]; omega)]
      exact unlike_ne _ _ _
    · rw [hs.memcpyTo_refused _ _ _ _ htakes]
      exact unlike_ne _ _ _

theorem eraseWrite_transfers (hs : s.Documented) {buf : List UInt8}
    (hbuf : size.toNat ≤ buf.length) :
    Transfers s.memMaxLen startAddr size id id
      (fun ram n => s.memcpyTo (s.memsetS ram startAddr.toNat n.toNat 0 n.toNat)
        startAddr.toNat n.toNat buf n.toNat)
      (fun _ ram k => ram.bytes (startAddr.toNat + k) = buf.getD k 0) := by
  have hw := @write_transfers s startAddr size hs buf hbuf
  have he := @erase_transfers s startAddr size hs
  constructor
  · exact fun _ => rfl
  · intro ram n hzero
    exact (hw.skipped _ n hzero).trans (he.skipped ram n hzero)
  · intro ram n htakes hn r
    have herased := he.accessed ram n htakes hn r
    simp only [id] at herased
    refine (hw.accessed _ n htakes hn r).trans ?_
    rw [herased, or_assoc, or_self]
  · intro ram n htakes hn a ha
    exact (hw.kept _ n htakes hn a ha).trans (he.kept ram n htakes hn a ha)
  · intro ram n htakes hn k hk
    exact hw.complete _ n htakes hn k hk
  · refine ⟨Ram.unlike startAddr.toNat buf, rfl, ?_⟩
    intro n k hn hk hnot
    by_cases htakes : Takes s.memMaxLen startAddr.toNat n.toNat
    · have hle := hnot.resolve_right (not_not.mpr htakes)
      have hkept := (hw.kept (s.memsetS (Ram.unlike startAddr.toNat buf) startAddr.toNat n.toNat 0
        n.toNat) n htakes hn (startAddr.toNat + k) (by omega)).trans
          (he.kept _ n htakes hn (startAddr.toNat + k) (by omega))
      exact fun h => unlike_ne _ _ _ (hkept.symm.trans h)
    · rw [hs.memset_refused _ _ _ _ htakes, hs.memcpyTo_refused _ _ _ _ htakes]
      exact unlike_ne _ _ _

theorem read_transfers (hs : s.Documented) {buf : List UInt8} (hbuf : size.toNat ≤ buf.length) :
    Transfers s.memMaxLen startAddr size Prod.snd (fun ram => (buf, ram))
      (fun ram n => s.memcpyFrom ram buf n.toNat startAddr.toNat n.toNat)
      (fun ram x k => x.1.getD k 0 = ram.bytes (startAddr.toNat + k)) := by
  constructor
  · exact fun _ => rfl
  · intro ram n hzero
    exact hs.memcpyFrom_refused _ _ _ _ (.inl hzero)
  · intro ram n htakes hn r
    rw [hs.memcpyFrom _ _ _ _ htakes (by omega)]
    simp [Ram.load, or_comm]
  · intro ram n htakes hn a _
    rw [hs.memcpyFrom _ _ _ _ htakes (by omega)]
    rfl
  · intro ram n htakes hn k hk
    rw [hs.memcpyFrom _ _ _ _ htakes (by omega)]
    have hlen : (ram.load startAddr.toNat n.toNat).1.length = n.toNat := by
      simp [Ram.load, ByteMemory.read]
    rw [List.getD_eq_getElem?_getD, List.getElem?_append_left (by omega)]
    simp [Ram.load, ByteMemory.read, hk]
  · refine ⟨Ram.unlike startAddr.toNat buf, rfl, ?_⟩
    intro n k hn hk hnot
    -- Behind the bytes that were copied or cleared the buffer is as it was.
    have hlater : ∀ copied : List UInt8, copied.length = n.toNat → n.toNat ≤ k →
        (copied ++ buf.drop n.toNat).getD k 0 = buf.getD k 0 := by
      intro copied hlen hle
      have hrest : n.toNat + (k - n.toNat) = k := by omega
      rw [List.getD_eq_getElem?_getD, List.getElem?_append_right (by omega), hlen,
        List.getElem?_drop, hrest, List.getD_eq_getElem?_getD]
    by_cases hlen : n.toNat = 0 ∨ s.memMaxLen < n.toNat
    · rw [hs.memcpyFrom_refused _ _ _ _ hlen]
      exact (unlike_ne _ _ _).symm
    · obtain ⟨hpos, hmax⟩ := not_or.mp hlen
      by_cases hnull : startAddr.toNat = 0
      · rw [hnull, hs.memcpyFrom_null _ _ _ (by omega) (by omega) (by omega)]
        by_cases hle : n.toNat ≤ k
        · rw [hlater _ List.length_replicate hle]
          exact (unlike_ne _ _ _).symm
        · rw [List.getD_eq_getElem?_getD, List.getElem?_append_left (by simpa using hle),
            List.getElem?_replicate_of_lt (by omega)]
          exact (unlike_ne_zero _ _ _).symm
      · have htakes : Takes s.memMaxLen startAddr.toNat n.toNat := ⟨hnull, by omega, by omega⟩
        have hle := hnot.resolve_right (not_not.mpr htakes)
        rw [hs.memcpyFrom _ _ _ _ htakes (by omega), hlater _ (by simp [Ram.load, ByteMemory.read]) hle]
        exact (unlike_ne _ _ _).symm

theorem eraseRight_iff (hs : s.Documented) (hwrap : (partitions pdrv).NoWrap) :
    EraseRight s partitions pdrv startAddr size ↔
      Admitted s.memMaxLen (partitions pdrv) startAddr size :=
  (erase_transfers hs).right_iff hwrap

theorem forall_buf_iff {p : List UInt8 → Prop} {q : Prop} (n : ℕ)
    (h : ∀ buf, n ≤ buf.length → (p buf ↔ q)) : (∀ buf, n ≤ buf.length → p buf) ↔ q := by
  constructor
  · intro hp
    have hlen : n ≤ (List.replicate n (0 : UInt8)).length :=
      Nat.le_of_eq List.length_replicate.symm
    exact (h _ hlen).mp (hp _ hlen)
  · intro hq buf hlen
    exact (h buf hlen).mpr hq

theorem writeRight_iff (hs : s.Documented) (hwrap : (partitions pdrv).NoWrap) :
    WriteRight (fun buf => virtFlashWrite s partitions pdrv startAddr buf size) (partitions pdrv)
      startAddr size ↔ Admitted s.memMaxLen (partitions pdrv) startAddr size :=
  forall_buf_iff _ fun _ hbuf => (write_transfers hs hbuf).right_iff hwrap

theorem eraseWriteRight_iff (hs : s.Documented) (hwrap : (partitions pdrv).NoWrap) :
    WriteRight (fun buf => virtFlashEraseWrite s partitions pdrv startAddr buf size)
      (partitions pdrv) startAddr size ↔
      Admitted s.memMaxLen (partitions pdrv) startAddr size :=
  forall_buf_iff _ fun _ hbuf => (eraseWrite_transfers hs hbuf).right_iff hwrap

theorem readRight_iff (hs : s.Documented) (hwrap : (partitions pdrv).NoWrap) :
    ReadRight s partitions pdrv startAddr size ↔
      Admitted s.memMaxLen (partitions pdrv) startAddr size :=
  forall_buf_iff _ fun _ hbuf => (read_transfers hs hbuf).right_iff hwrap

/-- The four operations stay in their partition and do all that they report for the same
requests. -/
theorem operations_right_iff (hs : s.Documented) (hwrap : ∀ pdrv, (partitions pdrv).NoWrap)
    (pdrv : HalPartition) (startAddr size : UInt32) :
    (EraseRight s partitions pdrv startAddr size ↔
      Admitted s.memMaxLen (partitions pdrv) startAddr size) ∧
    (WriteRight (fun buf => virtFlashWrite s partitions pdrv startAddr buf size) (partitions pdrv)
      startAddr size ↔ Admitted s.memMaxLen (partitions pdrv) startAddr size) ∧
    (WriteRight (fun buf => virtFlashEraseWrite s partitions pdrv startAddr buf size)
      (partitions pdrv) startAddr size ↔
      Admitted s.memMaxLen (partitions pdrv) startAddr size) ∧
    (ReadRight s partitions pdrv startAddr size ↔
      Admitted s.memMaxLen (partitions pdrv) startAddr size) :=
  ⟨eraseRight_iff hs (hwrap pdrv), writeRight_iff hs (hwrap pdrv),
    eraseWriteRight_iff hs (hwrap pdrv), readRight_iff hs (hwrap pdrv)⟩

def securec : Securec where
  memMaxLen := 0x7FFFFFFF
  memsetS := fun ram dest destMax c count =>
    if Takes 0x7FFFFFFF dest destMax then ram.fill dest (min count destMax) c else ram
  memcpyTo := fun ram dest destMax buf count =>
    if Takes 0x7FFFFFFF dest destMax then
      if destMax < count then ram.fill dest destMax 0 else ram.store dest (buf.take count)
    else ram
  memcpyFrom := fun ram buf destMax src count =>
    if destMax = 0 ∨ 0x7FFFFFFF < destMax then (buf, ram)
    else if src = 0 ∨ destMax < count then (List.replicate destMax 0 ++ buf.drop destMax, ram)
    else ((ram.load src count).1 ++ buf.drop count, (ram.load src count).2)

theorem securec_documented : securec.Documented := by
  have hok : ∀ {n : ℕ}, 0 < n → n ≤ securec.memMaxLen → ¬ (n = 0 ∨ 0x7FFFFFFF < n) := by
    rintro n hpos hle (h | h)
    · omega
    · exact absurd hle (Nat.not_le.mpr h)
  constructor
  · intro ram dest n c htakes
    simp only [securec, Nat.min_self]
    exact if_pos htakes
  · intro ram dest n c hnot
    exact if_neg hnot
  · intro ram dest n buf htakes _
    simp only [securec, Nat.lt_irrefl, if_false]
    exact if_pos htakes
  · intro ram dest n buf hnot
    exact if_neg hnot
  · intro ram buf src n htakes _
    have hsrc : ¬ (src = 0 ∨ n < n) := not_or.mpr ⟨htakes.1, Nat.lt_irrefl n⟩
    simp only [securec, if_neg (hok htakes.2.1 htakes.2.2), if_neg hsrc]
  · intro ram buf src n h
    exact if_pos h
  · intro ram buf n hpos hle _
    simp only [securec, if_neg (hok hpos hle), true_or, if_true]

theorem halPartitions_noWrap : ∀ pdrv, (halPartitions pdrv).NoWrap := by
  rintro (_ | _) <;> (unfold HalLogicPartition.NoWrap; decide)

theorem operations_right_block :
    (EraseRight securec halPartitions .flashPartitionData0 0x21801000 4096 ↔
      Admitted 0x7FFFFFFF (halPartitions .flashPartitionData0) 0x21801000 4096) ∧
    (WriteRight (fun buf => virtFlashWrite securec halPartitions .flashPartitionData0 0x21801000
      buf 4096) (halPartitions .flashPartitionData0) 0x21801000 4096 ↔
      Admitted 0x7FFFFFFF (halPartitions .flashPartitionData0) 0x21801000 4096) ∧
    (WriteRight (fun buf => virtFlashEraseWrite securec halPartitions .flashPartitionData0
      0x21801000 buf 4096) (halPartitions .flashPartitionData0) 0x21801000 4096 ↔
      Admitted 0x7FFFFFFF (halPartitions .flashPartitionData0) 0x21801000 4096) ∧
    (ReadRight securec halPartitions .flashPartitionData0 0x21801000 4096 ↔
      Admitted 0x7FFFFFFF (halPartitions .flashPartitionData0) 0x21801000 4096) :=
  operations_right_iff securec_documented halPartitions_noWrap .flashPartitionData0 0x21801000 4096

/-- Sixteen bytes below the partition, a length that wraps the sum and that `securec` refuses, and
eight bytes of which only four are inside. -/
theorem outside_accepted :
    ¬ EraseRight securec halPartitions .flashPartitionData0 0x20000000 16 ∧
    ¬ WriteRight (fun buf => virtFlashWrite securec halPartitions .flashPartitionData0 0x20000000
      buf 16) (halPartitions .flashPartitionData0) 0x20000000 16 ∧
    ¬ WriteRight (fun buf => virtFlashEraseWrite securec halPartitions .flashPartitionData0
      0x21801000 buf 0xDE7FF001) (halPartitions .flashPartitionData0) 0x21801000 0xDE7FF001 ∧
    ¬ ReadRight securec halPartitions .flashPartitionData0 0x20000000 16 ∧
    ¬ ReadRight securec halPartitions .flashPartitionData0 0x21FFFFFC 8 := by
  have hwrap := halPartitions_noWrap .flashPartitionData0
  refine ⟨mt (eraseRight_iff securec_documented hwrap).mp ?_,
    mt (writeRight_iff securec_documented hwrap).mp ?_,
    mt (eraseWriteRight_iff securec_documented hwrap).mp ?_,
    mt (readRight_iff securec_documented hwrap).mp ?_,
    mt (readRight_iff securec_documented hwrap).mp ?_⟩
  all_goals
    unfold Admitted HalLogicPartition.Inside Takes
    decide

end RamVirtFlash
