import DeviceQemu.DisplayGrallocAlloc
import DeviceQemu.HiGbm
import Mathlib.Tactic.IntervalCases
import Mathlib.Tactic.LinearCombination

/-! Sizes of the buffers.
The strides and sizes that display_gralloc and the GBM allocator record, against those that
unbounded integers give. -/
namespace DisplayGrallocSizes

open PlaneLayout ResourceLedger DisplayGrallocAlloc
open DisplayGralloc (Ptr sizeInvalid)

theorem regular_of_getFormatInfo {format : PixelFormat} {f : FormatInfo PixelFormat}
    (h : getFormatInfo format = some f) : f.Regular := by
  have hall : ∀ f ∈ fmtInfos, f.Regular := by decide
  exact hall f (List.mem_of_find?_eq_some h)

theorem sum_of_getFormatInfo {format : PixelFormat} {f : FormatInfo PixelFormat}
    (h : getFormatInfo format = some f) : ∀ p ∈ f.planes, p.sum = 6 := by
  have hall : ∀ f ∈ fmtInfos, ∀ p ∈ f.planes, p.sum = 6 := by decide
  exact hall f (List.mem_of_find?_eq_some h)

def exactStride (f : FormatInfo PixelFormat) (width : ℕ) : ℕ :=
  ceilTo (f.scaled width) 8 * f.bitsPerPixel.toNat / 8

def exactSize (f : FormatInfo PixelFormat) (width height : ℕ) : ℕ :=
  ceilTo height 2 * exactStride f width

/-- The bits of a row fit into 32 bits, and the size is within MAX_MALLOC_SIZE. -/
def Fits (f : FormatInfo PixelFormat) (width height : ℕ) : Prop :=
  ceilTo (f.scaled width) 8 * f.bitsPerPixel.toNat < 4294967296 ∧
    exactSize f width height ≤ 0x10000000

/-- The buffer has as many rows of the stride as the reading `m` of it asks for. -/
def Suits (m : Pitch) (f : FormatInfo PixelFormat) (width height : ℕ) : Prop :=
  m = .all ∨ f.planes = none ∨ height ≤ 1 ∨ width = 0

theorem stride32_toNat (f : FormatInfo PixelFormat) (width : UInt32) :
    (stride32 f width).toNat =
      ceilTo (adjust (some f) width).toNat 8 % 4294967296 * f.bitsPerPixel.toNat % 4294967296 / 8 := by
  rw [stride32, UInt32.toNat_div, UInt32.toNat_mul, alignUp_mod.2,
    show bitsPerByte.toNat = 8 by rfl]

theorem stride32_lt (f : FormatInfo PixelFormat) (width : UInt32) :
    (stride32 f width).toNat < 536870912 := by
  rw [stride32_toNat]
  omega

theorem stride32_iff {format : PixelFormat} {f : FormatInfo PixelFormat}
    (hf : getFormatInfo format = some f) (width : UInt32) :
    (f.row width.toNat ≤ (stride32 f width).toNat ↔
      ceilTo (f.scaled width.toNat) 8 * f.bitsPerPixel.toNat < 4294967296) ∧
    (ceilTo (f.scaled width.toNat) 8 * f.bitsPerPixel.toNat < 4294967296 →
      (stride32 f width).toNat = exactStride f width.toNat) := by
  have hregular := regular_of_getFormatInfo hf
  have hw := width.toNat_lt
  have hbits := hregular.bits
  rw [stride32_toNat, FormatInfo.row, exactStride]
  cases hp : f.planes with
  | none =>
    rw [adjust_none hp, scaled_none hp]
    simp only [ceilTo]
    simp only [List.mem_cons, List.not_mem_nil, or_false] at hbits
    rcases hbits with hbits | hbits | hbits | hbits
    · rw [hbits, show UInt32.toNat 8 = 8 by rfl]
      constructor <;> omega
    · rw [hbits, show UInt32.toNat 16 = 16 by rfl]
      constructor <;> omega
    · rw [hbits, show UInt32.toNat 24 = 24 by rfl]
      constructor <;> omega
    · rw [hbits, show UInt32.toNat 32 = 32 by rfl]
      constructor <;> omega
  | some p =>
    rw [adjust_planes hregular hp, scaled_planes hregular hp, sum_of_getFormatInfo hf p hp,
      (hregular.planes p hp).1, show UInt32.toNat 6 = 6 by rfl, show UInt32.toNat 8 = 8 by rfl]
    simp only [ceilTo]
    by_cases hscaled : width.toNat * 6 + 3 < 4294967296
    · rw [Nat.mod_eq_of_lt hscaled]
      -- The stride is the row modulo 2^29, which it passes twice at most.
      have hbound : ((width.toNat * 6 + 3) / 4 + (8 - 1)) / 8 * 8 < 1610612736 := by omega
      have hlo : width.toNat * 3 ≤ ((width.toNat * 6 + 3) / 4 + (8 - 1)) / 8 * 8 * 2 := by omega
      have hhi : ((width.toNat * 6 + 3) / 4 + (8 - 1)) / 8 * 8 * 2 ≤ width.toNat * 3 + 17 := by omega
      generalize ((width.toNat * 6 + 3) / 4 + (8 - 1)) / 8 * 8 = row at *
      rw [Nat.mod_eq_of_lt (show row < 4294967296 by omega)]
      rcases lt_or_ge row 536870912 with hrow | hrow
      · rw [show row * 8 % 4294967296 = row * 8 by omega]
        constructor <;> omega
      · rcases lt_or_ge row 1073741824 with hrow' | hrow'
        · rw [show row * 8 % 4294967296 = row * 8 - 4294967296 by omega]
          constructor <;> omega
        · rw [show row * 8 % 4294967296 = row * 8 - 8589934592 by omega]
          constructor <;> omega
    · constructor <;> omega

theorem toInt_toInt32 (x : UInt32) : ∃ j : ℤ, x.toInt32.toInt = x.toNat + 4294967296 * j := by
  have hbits : x.toInt32.toInt = x.toBitVec.toInt := rfl
  have hnat : x.toBitVec.toNat = x.toNat := rfl
  rw [hbits, BitVec.toInt_eq_toNat_cond, hnat]
  split
  · exact ⟨0, by omega⟩
  · exact ⟨-1, by omega⟩

theorem toInt_stride32 (f : FormatInfo PixelFormat) (width : UInt32) :
    (stride32 f width).toInt32.toInt = (stride32 f width).toNat := by
  have hlt := stride32_lt f width
  have hbits : (stride32 f width).toInt32.toInt = (stride32 f width).toBitVec.toInt := rfl
  have hnat : (stride32 f width).toBitVec.toNat = (stride32 f width).toNat := rfl
  rw [hbits, BitVec.toInt_eq_toNat_cond, hnat]
  split <;> omega

theorem size32_congr (f : FormatInfo PixelFormat) (width height : UInt32) :
    ∃ j : ℤ, (size32 f width height).toInt =
      (ceilTo height.toNat 2 * (stride32 f width).toNat : ℕ) + 4294967296 * j := by
  obtain ⟨j, hj⟩ := toInt_toInt32 (alignUp height heightAlign)
  have hmod := Nat.div_add_mod (ceilTo height.toNat 2) 4294967296
  rw [← alignUp_mod.1] at hmod
  have hmod : (4294967296 : ℤ) * (ceilTo height.toNat 2 / 4294967296 : ℕ) +
      (alignUp height heightAlign).toNat = ceilTo height.toNat 2 := by exact_mod_cast hmod
  have hsize : (size32 f width height).toInt =
      ((alignUp height heightAlign).toInt32.toInt * (stride32 f width).toNat).bmod 4294967296 := by
    rw [size32, Int32.toInt_mul, toInt_stride32]
  have hbmod := Int.bmod_add_bdiv
    ((alignUp height heightAlign).toInt32.toInt * (stride32 f width).toNat) 4294967296
  rw [← hsize] at hbmod
  generalize ((alignUp height heightAlign).toInt32.toInt * (stride32 f width).toNat).bdiv
    4294967296 = carry at hbmod
  refine ⟨(j - (ceilTo height.toNat 2 / 4294967296 : ℕ)) * (stride32 f width).toNat - carry, ?_⟩
  push_cast at hbmod hmod ⊢
  linear_combination hbmod + (stride32 f width).toNat * (hj + hmod)

theorem size32_of_fits {format : PixelFormat} {f : FormatInfo PixelFormat}
    (hf : getFormatInfo format = some f) {width height : UInt32}
    (h : Fits f width.toNat height.toNat) :
    (size32 f width height).toInt = exactSize f width.toNat height.toNat := by
  obtain ⟨j, hj⟩ := size32_congr f width height
  have hle := h.2
  have hlo := Int32.le_toInt (size32 f width height)
  have hhi := Int32.toInt_lt (size32 f width height)
  rw [(stride32_iff hf width).2 h.1, ← exactSize] at hj
  omega

theorem ceilTo_two (n : ℕ) : n ≤ ceilTo n 2 ∧ ceilTo n 2 ≤ n + 1 := by
  unfold ceilTo
  constructor <;> omega

/-- Rows of the first plane and of the others do not fit under the height alone. -/
theorem rows_le_iff {format : PixelFormat} {f : FormatInfo PixelFormat}
    (hf : getFormatInfo format = some f) (m : Pitch) (width height : ℕ) :
    exactStride f width * m.rows f height ≤ exactSize f width height ↔ Suits m f width height := by
  have hregular := regular_of_getFormatInfo hf
  have hceil := ceilTo_two height
  rw [exactSize, Nat.mul_comm (ceilTo height 2)]
  cases m with
  | all => exact iff_of_true (Nat.mul_le_mul_left _ hceil.1) (Or.inl rfl)
  | first =>
    cases hp : f.planes with
    | none =>
      have hrows : Pitch.rows f height .first = height := scaled_none hp height
      rw [hrows]
      exact iff_of_true (Nat.mul_le_mul_left _ hceil.1) (Or.inr (Or.inl hp))
    | some p =>
      have hrows : Pitch.rows f height .first = (height * 6 + 3) / 4 := by
        rw [Pitch.rows, scaled_planes hregular hp, sum_of_getFormatInfo hf p hp]
        rfl
      have hstride : exactStride f width = 0 ↔ width = 0 := by
        rw [exactStride, (hregular.planes p hp).1, scaled_planes hregular hp,
          sum_of_getFormatInfo hf p hp, ceilTo, show UInt32.toNat 6 = 6 by rfl,
          show UInt32.toNat 8 = 8 by rfl]
        omega
      have hle : (height * 6 + 3) / 4 ≤ ceilTo height 2 ↔ height ≤ 1 := by
        rw [ceilTo]
        rcases Nat.lt_or_ge height 3 with hsmall | hlarge
        · interval_cases height <;> simp
        · omega
      rw [hrows, Suits, hp]
      simp only [reduceCtorEq, false_or]
      rw [← hle, ← hstride]
      constructor
      · intro hmul
        by_cases hzero : exactStride f width = 0
        · exact Or.inr hzero
        · exact Or.inl (Nat.le_of_mul_le_mul_left hmul (Nat.pos_of_ne_zero hzero))
      · rintro (hrow | hzero)
        · exact Nat.mul_le_mul_left _ hrow
        · rw [hzero, Nat.zero_mul, Nat.zero_mul]

/-- The recorded stride and size are enough, and the size is allowed, exactly when they are exact. -/
theorem recorded_iff {format : PixelFormat} {f : FormatInfo PixelFormat}
    (hf : getFormatInfo format = some f) (m : Pitch) (width height : UInt32) :
    (f.row width.toNat ≤ (stride32 f width).toNat ∧
      ((stride32 f width).toNat * m.rows f height.toNat : ℕ) ≤ (size32 f width height).toInt ∧
      (size32 f width height).toInt ≤ 0x10000000) ↔
      Fits f width.toNat height.toNat ∧ Suits m f width.toNat height.toNat := by
  constructor
  · rintro ⟨hrow, hbytes, hmax⟩
    have hbits := (stride32_iff hf width).1.mp hrow
    have hstride := (stride32_iff hf width).2 hbits
    have hlt := stride32_lt f width
    obtain ⟨j, hj⟩ := size32_congr f width height
    have hceil := ceilTo_two height.toNat
    have hle : height.toNat ≤ m.rows f height.toNat := by
      cases m with
      | first => exact le_scaled (regular_of_getFormatInfo hf) _
      | all => exact le_rfl
    rw [hstride] at hbytes hj hlt
    have hlower := Nat.mul_le_mul_left (exactStride f width.toNat) hle
    have hupper := Nat.mul_le_mul_left (exactStride f width.toNat) hceil.2
    have hraise := Nat.mul_le_mul_left (exactStride f width.toNat) hceil.1
    rw [Nat.mul_comm] at hj
    rw [Nat.mul_succ] at hupper
    have hsize : exactSize f width.toNat height.toNat =
        exactStride f width.toNat * ceilTo height.toNat 2 := Nat.mul_comm _ _
    have hfits : Fits f width.toNat height.toNat := ⟨hbits, by omega⟩
    refine ⟨hfits, (rows_le_iff hf m _ _).mp ?_⟩
    rw [size32_of_fits hf hfits] at hbytes
    exact_mod_cast hbytes
  · rintro ⟨hfits, hsuits⟩
    have hbytes := (rows_le_iff hf m _ _).mpr hsuits
    rw [size32_of_fits hf hfits, (stride32_iff hf width).2 hfits.1]
    refine ⟨?_, by exact_mod_cast hbytes, by exact_mod_cast hfits.2⟩
    rw [← (stride32_iff hf width).2 hfits.1]
    exact (stride32_iff hf width).1.mpr hfits.1

/-- Memory for the whole recorded size is reachable at the address of the handle. -/
def Mapped (hdl : PriBufferHandle) (mem : Multiset Resource) : Prop :=
  ∃ kind, ∃ len : ℕ, .mapping kind hdl.virAddr len ∈ mem ∧ hdl.size.toInt ≤ len

/-- What a handle records, next to the memory that is there. -/
structure Recorded (m : Pitch) (f : FormatInfo PixelFormat) (info : AllocInfo) (hdl : PriBufferHandle)
    (mem : Multiset Resource) : Prop where
  row : f.row info.width.toNat ≤ hdl.stride.toInt
  bytes : hdl.stride.toInt * m.rows f info.height.toNat ≤ hdl.size.toInt
  allocated : hdl.size.toInt ≤ 0 ∨ Mapped hdl mem
  fits : hdl.stride.toInt * m.rows f info.height.toNat ≤ 0x10000000

def SizesRight (m : Pitch) (info : AllocInfo) (r : Result) : Prop :=
  r.ret = .success → ∃ p hdl f, r.out = .handle p hdl ∧ getFormatInfo info.format = some f ∧
    Recorded m f info hdl (left r)

theorem recorded_iff_fits {m : Pitch} {f : FormatInfo PixelFormat} {info : AllocInfo}
    (hf : getFormatInfo info.format = some f) {hdl : PriBufferHandle} {mem : Multiset Resource}
    (hstride : hdl.stride = (stride32 f info.width).toInt32)
    (hsize : hdl.size = size32 f info.width info.height)
    (hlarge : 0x10000000 < hdl.size.toInt → ¬ Mapped hdl mem) :
    Recorded m f info hdl mem ↔
      Fits f info.width.toNat info.height.toNat ∧ Suits m f info.width.toNat info.height.toNat ∧
        (exactSize f info.width.toNat info.height.toNat = 0 ∨ Mapped hdl mem) := by
  have hrecorded := recorded_iff hf m info.width info.height
  have hnat : hdl.stride.toInt = (stride32 f info.width).toNat := by rw [hstride, toInt_stride32]
  have hbytes : hdl.stride.toInt * m.rows f info.height.toNat =
      ((stride32 f info.width).toNat * m.rows f info.height.toNat : ℕ) := by
    rw [hnat]
    push_cast
    rfl
  constructor
  · intro h
    have hmax : hdl.size.toInt ≤ 0x10000000 := by
      by_contra hgt
      rcases h.allocated with hle | hmapped
      · omega
      · exact hlarge (not_le.mp hgt) hmapped
    have hrow := h.row
    have hall := h.bytes
    rw [hnat] at hrow
    rw [hbytes, hsize] at hall
    rw [hsize] at hmax
    obtain ⟨hfits, hsuits⟩ := hrecorded.mp ⟨by exact_mod_cast hrow, hall, hmax⟩
    refine ⟨hfits, hsuits, h.allocated.imp_left fun hle => ?_⟩
    rw [hsize, size32_of_fits hf hfits] at hle
    omega
  · rintro ⟨hfits, hsuits, hmem⟩
    obtain ⟨hrow, hall, hmax⟩ := hrecorded.mpr ⟨hfits, hsuits⟩
    refine ⟨by rw [hnat]; exact_mod_cast hrow, by rwa [hbytes, hsize], ?_, ?_⟩
    · refine hmem.imp_left fun hzero => ?_
      rw [hsize, size32_of_fits hf hfits, hzero]
      exact le_rfl
    · rw [hbytes]
      exact hall.trans hmax

/-- What a board's memory says about itself: when it grants a buffer, and when a granted buffer has
its memory. -/
structure Backend (alloc : PriBufferHandle → Option (ℕ × Outcome)) (usage : UInt64)
    (Grants Maps : Prop) : Prop where
  spares : ∀ hdl, ∀ r ∈ alloc hdl, r.2.SparesHandles
  grants : ∀ hdl, hdl.usage = usage → ((∃ r ∈ alloc hdl, r.2.ret = .success) ↔ Grants)
  keeps : ∀ hdl, ∀ r ∈ alloc hdl, r.2.hdl.stride = hdl.stride ∧ r.2.hdl.size = hdl.size
  maps : ∀ hdl, hdl.usage = usage → ∀ r ∈ alloc hdl, r.2.ret = .success →
    (Mapped r.2.hdl (after 0 r.2.ops) ↔ Maps)

def Right (m : Pitch) (info : AllocInfo) (Grants Maps : Prop) : Prop :=
  ∀ f, getFormatInfo info.format = some f →
    sizeInvalid (size32 f info.width info.height).toInt = true ∨ Grants →
    Fits f info.width.toNat info.height.toNat ∧ Suits m f info.width.toNat info.height.toNat ∧
      (exactSize f info.width.toNat info.height.toNat = 0 ∨ Maps)

theorem exit_ret (ops : List (Op Resource)) (ret : Ret) (v : Variable) (hdl : PriBufferHandle) :
    (exit ops ret v hdl).ret = ret := by
  unfold exit
  split <;> rfl

theorem sizeInvalid_iff {size : ℤ} : sizeInvalid size = true ↔ 0x10000000 < size ∨ size = 0 := by
  rw [sizeInvalid, Bool.or_eq_true, decide_eq_true_iff, decide_eq_true_iff]
  exact Iff.rfl

theorem sizesRight_exit {m : Pitch} {info : AllocInfo} {o : Outcome} {p : Ptr}
    (hp : p ≠ 0) (hret : o.ret = .success) {f : FormatInfo PixelFormat}
    (hf : getFormatInfo info.format = some f) :
    SizesRight m info (exit ([.acquire (.handle p)] ++ o.ops) o.ret ⟨p, true⟩ o.hdl) ↔
      Recorded m f info o.hdl (after 0 ([.acquire (.handle p)] ++ o.ops)) := by
  rw [hret, exit_success _ hp]
  constructor
  · intro h
    obtain ⟨q, hdl, f', hout, hf', hrecorded⟩ := h rfl
    obtain ⟨rfl, rfl⟩ := Out.handle.inj hout
    rw [hf] at hf'
    cases hf'
    exact hrecorded
  · exact fun h _ => ⟨p, o.hdl, f, rfl, hf, h⟩

theorem mapped_handle {hdl : PriBufferHandle} {p : Ptr} {o : Outcome} (ho : o.SparesHandles) :
    Mapped hdl (after 0 ([.acquire (.handle p)] ++ o.ops)) ↔ Mapped hdl (after 0 o.ops) := by
  have hleft : after 0 ([.acquire (.handle p)] ++ o.ops) = .handle p ::ₘ after 0 o.ops :=
    after_cons (ho p) 0
  rw [hleft]
  constructor
  · rintro ⟨kind, len, hmem, hle⟩
    exact ⟨kind, len, (Multiset.mem_cons.mp hmem).resolve_left nofun, hle⟩
  · rintro ⟨kind, len, hmem, hle⟩
    exact ⟨kind, len, Multiset.mem_cons_of_mem hmem, hle⟩

theorem refused_right_iff {m : Pitch} {info : AllocInfo} {hdl : PriBufferHandle} {p : Ptr}
    (hp : p ≠ 0) {f : FormatInfo PixelFormat} (hf : getFormatInfo info.format = some f)
    (hstride : hdl.stride = (stride32 f info.width).toInt32)
    (hsize : hdl.size = size32 f info.width info.height)
    (hinvalid : sizeInvalid hdl.size.toInt = true) (Maps : Prop) :
    SizesRight m info (exit [.acquire (.handle p)] .success ⟨p, true⟩ hdl) ↔
      Fits f info.width.toNat info.height.toNat ∧ Suits m f info.width.toNat info.height.toNat ∧
        (exactSize f info.width.toNat info.height.toNat = 0 ∨ Maps) := by
  have hexit := @sizesRight_exit m info ⟨[], .success, hdl⟩ p hp rfl f hf
  have hnone : ¬ Mapped hdl (after 0 ([.acquire (.handle p)] ++ [])) := by
    rintro ⟨kind, len, hmem, -⟩
    simp [after, Op.after] at hmem
  rw [recorded_iff_fits hf hstride hsize fun _ => hnone, or_iff_left hnone] at hexit
  refine hexit.trans ⟨fun h => ⟨h.1, h.2.1, Or.inl h.2.2⟩, ?_⟩
  rintro ⟨hfits, hsuits, -⟩
  have hmax := hfits.2
  rw [hsize, size32_of_fits hf hfits, sizeInvalid_iff] at hinvalid
  exact ⟨hfits, hsuits, by omega⟩

/-- A buffer that the board's memory granted for a size that AllocMem admits. -/
theorem granted_right_iff (m : Pitch) {alloc : PriBufferHandle → Option (ℕ × Outcome)}
    {info : AllocInfo} {Grants Maps : Prop} (hback : Backend alloc info.usage Grants Maps)
    {hdl : PriBufferHandle} {p : Ptr} (hp : p ≠ 0) {f : FormatInfo PixelFormat}
    (hf : getFormatInfo info.format = some f)
    (hstride : hdl.stride = (stride32 f info.width).toInt32)
    (hsize : hdl.size = size32 f info.width info.height) (husage : hdl.usage = info.usage)
    (hinvalid : sizeInvalid hdl.size.toInt = false) {r : ℕ × Outcome} (hr : r ∈ alloc hdl)
    (hret : r.2.ret = .success) :
    SizesRight m info (exit ([.acquire (.handle p)] ++ r.2.ops) r.2.ret ⟨p, true⟩ r.2.hdl) ↔
      Fits f info.width.toNat info.height.toNat ∧ Suits m f info.width.toNat info.height.toNat ∧
        (exactSize f info.width.toNat info.height.toNat = 0 ∨ Maps) := by
  have hkeeps := hback.keeps hdl r hr
  have hsmall : ¬ 0x10000000 < r.2.hdl.size.toInt := fun h => by
    rw [hkeeps.2] at h
    rw [sizeInvalid_iff.mpr (Or.inl h)] at hinvalid
    cases hinvalid
  rw [sizesRight_exit hp hret hf,
    recorded_iff_fits hf (hkeeps.1.trans hstride) (hkeeps.2.trans hsize) fun h => absurd h hsmall,
    mapped_handle (hback.spares hdl r hr), hback.maps hdl husage r hr hret]

theorem allocMem_right_iff (m : Pitch) {k : Kernel}
    {alloc : ℕ → PriBufferHandle → Option (ℕ × Outcome)} {a : Answers} {key : ℕ} {info : AllocInfo}
    {Grants Maps : Prop} (hback : Backend (alloc key) info.usage Grants Maps) :
    (∀ r ∈ allocMem k alloc a key info, SizesRight m info r.2) ↔
      (a.called → Right m info Grants Maps) := by
  by_cases hcalled : a.called
  · refine Iff.trans ?_ (forall_prop_of_true hcalled).symm
    rw [allocMem, if_neg hcalled.args]
    cases hinit : initBufferHandle k zeroHandle info with
    | none =>
      have hnone := initBufferHandle_eq_none.mp hinit
      refine iff_of_true ?_ fun f hf => ?_
      · rintro r ⟨⟩ hret
        rw [exit_ret] at hret
        cases hret
      · rw [hnone] at hf
        cases hf
    | some hdl =>
      obtain ⟨f, hf, hstride, hsize, husage⟩ := initBufferHandle_some hinit
      have hright : Right m info Grants Maps ↔
          (sizeInvalid hdl.size.toInt = true ∨ Grants →
            Fits f info.width.toNat info.height.toNat ∧ Suits m f info.width.toNat info.height.toNat ∧
              (exactSize f info.width.toNat info.height.toNat = 0 ∨ Maps)) := by
        rw [hsize]
        constructor
        · exact fun h => h f hf
        · intro h f' hf'
          rw [hf] at hf'
          cases hf'
          exact h
      rw [hright]
      dsimp only
      cases hinvalid : sizeInvalid hdl.size.toInt with
      | true =>
        have hrefused := @refused_right_iff m _ _ _ hcalled.2.2 f hf hstride hsize hinvalid Maps
        simp only [if_true, Option.mem_def, Option.some.injEq, forall_eq']
        exact hrefused.trans ⟨fun h _ => h, fun h => h (Or.inl trivial)⟩
      | false =>
        have hgranted := fun r => @granted_right_iff m _ _ _ _ hback _ _ hcalled.2.2 f hf hstride
          hsize husage hinvalid r
        simp only [Bool.false_eq_true, if_false, false_or]
        rw [← hback.grants hdl husage]
        constructor
        · rintro h ⟨r, hr, hret⟩
          exact (hgranted r hr hret).mp (h _ (Option.mem_map_of_mem _ hr))
        · rintro h r hr hret
          obtain ⟨o, ho, rfl⟩ := Option.map_eq_some_iff.mp hr
          have hsuccess : o.2.ret = .success := by rwa [exit_ret] at hret
          exact (hgranted o ho hsuccess).mpr (h ⟨o, ho, hsuccess⟩) hret
  · refine iff_of_true ?_ fun h => absurd h hcalled
    rw [allocMem_of_not_called hcalled]
    rintro r ⟨⟩ hret
    cases hret

/-- On the LiteOS-A board a request is granted when a segment is attached, or for MMZ always. -/
def LiteosA.Grants (k : Kernel) (a : Answers) (usage : UInt64) : Prop :=
  usage = k.hbmUseMemShare ∧ (∃ shmid, a.answered = some (.segment shmid)) ∧ a.shmat ≠ none ∨
    usage = k.hbmUseMemMmz

def LiteosA.Maps (k : Kernel) (a : Answers) (usage : UInt64) : Prop :=
  usage = k.hbmUseMemMmz → a.MmzMaps

theorem attachShm_keeps {a : Answers} {key : ℕ} {hdl : PriBufferHandle} (id : Option ℤ) :
    (attachShm a key hdl id).2.hdl.stride = hdl.stride ∧
      (attachShm a key hdl id).2.hdl.size = hdl.size := by
  cases id with
  | none => exact ⟨rfl, rfl⟩
  | some shmid => cases hshmat : a.shmat <;> simp [attachShm, hshmat]

theorem attachShm_success {a : Answers} {key : ℕ} {hdl : PriBufferHandle} {id : Option ℤ} :
    (attachShm a key hdl id).2.ret = .success ↔ id ≠ none ∧ a.shmat ≠ none := by
  cases id with
  | none => simp [attachShm]
  | some shmid => cases hshmat : a.shmat <;> simp [attachShm, hshmat]

theorem allocShm_grants {a : Answers} {key : ℕ} {hdl : PriBufferHandle} :
    (∃ r ∈ allocShm a key hdl, r.2.ret = .success) ↔
      (∃ shmid, a.answered = some (.segment shmid)) ∧ a.shmat ≠ none := by
  have hanswered := @shmLoop_answered a.shmget key
  unfold Answers.answered allocShm
  cases hloop : shmLoop key a.shmget with
  | none =>
    rw [hloop] at hanswered
    rw [Option.map_eq_none_iff.mp hanswered.symm]
    simp
  | some got =>
    rw [hloop] at hanswered
    obtain ⟨x, hx, hid⟩ := Option.map_eq_some_iff.mp hanswered.symm
    rw [hx]
    simp only [Option.map_some, Option.mem_def, Option.some.injEq, exists_eq_left']
    rw [attachShm_success, ← hid]
    cases x <;> simp

theorem mapped_of_proper {requested : Kind → Prop} {o : Outcome} (h : o.Proper requested)
    (hret : o.ret = .success) : Mapped o.hdl (after 0 o.ops) := by
  obtain ⟨kind, len, -, hmem, hle⟩ := h.success hret
  exact ⟨kind, len, hmem, hle⟩

theorem allocByUsage_grants {k : Kernel} {a : Answers} {key : ℕ} {hdl : PriBufferHandle} :
    (∃ r ∈ allocByUsage k a key hdl, r.2.ret = .success) ↔ LiteosA.Grants k a hdl.usage := by
  unfold LiteosA.Grants
  by_cases hshare : hdl.usage = k.hbmUseMemShare
  · have hmmz : hdl.usage ≠ k.hbmUseMemMmz := fun h => k.mmz_ne_share (h.symm.trans hshare)
    rw [allocByUsage, if_pos hshare, allocShm_grants, or_iff_left hmmz, and_iff_right hshare]
  · rw [or_iff_right fun h => hshare h.1]
    by_cases hmmz : hdl.usage = k.hbmUseMemMmz
    · rw [allocByUsage_mmz hmmz, allocMmz_eq hmmz]
      exact iff_of_true ⟨_, rfl, rfl⟩ hmmz
    · rw [allocByUsage_other hshare hmmz]
      refine iff_of_false ?_ hmmz
      rintro ⟨r, ⟨⟩, hret⟩
      cases hret

theorem allocByUsage_keeps {k : Kernel} {a : Answers} {key : ℕ} {hdl : PriBufferHandle} :
    ∀ r ∈ allocByUsage k a key hdl, r.2.hdl.stride = hdl.stride ∧ r.2.hdl.size = hdl.size := by
  intro r hr
  by_cases hshare : hdl.usage = k.hbmUseMemShare
  · rw [allocByUsage, if_pos hshare] at hr
    obtain ⟨⟨key', id⟩, -, rfl⟩ := Option.map_eq_some_iff.mp hr
    exact attachShm_keeps id
  · by_cases hmmz : hdl.usage = k.hbmUseMemMmz
    · rw [allocByUsage_mmz hmmz, allocMmz_eq hmmz] at hr
      cases hr
      exact ⟨rfl, rfl⟩
    · rw [allocByUsage_other hshare hmmz] at hr
      cases hr
      exact ⟨rfl, rfl⟩

theorem allocByUsage_maps {k : Kernel} {a : Answers} {key : ℕ} {hdl : PriBufferHandle} :
    ∀ r ∈ allocByUsage k a key hdl, r.2.ret = .success →
      (Mapped r.2.hdl (after 0 r.2.ops) ↔ LiteosA.Maps k a hdl.usage) := by
  intro r hr hret
  unfold LiteosA.Maps
  by_cases hmmz : hdl.usage = k.hbmUseMemMmz
  · rw [allocByUsage_mmz hmmz] at hr
    cases hr
    rw [forall_prop_of_true hmmz]
    constructor
    · rintro ⟨kind, len, hmem, -⟩
      unfold Answers.MmzMaps
      rw [allocMmz_eq hmmz] at hmem
      cases hopen : a.openMmz <;> cases hmap : a.mmz <;>
        simp [sendCmd, hopen, hmap, after, Op.after] at hmem ⊢
    · exact fun h => mapped_of_proper ((allocMmz_proper_iff hmmz).mpr h) hret
  · refine iff_of_true ?_ fun h => absurd h hmmz
    by_cases hshare : hdl.usage = k.hbmUseMemShare
    · rw [allocByUsage, if_pos hshare] at hr
      obtain ⟨⟨key', id⟩, -, rfl⟩ := Option.map_eq_some_iff.mp hr
      have hattached := attachShm_success.mp hret
      have hproper : (attachShm a key' hdl id).2.Proper fun kind => kind = .shm := by
        refine (attachShm_proper_iff ?_).mpr ?_
        · exact rfl
        · exact fun _ hnone => absurd hnone hattached.2
      exact mapped_of_proper hproper hret
    · rw [allocByUsage_other hshare hmmz] at hr
      cases hr
      cases hret

theorem allocByUsage_backend (k : Kernel) (a : Answers) (key : ℕ) (usage : UInt64) :
    Backend (allocByUsage k a key) usage (LiteosA.Grants k a usage) (LiteosA.Maps k a usage) := by
  refine ⟨fun hdl => allocByUsage_spares, ?_, fun hdl => allocByUsage_keeps, ?_⟩
  · rintro hdl rfl
    exact allocByUsage_grants
  · rintro hdl rfl
    exact allocByUsage_maps

theorem allocByMalloc_backend (a : Answers) (key : ℕ) (usage : UInt64) :
    Backend (allocByMalloc a key) usage (a.malloc ≠ 0) True := by
  refine ⟨fun hdl => allocByMalloc_spares, ?_, ?_, ?_⟩
  · intro hdl _
    unfold allocByMalloc
    split_ifs with hnull <;> simp [hnull]
  · intro hdl r hr
    unfold allocByMalloc at hr
    split_ifs at hr <;> cases hr <;> exact ⟨rfl, rfl⟩
  · intro hdl _ r hr hret
    exact iff_of_true (mapped_of_proper (allocByMalloc_proper r hr) hret) trivial

/-- The sizes that the three allocators record, for a stride that is from one row to the next of the
first plane or of all planes. With the GBM allocator it is enough that nothing overflows, and a
kernel that allocates no more than it is asked for leaves no other way, except for no width. -/
theorem sizes_right_iff (m : Pitch) :
    (∀ (k : Kernel) (a : Answers) (key : ℕ) (info : AllocInfo),
      ((∀ r ∈ LiteosA.allocMem k a key info, SizesRight m info r.2) ↔
        (a.called → Right m info (LiteosA.Grants k a info.usage) (LiteosA.Maps k a info.usage))) ∧
      ((∀ r ∈ Riscv32.allocMem k a key info, SizesRight m info r.2) ↔
        (a.called → Right m info (a.malloc ≠ 0) True))) ∧
    ∀ (k : HiGbm.Kernel) (calloc : Bool) (gbm : ℕ) (width height : UInt32) (format : HiGbm.DrmFormat),
      (HiGbm.CreatesSound m k calloc gbm width height format ↔
        HiGbm.Answered (HiGbm.Fits m · width height ·) k calloc width height format) ∧
      (HiGbm.Answered (HiGbm.Plain · width height ·) k calloc width height format →
        HiGbm.CreatesSound m k calloc gbm width height format) ∧
      (k.Exact → (HiGbm.CreatesSound m k calloc gbm width height format ↔
        HiGbm.Answered (fun f dumb => width = 0 ∨ HiGbm.Plain f width height dumb)
          k calloc width height format)) := by
  refine ⟨fun k a key info => ⟨?_, ?_⟩, fun k calloc gbm width height format => ⟨?_, ?_, ?_⟩⟩
  · exact allocMem_right_iff m (allocByUsage_backend k a key info.usage)
  · exact allocMem_right_iff m (allocByMalloc_backend a key info.usage)
  · rw [HiGbm.createsSound_iff_answered]
    constructor
    · exact HiGbm.Answered.imp fun f dumb hf hdumb => (HiGbm.sound_iff k m hf gbm hdumb).mp
    · exact HiGbm.Answered.imp fun f dumb hf hdumb => (HiGbm.sound_iff k m hf gbm hdumb).mpr
  · rw [HiGbm.createsSound_iff_answered]
    exact HiGbm.Answered.imp fun f dumb hf hdumb hplain =>
      (HiGbm.sound_iff k m hf gbm hdumb).mpr (hplain.fits m)
  · intro hk
    rw [HiGbm.createsSound_iff_answered]
    constructor
    · exact HiGbm.Answered.imp fun f dumb hf hdumb =>
        (HiGbm.sound_iff_of_exact hk m hf gbm hdumb).mp
    · exact HiGbm.Answered.imp fun f dumb hf hdumb =>
        (HiGbm.sound_iff_of_exact hk m hf gbm hdumb).mpr

theorem not_sizesRight {m : Pitch} {info : AllocInfo} {r : Result} {p : Ptr} {hdl : PriBufferHandle}
    {f : FormatInfo PixelFormat} (hret : r.ret = .success) (hout : r.out = .handle p hdl)
    (hf : getFormatInfo info.format = some f)
    (hshort : hdl.size.toInt < hdl.stride.toInt * m.rows f info.height.toNat) :
    ¬ SizesRight m info r := by
  intro h
  obtain ⟨p', hdl', f', hout', hf', hrecorded⟩ := h hret
  obtain ⟨-, rfl⟩ := Out.handle.inj (hout.symm.trans hout')
  obtain rfl := Option.some.inj (hf.symm.trans hf')
  exact absurd hrecorded.bytes (not_le.mpr hshort)

def tall : AllocInfo := ⟨0x4000, 0x10002, 16, .rgba8888⟩

/-- 0x10002 rows of 0x10000 bytes are recorded, and mapped, as 0x20000 bytes. -/
theorem tall_recorded_short : ∃ r hdl, LiteosA.allocMem board willing 1 tall = some (2, r) ∧
    r.ret = .success ∧ r.out = .handle 0x1000 hdl ∧ hdl.stride = 0x10000 ∧ hdl.size = 0x20000 ∧
    ¬ SizesRight .first tall r ∧ ¬ SizesRight .all tall r := by
  refine ⟨_, _, rfl, by decide, rfl, by decide, by decide, ?_, ?_⟩
  · exact not_sizesRight (f := ⟨.rgba8888, 32, none⟩) rfl rfl (by decide) (by decide)
  · exact not_sizesRight (f := ⟨.rgba8888, 32, none⟩) rfl rfl (by decide) (by decide)

end DisplayGrallocSizes
