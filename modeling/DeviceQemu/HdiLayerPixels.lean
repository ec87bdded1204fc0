import DeviceQemu.PixelGrid
import Mathlib.Data.Nat.Notation
import Mathlib.Tactic.Ring

/-! Painting a layer.
HdiLayer::ClearColor goes through the pixels of its buffer, SetPixel stores the color of one. The
rows of the buffer are `stride` bytes apart. -/
namespace HdiLayerPixels

open PixelGrid

structure BufferHandle where
  width : Int32
  stride : Int32
  height : Int32
  size : Int32
  format : Int32
  virAddr : Option ℕ
  deriving DecidableEq, Repr

/-- A store to the 32 bits at `offset` bytes from virAddr. -/
structure Write where
  offset : ℤ
  color : UInt32
  deriving DecidableEq, Repr

def pixelBytes : ℤ := 4

/-- A position behind `size` is only logged. -/
def setPixel (handle : BufferHandle) (x y : Int32) (color : UInt32) : List Write :=
  if handle.format ≤ 0 then []
  else if handle.virAddr = none then []
  else if x < 0 ∨ handle.width ≤ x then []
  else if y < 0 ∨ handle.height ≤ y then []
  else
    let position := y * handle.width + x
    [⟨pixelBytes * position.toInt, color⟩]

/-- The values that an int32_t loop from 0 up to `n` goes through. -/
def loop (n : Int32) : List Int32 := (List.range n.toInt.toNat).map Int32.ofNat

def clearColor (handle : BufferHandle) (color : UInt32) : List Write :=
  (loop handle.width).flatMap fun x => (loop handle.height).flatMap fun y => setPixel handle x y color

/-- A buffer that is mapped, of a format with 32 bits to the pixel, whose rows fit their stride and
the buffer. -/
structure Mapped32 (handle : BufferHandle) : Prop where
  format : 0 < handle.format
  virAddr : handle.virAddr ≠ none
  width : 0 ≤ handle.width.toInt
  height : 0 ≤ handle.height.toInt
  stride : pixelBytes * handle.width.toInt ≤ handle.stride.toInt
  size : handle.height.toInt * handle.stride.toInt ≤ handle.size.toInt

def pixels (handle : BufferHandle) : Set ℤ :=
  grid handle.stride.toInt pixelBytes handle.width.toInt handle.height.toInt

/-- The pixels are written, with `color`, and nothing else is. -/
def Clears (handle : BufferHandle) (color : UInt32) (writes : List Write) : Prop :=
  ∀ w, w ∈ writes ↔ w.color = color ∧ w.offset ∈ pixels handle

def InRange (handle : BufferHandle) (x y : Int32) : Prop :=
  (0 ≤ x.toInt ∧ x.toInt < handle.width.toInt) ∧ 0 ≤ y.toInt ∧ y.toInt < handle.height.toInt

theorem setPixel_outside {handle : BufferHandle} {x y : Int32} (h : ¬ InRange handle x y)
    (color : UInt32) : setPixel handle x y color = [] := by
  have hzero : (0 : Int32).toInt = 0 := rfl
  rw [setPixel]
  split_ifs with hformat haddr hx hy
  · rfl
  · rfl
  · rfl
  · rfl
  · refine absurd ?_ h
    simp only [Int32.lt_iff_toInt_lt, Int32.le_iff_toInt_le, hzero, not_or, not_lt, not_le] at hx hy
    exact ⟨hx, hy⟩

theorem position_toInt {handle : BufferHandle} (hm : Mapped32 handle) {x y : Int32}
    (h : InRange handle x y) :
    (y * handle.width + x).toInt = y.toInt * handle.width.toInt + x.toInt := by
  obtain ⟨hx, hy⟩ := h
  have hmax := handle.size.toInt_lt
  have hsize := hm.size
  have hcol : y.toInt * handle.width.toInt + x.toInt
      < handle.height.toInt * handle.width.toInt := by
    have hrow : (y.toInt + 1) * handle.width.toInt ≤ handle.height.toInt * handle.width.toInt :=
      mul_le_mul_of_nonneg_right hy.2 hm.width
    linarith [add_mul y.toInt 1 handle.width.toInt]
  have hbytes : handle.height.toInt * (pixelBytes * handle.width.toInt)
      ≤ handle.height.toInt * handle.stride.toInt :=
    mul_le_mul_of_nonneg_left hm.stride hm.height
  have hfour : handle.height.toInt * (pixelBytes * handle.width.toInt)
      = 4 * (handle.height.toInt * handle.width.toInt) := by
    rw [pixelBytes]
    ring
  have hprod : 0 ≤ y.toInt * handle.width.toInt := mul_nonneg hy.1 hm.width
  have hmul : (y * handle.width).toInt = y.toInt * handle.width.toInt := by
    rw [Int32.toInt_mul]
    exact Int.bmod_eq_of_le (by omega) (by omega)
  rw [Int32.toInt_add, hmul]
  exact Int.bmod_eq_of_le (by omega) (by omega)

theorem setPixel_inside {handle : BufferHandle} (hm : Mapped32 handle) {x y : Int32}
    (h : InRange handle x y) (color : UInt32) :
    setPixel handle x y color =
      [⟨y.toInt * (pixelBytes * handle.width.toInt) + pixelBytes * x.toInt, color⟩] := by
  have hzero : (0 : Int32).toInt = 0 := rfl
  have hformat : ¬ handle.format ≤ 0 := Int32.not_le.mpr hm.format
  have hx : ¬ (x < 0 ∨ handle.width ≤ x) := by
    rw [Int32.lt_iff_toInt_lt, Int32.le_iff_toInt_le, hzero, not_or, not_lt, not_le]
    exact h.1
  have hy : ¬ (y < 0 ∨ handle.height ≤ y) := by
    rw [Int32.lt_iff_toInt_lt, Int32.le_iff_toInt_le, hzero, not_or, not_lt, not_le]
    exact h.2
  rw [setPixel, if_neg hformat, if_neg hm.virAddr, if_neg hx, if_neg hy]
  simp only [position_toInt hm h, List.cons.injEq, Write.mk.injEq, and_true]
  ring

theorem mem_loop {n x : Int32} : x ∈ loop n ↔ 0 ≤ x.toInt ∧ x.toInt < n.toInt := by
  have hmax := n.toInt_lt
  rw [loop, List.mem_map]
  constructor
  · rintro ⟨k, hk, rfl⟩
    have hlt : k < n.toInt.toNat := List.mem_range.mp hk
    have htoInt : (Int32.ofNat k).toInt = k := Int32.toInt_ofNat_of_lt (by omega)
    omega
  · rintro ⟨hx, hlt⟩
    refine ⟨x.toInt.toNat, List.mem_range.mpr (by omega), ?_⟩
    apply Int32.toInt_inj.mp
    rw [Int32.toInt_ofNat_of_lt (by omega), Int.toNat_of_nonneg hx]

theorem mem_clearColor {handle : BufferHandle} (hm : Mapped32 handle) (color : UInt32) (w : Write) :
    w ∈ clearColor handle color ↔ w.color = color ∧ w.offset ∈
      grid (pixelBytes * handle.width.toInt) pixelBytes handle.width.toInt handle.height.toInt := by
  simp only [clearColor, List.mem_flatMap, mem_loop]
  constructor
  · rintro ⟨x, hx, y, hy, hw⟩
    rw [setPixel_inside hm ⟨hx, hy⟩, List.mem_singleton] at hw
    rw [hw]
    exact ⟨rfl, x.toInt, y.toInt, hx, hy, rfl⟩
  · rintro ⟨hcolor, x, y, hx, hy, hoffset⟩
    have hwidth := handle.width.toInt_lt
    have hheight := handle.height.toInt_lt
    have hxInt : (Int32.ofInt x).toInt = x := Int32.toInt_ofInt_of_le (by omega) (by omega)
    have hyInt : (Int32.ofInt y).toInt = y := Int32.toInt_ofInt_of_le (by omega) (by omega)
    have hin : InRange handle (Int32.ofInt x) (Int32.ofInt y) := by
      rw [InRange, hxInt, hyInt]
      exact ⟨hx, hy⟩
    refine ⟨Int32.ofInt x, hin.1, Int32.ofInt y, hin.2, ?_⟩
    rw [setPixel_inside hm hin, List.mem_singleton, hxInt, hyInt, ← hoffset, ← hcolor]

/-- Wrong pixels or not, nothing outside the buffer is written. -/
theorem clearColor_inside {handle : BufferHandle} (hm : Mapped32 handle) (color : UInt32) {w : Write}
    (hw : w ∈ clearColor handle color) :
    0 ≤ w.offset ∧ w.offset + pixelBytes ≤ handle.size.toInt := by
  obtain ⟨-, hgrid⟩ := (mem_clearColor hm color w).mp hw
  obtain ⟨hpos, hend⟩ := grid_inside (by decide) le_rfl hgrid
  refine ⟨hpos, hend.trans (le_trans ?_ hm.size)⟩
  exact mul_le_mul_of_nonneg_left hm.stride hm.height

theorem clears_iff_grid {handle : BufferHandle} (hm : Mapped32 handle) (color : UInt32) :
    Clears handle color (clearColor handle color) ↔
      grid (pixelBytes * handle.width.toInt) pixelBytes handle.width.toInt handle.height.toInt =
        pixels handle := by
  constructor
  · intro h
    ext o
    have hiff := h ⟨o, color⟩
    rw [mem_clearColor hm] at hiff
    simpa using hiff
  · intro heq w
    rw [mem_clearColor hm, heq]

/-- The buffer has no padding, or not more than one row. -/
theorem clearColor_iff {handle : BufferHandle} (hm : Mapped32 handle) (color : UInt32) :
    (Clears handle color (clearColor handle color) ∧
        ∀ x y, ¬ InRange handle x y → setPixel handle x y color = []) ↔
      handle.width.toInt = 0 ∨ handle.height.toInt ≤ 1 ∨
        handle.stride.toInt = pixelBytes * handle.width.toInt := by
  rw [and_iff_left fun x y h => setPixel_outside h color, clears_iff_grid hm, pixels]
  exact grid_packed_iff (by decide) hm.width hm.stride

def packed : BufferHandle := ⟨2, 8, 3, 24, 12, some 0x1000⟩

theorem mapped_packed : Mapped32 packed := by
  constructor <;> decide

theorem clearColor_packed : Clears packed 0xff0000ff (clearColor packed 0xff0000ff) :=
  ((clearColor_iff mapped_packed 0xff0000ff).mpr (Or.inr (Or.inr rfl))).1

def padded : BufferHandle := ⟨1, 8, 2, 16, 12, some 0x1000⟩

/-- The second row is painted into the padding of the first. -/
theorem clearColor_padded :
    Mapped32 padded ∧ clearColor padded 0xff0000ff = [⟨0, 0xff0000ff⟩, ⟨4, 0xff0000ff⟩] ∧
      8 ∈ pixels padded ∧ ¬ Clears padded 0xff0000ff (clearColor padded 0xff0000ff) := by
  have hlast : 8 ∈ pixels padded := ⟨0, 1, by decide, by decide, rfl⟩
  refine ⟨by constructor <;> decide, by decide, hlast, fun h => ?_⟩
  have hwritten := (h ⟨8, 0xff0000ff⟩).mpr ⟨rfl, hlast⟩
  exact absurd hwritten (by decide)

end HdiLayerPixels
