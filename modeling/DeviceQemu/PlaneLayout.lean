import Mathlib.Data.List.Basic
import Mathlib.Data.UInt

/-! Plane layouts.
The tables of pixel formats in display_gralloc and in the GBM allocator have one shape, and both
files round 32-bit sizes with the same two macros. -/
namespace PlaneLayout

def maxPlanes : ℕ := 3
def heightAlign : UInt32 := 2
def widthAlign : UInt32 := 8

def divRoundUp (n d : UInt32) : UInt32 := (n + d - 1) / d

def alignUp (x a : UInt32) : UInt32 := (x + (a - 1)) / a * a

structure PlaneLayoutInfo where
  numPlanes : ℕ
  radio : List UInt32
  deriving DecidableEq, Repr

structure FormatInfo (φ : Type*) where
  format : φ
  bitsPerPixel : UInt32
  planes : Option PlaneLayoutInfo
  deriving DecidableEq, Repr

def yuv420SPLayout : PlaneLayoutInfo := ⟨2, [4, 2]⟩
def yuv420PLayout : PlaneLayoutInfo := ⟨3, [4, 1, 1]⟩
def yuv422SPLayout : PlaneLayoutInfo := ⟨2, [4, 4]⟩
def yuv422PLayout : PlaneLayoutInfo := ⟨3, [4, 2, 2]⟩

def PlaneLayoutInfo.first (p : PlaneLayoutInfo) : UInt32 := p.radio.getD 0 0

def PlaneLayoutInfo.sum (p : PlaneLayoutInfo) : UInt32 :=
  (List.range' 1 (min p.numPlanes maxPlanes - 1)).foldl (fun sum i => sum + p.radio.getD i 0) p.first

/-- What both AdjustStrideFromFormat compute from a width or a height. -/
def adjust {φ : Type*} (fmtInfo : Option (FormatInfo φ)) (x : UInt32) : UInt32 :=
  match fmtInfo.bind FormatInfo.planes with
  | none => x
  | some p => if 0 < p.sum then divRoundUp (x * p.sum) p.first else x

def ceilTo (n a : ℕ) : ℕ := (n + (a - 1)) / a * a

/-- `n` scaled to all planes, rounded up. -/
def FormatInfo.scaled {φ : Type*} (f : FormatInfo φ) (n : ℕ) : ℕ :=
  match f.planes with
  | none => n
  | some p => (n * p.sum.toNat + p.first.toNat - 1) / p.first.toNat

/-- Scaling `n` does not overflow 32 bits. -/
def FormatInfo.Scales {φ : Type*} (f : FormatInfo φ) (n : ℕ) : Prop :=
  ∀ p ∈ f.planes, n * p.sum.toNat + p.first.toNat - 1 < 4294967296

/-- A row of `n` pixels of the first plane in bytes. -/
def FormatInfo.row {φ : Type*} (f : FormatInfo φ) (n : ℕ) : ℕ := (n * f.bitsPerPixel.toNat + 7) / 8

/-- What a stride is from: one row of the first plane to the next, or one row of all planes. -/
inductive Pitch where
  | first
  | all
  deriving DecidableEq, Repr

/-- The strides that an image of `height` rows takes. -/
def Pitch.rows {φ : Type*} (f : FormatInfo φ) (height : ℕ) : Pitch → ℕ
  | .first => f.scaled height
  | .all => height

structure FormatInfo.Regular {φ : Type*} (f : FormatInfo φ) : Prop where
  bits : f.bitsPerPixel ∈ [8, 16, 24, 32]
  planes : ∀ p ∈ f.planes, f.bitsPerPixel = 8 ∧ p.first = 4 ∧ p.sum ∈ [6, 8]

theorem FormatInfo.regular_iff {φ : Type*} (f : FormatInfo φ) : f.Regular ↔
    f.bitsPerPixel ∈ [8, 16, 24, 32] ∧
      ∀ p ∈ f.planes, f.bitsPerPixel = 8 ∧ p.first = 4 ∧ p.sum ∈ [6, 8] :=
  ⟨fun h => ⟨h.bits, h.planes⟩, fun h => ⟨h.1, h.2⟩⟩

instance {φ : Type*} (f : FormatInfo φ) : Decidable f.Regular := decidable_of_iff _ f.regular_iff.symm

theorem alignUp_toNat {x a : UInt32} (ha : 0 < a.toNat)
    (h : x.toNat + (a.toNat - 1) < 4294967296) : (alignUp x a).toNat = ceilTo x.toNat a.toNat := by
  have hpred : (a - 1).toNat = a.toNat - 1 := by
    have hle : (1 : UInt32) ≤ a := ha
    exact UInt32.toNat_sub_of_le a 1 hle
  have hle := Nat.div_mul_le_self (x.toNat + (a.toNat - 1)) a.toNat
  rw [alignUp, UInt32.toNat_mul, UInt32.toNat_div, UInt32.toNat_add, hpred, Nat.mod_eq_of_lt h,
    Nat.mod_eq_of_lt (hle.trans_lt h), ceilTo]

theorem alignUp_mod {x : UInt32} :
    (alignUp x heightAlign).toNat = ceilTo x.toNat 2 % 4294967296 ∧
      (alignUp x widthAlign).toNat = ceilTo x.toNat 8 % 4294967296 := by
  have hx := x.toNat_lt
  constructor
  · rw [alignUp, UInt32.toNat_mul, UInt32.toNat_div, UInt32.toNat_add,
      show (heightAlign - 1).toNat = 1 by rfl, show heightAlign.toNat = 2 by rfl, ceilTo]
    omega
  · rw [alignUp, UInt32.toNat_mul, UInt32.toNat_div, UInt32.toNat_add,
      show (widthAlign - 1).toNat = 7 by rfl, show widthAlign.toNat = 8 by rfl, ceilTo]
    omega

theorem adjust_none {φ : Type*} {f : FormatInfo φ} (h : f.planes = none) (x : UInt32) :
    adjust (some f) x = x := by simp [adjust, h]

theorem adjust_planes {φ : Type*} {f : FormatInfo φ} (hf : f.Regular) {p : PlaneLayoutInfo}
    (h : f.planes = some p) (x : UInt32) : (adjust (some f) x).toNat =
      (x.toNat * p.sum.toNat + 3) % 4294967296 / 4 := by
  obtain ⟨-, hfirst, hsum⟩ := hf.planes p h
  have hpos : 0 < p.sum := by
    simp only [List.mem_cons, List.not_mem_nil, or_false] at hsum
    rcases hsum with hsum | hsum <;> rw [hsum] <;> decide
  have hadjust : adjust (some f) x = divRoundUp (x * p.sum) p.first := by simp [adjust, h, hpos]
  rw [hadjust, divRoundUp, hfirst, UInt32.toNat_div, UInt32.toNat_sub, UInt32.toNat_add,
    UInt32.toNat_mul, show UInt32.toNat 4 = 4 by rfl, show UInt32.toNat 1 = 1 by rfl]
  omega

theorem scaled_none {φ : Type*} {f : FormatInfo φ} (h : f.planes = none) (n : ℕ) :
    f.scaled n = n := by simp [FormatInfo.scaled, h]

theorem scaled_planes {φ : Type*} {f : FormatInfo φ} (hf : f.Regular) {p : PlaneLayoutInfo}
    (h : f.planes = some p) (n : ℕ) : f.scaled n = (n * p.sum.toNat + 3) / 4 := by
  simp [FormatInfo.scaled, h, (hf.planes p h).2.1]

theorem le_scaled {φ : Type*} {f : FormatInfo φ} (hf : f.Regular) (n : ℕ) : n ≤ f.scaled n := by
  cases hp : f.planes with
  | none => rw [scaled_none hp]
  | some p =>
    have hsum := (hf.planes p hp).2.2
    rw [scaled_planes hf hp]
    simp only [List.mem_cons, List.not_mem_nil, or_false] at hsum
    rcases hsum with hsum | hsum
    · rw [hsum, show UInt32.toNat 6 = 6 by rfl]
      omega
    · rw [hsum, show UInt32.toNat 8 = 8 by rfl]
      omega

theorem Pitch.rows_le {φ : Type*} {f : FormatInfo φ} (hf : f.Regular) (height : ℕ) (m : Pitch) :
    m.rows f height ≤ f.scaled height := by
  cases m with
  | first => exact le_rfl
  | all => exact le_scaled hf height

theorem adjust_toNat {φ : Type*} {f : FormatInfo φ} (hf : f.Regular) {x : UInt32}
    (h : f.Scales x.toNat) : (adjust (some f) x).toNat = f.scaled x.toNat := by
  cases hp : f.planes with
  | none => rw [adjust_none hp, scaled_none hp]
  | some p =>
    have hlt := h p hp
    rw [(hf.planes p hp).2.1, show UInt32.toNat 4 = 4 by rfl] at hlt
    rw [adjust_planes hf hp, scaled_planes hf hp, Nat.mod_eq_of_lt (by omega)]

end PlaneLayout
