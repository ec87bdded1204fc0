import DeviceQemu.Virtinput

/-! Where the pointer is on the screen.
The tablet reports an absolute position on each axis. ReportEventPkgCallback of riscv32 divides it by
a step, VirtinWorkCallback of LiteOS-A multiplies it by the resolution first. -/
namespace InputDev

open Virtinput

structure InputEventPackage where
  type : UInt32
  code : UInt32
  value : Int32
  deriving DecidableEq, Repr

/-- The coordinates of a point, with the integer type that they are stored in. It is at least as wide
as int16_t. -/
structure Coordinate where
  store : ℤ → ℤ
  store_eq : ∀ z, 0 ≤ z → z ≤ 0x7fff → store z = z

structure DeviceData where
  x : ℤ
  y : ℤ
  state : ℤ
  deriving DecidableEq, Repr

def evSyn : UInt32 := 0
def evKeyPkg : UInt32 := 1
def evRel : UInt32 := 2
def evAbsPkg : UInt32 := 3
def synReport : UInt32 := 0
def relX : UInt32 := 0
def relY : UInt32 := 1
def btnMouse : UInt32 := 0x110
def btnTouch : UInt32 := 0x14a

def absCode : Axis → UInt16
  | .x => absX
  | .y => absY

def DeviceData.get (data : DeviceData) : Axis → ℤ
  | .x => data.x
  | .y => data.y

def DeviceData.set (data : DeviceData) : Axis → ℤ → DeviceData
  | .x, z => { data with x := z }
  | .y, z => { data with y := z }

@[simp] theorem DeviceData.get_set (data : DeviceData) (axis : Axis) (z : ℤ) :
    (data.set axis z).get axis = z := by
  cases axis <;> rfl

/-- The resolution is that of HORIZONTAL_RESOLUTION or VERTICAL_RESOLUTION. -/
def fromAbs (resolution : ℤ) (value : Int32) : ℤ := value.toInt.tdiv ((0x7fff : ℤ).tdiv resolution)

def handle (c : Coordinate) (resolution : Axis → ℤ) (data : DeviceData) (p : InputEventPackage) :
    DeviceData × Bool :=
  if p.type = evRel then
    if p.code = relX then ({ data with x := c.store (data.x + p.value.toInt) }, true)
    else if p.code = relY then ({ data with y := c.store (data.y + p.value.toInt) }, true)
    else (data, true)
  else if p.type = evAbsPkg then
    if p.code = absX.toUInt32 then
      ({ data with x := c.store (fromAbs (resolution .x) p.value) }, true)
    else if p.code = absY.toUInt32 then
      ({ data with y := c.store (fromAbs (resolution .y) p.value) }, true)
    else (data, true)
  else if p.type = evKeyPkg then
    if p.code = btnMouse ∨ p.code = btnTouch then
      if p.value = 0 then ({ data with state := 0 }, true)
      else if p.value = 1 then ({ data with state := 1 }, true)
      else (data, true)
    else (data, true)
  else if p.type = evSyn then (data, decide (p.code ≠ synReport))
  else (data, true)

def handleAll (c : Coordinate) (resolution : Axis → ℤ) (data : DeviceData) :
    List InputEventPackage → DeviceData
  | [] => data
  | p :: pkgs =>
    if (handle c resolution data p).2 then handleAll c resolution (handle c resolution data p).1 pkgs
    else (handle c resolution data p).1

def reportEventPkgCallback (c : Coordinate) (resolution : Axis → ℤ) (deviceData : DeviceData) :
    Option (List InputEventPackage) → DeviceData
  | none => deviceData
  | some pkgs => handleAll c resolution deviceData pkgs

def absolute (axis : Axis) (value : Int32) : InputEventPackage :=
  ⟨evAbsPkg, (absCode axis).toUInt32, value⟩

def sync : InputEventPackage := ⟨evSyn, synReport, 0⟩

def Moves (axis : Axis) (p : InputEventPackage) : Prop :=
  (p.type = evRel ∨ p.type = evAbsPkg) ∧ p.code = (absCode axis).toUInt32

theorem handle_absolute (c : Coordinate) (resolution : Axis → ℤ) (data : DeviceData) (axis : Axis)
    (value : Int32) :
    handle c resolution data (absolute axis value) =
      (data.set axis (c.store (fromAbs (resolution axis) value)), true) := by
  cases axis <;> rfl

theorem handle_get {c : Coordinate} {resolution : Axis → ℤ} {data : DeviceData} {axis : Axis}
    {p : InputEventPackage} (h : ¬ Moves axis p) :
    (handle c resolution data p).1.get axis = data.get axis := by
  have hrel : relX = absX.toUInt32 ∧ relY = absY.toUInt32 := by decide
  rw [handle, hrel.1, hrel.2]
  cases axis with
  | x =>
    have hcode : (p.type = evRel ∨ p.type = evAbsPkg) → p.code ≠ absX.toUInt32 :=
      fun ht hc => h ⟨ht, hc⟩
    split_ifs with h1 h2 <;> first | rfl | exact absurd ‹_› (hcode (by simp [*]))
  | y =>
    have hcode : (p.type = evRel ∨ p.type = evAbsPkg) → p.code ≠ absY.toUInt32 :=
      fun ht hc => h ⟨ht, hc⟩
    split_ifs with h1 h2 <;> first | rfl | exact absurd ‹_› (hcode (by simp [*]))

theorem handleAll_get {c : Coordinate} {resolution : Axis → ℤ} {data : DeviceData} {axis : Axis}
    {pkgs : List InputEventPackage} (h : ∀ p ∈ pkgs, ¬ Moves axis p) :
    (handleAll c resolution data pkgs).get axis = data.get axis := by
  induction pkgs generalizing data with
  | nil => rfl
  | cons p pkgs ih =>
    obtain ⟨hp, hpkgs⟩ := List.forall_mem_cons.mp h
    rw [handleAll]
    split_ifs
    · rw [ih hpkgs, handle_get hp]
    · exact handle_get hp

/-- In a package no part of which is a report before its end, the last position on an axis is where
the pointer is. -/
theorem handleAll_absolute {c : Coordinate} {resolution : Axis → ℤ} {data : DeviceData} {axis : Axis}
    {before after : List InputEventPackage} {value : Int32}
    (hbefore : ∀ p ∈ before, ¬ (p.type = evSyn ∧ p.code = synReport))
    (hafter : ∀ p ∈ after, ¬ Moves axis p) :
    (handleAll c resolution data (before ++ absolute axis value :: after)).get axis =
      c.store (fromAbs (resolution axis) value) := by
  induction before generalizing data with
  | nil =>
    rw [List.nil_append, handleAll, handle_absolute, if_pos rfl, handleAll_get hafter,
      DeviceData.get_set]
  | cons p before ih =>
    obtain ⟨hp, hbefore⟩ := List.forall_mem_cons.mp hbefore
    have hgoes : (handle c resolution data p).2 = true := by
      rw [handle]
      split_ifs with _ _ _ _ _ _ _ _ _ _ hsyn <;> first | rfl | skip
      exact decide_eq_true fun hcode => hp ⟨hsyn, hcode⟩
    rw [List.cons_append, handleAll, if_pos hgoes]
    exact ih hbefore

/-- The coordinate is on a screen of `r` pixels. -/
def Inside (r z : ℤ) : Prop := 0 ≤ z ∧ z < r

/-- The coordinates follow the axis values up to `top`, from the first pixel to the last. -/
structure Covers (top : ℕ) (r : ℤ) (f : ℕ → ℤ) : Prop where
  mono : ∀ v v', v ≤ v' → v' ≤ top → f v ≤ f v'
  first : ∃ v ≤ top, f v = 0
  last : ∃ v ≤ top, f v = r - 1

def axisMax : ℕ := 0x7fff

/-- Where a report of `v` on an axis takes the pointer on riscv32. -/
def pointer (c : Coordinate) (resolution : Axis → ℤ) (data : DeviceData) (axis : Axis) (v : ℕ) : ℤ :=
  (reportEventPkgCallback c resolution data
    (some [absolute axis (Int32.ofNat v), sync])).get axis

def reported (sc : Screen) (axis : Axis) (v : ℕ) : ℤ :=
  (scaled sc ⟨evAbs, absCode axis, UInt32.ofNat v⟩).value.toNat

theorem pointer_eq (c : Coordinate) {resolution : Axis → ℤ} (data : DeviceData) {axis : Axis} {r : ℕ}
    (hr : resolution axis = r) {v : ℕ} (hv : v ≤ axisMax) :
    pointer c resolution data axis v = (v / (0x7fff / r) : ℕ) := by
  have hlast := @handleAll_absolute c resolution data axis [] [sync] (Int32.ofNat v)
    (fun p hp => absurd hp List.not_mem_nil) fun p hp hmoves => by
      rw [List.mem_singleton.mp hp] at hmoves
      exact absurd hmoves.1 (by decide)
  have hmax : axisMax = 0x7fff := rfl
  have htoInt : (Int32.ofNat v).toInt = v := Int32.toInt_ofNat_of_lt (by omega)
  have hcast : fromAbs (resolution axis) (Int32.ofNat v) = (v / (0x7fff / r) : ℕ) := by
    rw [fromAbs, htoInt, hr]
    rfl
  have hle : v / (0x7fff / r) ≤ 0x7fff := (Nat.div_le_self _ _).trans hv
  rw [hcast, c.store_eq _ (Int.natCast_nonneg _) (Int.ofNat_le.mpr hle)] at hlast
  exact hlast

theorem reported_eq (sc : Screen) (axis : Axis) {r : ℕ} (hr : (sc.res axis).toNat = r)
    (hle : r ≤ 0x7fff) {v : ℕ} (hv : v ≤ axisMax) :
    reported sc axis v = (v * r / 0x8000 : ℕ) := by
  have hmax : axisMax = 0x7fff := rfl
  have hvalue : (scaled sc ⟨evAbs, absCode axis, UInt32.ofNat v⟩).value =
      UInt32.ofNat v * sc.res axis / qemuTabletLen := by
    cases axis <;> rfl
  have hprod : v * r < 2 ^ 32 := by
    have hmul : v * r ≤ 0x7fff * 0x7fff := Nat.mul_le_mul (by omega) hle
    omega
  have hv32 : (UInt32.ofNat v).toNat = v := UInt32.toNat_ofNat_of_lt (by
    have hsize : UInt32.size = 2 ^ 32 := rfl
    omega)
  rw [reported, hvalue, UInt32.toNat_div, UInt32.toNat_mul, hv32, hr, Nat.mod_eq_of_lt hprod]
  rfl

section Scaling

variable {r : ℕ}

theorem scaled_inside (hpos : 0 < r) {v n : ℕ} (hv : v < n) :
    Inside r (v * r / n : ℕ) := by
  refine ⟨Int.natCast_nonneg _, Int.ofNat_lt.mpr ?_⟩
  apply Nat.div_lt_of_lt_mul
  exact Nat.mul_lt_mul_of_pos_right hv hpos

theorem scaled_covers (hpos : 0 < r) {top : ℕ} (hle : r ≤ top + 1) :
    Covers top r fun v => (v * r / (top + 1) : ℕ) := by
  constructor
  · intro v v' hle _
    exact Int.ofNat_le.mpr (Nat.div_le_div_right (Nat.mul_le_mul_right r hle))
  · refine ⟨0, Nat.zero_le _, ?_⟩
    rw [Nat.zero_mul, Nat.zero_div]
    rfl
  · refine ⟨top, le_rfl, ?_⟩
    have hdiv : top * r / (top + 1) = r - 1 := by
      apply Nat.div_eq_of_lt_le
      · rw [Nat.sub_mul, Nat.mul_comm r, Nat.add_mul]
        omega
      · rw [Nat.sub_add_cancel hpos, Nat.mul_comm r, Nat.add_mul]
        omega
    rw [hdiv]
    omega

theorem stepped_inside_iff {q v : ℕ} (hq : 0 < q) : Inside r (v / q : ℕ) ↔ v < r * q := by
  rw [Inside, Int.ofNat_lt, Nat.div_lt_iff_lt_mul hq]
  exact and_iff_right (Int.natCast_nonneg _)

theorem stepped_covers (hpos : 0 < r) {top : ℕ} (hle : r ≤ top) :
    Covers top r fun v => (v / (top / r) : ℕ) := by
  have hq : 0 < top / r := Nat.div_pos hle hpos
  constructor
  · intro v v' hle _
    exact Int.ofNat_le.mpr (Nat.div_le_div_right hle)
  · refine ⟨0, Nat.zero_le _, ?_⟩
    rw [Nat.zero_div]
    rfl
  · refine ⟨(r - 1) * (top / r), ?_, ?_⟩
    · calc (r - 1) * (top / r) ≤ r * (top / r) := Nat.mul_le_mul_right _ (Nat.sub_le r 1)
        _ ≤ top := Nat.mul_div_le top r
    · rw [Nat.mul_div_cancel _ hq]
      omega

end Scaling

theorem Covers.congr {top : ℕ} {r : ℤ} {f g : ℕ → ℤ} (h : Covers top r f)
    (heq : ∀ v ≤ top, g v = f v) : Covers top r g := by
  obtain ⟨first, hfirst, hzero⟩ := h.first
  obtain ⟨last, hlast, hend⟩ := h.last
  refine ⟨fun v v' hle hv' => ?_, ⟨first, hfirst, by rw [heq first hfirst, hzero]⟩,
    last, hlast, by rw [heq last hlast, hend]⟩
  rw [heq v (hle.trans hv'), heq v' hv']
  exact h.mono v v' hle hv'

/-- On LiteOS-A every position is right, on riscv32 every one that a whole number of steps
reaches. -/
theorem pointer_iff (c : Coordinate) {resolution : Axis → ℤ} (data : DeviceData) (sc : Screen)
    {axis : Axis} {r : ℕ} (hriscv : resolution axis = r) (hliteos : (sc.res axis).toNat = r)
    (hpos : 1 ≤ r) (hle : r ≤ 0x7fff) {v : ℕ} (hv : v ≤ axisMax) :
    (Inside r (pointer c resolution data axis v) ∧
        Covers axisMax r (pointer c resolution data axis) ∧
        Inside r (reported sc axis v) ∧ Covers axisMax r (reported sc axis)) ↔
      v < r * (0x7fff / r) := by
  have hmax : axisMax = 0x7fff := rfl
  have hcovers : Covers axisMax r (pointer c resolution data axis) :=
    (stepped_covers hpos hle).congr fun v hv => pointer_eq c data hriscv hv
  have hcovers' : Covers axisMax r (reported sc axis) :=
    (@scaled_covers r hpos axisMax (by omega)).congr fun v hv => reported_eq sc axis hliteos hle hv
  have hinside : Inside r (reported sc axis v) := by
    rw [reported_eq sc axis hliteos hle hv]
    exact scaled_inside hpos (by omega)
  rw [pointer_eq c data hriscv hv, stepped_inside_iff (Nat.div_pos hle hpos)]
  exact ⟨fun h => h.1, fun h => ⟨h, hcovers, hinside, hcovers'⟩⟩

theorem pointer_far_end (c : Coordinate) {resolution : Axis → ℤ} (data : DeviceData) {axis : Axis}
    {r : ℕ} (hr : resolution axis = r) (hpos : 1 ≤ r) (hle : r ≤ 0x7fff) :
    ¬ Inside r (pointer c resolution data axis axisMax) := by
  have hmul : r * (0x7fff / r) ≤ 0x7fff := Nat.mul_div_le 0x7fff r
  rw [pointer_eq c data hr le_rfl, stepped_inside_iff (Nat.div_pos hle hpos)]
  exact Nat.not_lt_of_le hmul

def int16 : Coordinate where
  store z := (Int16.ofInt z).toInt
  store_eq z hz hle := by
    have hsize : Int16.size = 2 ^ 16 := rfl
    rw [Int16.toInt_ofInt]
    exact Int.bmod_eq_of_le (by omega) (by omega)

theorem pointer_left_edge :
    Inside 800 (pointer int16 (fun _ => 800) ⟨5, 5, 0⟩ .x 31999) ∧
      Inside 800 (reported ⟨800, 480⟩ .x 31999) := by
  have h := (@pointer_iff int16 (fun _ => 800) ⟨5, 5, 0⟩ ⟨800, 480⟩ .x 800 rfl rfl (by decide)
    (by decide) 31999 (by decide)).mpr (by decide)
  exact ⟨h.1, h.2.2.1⟩

/-- On a screen 800 pixels wide the far end is pixel 819. -/
theorem pointer_right_edge :
    pointer int16 (fun _ => 800) ⟨0, 0, 0⟩ .x axisMax = 819 ∧
      ¬ Inside 800 (pointer int16 (fun _ => 800) ⟨0, 0, 0⟩ .x axisMax) ∧
      reported ⟨800, 480⟩ .x axisMax = 799 :=
  ⟨by decide, pointer_far_end int16 ⟨0, 0, 0⟩ rfl (by decide) (by decide), by decide⟩

end InputDev
