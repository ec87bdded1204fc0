import Mathlib.Data.List.Basic
import Mathlib.Data.UInt

/-! The framebuffer of virtgpu.
How large it is, what the two drivers say about it, and how the LiteOS-A one maps it to user
space. Addresses and sizes are 32-bit machine numbers; the kernel is a parameter. -/
namespace VirtgpuFb

def pixelBytes : UInt32 := 4
def fbWidthDft : UInt32 := 800
def fbHeightDft : UInt32 := 480
def pageShift : UInt32 := 12
def pageSize : UInt32 := 4096
def byteBits : UInt8 := 8

structure VirtgpuRect where
  x : UInt32
  y : UInt32
  width : UInt32
  height : UInt32

/-- Of the driver's record what the framebuffer needs. `fbBytes` is the number of bytes asked of
the allocator for it and `backing` the length attached to the GPU resource. -/
structure Virtgpu where
  screen : VirtgpuRect
  fb : UInt32
  fbBytes : ℕ
  backing : UInt32

/-- What the device answers to the commands of one initialisation. -/
structure Device where
  /-- The rectangle of scanout 0 and whether it is enabled, if the command succeeds. -/
  displayInfo : Option (VirtgpuRect × Bool)
  resourceCreate2D : (width height : UInt32) → Bool
  resourceAttachBacking : (addr len : UInt32) → Bool
  setScanout : VirtgpuRect → Bool

def defaultScreen : VirtgpuRect := ⟨0, 0, fbWidthDft, fbHeightDft⟩

def cmdGetDisplayInfo (d : Device) (gpu : Virtgpu) : Virtgpu :=
  match d.displayInfo with
  | some (r, true) => { gpu with screen := r }
  | some (_, false) => { gpu with screen := defaultScreen }
  | none => { gpu with screen := defaultScreen }

def virtgpuInitResourceHelper (d : Device) (gpu : Virtgpu) : Bool × Virtgpu :=
  let w := gpu.screen.width
  let h := gpu.screen.height
  if d.resourceCreate2D w h then
    let len := w * h * pixelBytes
    if d.resourceAttachBacking gpu.fb len then
      (d.setScanout ⟨0, 0, w, h⟩, { gpu with backing := len })
    else (false, gpu)
  else (false, gpu)

def upFbInitialize (d : Device) (initResource : Device → Virtgpu → Bool × Virtgpu)
    (display : Int) (gpu : Virtgpu) : Int × Virtgpu :=
  if display ≠ 0 then (-1, gpu)
  else
    let r := initResource d (cmdGetDisplayInfo d gpu)
    (if r.1 then 0 else -1, r.2)

structure FbPlaneinfo where
  fbmem : UInt32
  fblen : UInt32
  stride : UInt32
  display : UInt8
  bpp : UInt8

/-- `coordBits` is the width of the type the stride is stored in. -/
def fbGetPlaneInfo (coordBits : ℕ) (gpu : Virtgpu) (planeno : Int) : Option FbPlaneinfo :=
  if planeno ≠ 0 then none
  else
    let stride := UInt32.ofNat ((gpu.screen.width * pixelBytes).toNat % 2 ^ coordBits)
    some
      { fbmem := gpu.fb
        stride
        fblen := stride * gpu.screen.height
        display := 0
        bpp := pixelBytes.toUInt8 * byteBits }

structure Page where
  vaddr : UInt32
  paddr : UInt32
  deriving DecidableEq

/-- What the driver uses of the LiteOS-A kernel. A page is mapped for each page counted, one
behind the other, when the number returned is the number asked for. -/
structure Kernel where
  align : UInt32 → UInt32 → UInt32
  align_dvd : ∀ a, pageSize.toNat ∣ (align a pageSize).toNat
  align_spec : ∀ a, a.toNat + pageSize.toNat ≤ 2 ^ 32 →
    (align a pageSize).toNat = (a.toNat + (pageSize.toNat - 1)) / pageSize.toNat * pageSize.toNat
  physPagesAllocContiguous : UInt32 → UInt32
  vmmToDmaAddr : UInt32 → UInt32
  vmmToDmaAddr_add : ∀ a k, vmmToDmaAddr (a + k) = vmmToDmaAddr a + k
  fbCoordBits : ℕ
  fbCoordBits_le : fbCoordBits ≤ 32
  permExecute : UInt32
  uncached : UInt32
  archMmuMap : (vaddr paddr count flags : UInt32) → UInt32 × List Page
  archMmuMap_all : ∀ vaddr paddr count flags, (archMmuMap vaddr paddr count flags).1 = count →
    (archMmuMap vaddr paddr count flags).2 = (List.range count.toNat).map fun i =>
      ⟨vaddr + UInt32.ofNat (i * pageSize.toNat), paddr + UInt32.ofNat (i * pageSize.toNat)⟩

namespace LiteosA

def virtgpuFbPageSize (k : Kernel) (gpu : Virtgpu) : UInt32 :=
  k.align (gpu.screen.width * gpu.screen.height * pixelBytes) pageSize

def virtgpuInitResource (k : Kernel) (d : Device) (gpu : Virtgpu) : Bool × Virtgpu :=
  let pages := virtgpuFbPageSize k gpu / pageSize
  let gpu := { gpu with
    fb := k.physPagesAllocContiguous pages
    fbBytes := pages.toNat * pageSize.toNat }
  if gpu.fb = 0 then (false, gpu) else virtgpuInitResourceHelper d gpu

structure LosVmMapRegion where
  base : UInt32
  size : UInt32
  pgOff : UInt32
  regionFlags : UInt32

def fbMmap (k : Kernel) (gpu : Virtgpu) (region : LosVmMapRegion) :
    Int × LosVmMapRegion × List Page :=
  if region.size + region.pgOff <<< pageShift > virtgpuFbPageSize k gpu then (-1, region, [])
  else if region.regionFlags &&& k.permExecute ≠ 0 then (-1, region, [])
  else
    let region := { region with regionFlags := region.regionFlags ||| k.uncached }
    let r := k.archMmuMap region.base (k.vmmToDmaAddr (gpu.fb + region.pgOff <<< pageShift))
      (region.size >>> pageShift) region.regionFlags
    if r.1 ≠ region.size >>> pageShift then (-1, region, r.2) else (0, region, r.2)

end LiteosA

namespace Riscv32

def fbCoordBits : ℕ := 16

def virtgpuFbPageSize (gpu : Virtgpu) : UInt32 :=
  gpu.screen.width * gpu.screen.height * pixelBytes

def virtgpuInitResource (losMemAlloc : UInt32 → UInt32) (d : Device) (gpu : Virtgpu) :
    Bool × Virtgpu :=
  let size := virtgpuFbPageSize gpu
  let gpu := { gpu with fb := losMemAlloc size, fbBytes := size.toNat }
  if gpu.fb = 0 then (false, gpu) else virtgpuInitResourceHelper d gpu

end Riscv32

def VirtgpuRect.pixels (r : VirtgpuRect) : ℕ := r.height.toNat * r.width.toNat

theorem toNat_bytes (r : VirtgpuRect) :
    (r.width * r.height * pixelBytes).toNat = r.pixels * 4 % 2 ^ 32 := by
  have hfour : pixelBytes.toNat = 4 := by decide
  rw [UInt32.toNat_mul, UInt32.toNat_mul, hfour, Nat.mod_mul_mod, VirtgpuRect.pixels,
    Nat.mul_comm r.width.toNat]

theorem toNat_pageSize : pageSize.toNat = 4096 := by decide

theorem roundUp_toNat (a : UInt32) :
    ((a + (pageSize - 1)) / pageSize * pageSize).toNat =
      (a.toNat + 4095) % 2 ^ 32 / 4096 * 4096 := by
  have hmask : (pageSize - 1).toNat = 4095 := by decide
  rw [UInt32.toNat_mul, UInt32.toNat_div, UInt32.toNat_add, hmask, toNat_pageSize]
  apply Nat.mod_eq_of_lt
  omega

/-- A kernel with its memory at 0x40000000, of which the framebuffer is at 0x41000000. -/
def board : Kernel where
  align := fun a b => (a + (b - 1)) / b * b
  align_dvd := by
    intro a
    rw [roundUp_toNat, toNat_pageSize]
    exact Nat.dvd_mul_left ..
  align_spec := by
    intro a ha
    rw [toNat_pageSize] at ha ⊢
    rw [roundUp_toNat, Nat.mod_eq_of_lt (by omega)]
  physPagesAllocContiguous := fun pages => if pages = 0 then 0 else 0x41000000
  vmmToDmaAddr := fun a => a + 0x40000000
  vmmToDmaAddr_add := by
    intro a k
    rw [UInt32.add_assoc, UInt32.add_comm k, ← UInt32.add_assoc]
  fbCoordBits := 16
  fbCoordBits_le := by decide
  permExecute := 0x20
  uncached := 0x1
  archMmuMap := fun vaddr paddr count _ =>
    (count, (List.range count.toNat).map fun i =>
      ⟨vaddr + UInt32.ofNat (i * pageSize.toNat), paddr + UInt32.ofNat (i * pageSize.toNat)⟩)
  archMmuMap_all := fun _ _ _ _ _ => rfl

end VirtgpuFb
