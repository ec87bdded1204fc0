import DeviceQemu.VirtgpuFb

/-! For which displays the framebuffer sizes agree.
The driver multiplies the width and the height the device reports in 32 bits, and stores the
stride in a narrower type. -/
namespace VirtgpuFbSizing

open VirtgpuFb

variable {d : Device} {gpu : Virtgpu} {info : FbPlaneinfo} {coordBits : ℕ}

/-- What a working display has in common: the stride holds a row, and the backing and the
framebuffer hold all rows, as natural numbers. -/
structure Sizes (gpu : Virtgpu) (info : FbPlaneinfo) : Prop where
  stride : gpu.screen.width.toNat * pixelBytes.toNat ≤ info.stride.toNat
  fblen : info.fblen.toNat = gpu.screen.height.toNat * info.stride.toNat
  backing : gpu.screen.pixels * pixelBytes.toNat ≤ gpu.backing.toNat
  allocBacking : gpu.backing.toNat ≤ gpu.fbBytes
  allocFblen : info.fblen.toNat ≤ gpu.fbBytes

def SizingRight (coordBits : ℕ) (r : Int × Virtgpu) : Prop :=
  r.1 = 0 → ∀ info, fbGetPlaneInfo coordBits r.2 0 = some info → Sizes r.2 info

def Accepted (d : Device) (r : VirtgpuRect) (fb : UInt32) : Prop :=
  d.resourceCreate2D r.width r.height = true ∧
    d.resourceAttachBacking fb (r.width * r.height * pixelBytes) = true ∧
    d.setScanout ⟨0, 0, r.width, r.height⟩ = true

/-- A row fits the type of the stride, and the picture does not exceed `limit` bytes. -/
def Fits (coordBits limit : ℕ) (r : VirtgpuRect) : Prop :=
  r.width.toNat * 4 < 2 ^ coordBits ∧ r.pixels * 4 ≤ limit

theorem toNat_pixelBytes : pixelBytes.toNat = 4 := by decide

theorem planeInfo (h : fbGetPlaneInfo coordBits gpu 0 = some info) :
    info.stride = UInt32.ofNat ((gpu.screen.width * pixelBytes).toNat % 2 ^ coordBits) ∧
    info.fblen = info.stride * gpu.screen.height := by
  simp only [fbGetPlaneInfo, ne_eq, not_true_eq_false, if_false, Option.some.injEq] at h
  subst h
  exact ⟨rfl, rfl⟩

theorem toNat_stride (hbits : coordBits ≤ 32) (h : fbGetPlaneInfo coordBits gpu 0 = some info) :
    info.stride.toNat = gpu.screen.width.toNat * 4 % 2 ^ 32 % 2 ^ coordBits := by
  have hlt : (gpu.screen.width * pixelBytes).toNat % 2 ^ coordBits < 2 ^ 32 :=
    Nat.lt_of_lt_of_le (Nat.mod_lt _ (Nat.two_pow_pos _)) (Nat.pow_le_pow_right (by omega) hbits)
  rw [(planeInfo h).1, UInt32.toNat_ofNat', Nat.mod_eq_of_lt hlt, UInt32.toNat_mul,
    toNat_pixelBytes]

theorem row_fits (hbits : coordBits ≤ 32) (h : fbGetPlaneInfo coordBits gpu 0 = some info)
    (hrow : gpu.screen.width.toNat * 4 ≤ info.stride.toNat) :
    gpu.screen.width.toNat * 4 < 2 ^ coordBits := by
  have hlt : info.stride.toNat < 2 ^ coordBits := by
    rw [toNat_stride hbits h]
    exact Nat.mod_lt _ (Nat.two_pow_pos _)
  omega

theorem stride_of_fits (hbits : coordBits ≤ 32) (h : fbGetPlaneInfo coordBits gpu 0 = some info)
    (hsmall : gpu.screen.width.toNat * 4 < 2 ^ coordBits) :
    info.stride.toNat = gpu.screen.width.toNat * 4 := by
  have hpow : 2 ^ coordBits ≤ 2 ^ 32 := Nat.pow_le_pow_right (by omega) hbits
  have hword : gpu.screen.width.toNat * 4 < 2 ^ 32 := by omega
  rw [toNat_stride hbits h, Nat.mod_eq_of_lt hword, Nat.mod_eq_of_lt hsmall]

/-- With the backing the drivers attach, the sizes are right exactly where nothing wraps and the
allocation holds the picture. -/
theorem sizes_iff (hbits : coordBits ≤ 32) (h : fbGetPlaneInfo coordBits gpu 0 = some info)
    (hbacking : gpu.backing = gpu.screen.width * gpu.screen.height * pixelBytes) :
    Sizes gpu info ↔ Fits coordBits (2 ^ 32 - 1) gpu.screen ∧
      gpu.screen.pixels * 4 ≤ gpu.fbBytes := by
  have hlen : gpu.backing.toNat = gpu.screen.pixels * 4 % 2 ^ 32 := by
    rw [hbacking, toNat_bytes]
  have hfblen : info.fblen.toNat = info.stride.toNat * gpu.screen.height.toNat % 2 ^ 32 := by
    rw [(planeInfo h).2, UInt32.toNat_mul]
  have hrows : gpu.screen.width.toNat * 4 * gpu.screen.height.toNat = gpu.screen.pixels * 4 := by
    rw [VirtgpuRect.pixels, Nat.mul_right_comm, Nat.mul_comm gpu.screen.width.toNat]
  constructor
  · intro hsizes
    have hrow := hsizes.stride
    have hall := hsizes.backing
    have halloc := hsizes.allocBacking
    rw [toNat_pixelBytes] at hrow hall
    have hsmall := row_fits hbits h hrow
    have hlt : gpu.screen.pixels * 4 < 2 ^ 32 := by
      have := gpu.backing.toNat_lt
      omega
    exact ⟨⟨hsmall, by omega⟩, by omega⟩
  · rintro ⟨⟨hsmall, hlimit⟩, halloc⟩
    have hlt : gpu.screen.pixels * 4 < 2 ^ 32 := by omega
    have hrow := stride_of_fits hbits h hsmall
    rw [Nat.mod_eq_of_lt hlt] at hlen
    rw [hrow, hrows, Nat.mod_eq_of_lt hlt] at hfblen
    constructor
    · rw [toNat_pixelBytes, hrow]
    · rw [hfblen, hrow, Nat.mul_comm gpu.screen.height.toNat, hrows]
    · rw [toNat_pixelBytes, hlen]
    · rw [hlen]
      exact halloc
    · rw [hfblen]
      exact halloc

theorem helper_spec (d : Device) (gpu : Virtgpu) :
    ((virtgpuInitResourceHelper d gpu).1 = true ↔ Accepted d gpu.screen gpu.fb) ∧
    ((virtgpuInitResourceHelper d gpu).1 = true →
      (virtgpuInitResourceHelper d gpu).2 =
        { gpu with backing := gpu.screen.width * gpu.screen.height * pixelBytes }) := by
  unfold virtgpuInitResourceHelper Accepted
  by_cases hcreate : d.resourceCreate2D gpu.screen.width gpu.screen.height
  · by_cases hattach : d.resourceAttachBacking gpu.fb
        (gpu.screen.width * gpu.screen.height * pixelBytes)
    · simp [hcreate, hattach]
    · simp [hcreate, hattach]
  · simp [hcreate]

/-- The two drivers differ in where `fb` comes from and how many bytes were asked for. -/
theorem sizing_iff (hbits : coordBits ≤ 32) (fb : UInt32) (fbBytes : ℕ)
    (initResource : Device → Virtgpu → Bool × Virtgpu)
    (hinit : initResource d (cmdGetDisplayInfo d gpu) =
      if fb = 0 then (false, { cmdGetDisplayInfo d gpu with fb, fbBytes })
      else virtgpuInitResourceHelper d { cmdGetDisplayInfo d gpu with fb, fbBytes }) :
    SizingRight coordBits (upFbInitialize d initResource 0 gpu) ↔
      fb = 0 ∨ ¬ Accepted d (cmdGetDisplayInfo d gpu).screen fb ∨
        (Fits coordBits (2 ^ 32 - 1) (cmdGetDisplayInfo d gpu).screen ∧
          (cmdGetDisplayInfo d gpu).screen.pixels * 4 ≤ fbBytes) := by
  have hrun : upFbInitialize d initResource 0 gpu =
      (if (initResource d (cmdGetDisplayInfo d gpu)).1 then 0 else -1,
        (initResource d (cmdGetDisplayInfo d gpu)).2) := rfl
  obtain ⟨hok, hafter⟩ := helper_spec d { cmdGetDisplayInfo d gpu with fb, fbBytes }
  rw [hrun, hinit]
  by_cases hnull : fb = 0
  · rw [if_pos hnull]
    exact iff_of_true (by simp [SizingRight]) (.inl hnull)
  · rw [if_neg hnull, or_iff_right hnull]
    by_cases hacc : Accepted d (cmdGetDisplayInfo d gpu).screen fb
    · have htrue := hok.mpr hacc
      rw [htrue, hafter htrue, or_iff_right (not_not.mpr hacc)]
      obtain ⟨info, hinfo⟩ : ∃ info, fbGetPlaneInfo coordBits
          { cmdGetDisplayInfo d gpu with
            fb, fbBytes
            backing := (cmdGetDisplayInfo d gpu).screen.width *
              (cmdGetDisplayInfo d gpu).screen.height * pixelBytes } 0 = some info := ⟨_, rfl⟩
      have hsizes := sizes_iff hbits hinfo rfl
      constructor
      · intro hright
        exact hsizes.mp (hright rfl info hinfo)
      · intro hfits _ info' hinfo'
        obtain rfl := Option.some.inj (hinfo.symm.trans hinfo')
        exact hsizes.mpr hfits
    · have hfalse : (virtgpuInitResourceHelper d
          { cmdGetDisplayInfo d gpu with fb, fbBytes }).1 = false := by
        rw [Bool.eq_false_iff]
        exact mt hok.mp hacc
      rw [hfalse]
      exact iff_of_true (by simp [SizingRight]) (.inl hacc)

/-- The framebuffer the allocator hands out on LiteOS-A. -/
def liteosAFb (k : Kernel) (d : Device) (gpu : Virtgpu) : UInt32 :=
  k.physPagesAllocContiguous
    (LiteosA.virtgpuFbPageSize k (cmdGetDisplayInfo d gpu) / pageSize)

def riscv32Fb (losMemAlloc : UInt32 → UInt32) (d : Device) (gpu : Virtgpu) : UInt32 :=
  losMemAlloc (Riscv32.virtgpuFbPageSize (cmdGetDisplayInfo d gpu))

/-- The pages asked for hold the picture unless rounding up to pages leaves the 32 bits. -/
theorem pages_hold_iff (k : Kernel) (gpu : Virtgpu) (hlt : gpu.screen.pixels * 4 < 2 ^ 32) :
    gpu.screen.pixels * 4 ≤
        (LiteosA.virtgpuFbPageSize k gpu / pageSize).toNat * pageSize.toNat ↔
      gpu.screen.pixels * 4 ≤ 2 ^ 32 - 4096 := by
  have hbytes := toNat_bytes gpu.screen
  rw [Nat.mod_eq_of_lt hlt] at hbytes
  have hdvd := k.align_dvd (gpu.screen.width * gpu.screen.height * pixelBytes)
  have hspec := k.align_spec (gpu.screen.width * gpu.screen.height * pixelBytes)
  have hsize : (LiteosA.virtgpuFbPageSize k gpu / pageSize).toNat * pageSize.toNat =
      (LiteosA.virtgpuFbPageSize k gpu).toNat := by
    rw [UInt32.toNat_div]
    exact Nat.div_mul_cancel hdvd
  have hword := (LiteosA.virtgpuFbPageSize k gpu).toNat_lt
  rw [hsize]
  rw [toNat_pageSize] at hdvd hspec
  rw [hbytes] at hspec
  constructor
  · intro hle
    have hmul : 4096 ∣ (LiteosA.virtgpuFbPageSize k gpu).toNat := hdvd
    omega
  · intro hle
    have hround : (LiteosA.virtgpuFbPageSize k gpu).toNat = _ := hspec (by omega)
    rw [hround]
    omega

theorem liteosA_sizing_iff (k : Kernel) (d : Device) (gpu : Virtgpu) :
    SizingRight k.fbCoordBits (upFbInitialize d (LiteosA.virtgpuInitResource k) 0 gpu) ↔
      liteosAFb k d gpu = 0 ∨
      ¬ Accepted d (cmdGetDisplayInfo d gpu).screen (liteosAFb k d gpu) ∨
      Fits k.fbCoordBits (2 ^ 32 - 4096) (cmdGetDisplayInfo d gpu).screen := by
  rw [sizing_iff k.fbCoordBits_le (liteosAFb k d gpu) _ (LiteosA.virtgpuInitResource k) rfl]
  apply or_congr_right
  apply or_congr_right
  constructor
  · rintro ⟨⟨hrow, hlt⟩, halloc⟩
    exact ⟨hrow, (pages_hold_iff k _ (by omega)).mp halloc⟩
  · rintro ⟨hrow, hle⟩
    exact ⟨⟨hrow, by omega⟩, (pages_hold_iff k _ (by omega)).mpr hle⟩

theorem riscv32_sizing_iff (losMemAlloc : UInt32 → UInt32) (d : Device) (gpu : Virtgpu) :
    SizingRight Riscv32.fbCoordBits
        (upFbInitialize d (Riscv32.virtgpuInitResource losMemAlloc) 0 gpu) ↔
      riscv32Fb losMemAlloc d gpu = 0 ∨
      ¬ Accepted d (cmdGetDisplayInfo d gpu).screen (riscv32Fb losMemAlloc d gpu) ∨
      Fits Riscv32.fbCoordBits (2 ^ 32 - 1) (cmdGetDisplayInfo d gpu).screen := by
  rw [sizing_iff (by decide) (riscv32Fb losMemAlloc d gpu) _
    (Riscv32.virtgpuInitResource losMemAlloc) rfl]
  apply or_congr_right
  apply or_congr_right
  constructor
  · exact And.left
  · intro hfits
    refine ⟨hfits, ?_⟩
    have hlt := hfits.2
    rw [Riscv32.virtgpuFbPageSize, toNat_bytes, Nat.mod_eq_of_lt (by omega)]

/-- Which displays the two drivers size right, whatever the allocator and the device answer. -/
theorem sizing_right_iff (k : Kernel) (losMemAlloc : UInt32 → UInt32) (d : Device)
    (gpu : Virtgpu) :
    (SizingRight k.fbCoordBits (upFbInitialize d (LiteosA.virtgpuInitResource k) 0 gpu) ↔
      liteosAFb k d gpu = 0 ∨
      ¬ Accepted d (cmdGetDisplayInfo d gpu).screen (liteosAFb k d gpu) ∨
      Fits k.fbCoordBits (2 ^ 32 - 4096) (cmdGetDisplayInfo d gpu).screen) ∧
    (SizingRight Riscv32.fbCoordBits
        (upFbInitialize d (Riscv32.virtgpuInitResource losMemAlloc) 0 gpu) ↔
      riscv32Fb losMemAlloc d gpu = 0 ∨
      ¬ Accepted d (cmdGetDisplayInfo d gpu).screen (riscv32Fb losMemAlloc d gpu) ∨
      Fits Riscv32.fbCoordBits (2 ^ 32 - 1) (cmdGetDisplayInfo d gpu).screen) :=
  ⟨liteosA_sizing_iff k d gpu, riscv32_sizing_iff losMemAlloc d gpu⟩

/-- A device with a display of the given size that takes every command. -/
def display (width height : UInt32) : Device where
  displayInfo := some (⟨0, 0, width, height⟩, true)
  resourceCreate2D := fun _ _ => true
  resourceAttachBacking := fun _ _ => true
  setScanout := fun _ => true

def fresh : Virtgpu := ⟨⟨0, 0, 0, 0⟩, 0, 0, 0⟩

/-- The rows of the first display do not fit the stride, the picture of the second not the
length. -/
theorem large_displays_wrong :
    ¬ SizingRight board.fbCoordBits
        (upFbInitialize (display 16384 16) (LiteosA.virtgpuInitResource board) 0 fresh) ∧
    ¬ SizingRight board.fbCoordBits
        (upFbInitialize (display 0x8001 0x8000) (LiteosA.virtgpuInitResource board) 0 fresh) ∧
    ¬ SizingRight Riscv32.fbCoordBits
        (upFbInitialize (display 16384 16)
          (Riscv32.virtgpuInitResource fun _ => 0x81000000) 0 fresh) := by
  refine ⟨mt (liteosA_sizing_iff _ _ _).mp ?_, mt (liteosA_sizing_iff _ _ _).mp ?_,
    mt (riscv32_sizing_iff _ _ _).mp ?_⟩
  all_goals
    unfold Accepted Fits
    decide

end VirtgpuFbSizing
