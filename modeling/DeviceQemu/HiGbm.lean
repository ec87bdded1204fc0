import DeviceQemu.PlaneLayout

/-! Buffers of the GBM allocator.
hdi_gbm_bo_create asks the kernel for a dumb buffer that is high enough for all planes. The kernel
answers with a pitch and a 64-bit size, which a gbm_bo keeps in 32 bits. -/
namespace HiGbm

open PlaneLayout

inductive DrmFormat where
  | rgbx8888
  | rgba8888
  | bgrx8888
  | bgra8888
  | rgb888
  | rgb565
  | bgrx4444
  | bgra4444
  | rgba4444
  | rgbx4444
  | bgrx5551
  | bgra5551
  | nv12
  | nv21
  | nv16
  | nv61
  | yuv420
  | yvu420
  | yuv422
  | yvu422
  | xrgb8888
  | other (code : UInt32)
  deriving DecidableEq, Repr

def fmtInfos : List (FormatInfo DrmFormat) :=
  [⟨.rgbx8888, 32, none⟩, ⟨.rgba8888, 32, none⟩, ⟨.bgrx8888, 32, none⟩, ⟨.bgra8888, 32, none⟩,
    ⟨.rgb888, 24, none⟩, ⟨.rgb565, 16, none⟩, ⟨.bgrx4444, 16, none⟩, ⟨.bgra4444, 16, none⟩,
    ⟨.rgba4444, 16, none⟩, ⟨.rgbx4444, 16, none⟩, ⟨.bgrx5551, 16, none⟩, ⟨.bgra5551, 16, none⟩,
    ⟨.nv12, 8, some yuv420SPLayout⟩, ⟨.nv21, 8, some yuv420SPLayout⟩,
    ⟨.nv16, 8, some yuv422SPLayout⟩, ⟨.nv61, 8, some yuv422SPLayout⟩,
    ⟨.yuv420, 8, some yuv420PLayout⟩, ⟨.yvu420, 8, some yuv420PLayout⟩,
    ⟨.yuv422, 8, some yuv422PLayout⟩, ⟨.yvu422, 8, some yuv422PLayout⟩, ⟨.xrgb8888, 32, none⟩]

def getFormatInfo (format : DrmFormat) : Option (FormatInfo DrmFormat) :=
  fmtInfos.find? fun f => f.format = format

theorem regular_of_getFormatInfo {format : DrmFormat} {f : FormatInfo DrmFormat}
    (h : getFormatInfo format = some f) : f.Regular := by
  have hall : ∀ f ∈ fmtInfos, f.Regular := by decide
  exact hall f (List.mem_of_find?_eq_some h)

def adjustStrideFromFormat (format : DrmFormat) (height : UInt32) : UInt32 :=
  adjust (getFormatInfo format) height

structure DrmModeCreateDumb where
  height : UInt32
  width : UInt32
  bpp : UInt32
  flags : UInt32
  handle : UInt32
  pitch : UInt32
  size : UInt64
  deriving DecidableEq, Repr

structure GbmBo where
  gbm : ℕ
  width : UInt32
  height : UInt32
  format : DrmFormat
  handle : UInt32
  stride : UInt32
  size : UInt32
  deriving DecidableEq, Repr

/-- DRM_IOCTL_MODE_CREATE_DUMB fills in the last three fields or fails. -/
structure Kernel where
  createDumb : DrmModeCreateDumb → Option DrmModeCreateDumb
  pitch : ∀ dumb dumb', createDumb dumb = some dumb' →
    (dumb.width.toNat * dumb.bpp.toNat + 7) / 8 ≤ dumb'.pitch.toNat
  size : ∀ dumb dumb', createDumb dumb = some dumb' →
    dumb'.pitch.toNat * dumb.height.toNat ≤ dumb'.size.toNat

def initGbmBo (bo : GbmBo) (dumb : DrmModeCreateDumb) : GbmBo :=
  { bo with stride := dumb.pitch, size := dumb.size.toUInt32, handle := dumb.handle }

def request (format : DrmFormat) (f : FormatInfo DrmFormat) (width height : UInt32) :
    DrmModeCreateDumb where
  height := alignUp (adjustStrideFromFormat format height) heightAlign
  width := alignUp width widthAlign
  bpp := f.bitsPerPixel
  flags := 0
  handle := 0
  pitch := 0
  size := 0

/-- hdi_gbm_bo_create, where `calloc` is whether there is memory for the bo; with the bo comes the
dumb buffer behind it. -/
def hdiGbmBoCreate (k : Kernel) (calloc : Bool) (gbm : ℕ) (width height : UInt32)
    (format : DrmFormat) : Option (GbmBo × DrmModeCreateDumb) :=
  match getFormatInfo format with
  | none => none
  | some f =>
    if calloc then
      (k.createDumb (request format f width height)).map fun dumb =>
        (initGbmBo ⟨gbm, width, height, format, 0, 0, 0⟩ dumb, dumb)
    else none

theorem hdiGbmBoCreate_eq_some {k : Kernel} {calloc : Bool} {gbm : ℕ} {width height : UInt32}
    {format : DrmFormat} {bo : GbmBo} {dumb : DrmModeCreateDumb} :
    hdiGbmBoCreate k calloc gbm width height format = some (bo, dumb) ↔
      ∃ f, getFormatInfo format = some f ∧ calloc = true ∧
        k.createDumb (request format f width height) = some dumb ∧
        bo = initGbmBo ⟨gbm, width, height, format, 0, 0, 0⟩ dumb := by
  unfold hdiGbmBoCreate
  cases hf : getFormatInfo format with
  | none => simp
  | some f =>
    cases calloc with
    | false => simp
    | true =>
      simp only [if_true, Option.map_eq_some_iff, Prod.mk.injEq, Option.some.injEq, true_and,
        exists_eq_left']
      constructor
      · rintro ⟨dumb', hdumb, rfl, rfl⟩
        exact ⟨hdumb, rfl⟩
      · rintro ⟨hdumb, rfl⟩
        exact ⟨dumb, hdumb, rfl, rfl⟩

/-- What a bo records, next to the dumb buffer behind it. -/
structure Sound (m : Pitch) (f : FormatInfo DrmFormat) (bo : GbmBo) (dumb : DrmModeCreateDumb) :
    Prop where
  row : f.row bo.width.toNat ≤ bo.stride.toNat
  bytes : bo.stride.toNat * m.rows f bo.height.toNat ≤ bo.size.toNat
  allocated : bo.size.toNat ≤ dumb.size.toNat
  fits : bo.stride.toNat * m.rows f bo.height.toNat < 4294967296

/-- Neither the width nor the height, scaled and rounded up, overflows, and the size does not either;
or what is left after the overflow is enough all the same. -/
def Fits (m : Pitch) (f : FormatInfo DrmFormat) (width height : UInt32) (dumb : DrmModeCreateDumb) :
    Prop :=
  (width.toNat + 7 < 4294967296 ∨ f.row width.toNat ≤ dumb.pitch.toNat) ∧
    (f.Scales height.toNat ∧ height.toNat + 1 < 4294967296 ∧ dumb.size.toNat < 4294967296 ∨
      dumb.pitch.toNat * m.rows f height.toNat ≤ dumb.size.toNat % 4294967296)

theorem request_width {format : DrmFormat} {f : FormatInfo DrmFormat} {width height : UInt32}
    (h : width.toNat + 7 < 4294967296) :
    width.toNat ≤ (request format f width height).width.toNat := by
  have hwidth : (request format f width height).width.toNat = ceilTo width.toNat 8 :=
    alignUp_toNat (a := widthAlign) (by decide) h
  rw [hwidth, ceilTo]
  omega

theorem request_height_toNat {format : DrmFormat} {f : FormatInfo DrmFormat} {width height : UInt32}
    (hf : getFormatInfo format = some f) (hscales : f.Scales height.toNat)
    (h : f.scaled height.toNat + 1 < 4294967296) :
    (request format f width height).height.toNat = ceilTo (f.scaled height.toNat) 2 := by
  have hadjust : (adjustStrideFromFormat format height).toNat = f.scaled height.toNat := by
    rw [adjustStrideFromFormat, hf]
    exact adjust_toNat (regular_of_getFormatInfo hf) hscales
  rw [← hadjust]
  exact alignUp_toNat (a := heightAlign) (by decide) (by rwa [hadjust])

theorem request_height {format : DrmFormat} {f : FormatInfo DrmFormat} {width height : UInt32}
    (hf : getFormatInfo format = some f) (hscales : f.Scales height.toNat)
    (h : height.toNat + 1 < 4294967296) :
    f.scaled height.toNat ≤ (request format f width height).height.toNat := by
  have hregular := regular_of_getFormatInfo hf
  have hlt : f.scaled height.toNat + 1 < 4294967296 := by
    cases hp : f.planes with
    | none => rwa [scaled_none hp]
    | some p =>
      have hsmall := hscales p hp
      rw [(hregular.planes p hp).2.1, show UInt32.toNat 4 = 4 by rfl] at hsmall
      rw [scaled_planes hregular hp]
      omega
  rw [request_height_toNat hf hscales hlt, ceilTo]
  omega

theorem sound_iff (k : Kernel) (m : Pitch) {format : DrmFormat} {f : FormatInfo DrmFormat}
    (hf : getFormatInfo format = some f) (gbm : ℕ) {width height : UInt32} {dumb : DrmModeCreateDumb}
    (hdumb : k.createDumb (request format f width height) = some dumb) :
    Sound m f (initGbmBo ⟨gbm, width, height, format, 0, 0, 0⟩ dumb) dumb ↔
      Fits m f width height dumb := by
  have hregular := regular_of_getFormatInfo hf
  have hsize : (initGbmBo ⟨gbm, width, height, format, 0, 0, 0⟩ dumb).size.toNat =
      dumb.size.toNat % 4294967296 := UInt64.toNat_toUInt32 _
  constructor
  · intro h
    refine ⟨Or.inr h.row, Or.inr ?_⟩
    rw [← hsize]
    exact h.bytes
  · rintro ⟨hwidth, hheight⟩
    have hbytes : dumb.pitch.toNat * m.rows f height.toNat ≤ dumb.size.toNat % 4294967296 := by
      rcases hheight with ⟨hscales, hlt, hsmall⟩ | hbytes
      · rw [Nat.mod_eq_of_lt hsmall]
        have hrows := (Pitch.rows_le hregular height.toNat m).trans
          (@request_height format f width height hf hscales hlt)
        exact (Nat.mul_le_mul_left _ hrows).trans (k.size _ _ hdumb)
      · exact hbytes
    have hmod := Nat.mod_lt dumb.size.toNat (show 0 < 4294967296 by decide)
    constructor
    · rcases hwidth with hlt | hrow
      · have hpitch := k.pitch _ _ hdumb
        have hle := Nat.mul_le_mul_right f.bitsPerPixel.toNat (@request_width format f width height hlt)
        exact (Nat.div_le_div_right (Nat.add_le_add_right hle 7)).trans hpitch
      · exact hrow
    · rw [hsize]
      exact hbytes
    · rw [hsize]
      exact Nat.mod_le _ _
    · exact hbytes.trans_lt hmod

/-- Nothing that is asked for or recorded overflows. -/
def Plain (f : FormatInfo DrmFormat) (width height : UInt32) (dumb : DrmModeCreateDumb) : Prop :=
  width.toNat + 7 < 4294967296 ∧ f.Scales height.toNat ∧ height.toNat + 1 < 4294967296 ∧
    dumb.size.toNat < 4294967296

theorem Plain.fits {f : FormatInfo DrmFormat} {width height : UInt32} {dumb : DrmModeCreateDumb}
    (h : Plain f width height dumb) (m : Pitch) : Fits m f width height dumb :=
  ⟨Or.inl h.1, Or.inl h.2⟩

/-- A kernel that does not allocate more than it is asked for. -/
def Kernel.Exact (k : Kernel) : Prop :=
  ∀ dumb dumb', k.createDumb dumb = some dumb' →
    dumb'.pitch.toNat = (dumb.width.toNat * dumb.bpp.toNat + 7) / 8 ∧
      dumb'.size.toNat = dumb'.pitch.toNat * dumb.height.toNat

theorem height_le {format : DrmFormat} {f : FormatInfo DrmFormat} {width height : UInt32}
    (hf : getFormatInfo format = some f) (hscales : f.Scales height.toNat)
    (h : f.scaled height.toNat + 1 < 4294967296) (m : Pitch) :
    (request format f width height).height.toNat ≤ 2 * m.rows f height.toNat := by
  have hregular := regular_of_getFormatInfo hf
  rw [request_height_toNat hf hscales h, ceilTo]
  cases m with
  | first =>
    rw [Pitch.rows]
    omega
  | all =>
    rw [Pitch.rows]
    cases hp : f.planes with
    | none =>
      rw [scaled_none hp]
      omega
    | some p =>
      have hsum := (hregular.planes p hp).2.2
      rw [scaled_planes hregular hp]
      simp only [List.mem_cons, List.not_mem_nil, or_false] at hsum
      rcases hsum with hsum | hsum
      · rw [hsum, show UInt32.toNat 6 = 6 by rfl]
        omega
      · rw [hsum, show UInt32.toNat 8 = 8 by rfl]
        omega

theorem scales_of_rows {f : FormatInfo DrmFormat} (hregular : f.Regular) {m : Pitch} {height : ℕ}
    (h : m.rows f height * 8 < 4294967296) :
    f.Scales height ∧ height + 1 < 4294967296 ∧ f.scaled height + 1 < 4294967296 := by
  have hle : height ≤ m.rows f height := by
    cases m with
    | first => exact le_scaled hregular height
    | all => exact le_rfl
  cases hp : f.planes with
  | none =>
    rw [scaled_none hp]
    exact ⟨fun p hmem => absurd (hp ▸ hmem) (Option.not_mem_none p), by omega, by omega⟩
  | some p =>
    obtain ⟨-, hfirst, hsum⟩ := hregular.planes p hp
    rw [scaled_planes hregular hp]
    have hbound : height * p.sum.toNat ≤ height * 8 := by
      apply Nat.mul_le_mul_left
      simp only [List.mem_cons, List.not_mem_nil, or_false] at hsum
      rcases hsum with hsum | hsum <;> rw [hsum] <;> decide
    refine ⟨fun q hq => ?_, by omega, by omega⟩
    obtain rfl := Option.mem_some.mp (hp ▸ hq)
    rw [hfirst, show UInt32.toNat 4 = 4 by rfl]
    omega

section Exact

variable {k : Kernel} {m : Pitch} {format : DrmFormat} {f : FormatInfo DrmFormat} {gbm : ℕ}
  {width height : UInt32} {dumb : DrmModeCreateDumb}

theorem pitch_of_exact (hk : k.Exact)
    (hdumb : k.createDumb (request format f width height) = some dumb) :
    dumb.pitch.toNat =
      (ceilTo width.toNat 8 % 4294967296 * f.bitsPerPixel.toNat + 7) / 8 := by
  have hwidth : (request format f width height).width.toNat =
      ceilTo width.toNat 8 % 4294967296 := alignUp_mod.2
  rw [← hwidth]
  exact (hk _ _ hdumb).1

/-- The row that is recorded shows whether the width was rounded up without overflow. -/
theorem width_of_sound (hk : k.Exact) (hf : getFormatInfo format = some f)
    (hdumb : k.createDumb (request format f width height) = some dumb) (hpos : 0 < width.toNat)
    (hrow : f.row width.toNat ≤ dumb.pitch.toNat) :
    width.toNat + 7 < 4294967296 ∧ 8 ≤ dumb.pitch.toNat := by
  have hpitch := pitch_of_exact hk hdumb
  have hlt := width.toNat_lt
  have hbits : 8 ≤ f.bitsPerPixel.toNat := by
    have hmem := (regular_of_getFormatInfo hf).bits
    simp only [List.mem_cons, List.not_mem_nil, or_false] at hmem
    rcases hmem with hmem | hmem | hmem | hmem <;> rw [hmem] <;> decide
  change (width.toNat * f.bitsPerPixel.toNat + 7) / 8 ≤ _ at hrow
  have hsmall : width.toNat + 7 < 4294967296 := by
    by_contra hlarge
    have hlost : ceilTo width.toNat 8 % 4294967296 = 0 := by
      rw [ceilTo]
      omega
    rw [hlost, Nat.zero_mul] at hpitch
    have hle := Nat.mul_le_mul hpos hbits
    omega
  have hceil : 8 ≤ ceilTo width.toNat 8 % 4294967296 := by
    rw [ceilTo]
    omega
  have hle := Nat.mul_le_mul hceil hbits
  refine ⟨hsmall, ?_⟩
  rw [hpitch]
  omega

theorem plain_of_sound (hk : k.Exact) (hf : getFormatInfo format = some f)
    (hdumb : k.createDumb (request format f width height) = some dumb) (hpos : 0 < width.toNat)
    (h : Sound m f (initGbmBo ⟨gbm, width, height, format, 0, 0, 0⟩ dumb) dumb) :
    Plain f width height dumb := by
  obtain ⟨hsmall, hwide⟩ := width_of_sound hk hf hdumb hpos h.row
  have hfits : dumb.pitch.toNat * m.rows f height.toNat < 4294967296 := h.fits
  have hrows : m.rows f height.toNat * 8 < 4294967296 := by
    rw [Nat.mul_comm]
    exact (Nat.mul_le_mul_right _ hwide).trans_lt hfits
  obtain ⟨hscales, hheight, hscaled⟩ := scales_of_rows (regular_of_getFormatInfo hf) hrows
  refine ⟨hsmall, hscales, hheight, ?_⟩
  -- The size is at most twice what the rows take; the rest of an overflow would be too small.
  have htwice := Nat.mul_le_mul_left dumb.pitch.toNat
    (@height_le format f width height hf hscales hscaled m)
  rw [← (hk _ _ hdumb).2, Nat.mul_left_comm] at htwice
  have hsize : (initGbmBo ⟨gbm, width, height, format, 0, 0, 0⟩ dumb).size.toNat =
      dumb.size.toNat % 4294967296 := UInt64.toNat_toUInt32 _
  have hbytes : dumb.pitch.toNat * m.rows f height.toNat ≤ dumb.size.toNat % 4294967296 := by
    rw [← hsize]
    exact h.bytes
  omega

theorem fits_of_width_zero (hk : k.Exact)
    (hdumb : k.createDumb (request format f 0 height) = some dumb) :
    Fits m f 0 height dumb := by
  have hnone : dumb.pitch.toNat = 0 := by
    rw [pitch_of_exact hk hdumb, ceilTo]
    simp
  refine ⟨Or.inl (by decide), Or.inr ?_⟩
  rw [hnone, Nat.zero_mul]
  exact Nat.zero_le _

theorem sound_iff_of_exact (hk : k.Exact) (m : Pitch) (hf : getFormatInfo format = some f) (gbm : ℕ)
    (hdumb : k.createDumb (request format f width height) = some dumb) :
    Sound m f (initGbmBo ⟨gbm, width, height, format, 0, 0, 0⟩ dumb) dumb ↔
      width = 0 ∨ Plain f width height dumb := by
  constructor
  · intro h
    by_cases hzero : width = 0
    · exact Or.inl hzero
    have hpos : 0 < width.toNat := Nat.pos_of_ne_zero fun h0 => hzero (UInt32.toNat_inj.mp h0)
    exact Or.inr (plain_of_sound hk hf hdumb hpos h)
  · intro h
    refine (sound_iff k m hf gbm hdumb).mpr ?_
    obtain rfl | hplain := h
    · exact fits_of_width_zero hk hdumb
    · exact hplain.fits m

end Exact

/-- Every bo that hdi_gbm_bo_create returns is sound. -/
def CreatesSound (m : Pitch) (k : Kernel) (calloc : Bool) (gbm : ℕ) (width height : UInt32)
    (format : DrmFormat) : Prop :=
  ∀ bo dumb, hdiGbmBoCreate k calloc gbm width height format = some (bo, dumb) →
    ∃ f, getFormatInfo format = some f ∧ Sound m f bo dumb

/-- If hdi_gbm_bo_create gets as far as the ioctl and the ioctl answers, then with a `P`. -/
def Answered (P : FormatInfo DrmFormat → DrmModeCreateDumb → Prop) (k : Kernel) (calloc : Bool)
    (width height : UInt32) (format : DrmFormat) : Prop :=
  calloc = true → ∀ f, getFormatInfo format = some f →
    ∀ dumb, k.createDumb (request format f width height) = some dumb → P f dumb

theorem createsSound_iff_answered {m : Pitch} {k : Kernel} {calloc : Bool} {gbm : ℕ}
    {width height : UInt32} {format : DrmFormat} :
    CreatesSound m k calloc gbm width height format ↔
      Answered (fun f dumb =>
          Sound m f (initGbmBo ⟨gbm, width, height, format, 0, 0, 0⟩ dumb) dumb)
        k calloc width height format := by
  constructor
  · rintro h rfl f hf dumb hdumb
    obtain ⟨f', hf', hsound⟩ := h _ dumb (hdiGbmBoCreate_eq_some.mpr ⟨f, hf, rfl, hdumb, rfl⟩)
    rw [hf] at hf'
    cases hf'
    exact hsound
  · intro h bo dumb hcreate
    obtain ⟨f, hf, hcalloc, hdumb, rfl⟩ := hdiGbmBoCreate_eq_some.mp hcreate
    exact ⟨f, hf, h hcalloc f hf dumb hdumb⟩

theorem Answered.imp {P Q : FormatInfo DrmFormat → DrmModeCreateDumb → Prop} {k : Kernel}
    {calloc : Bool} {width height : UInt32} {format : DrmFormat}
    (himp : ∀ f dumb, getFormatInfo format = some f →
      k.createDumb (request format f width height) = some dumb → P f dumb → Q f dumb)
    (h : Answered P k calloc width height format) : Answered Q k calloc width height format :=
  fun hcalloc f hf dumb hdumb => himp f dumb hf hdumb (h hcalloc f hf dumb hdumb)

def linear : Kernel where
  createDumb dumb :=
    let pitch := (dumb.width.toNat * dumb.bpp.toNat + 7) / 8
    if pitch < 4294967296 ∧ pitch * dumb.height.toNat < 18446744073709551616 then
      some { dumb with
        handle := 1, pitch := .ofNat pitch, size := .ofNat (pitch * dumb.height.toNat) }
    else none
  pitch dumb dumb' h := by
    dsimp only at h
    split_ifs at h with hfits
    cases h
    rw [UInt32.toNat_ofNat', Nat.mod_eq_of_lt hfits.1]
  size dumb dumb' h := by
    dsimp only at h
    split_ifs at h with hfits
    cases h
    rw [UInt32.toNat_ofNat', Nat.mod_eq_of_lt hfits.1, UInt64.toNat_ofNat',
      Nat.mod_eq_of_lt hfits.2]

/-- The kernel allocates 2^32 + 2^19 bytes, of which the bo records the last 2^19. -/
example : (hdiGbmBoCreate linear true 3 0x10000 0x4002 .xrgb8888).map
    (fun (bo, dumb) => (bo.stride, bo.size, dumb.size)) =
      some (0x40000, 0x80000, 0x100080000) := by
  decide

end HiGbm
