import DeviceQemu.VirtgpuFb

/-! Which mappings of the framebuffer stay inside it.
The check adds the byte offset and the size in 32 bits. -/
namespace VirtgpuFbMmap

open VirtgpuFb VirtgpuFb.LiteosA

variable {k : Kernel} {gpu : Virtgpu} {region : LosVmMapRegion}

/-- Where the region starts in the framebuffer, as the code computes it. -/
def byteOffset (region : LosVmMapRegion) : UInt32 := region.pgOff <<< pageShift

def InFramebuffer (k : Kernel) (gpu : Virtgpu) (p : Page) : Prop :=
  (p.paddr - k.vmmToDmaAddr gpu.fb).toNat + pageSize.toNat ≤ (virtgpuFbPageSize k gpu).toNat

def mapCall (k : Kernel) (gpu : Virtgpu) (region : LosVmMapRegion) : UInt32 × List Page :=
  k.archMmuMap region.base (k.vmmToDmaAddr (gpu.fb + byteOffset region))
    (region.size >>> pageShift) (region.regionFlags ||| k.uncached)

def pageAt (k : Kernel) (gpu : Virtgpu) (region : LosVmMapRegion) (i : ℕ) : Page :=
  ⟨region.base + UInt32.ofNat (i * pageSize.toNat),
    k.vmmToDmaAddr (gpu.fb + byteOffset region) + UInt32.ofNat (i * pageSize.toNat)⟩

/-- A successful mapping shows nothing but the framebuffer, and one that fails before the MMU is
asked shows nothing. -/
structure MmapRight (k : Kernel) (gpu : Virtgpu) (region : LosVmMapRegion) : Prop where
  inside : (fbMmap k gpu region).1 = 0 →
    ∀ p ∈ (fbMmap k gpu region).2.2, InFramebuffer k gpu p
  refused : (fbMmap k gpu region).1 ≠ 0 →
    (fbMmap k gpu region).2.2 = [] ∨ (mapCall k gpu region).1 ≠ region.size >>> pageShift

/-- The sum wraps to something the check accepts, and nothing else stops the mapping. -/
structure Escapes (k : Kernel) (gpu : Virtgpu) (region : LosVmMapRegion) : Prop where
  wraps : 2 ^ 32 ≤ (byteOffset region).toNat + region.size.toNat
  accepted : (byteOffset region).toNat + region.size.toNat - 2 ^ 32 ≤
    (virtgpuFbPageSize k gpu).toNat
  permitted : region.regionFlags &&& k.permExecute = 0
  mapped : (mapCall k gpu region).1 = region.size >>> pageShift

theorem toNat_byteOffset (region : LosVmMapRegion) :
    (byteOffset region).toNat = region.pgOff.toNat * 4096 % 2 ^ 32 := by
  have hshift : pageShift.toNat = 12 := by decide
  rw [byteOffset, UInt32.toNat_shiftLeft, hshift, Nat.shiftLeft_eq]

theorem toNat_pages (region : LosVmMapRegion) :
    (region.size >>> pageShift).toNat = region.size.toNat / 4096 := by
  have hshift : pageShift.toNat = 12 := by decide
  rw [UInt32.toNat_shiftRight, hshift, Nat.shiftRight_eq_div_pow]

theorem fbPageSize_dvd (k : Kernel) (gpu : Virtgpu) : 4096 ∣ (virtgpuFbPageSize k gpu).toNat :=
  k.align_dvd _

theorem distance (k : Kernel) (gpu : Virtgpu) (region : LosVmMapRegion) {i : ℕ}
    (hi : (byteOffset region).toNat + i * 4096 < 2 ^ 32) :
    ((pageAt k gpu region i).paddr - k.vmmToDmaAddr gpu.fb).toNat =
      (byteOffset region).toNat + i * 4096 := by
  have hsub : (pageAt k gpu region i).paddr - k.vmmToDmaAddr gpu.fb =
      byteOffset region + UInt32.ofNat (i * pageSize.toNat) := by
    simp only [pageAt]
    rw [k.vmmToDmaAddr_add, UInt32.add_assoc, UInt32.add_comm (k.vmmToDmaAddr gpu.fb),
      UInt32.add_sub_cancel]
  rw [hsub, UInt32.toNat_add, UInt32.toNat_ofNat', toNat_pageSize]
  omega

theorem accepted_iff :
    ¬ region.size + byteOffset region > virtgpuFbPageSize k gpu ↔
      ((byteOffset region).toNat + region.size.toNat) % 2 ^ 32 ≤
        (virtgpuFbPageSize k gpu).toNat := by
  rw [gt_iff_lt, UInt32.lt_iff_toNat_lt, UInt32.toNat_add, Nat.add_comm, Nat.not_lt]

theorem fbMmap_cases (k : Kernel) (gpu : Virtgpu) (region : LosVmMapRegion) :
    ((fbMmap k gpu region).1 = -1 ∧ (fbMmap k gpu region).2.2 = []) ∨
    ((fbMmap k gpu region).1 = -1 ∧ (mapCall k gpu region).1 ≠ region.size >>> pageShift) ∨
    ((fbMmap k gpu region).1 = 0 ∧
      ((byteOffset region).toNat + region.size.toNat) % 2 ^ 32 ≤
        (virtgpuFbPageSize k gpu).toNat ∧
      region.regionFlags &&& k.permExecute = 0 ∧
      (mapCall k gpu region).1 = region.size >>> pageShift ∧
      (fbMmap k gpu region).2.2 = (mapCall k gpu region).2) := by
  by_cases hrange : region.size + region.pgOff <<< pageShift > virtgpuFbPageSize k gpu
  · left
    simp only [fbMmap, if_pos hrange, and_self]
  · by_cases hexec : region.regionFlags &&& k.permExecute ≠ 0
    · left
      simp only [fbMmap, if_neg hrange, if_pos hexec, and_self]
    · right
      by_cases hmap : (mapCall k gpu region).1 ≠ region.size >>> pageShift
      · left
        refine ⟨?_, hmap⟩
        have hfail := hmap
        simp only [mapCall, byteOffset] at hfail
        simp only [fbMmap, if_neg hrange, if_neg hexec, if_pos hfail]
      · right
        have hdone := hmap
        simp only [mapCall, byteOffset] at hdone
        simp only [fbMmap, if_neg hrange, if_neg hexec, if_neg hdone]
        exact ⟨trivial, accepted_iff.mp hrange, not_not.mp hexec, not_not.mp hmap, rfl⟩

theorem fbMmap_succeeds
    (hrange : ((byteOffset region).toNat + region.size.toNat) % 2 ^ 32 ≤
      (virtgpuFbPageSize k gpu).toNat)
    (hexec : region.regionFlags &&& k.permExecute = 0)
    (hmap : (mapCall k gpu region).1 = region.size >>> pageShift) :
    (fbMmap k gpu region).1 = 0 ∧ (fbMmap k gpu region).2.2 = (mapCall k gpu region).2 := by
  have hcheck := accepted_iff.mpr hrange
  simp only [byteOffset] at hcheck
  have hdone := hmap
  simp only [mapCall, byteOffset] at hdone
  simp only [fbMmap, if_neg hcheck, hexec, ne_eq, not_true_eq_false, if_false, hdone]
  exact ⟨trivial, rfl⟩

theorem mem_mapCall {p : Page} (hmap : (mapCall k gpu region).1 = region.size >>> pageShift) :
    p ∈ (mapCall k gpu region).2 ↔
      ∃ i < region.size.toNat / 4096, pageAt k gpu region i = p := by
  have hpages : (mapCall k gpu region).2 =
      (List.range (region.size >>> pageShift).toNat).map (pageAt k gpu region) :=
    k.archMmuMap_all _ _ _ _ hmap
  rw [hpages, toNat_pages]
  simp only [List.mem_map, List.mem_range]

theorem inside_of_fits
    (hmap : (mapCall k gpu region).1 = region.size >>> pageShift)
    (hfits : (byteOffset region).toNat + region.size.toNat ≤ (virtgpuFbPageSize k gpu).toNat) :
    ∀ p ∈ (mapCall k gpu region).2, InFramebuffer k gpu p := by
  intro p hp
  obtain ⟨i, hi, rfl⟩ := (mem_mapCall hmap).mp hp
  have hlast := (virtgpuFbPageSize k gpu).toNat_lt
  have hend : (i + 1) * 4096 ≤ region.size.toNat := by omega
  rw [InFramebuffer, distance k gpu region (by omega), toNat_pageSize]
  omega

/-- When the sum wraps, the page where the framebuffer ends is mapped, or one behind it. -/
theorem escapes_outside (hsize : 4096 ∣ region.size.toNat) (h : Escapes k gpu region) :
    ∃ p ∈ (mapCall k gpu region).2, ¬ InFramebuffer k gpu p := by
  have hoff := toNat_byteOffset region
  have hdvd := fbPageSize_dvd k gpu
  have hlast := (virtgpuFbPageSize k gpu).toNat_lt
  have hwraps := h.wraps
  obtain ⟨i, hi, hend, hlt⟩ : ∃ i < region.size.toNat / 4096,
      (virtgpuFbPageSize k gpu).toNat ≤ (byteOffset region).toNat + i * 4096 ∧
      (byteOffset region).toNat + i * 4096 < 2 ^ 32 := by
    refine ⟨((virtgpuFbPageSize k gpu).toNat - (byteOffset region).toNat) / 4096, ?_, ?_, ?_⟩
    · omega
    · omega
    · omega
  refine ⟨pageAt k gpu region i, (mem_mapCall h.mapped).mpr ⟨i, hi, rfl⟩, ?_⟩
  rw [InFramebuffer, distance k gpu region hlt, toNat_pageSize]
  omega

theorem not_right_of_escapes (hsize : pageSize.toNat ∣ region.size.toNat)
    (h : Escapes k gpu region) : ¬ MmapRight k gpu region := by
  intro hright
  rw [toNat_pageSize] at hsize
  have hrange : ((byteOffset region).toNat + region.size.toNat) % 2 ^ 32 ≤
      (virtgpuFbPageSize k gpu).toNat := by
    have hwraps := h.wraps
    have haccepted := h.accepted
    have hoff := (byteOffset region).toNat_lt
    have hlt := region.size.toNat_lt
    omega
  obtain ⟨hret, hpages⟩ := fbMmap_succeeds hrange h.permitted h.mapped
  obtain ⟨p, hp, hout⟩ := escapes_outside hsize h
  apply hout
  apply hright.inside hret
  rw [hpages]
  exact hp

/-- Exactly the regions whose wrapped end the check mistakes for one inside let user space see
memory outside the framebuffer. -/
theorem mmap_right_iff (k : Kernel) (gpu : Virtgpu) (region : LosVmMapRegion)
    (hsize : pageSize.toNat ∣ region.size.toNat) :
    MmapRight k gpu region ↔ ¬ Escapes k gpu region := by
  have hfailed : (-1 : Int) ≠ 0 := by decide
  constructor
  · intro hright hesc
    exact not_right_of_escapes hsize hesc hright
  · intro hnot
    rcases fbMmap_cases k gpu region with ⟨hret, hnil⟩ | ⟨hret, hfail⟩ |
      ⟨hret, hrange, hexec, hmap, hpages⟩
    · constructor
      · intro h
        exact absurd (hret.symm.trans h) hfailed
      · exact fun _ => .inl hnil
    · constructor
      · intro h
        exact absurd (hret.symm.trans h) hfailed
      · exact fun _ => .inr hfail
    · refine ⟨fun _ => ?_, fun h => absurd hret h⟩
      rw [hpages]
      apply inside_of_fits hmap
      by_contra hover
      apply hnot
      have hoff := (byteOffset region).toNat_lt
      have hlt := region.size.toNat_lt
      refine ⟨?_, ?_, hexec, hmap⟩
      · omega
      · omega

def gpu800 : Virtgpu where
  screen := defaultScreen
  fb := 0x41000000
  fbBytes := 1536000
  backing := 1536000

theorem mmap_right_whole :
    MmapRight board gpu800 ⟨0x20000000, 0x177000, 0, 0⟩ ↔
      ¬ Escapes board gpu800 ⟨0x20000000, 0x177000, 0, 0⟩ :=
  mmap_right_iff board gpu800 ⟨0x20000000, 0x177000, 0, 0⟩ (by decide)

/-- Two pages from the last page offset on: the page before the framebuffer is mapped. -/
theorem last_offset_escapes : ¬ MmapRight board gpu800 ⟨0x20000000, 0x2000, 0xFFFFF, 0⟩ := by
  apply not_right_of_escapes (by decide)
  refine ⟨?_, ?_, ?_, rfl⟩
  · decide
  · decide
  · decide

end VirtgpuFbMmap
