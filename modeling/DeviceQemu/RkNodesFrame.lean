import DeviceQemu.RkNodes
import Mathlib.Data.List.TakeDrop
import Mathlib.Order.MinMax

/-! Where the frame is.
A flag of the buffer says which of its two memories holds the frame. What the codec node encodes,
where it leaves the payload, and which memory the exif node edits. -/
namespace RkNodes

theorem Memory.write_of_le {m : Memory} {x : List UInt8} (h : x.length ≤ m.size) :
    (m.write x).bytes = x := List.take_of_length_le h

theorem Memory.write_self (m : Memory) : m.write m.bytes = m := by
  obtain ⟨size, bytes, fits⟩ := m
  simp only [Memory.write, List.take_of_length_le fits]

def known (g target : Geometry) : Bool :=
  convertOhosFormat2RkFormat g.format ≠ .unknown && convertOhosFormat2RkFormat target.format ≠ .unknown

/-- A frame in the surface memory can be copied to virAddress. -/
def Copies (b : IBuffer) : Prop :=
  b.isValidDataInSurfaceBuffer = true → 0 < b.virAddress.size ∧ b.surfaceBuffer.size ≤ b.virAddress.size

instance (b : IBuffer) : Decidable (Copies b) := by
  unfold Copies
  infer_instance

def Transforms (b : IBuffer) (target : Geometry) : Prop :=
  b.cur ≠ target ∧ known b.cur target ∧ Copies b

instance (b : IBuffer) (target : Geometry) : Decidable (Transforms b target) := by
  unfold Transforms
  infer_instance

theorem checkIfNeedDoTransform_same {b : IBuffer} (h : b.cur = b.target) :
    checkIfNeedDoTransform b = (b, false) := by
  rw [checkIfNeedDoTransform, if_pos h]

theorem checkIfNeedDoTransform_fails {b : IBuffer} (h : b.cur ≠ b.target) (hcopy : ¬ Copies b) :
    checkIfNeedDoTransform b =
      ({ b with virAddress := b.virAddress.write (List.replicate b.virAddress.size 0) }, false) := by
  have hflag : b.isValidDataInSurfaceBuffer = true := by
    by_contra hflag
    exact hcopy fun htrue => absurd htrue hflag
  have hsize : b.virAddress.size = 0 ∨ b.virAddress.size < b.surfaceBuffer.size := by
    by_contra hsize
    exact hcopy fun _ => by omega
  simp only [checkIfNeedDoTransform, if_neg h, hflag, if_true, memcpyS, if_pos hsize, Bool.not_false]

/-- The frame is in virAddress then, in the surface memory too if it was there. -/
theorem checkIfNeedDoTransform_copies {b : IBuffer} (h : b.cur ≠ b.target) (hcopy : Copies b) :
    checkIfNeedDoTransform b =
      ({ b with virAddress := b.virAddress.write b.frame }, known b.cur b.target) := by
  have hcopied : (if b.isValidDataInSurfaceBuffer then
      memcpyS b.virAddress b.surfaceBuffer.bytes b.surfaceBuffer.size else (b.virAddress, true)) =
        (b.virAddress.write b.frame, true) := by
    cases hflag : b.isValidDataInSurfaceBuffer with
    | false => simp [IBuffer.frame, hflag, Memory.write_self]
    | true =>
      obtain ⟨hpos, hle⟩ := hcopy hflag
      have hfit : ¬ (b.virAddress.size = 0 ∨ b.virAddress.size < b.surfaceBuffer.size) := by omega
      simp [IBuffer.frame, hflag, memcpyS, hfit, List.take_of_length_le b.surfaceBuffer.fits]
  rw [checkIfNeedDoTransform, if_neg h, hcopied]
  by_cases hsrc : convertOhosFormat2RkFormat b.cur.format = .unknown
  · simp [known, hsrc]
  · by_cases hdst : convertOhosFormat2RkFormat b.target.format = .unknown
    · simp [known, hdst]
    · simp [known, hsrc, hdst]

/-- The geometry that an encoder of `format` takes. -/
def IBuffer.inFormat (b : IBuffer) (format : Format) : Geometry := { b.target with format := format }

def converted (blit : Blit) (b : IBuffer) (target : Geometry) : List UInt8 :=
  blit b.cur.rect target.rect b.frame

/-- virAddress after BufferFormatTransform. -/
def virAfter (blit : Blit) (malloc : Bool) (b : IBuffer) (target : Geometry) : Memory :=
  if b.cur = target then b.virAddress
  else if ¬ Copies b then b.virAddress.write (List.replicate b.virAddress.size 0)
  else if known b.cur target ∧ malloc then b.virAddress.write (converted blit b target)
  else b.virAddress.write b.frame

def stays (malloc : Bool) (b : IBuffer) (target : Geometry) : Bool :=
  b.isValidDataInSurfaceBuffer && !(Transforms b target ∧ malloc)

theorem frame_le_of_copies {b : IBuffer} (h : Copies b) : b.frame.length ≤ b.virAddress.size := by
  unfold IBuffer.frame
  split_ifs with hflag
  · exact b.surfaceBuffer.fits.trans (h hflag).2
  · exact b.virAddress.fits

/-- Without the temporary buffer the frame counts as converted all the same. -/
theorem transform_eq (blit : Blit) (malloc : Bool) (b : IBuffer) :
    bufferScaleFormatTransform blit malloc false b =
      { b with
        virAddress := virAfter blit malloc b b.target
        isValidDataInSurfaceBuffer := stays malloc b b.target
        cur := if Transforms b b.target then b.target else b.cur } := by
  unfold bufferScaleFormatTransform
  by_cases hsame : b.cur = b.target
  · have hidle : ¬ Transforms b b.target := fun h => h.1 hsame
    have hvir : virAfter blit malloc b b.target = b.virAddress := if_pos hsame
    have hstays : stays malloc b b.target = b.isValidDataInSurfaceBuffer := by simp [stays, hidle]
    rw [checkIfNeedDoTransform_same hsame, hvir, hstays, if_neg hidle]
    rfl
  · by_cases hcopy : Copies b
    · rw [checkIfNeedDoTransform_copies hsame hcopy]
      cases hknown : known b.cur b.target with
      | false => simp [virAfter, stays, Transforms, hsame, hcopy, hknown]
      | true =>
        cases malloc with
        | false =>
          simp [virAfter, stays, Transforms, hsame, hcopy, hknown, transformToVirAddress]
        | true =>
          have hframe := List.take_of_length_le (frame_le_of_copies hcopy)
          simp [virAfter, stays, Transforms, hsame, hcopy, hknown, transformToVirAddress, converted,
            hframe]
          rfl
    · rw [checkIfNeedDoTransform_fails hsame hcopy]
      simp [virAfter, stays, Transforms, hsame, hcopy]

theorem bufferFormatTransform_eq (blit : Blit) (malloc : Bool) (b : IBuffer) (format : Format) :
    bufferFormatTransform blit malloc b format =
      { b with
        virAddress := virAfter blit malloc b (b.inFormat format)
        isValidDataInSurfaceBuffer := stays malloc b (b.inFormat format)
        cur := if Transforms b (b.inFormat format) then b.inFormat format else b.cur } := by
  rw [bufferFormatTransform, transform_eq]
  rfl

/-- `x` is the frame in the geometry `target`. -/
def ConvertedTo (blit : Blit) (b : IBuffer) (target : Geometry) (x : List UInt8) : Prop :=
  if b.cur = target then x = b.frame else known b.cur target ∧ x = converted blit b target

def encoderFormat : EncodeType → Format → Format
  | .jpeg, _ => .rgb888
  | .h264, _ => .ycrcb420p
  | _, format => format

/-- An encoded frame is a payload of EsFrameSize bytes, if there are any; without an encoder the
frame itself is, as the buffer then describes it. -/
def HoldsPayload (blit : Blit) (b : IBuffer) (d : Delivered) : Prop :=
  match b.encodeType with
  | .jpeg | .h264 => d.buffer.statusOk → 0 < d.buffer.esFrameSize →
      d.payload = some d.buffer.frame ∧ d.buffer.esFrameSize = d.buffer.frame.length
  | _ => ConvertedTo blit b d.buffer.cur d.buffer.frame

structure Tracked (blit : Blit) (addCustomExifInfo : ℤ → List UInt8 → Option (List UInt8))
    (r : Replies) (gps : ℕ) (b : IBuffer) : Prop where
  input : ∀ x, (deliverBuffer blit r b).encoderInput = some x →
    ConvertedTo blit b (b.inFormat (encoderFormat b.encodeType b.target.format)) x
  payload : HoldsPayload blit b (deliverBuffer blit r b)
  exif : ∀ m, (exifDeliverBuffer addCustomExifInfo gps (deliverBuffer blit r b).buffer).2 = some m →
    m = (deliverBuffer blit r b).buffer.place

/-- The frame reaches virAddress as RGB: without a conversion it must be there already; else the
formats must be known, the temporary memories be had and the picture fit. Where they are not had,
bytes that happen to be the same do. -/
def ReachesJpeg (blit : Blit) (r : Replies) (b : IBuffer) : Prop :=
  let rgb := b.inFormat .rgb888
  if b.cur = rgb then b.isValidDataInSurfaceBuffer → b.virAddress.bytes = b.surfaceBuffer.bytes
  else known b.cur rgb ∧
    if ¬ Copies b then converted blit b rgb = List.replicate b.virAddress.size 0
    else if r.malloc then (converted blit b rgb).length ≤ b.virAddress.size
    else converted blit b rgb = b.frame

/-- The frame reaches the surface memory as planar YUV. -/
def ReachesH264 (blit : Blit) (r : Replies) (b : IBuffer) : Prop :=
  let yuv := b.inFormat .ycrcb420p
  if b.cur = yuv then b.frame.length ≤ b.surfaceBuffer.size
  else known b.cur yuv ∧
    if Copies b ∧ r.malloc then (converted blit b yuv).length ≤ b.virAddress.size ∧
      (converted blit b yuv).length ≤ b.surfaceBuffer.size
    else converted blit b yuv = b.frame.take b.surfaceBuffer.size

def StreamFits (r : Replies) (b : IBuffer) : Prop :=
  match r.h264 with
  | some stream => stream.length ≤ b.virAddress.size
  | none => r.frameSize = 0

def HasSurface (r : Replies) (b : IBuffer) : Prop :=
  stays r.malloc b (b.inFormat .ycrcb420p) = true ∨ 0 < b.surfaceBuffer.size

def JpegFits (r : Replies) (b : IBuffer) : Prop :=
  0 < b.surfaceBuffer.size ∧ r.jpeg.length ≤ b.surfaceBuffer.size

def Trackable (blit : Blit) (r : Replies) (gps : ℕ) (b : IBuffer) : Prop :=
  if b.statusOk then
    match b.encodeType with
    | .jpeg => ReachesJpeg blit r b ∧
        (0 < gps → ¬ JpegFits r b ∧ stays r.malloc b (b.inFormat .rgb888) = false)
    | .h264 => HasSurface r b →
        if r.halCtx then ReachesH264 blit r b ∧ StreamFits r b else b.esFrameSize ≤ 0
    | .null => Transforms b b.target → (converted blit b b.target).length ≤ b.surfaceBuffer.size
    | .other _ => True
  else b.encodeType = .jpeg → 0 < gps → b.esFrameSize ≠ -1 → b.isValidDataInSurfaceBuffer = false

theorem jpeg_input_iff (blit : Blit) (r : Replies) (b : IBuffer) :
    ConvertedTo blit b (b.inFormat .rgb888) (virAfter blit r.malloc b (b.inFormat .rgb888)).bytes ↔
      ReachesJpeg blit r b := by
  unfold ConvertedTo ReachesJpeg virAfter
  by_cases hsame : b.cur = b.inFormat .rgb888
  · simp only [if_pos hsame, IBuffer.frame]
    split_ifs with hflag <;> simp [hflag]
  · simp only [if_neg hsame]
    refine and_congr_right fun hknown => ?_
    by_cases hcopy : Copies b
    · have hframe := List.take_of_length_le (frame_le_of_copies hcopy)
      cases r.malloc with
      | false => simpa [hcopy, hframe] using eq_comm
      | true => simp [hcopy, hknown]
    · simpa [hcopy] using eq_comm

def encoded (blit : Blit) (r : Replies) (b : IBuffer) : List UInt8 :=
  let yuv := b.inFormat .ycrcb420p
  if stays r.malloc b yuv then b.surfaceBuffer.bytes
  else (virAfter blit r.malloc b yuv).bytes.take b.surfaceBuffer.size

/-- Where nothing is converted the frame is encoded as far as the surface memory takes it. -/
theorem encoded_kept {blit : Blit} {r : Replies} {b : IBuffer}
    (h : ¬ (Transforms b (b.inFormat .ycrcb420p) ∧ r.malloc)) :
    encoded blit r b = b.frame.take b.surfaceBuffer.size := by
  have hstays : stays r.malloc b (b.inFormat .ycrcb420p) = b.isValidDataInSurfaceBuffer := by
    simp only [stays, h, decide_false, Bool.not_false, Bool.and_true]
  unfold encoded
  simp only [hstays]
  cases hflag : b.isValidDataInSurfaceBuffer with
  | true => simp [IBuffer.frame, hflag, List.take_of_length_le b.surfaceBuffer.fits]
  | false =>
    have hcopy : Copies b := fun htrue => absurd htrue (by simp [hflag])
    have hvir : virAfter blit r.malloc b (b.inFormat .ycrcb420p) = b.virAddress := by
      unfold virAfter
      split_ifs with hsame hdone
      · rfl
      · exact absurd ⟨⟨hsame, hdone.1, hcopy⟩, hdone.2⟩ h
      · simp [IBuffer.frame, hflag, Memory.write_self]
    simp [hvir, IBuffer.frame, hflag]

theorem encoded_converted {blit : Blit} {r : Replies} {b : IBuffer}
    (h : Transforms b (b.inFormat .ycrcb420p)) (hmalloc : r.malloc = true) :
    encoded blit r b =
      ((converted blit b (b.inFormat .ycrcb420p)).take b.virAddress.size).take b.surfaceBuffer.size := by
  simp [encoded, stays, virAfter, h, h.1, h.2.1, h.2.2, hmalloc]

theorem h264_input_iff (blit : Blit) (r : Replies) (b : IBuffer) :
    ConvertedTo blit b (b.inFormat .ycrcb420p) (encoded blit r b) ↔ ReachesH264 blit r b := by
  unfold ConvertedTo ReachesH264
  by_cases hsame : b.cur = b.inFormat .ycrcb420p
  · rw [if_pos hsame, if_pos hsame, encoded_kept fun h => h.1.1 hsame]
    exact List.take_eq_self_iff _
  · rw [if_neg hsame, if_neg hsame]
    refine and_congr_right fun hknown => ?_
    by_cases hdone : Copies b ∧ r.malloc
    · rw [if_pos hdone, encoded_converted ⟨hsame, hknown, hdone.1⟩ hdone.2, List.take_take,
        List.take_eq_self_iff, le_min_iff, and_comm]
    · rw [if_neg hdone, encoded_kept fun h => hdone ⟨h.1.2.2, h.2⟩]
      exact eq_comm

theorem exif_iff (addCustomExifInfo : ℤ → List UInt8 → Option (List UInt8)) (gps : ℕ) (b : IBuffer) :
    (∀ m, (exifDeliverBuffer addCustomExifInfo gps b).2 = some m → m = b.place) ↔
      (b.encodeType = .jpeg → 0 < gps → b.esFrameSize ≠ -1 → b.isValidDataInSurfaceBuffer = false) := by
  have hplace : .virAddress = b.place ↔ b.isValidDataInSurfaceBuffer = false := by
    cases hflag : b.isValidDataInSurfaceBuffer <;> simp [IBuffer.place, hflag]
  unfold exifDeliverBuffer
  split_ifs with h
  · cases addCustomExifInfo b.esFrameSize b.virAddress.bytes <;> simp [h, hplace]
  · refine iff_of_true (fun m hm => hm.elim) fun htype hgps hsize => ?_
    exact absurd ⟨htype, hgps, hsize⟩ h

theorem tracked_iff_of_deliver {blit : Blit}
    {addCustomExifInfo : ℤ → List UInt8 → Option (List UInt8)} {r : Replies} {gps : ℕ} {b : IBuffer}
    {d : Delivered} (h : deliverBuffer blit r b = d) :
    Tracked blit addCustomExifInfo r gps b ↔
      (∀ x, d.encoderInput = some x →
        ConvertedTo blit b (b.inFormat (encoderFormat b.encodeType b.target.format)) x) ∧
      HoldsPayload blit b d ∧
      (d.buffer.encodeType = .jpeg → 0 < gps → d.buffer.esFrameSize ≠ -1 →
        d.buffer.isValidDataInSurfaceBuffer = false) := by
  subst h
  rw [← exif_iff addCustomExifInfo]
  constructor
  · rintro ⟨hinput, hpayload, hexif⟩
    exact ⟨hinput, hpayload, hexif⟩
  · rintro ⟨hinput, hpayload, hexif⟩
    exact ⟨hinput, hpayload, hexif⟩

theorem yuv420ToJpeg_fits {blit : Blit} {r : Replies} {b : IBuffer} (h : JpegFits r b) :
    yuv420ToJpeg blit r b =
      ⟨{ b with
          virAddress := virAfter blit r.malloc b (b.inFormat .rgb888)
          surfaceBuffer := b.surfaceBuffer.write r.jpeg
          isValidDataInSurfaceBuffer := true
          cur := if Transforms b (b.inFormat .rgb888) then b.inFormat .rgb888 else b.cur
          esFrameSize := r.jpeg.length },
        some (virAfter blit r.malloc b (b.inFormat .rgb888)).bytes, some r.jpeg⟩ := by
  have hfit : ¬ (b.surfaceBuffer.size = 0 ∨ b.surfaceBuffer.size < r.jpeg.length) := by
    have := h.1
    have := h.2
    omega
  simp [yuv420ToJpeg, bufferFormatTransform_eq, memcpyS, hfit]

theorem yuv420ToJpeg_fails {blit : Blit} {r : Replies} {b : IBuffer} (h : ¬ JpegFits r b) :
    yuv420ToJpeg blit r b =
      ⟨{ b with
          virAddress := virAfter blit r.malloc b (b.inFormat .rgb888)
          surfaceBuffer := b.surfaceBuffer.write (List.replicate b.surfaceBuffer.size 0)
          isValidDataInSurfaceBuffer := stays r.malloc b (b.inFormat .rgb888)
          cur := if Transforms b (b.inFormat .rgb888) then b.inFormat .rgb888 else b.cur
          esFrameSize := 0 },
        some (virAfter blit r.malloc b (b.inFormat .rgb888)).bytes, some r.jpeg⟩ := by
  have hfit : b.surfaceBuffer.size = 0 ∨ b.surfaceBuffer.size < r.jpeg.length := by
    by_contra hfit
    exact h ⟨by omega, by omega⟩
  simp [yuv420ToJpeg, bufferFormatTransform_eq, memcpyS, hfit]

/-- The payload of a JPEG is where the flag says; the exif node looks elsewhere. -/
theorem jpeg_iff (blit : Blit) (addCustomExifInfo : ℤ → List UInt8 → Option (List UInt8))
    (r : Replies) (gps : ℕ) {b : IBuffer} (hok : b.statusOk = true) (htype : b.encodeType = .jpeg) :
    Tracked blit addCustomExifInfo r gps b ↔ Trackable blit r gps b := by
  have hd : deliverBuffer blit r b = yuv420ToJpeg blit r b := by simp [deliverBuffer, hok, htype]
  have hmet : Trackable blit r gps b ↔ ReachesJpeg blit r b ∧
      (0 < gps → ¬ JpegFits r b ∧ stays r.malloc b (b.inFormat .rgb888) = false) := by
    simp [Trackable, hok, htype]
  rw [hmet, ← jpeg_input_iff]
  by_cases hfit : JpegFits r b
  · have hpayload : HoldsPayload blit b (yuv420ToJpeg blit r b) := by
      rw [yuv420ToJpeg_fits hfit, HoldsPayload, htype]
      intro _ _
      simp [IBuffer.frame, List.take_of_length_le hfit.2]
    rw [yuv420ToJpeg_fits hfit] at hd hpayload
    rw [tracked_iff_of_deliver hd, htype]
    constructor
    · rintro ⟨hinput, -, hexif⟩
      refine ⟨hinput _ rfl, fun hgps => ?_⟩
      have hflag : true = false := hexif rfl hgps (by simp)
      exact absurd hflag (by simp)
    · rintro ⟨hinput, hexif⟩
      refine ⟨fun x hx => Option.some.inj hx ▸ hinput, hpayload, fun _ hgps _ => ?_⟩
      exact absurd hfit (hexif hgps).1
  · have hpayload : HoldsPayload blit b (yuv420ToJpeg blit r b) := by
      rw [yuv420ToJpeg_fails hfit, HoldsPayload, htype]
      intro _ hpos
      exact absurd hpos (by simp)
    rw [yuv420ToJpeg_fails hfit] at hd hpayload
    rw [tracked_iff_of_deliver hd, htype]
    constructor
    · rintro ⟨hinput, -, hexif⟩
      exact ⟨hinput _ rfl, fun hgps => ⟨hfit, hexif rfl hgps (by simp)⟩⟩
    · rintro ⟨hinput, hexif⟩
      exact ⟨fun x hx => Option.some.inj hx ▸ hinput, hpayload, fun _ hgps _ => (hexif hgps).2⟩

/-- What the H264 path has made of the buffer when it comes to the encoder. -/
def beforeH264 (blit : Blit) (r : Replies) (b : IBuffer) : IBuffer :=
  let yuv := b.inFormat .ycrcb420p
  { b with
    virAddress := virAfter blit r.malloc b yuv
    surfaceBuffer := b.surfaceBuffer.write (encoded blit r b)
    isValidDataInSurfaceBuffer := stays r.malloc b yuv
    cur := if Transforms b yuv then yuv else b.cur }

theorem yuv420ToH264_surface {blit : Blit} {r : Replies} {b : IBuffer} (h : HasSurface r b) :
    yuv420ToH264 blit r b =
      if !r.halCtx then ⟨beforeH264 blit r b, none, none⟩ else halMppEncode r (beforeH264 blit r b) := by
  unfold yuv420ToH264 beforeH264 encoded
  rw [bufferFormatTransform_eq]
  cases hstays : stays r.malloc b (b.inFormat .ycrcb420p) with
  | true => simp [hstays, Memory.write_self]
  | false =>
    have hpos : 0 < b.surfaceBuffer.size := h.resolve_left (by simp [hstays])
    simp [hstays, memcpyS, hpos.ne']

theorem yuv420ToH264_noSurface (blit : Blit) {r : Replies} {b : IBuffer} (h : ¬ HasSurface r b) :
    ∃ c : IBuffer, c.statusOk = false ∧ c.encodeType = b.encodeType ∧
      yuv420ToH264 blit r b = ⟨c, none, none⟩ := by
  obtain ⟨hstays, hzero⟩ := not_or.mp h
  have hstays := Bool.eq_false_of_not_eq_true hstays
  have hzero : b.surfaceBuffer.size = 0 := by omega
  unfold yuv420ToH264
  rw [bufferFormatTransform_eq]
  simp [memcpyS, hstays, hzero]

theorem virAfter_size (blit : Blit) (malloc : Bool) (b : IBuffer) (target : Geometry) :
    (virAfter blit malloc b target).size = b.virAddress.size := by
  unfold virAfter
  split_ifs <;> rfl

theorem encoded_le (blit : Blit) (r : Replies) (b : IBuffer) :
    (encoded blit r b).length ≤ b.surfaceBuffer.size := by
  simp only [encoded]
  split_ifs
  · exact b.surfaceBuffer.fits
  · exact List.length_take_le ..

theorem halMppEncode_payload_iff (r : Replies) (b : IBuffer) :
    (0 < (halMppEncode r b).buffer.esFrameSize →
      (halMppEncode r b).payload = some (halMppEncode r b).buffer.frame ∧
        (halMppEncode r b).buffer.esFrameSize = (halMppEncode r b).buffer.frame.length) ↔
      StreamFits r b := by
  unfold halMppEncode StreamFits IBuffer.frame
  cases r.h264 with
  | none => simp
  | some stream =>
    simp only [Option.map_some, Option.getD_some, Bool.false_eq_true, if_false, Memory.write_bytes,
      Option.some.injEq, Int.natCast_pos]
    constructor
    · intro h
      rcases Nat.eq_zero_or_pos stream.length with hzero | hpos
      · omega
      · exact (List.take_eq_self_iff _).mp (h hpos).1.symm
    · intro h _
      rw [List.take_of_length_le h]
      exact ⟨rfl, rfl⟩

/-- Without a surface memory the buffer is marked invalid; without a context it is passed on with
the size that it had. -/
theorem h264_iff (blit : Blit) (addCustomExifInfo : ℤ → List UInt8 → Option (List UInt8))
    (r : Replies) (gps : ℕ) {b : IBuffer} (hok : b.statusOk = true) (htype : b.encodeType = .h264) :
    Tracked blit addCustomExifInfo r gps b ↔ Trackable blit r gps b := by
  have hd : deliverBuffer blit r b = yuv420ToH264 blit r b := by simp [deliverBuffer, hok, htype]
  have hmet : Trackable blit r gps b ↔ (HasSurface r b →
      if r.halCtx then ReachesH264 blit r b ∧ StreamFits r b else b.esFrameSize ≤ 0) := by
    simp [Trackable, hok, htype]
  rw [tracked_iff_of_deliver hd, hmet, HoldsPayload, htype]
  by_cases hsurface : HasSurface r b
  · rw [yuv420ToH264_surface hsurface, ← h264_input_iff, forall_prop_of_true hsurface]
    cases r.halCtx with
    | false => simp [beforeH264, hok, htype]
    | true =>
      have hpayload := halMppEncode_payload_iff r (beforeH264 blit r b)
      have hfits : StreamFits r (beforeH264 blit r b) ↔ StreamFits r b := by
        simp only [StreamFits, beforeH264, virAfter_size]
      have hinput : (halMppEncode r (beforeH264 blit r b)).encoderInput = some (encoded blit r b) :=
        congrArg some (Memory.write_of_le (encoded_le blit r b))
      have hstatus : (halMppEncode r (beforeH264 blit r b)).buffer.statusOk = true := hok
      have hjpeg : (halMppEncode r (beforeH264 blit r b)).buffer.encodeType = .h264 := htype
      simp only [Bool.not_true, Bool.false_eq_true, if_false, if_true, hinput, hstatus, hjpeg]
      simp only [Option.some.injEq, forall_eq', encoderFormat, reduceCtorEq, false_imp_iff, and_true,
        forall_const]
      rw [hpayload, hfits]
  · obtain ⟨c, hstatus, hjpeg, heq⟩ := yuv420ToH264_noSurface blit hsurface
    simp [heq, hstatus, hjpeg, htype, hsurface]

theorem transformToFd_eq (blit : Blit) (malloc : Bool) {b : IBuffer} (h : Transforms b b.target) :
    bufferScaleFormatTransform blit malloc true b =
      { b with
        virAddress := b.virAddress.write b.frame
        surfaceBuffer := b.surfaceBuffer.write (converted blit b b.target)
        isValidDataInSurfaceBuffer := true
        cur := b.target } := by
  have hframe := List.take_of_length_le (frame_le_of_copies h.2.2)
  unfold bufferScaleFormatTransform
  rw [checkIfNeedDoTransform_copies h.1 h.2.2, h.2.1]
  simp [transformToFd, converted, hframe]

theorem transformToFd_idle (blit : Blit) (malloc : Bool) {b : IBuffer}
    (h : ¬ Transforms b b.target) :
    (bufferScaleFormatTransform blit malloc true b).frame = b.frame ∧
      (bufferScaleFormatTransform blit malloc true b).cur = b.cur ∧
      (bufferScaleFormatTransform blit malloc true b).encodeType = b.encodeType := by
  unfold bufferScaleFormatTransform
  by_cases hsame : b.cur = b.target
  · rw [checkIfNeedDoTransform_same hsame]
    exact ⟨rfl, rfl, rfl⟩
  · by_cases hcopy : Copies b
    · have hframe := List.take_of_length_le (frame_le_of_copies hcopy)
      have hunknown : known b.cur b.target = false := by
        by_contra hknown
        exact h ⟨hsame, Bool.eq_true_of_not_eq_false hknown, hcopy⟩
      rw [checkIfNeedDoTransform_copies hsame hcopy, hunknown]
      refine ⟨?_, rfl, rfl⟩
      cases hflag : b.isValidDataInSurfaceBuffer with
      | false => simpa [IBuffer.frame, hflag] using b.virAddress.fits
      | true => simp [IBuffer.frame, hflag]
    · have hflag : b.isValidDataInSurfaceBuffer = true := by
        by_contra hflag
        exact hcopy fun htrue => absurd htrue hflag
      rw [checkIfNeedDoTransform_fails hsame hcopy]
      simp [IBuffer.frame, hflag]

theorem null_iff (blit : Blit) (addCustomExifInfo : ℤ → List UInt8 → Option (List UInt8))
    (r : Replies) (gps : ℕ) {b : IBuffer} (hok : b.statusOk = true) (htype : b.encodeType = .null) :
    Tracked blit addCustomExifInfo r gps b ↔ Trackable blit r gps b := by
  have hd : deliverBuffer blit r b = ⟨bufferScaleFormatTransform blit r.malloc true b, none, none⟩ := by
    simp [deliverBuffer, hok, htype]
  have hmet : Trackable blit r gps b ↔ (Transforms b b.target →
      (converted blit b b.target).length ≤ b.surfaceBuffer.size) := by
    simp [Trackable, hok, htype]
  rw [tracked_iff_of_deliver hd, hmet, HoldsPayload, htype]
  by_cases hdone : Transforms b b.target
  · rw [transformToFd_eq blit r.malloc hdone]
    simp [ConvertedTo, IBuffer.frame, hdone, hdone.1, hdone.2.1, htype]
  · obtain ⟨hframe, hcur, hnull⟩ := transformToFd_idle blit r.malloc hdone
    simp [ConvertedTo, hframe, hcur, hnull, hdone, htype]

theorem untouched_iff (blit : Blit) (addCustomExifInfo : ℤ → List UInt8 → Option (List UInt8))
    (r : Replies) (gps : ℕ) {b : IBuffer} (h : deliverBuffer blit r b = ⟨b, none, none⟩) :
    Tracked blit addCustomExifInfo r gps b ↔ HoldsPayload blit b ⟨b, none, none⟩ ∧
      (b.encodeType = .jpeg → 0 < gps → b.esFrameSize ≠ -1 →
        b.isValidDataInSurfaceBuffer = false) := by
  rw [tracked_iff_of_deliver h]
  exact and_iff_right fun x hx => nomatch hx

theorem tracked_iff (blit : Blit) (addCustomExifInfo : ℤ → List UInt8 → Option (List UInt8))
    (r : Replies) (gps : ℕ) (b : IBuffer) :
    Tracked blit addCustomExifInfo r gps b ↔ Trackable blit r gps b := by
  cases hok : b.statusOk with
  | false =>
    have hpayload : HoldsPayload blit b ⟨b, none, none⟩ := by
      unfold HoldsPayload
      split <;> simp [hok, ConvertedTo]
    rw [untouched_iff _ _ _ _ (by simp [deliverBuffer, hok])]
    simp [Trackable, hok, hpayload]
  | true =>
    cases htype : b.encodeType with
    | null => exact null_iff blit addCustomExifInfo r gps hok htype
    | h264 => exact h264_iff blit addCustomExifInfo r gps hok htype
    | jpeg => exact jpeg_iff blit addCustomExifInfo r gps hok htype
    | other code =>
      rw [untouched_iff _ _ _ _ (by simp [deliverBuffer, hok, htype])]
      simp [Trackable, hok, htype, HoldsPayload, ConvertedTo]

/-- A pixel to be compressed, in virAddress. -/
def pixel : IBuffer where
  virAddress := ⟨4, [1, 2, 3, 4], by decide⟩
  surfaceBuffer := ⟨8, [], by decide⟩
  isValidDataInSurfaceBuffer := false
  cur := ⟨1, 1, .rgba8888⟩
  target := ⟨1, 1, .ycrcb420sp⟩
  encodeType := .jpeg
  statusOk := true
  esFrameSize := -1

/-- The JPEG is in the surface memory, and the position is to be added to virAddress. -/
theorem jpeg_not_tracked :
    ¬ Tracked (fun _ _ x => x.take 3) (fun _ _ => none) ⟨true, [255, 216, 255, 217], true, 0, none⟩ 3
      pixel := by
  intro h
  exact absurd (h.exif .virAddress rfl) (by decide)

end RkNodes
