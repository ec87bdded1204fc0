import Mathlib.Data.Int.Notation
import Mathlib.Data.Nat.Notation
import Mathlib.Order.Lattice

/-! Camera nodes that convert, encode and annotate a frame.
RkNodeUtils::BufferScaleFormatTransform, and DeliverBuffer of RKCodecNode and RKExifNode. The
buffer, the RGA blit and the encoders are outside the repository. -/
namespace RkNodes

/-- `bytes` is the picture or the stream that the memory holds from its start on. -/
structure Memory where
  size : ℕ
  bytes : List UInt8
  fits : bytes.length ≤ size
  deriving DecidableEq, Repr

def Memory.write (m : Memory) (x : List UInt8) : Memory :=
  ⟨m.size, x.take m.size, by rw [List.length_take]; exact min_le_left ..⟩

@[simp] theorem Memory.write_size (m : Memory) (x : List UInt8) : (m.write x).size = m.size := rfl

@[simp] theorem Memory.write_bytes (m : Memory) (x : List UInt8) :
    (m.write x).bytes = x.take m.size := rfl

/-- memcpy_s of `count` bytes to the whole of `dst`: a violated constraint clears it. -/
def memcpyS (dst : Memory) (src : List UInt8) (count : ℕ) : Memory × Bool :=
  if dst.size = 0 ∨ dst.size < count then (dst.write (List.replicate dst.size 0), false)
  else (dst.write (src.take count), true)

inductive Format where
  | rgba8888
  | rgb888
  | ycrcb420sp
  | ycrcb420p
  | other (code : UInt32)
  deriving DecidableEq, Repr

inductive RkFormat where
  | rgba8888
  | rgb888
  | ycbcr420sp
  | ycbcr420p
  | unknown
  deriving DecidableEq, Repr

def convertOhosFormat2RkFormat : Format → RkFormat
  | .rgba8888 => .rgba8888
  | .rgb888 => .rgb888
  | .ycrcb420sp => .ycbcr420sp
  | .ycrcb420p => .ycbcr420p
  | .other _ => .unknown

inductive EncodeType where
  | null
  | h264
  | jpeg
  | other (code : Int32)
  deriving DecidableEq, Repr

structure Geometry where
  width : UInt32
  height : UInt32
  format : Format
  deriving DecidableEq, Repr

/-- `cur` is what the frame is, `target` what the stream asks for. -/
structure IBuffer where
  virAddress : Memory
  surfaceBuffer : Memory
  isValidDataInSurfaceBuffer : Bool
  cur : Geometry
  target : Geometry
  encodeType : EncodeType
  statusOk : Bool
  esFrameSize : ℤ
  deriving DecidableEq, Repr

inductive Place where
  | virAddress
  | surfaceBuffer
  deriving DecidableEq, Repr

def IBuffer.place (b : IBuffer) : Place :=
  if b.isValidDataInSurfaceBuffer then .surfaceBuffer else .virAddress

def IBuffer.frame (b : IBuffer) : List UInt8 :=
  if b.isValidDataInSurfaceBuffer then b.surfaceBuffer.bytes else b.virAddress.bytes

structure RgaRect where
  width : UInt32
  height : UInt32
  format : RkFormat
  deriving DecidableEq, Repr

def Geometry.rect (g : Geometry) : RgaRect := ⟨g.width, g.height, convertOhosFormat2RkFormat g.format⟩

/-- RkRgaBlit: the picture of the destination from that of the source. -/
abbrev Blit := RgaRect → RgaRect → List UInt8 → List UInt8

/-- Returns the buffer too, as the frame may have been copied to virAddress. -/
def checkIfNeedDoTransform (b : IBuffer) : IBuffer × Bool :=
  if b.cur = b.target then (b, false)
  else
    let (virAddress, copied) :=
      if b.isValidDataInSurfaceBuffer then
        memcpyS b.virAddress b.surfaceBuffer.bytes b.surfaceBuffer.size
      else (b.virAddress, true)
    let b := { b with virAddress }
    if !copied then (b, false)
    else if convertOhosFormat2RkFormat b.cur.format = .unknown ∨
        convertOhosFormat2RkFormat b.target.format = .unknown then (b, false)
    else (b, true)

/-- `malloc` is whether the temporary buffer could be allocated. -/
def transformToVirAddress (blit : Blit) (malloc : Bool) (b : IBuffer) : IBuffer :=
  if malloc then
    { b with
      virAddress := b.virAddress.write (blit b.cur.rect b.target.rect b.virAddress.bytes)
      isValidDataInSurfaceBuffer := false }
  else b

def transformToFd (blit : Blit) (b : IBuffer) : IBuffer :=
  { b with
    surfaceBuffer := b.surfaceBuffer.write (blit b.cur.rect b.target.rect b.virAddress.bytes)
    isValidDataInSurfaceBuffer := true }

def bufferScaleFormatTransform (blit : Blit) (malloc flagToFd : Bool) (b : IBuffer) : IBuffer :=
  let (b, need) := checkIfNeedDoTransform b
  if !need then b
  else
    let b := if flagToFd then transformToFd blit b else transformToVirAddress blit malloc b
    { b with cur := b.target }

/-- What the calls out of one DeliverBuffer answer. `h264` is the stream that hal_mpp_encode
writes; when it fails the size stays the `frameSize` of its context. -/
structure Replies where
  malloc : Bool
  jpeg : List UInt8
  halCtx : Bool
  frameSize : ℕ
  h264 : Option (List UInt8)
  deriving DecidableEq, Repr

/-- The buffer that a node passes on, the bytes that it gave to an encoder, and what the encoder
made of them. -/
structure Delivered where
  buffer : IBuffer
  encoderInput : Option (List UInt8)
  payload : Option (List UInt8)
  deriving DecidableEq, Repr

def bufferFormatTransform (blit : Blit) (malloc : Bool) (b : IBuffer) (format : Format) : IBuffer :=
  let oldFmt := b.target.format
  let b := bufferScaleFormatTransform blit malloc false
    { b with target := { b.target with format := format } }
  { b with target := { b.target with format := oldFmt } }

def yuv420ToJpeg (blit : Blit) (r : Replies) (b : IBuffer) : Delivered :=
  let b := bufferFormatTransform blit r.malloc b .rgb888
  let (surfaceBuffer, copied) := memcpyS b.surfaceBuffer r.jpeg r.jpeg.length
  let sent :=
    if copied then
      { b with surfaceBuffer, isValidDataInSurfaceBuffer := true, esFrameSize := r.jpeg.length }
    else { b with surfaceBuffer, esFrameSize := 0 }
  ⟨sent, some b.virAddress.bytes, some r.jpeg⟩

/-- hal_mpp_encode reads the surface memory, through its file descriptor, and writes the stream to
virAddress. What it returns is not looked at. -/
def halMppEncode (r : Replies) (b : IBuffer) : Delivered :=
  let buf_size := (r.h264.map List.length).getD r.frameSize
  let virAddress := (r.h264.map b.virAddress.write).getD b.virAddress
  ⟨{ b with virAddress, esFrameSize := buf_size, isValidDataInSurfaceBuffer := false },
    some b.surfaceBuffer.bytes, r.h264⟩

def yuv420ToH264 (blit : Blit) (r : Replies) (b : IBuffer) : Delivered :=
  let b := bufferFormatTransform blit r.malloc b .ycrcb420p
  let (surfaceBuffer, copied) :=
    if !b.isValidDataInSurfaceBuffer then
      memcpyS b.surfaceBuffer b.virAddress.bytes b.surfaceBuffer.size
    else (b.surfaceBuffer, true)
  let b := { b with surfaceBuffer }
  if !copied then ⟨{ b with statusOk := false }, none, none⟩
  else if !r.halCtx then ⟨b, none, none⟩
  else halMppEncode r b

def deliverBuffer (blit : Blit) (r : Replies) (b : IBuffer) : Delivered :=
  if !b.statusOk then ⟨b, none, none⟩
  else match b.encodeType with
    | .jpeg => yuv420ToJpeg blit r b
    | .h264 => yuv420ToH264 blit r b
    | .null => ⟨bufferScaleFormatTransform blit r.malloc true b, none, none⟩
    | .other _ => ⟨b, none, none⟩

/-- DeliverBuffer of RKExifNode, and the memory that AddCustomExifInfo is called on. `gps` is the
size of gpsInfo_; `addCustomExifInfo` makes an annotated picture of a frame of this size, or
fails. -/
def exifDeliverBuffer (addCustomExifInfo : ℤ → List UInt8 → Option (List UInt8)) (gps : ℕ)
    (b : IBuffer) : IBuffer × Option Place :=
  if b.encodeType = .jpeg ∧ 0 < gps ∧ b.esFrameSize ≠ -1 then
    match addCustomExifInfo b.esFrameSize b.virAddress.bytes with
    | some picture =>
      ({ b with virAddress := b.virAddress.write picture, esFrameSize := picture.length },
        some .virAddress)
    | none => (b, some .virAddress)
  else (b, none)

end RkNodes
