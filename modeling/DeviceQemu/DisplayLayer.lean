import DeviceQemu.ResourceLedger
import DeviceQemu.StepSystem
import Mathlib.Data.Finset.Insert

/-! The display layer.
CreateLayer, CloseLayer, Flush and GetLayerBuffer of the two display_layer.c, the one over a
framebuffer device that is opened and mapped, the other over the framebuffer of the GPU driver. Calls
are steps; what the system answers is chosen by the environment. A call also leaves the list of what
it acquired, used and released. -/
namespace DisplayLayer

open ResourceLedger StepSystem

abbrev Addr := ℕ

def devID : ℕ := 0
def layerID : ℕ := 0
def bitsPerPixel : Int32 := 32
def bitsToByte : Int32 := 8
def mapFailed : Addr := 0xffffffff
def securecMemMaxLen : UInt32 := 0x7fffffff

inductive DispErrCode where
  | success
  | failure
  | fdErr
  | nullPtr
  | copyError
  deriving DecidableEq, Repr

/-- `fbOpen` is an fb_open of the device that has not been closed by fb_close. -/
inductive Resource where
  | fd (n : ℤ)
  | mapping (addr : Addr)
  | block (addr : Addr)
  | fbOpen (fbmem : Addr)
  deriving DecidableEq, Repr

structure Effect (σ : Type) where
  ret : DispErrCode
  priv : σ
  ops : List (Op Resource)

structure LayerPrivate where
  fd : ℤ
  width : UInt32
  height : UInt32
  pitch : Int32
  fbAddr : Addr
  fbSize : UInt32
  layerAddr : Addr
  deriving DecidableEq, Repr

def pitchOf (width : Int32) : Int32 := width * bitsPerPixel / bitsToByte

def fbSizeOf (pitch : Int32) (height : UInt32) : UInt32 :=
  (pitch.toUInt32 * height + 0xfff) &&& ~~~0xfff

/-- Whether memcpy_s writes to its destination. -/
def memcpyWrites (dest : Addr) (size : UInt32) : Prop := dest ≠ 0 ∧ size ≠ 0 ∧ size ≤ securecMemMaxLen

instance (dest : Addr) (size : UInt32) : Decidable (memcpyWrites dest size) := by
  unfold memcpyWrites
  infer_instance

/-- The checks at the head of CreateLayer; `layerId` is whether the pointer is not NULL. -/
def checkCreate {σ : Type} (priv : σ) (devId : ℕ) (layerInfo : Option Int32) (layerId : Bool)
    (body : Int32 → Effect σ) : Effect σ :=
  match layerInfo, layerId with
  | some width, true => if devId ≠ devID then ⟨.failure, priv, []⟩ else body width
  | _, _ => ⟨.nullPtr, priv, []⟩

def checkIds {σ : Type} (priv : σ) (devId layerId : ℕ) (body : Effect σ) : Effect σ :=
  if devId ≠ devID ∨ layerId ≠ layerID then ⟨.failure, priv, []⟩ else body

/-- Flush to `frame`. The data of the buffer is a block that GetLayerBuffer handed out, or memory of
the caller. -/
def flushTo {σ : Type} (priv : σ) (frame : Addr → Resource) (fbAddr : Addr) (fbSize : UInt32)
    (handed : List Addr) (buffer : Option Addr) : Effect σ :=
  match buffer with
  | none => ⟨.failure, priv, []⟩
  | some virAddr =>
    if memcpyWrites fbAddr fbSize then
      ⟨if virAddr = 0 then .copyError else .success, priv,
        .use (frame fbAddr) :: if virAddr ∈ handed then [.use (.block virAddr)] else []⟩
    else ⟨.copyError, priv, []⟩

def releaseIf (p : Prop) [Decidable p] (r : Resource) : List (Op Resource) :=
  if p then [.release r] else []

def heldIf (p : Prop) [Decidable p] (r : Resource) : Multiset Resource := if p then {r} else 0

inductive Event (ω : Type) where
  | createLayer (devId : ℕ) (layerInfo : Option Int32) (layerId : Bool) (os : ω)
  | closeLayer (devId layerId : ℕ)
  | flush (devId layerId : ℕ) (buffer : Option Addr)
  | getLayerBuffer (devId layerId : ℕ) (buffer : Bool) (malloc : Addr)
  deriving DecidableEq, Repr

namespace Mapped

structure Os where
  fd : ℤ
  mmap : Addr
  deriving DecidableEq, Repr

def layerPriv : LayerPrivate := ⟨-1, 960, 480, 0, 0, 0, 0⟩

def openLayer (s : LayerPrivate) (os : Os) (width : Int32) : Effect LayerPrivate :=
  if os.fd < 0 then ⟨.fdErr, { s with fd := os.fd }, []⟩
  else if os.mmap = 0 then
    ⟨.failure, { s with fd := -1, pitch := 0, fbSize := 0, fbAddr := 0 },
      [.acquire (.fd os.fd), .release (.fd os.fd)]⟩
  else
    let pitch := pitchOf width
    ⟨.success, { s with fd := os.fd, pitch, fbSize := fbSizeOf pitch s.height, fbAddr := os.mmap },
      -- open, mmap and SetBackground
      .acquire (.fd os.fd) :: ((if os.mmap = mapFailed then [] else [.acquire (.mapping os.mmap)])
        ++ [.use (.mapping os.mmap)])⟩

def createLayer (s : LayerPrivate) (devId : ℕ) (layerInfo : Option Int32) (layerId : Bool) (os : Os) :
    Effect LayerPrivate := checkCreate s devId layerInfo layerId (openLayer s os)

/-- The address of the mapping stays in the record. -/
def closeLayer (s : LayerPrivate) (devId layerId : ℕ) : Effect LayerPrivate :=
  checkIds s devId layerId
    ⟨.success, { s with fd := -1, layerAddr := 0 },
      releaseIf (0 ≤ s.fd) (.fd s.fd) ++ releaseIf (s.layerAddr ≠ 0) (.block s.layerAddr)
        ++ releaseIf (s.fbAddr ≠ 0) (.mapping s.fbAddr)⟩

def flush (s : LayerPrivate) (handed : List Addr) (devId layerId : ℕ) (buffer : Option Addr) :
    Effect LayerPrivate :=
  checkIds s devId layerId (flushTo s .mapping s.fbAddr s.fbSize handed buffer)

def getLayerBuffer (s : LayerPrivate) (devId layerId : ℕ) (buffer : Bool) (malloc : Addr) :
    Effect LayerPrivate :=
  if buffer = false then ⟨.nullPtr, s, []⟩
  else
    checkIds s devId layerId
      (if s.fd < 0 ∨ malloc = 0 then ⟨.failure, s, []⟩
      else ⟨.success, { s with layerAddr := malloc }, [.acquire (.block malloc), .use (.block malloc)]⟩)

/-- What the record names, for CloseLayer to release. -/
def held (s : LayerPrivate) : Multiset Resource :=
  heldIf (0 ≤ s.fd) (.fd s.fd) + heldIf (s.fbAddr ≠ 0) (.mapping s.fbAddr)
    + heldIf (s.layerAddr ≠ 0) (.block s.layerAddr)

end Mapped

namespace Gpu

structure LayerPrivateFb extends LayerPrivate where
  fbmem : Addr
  deriving DecidableEq, Repr

/-- The fb_mem that fb_open finds, and whether FIOC_MMAP yields an address. -/
structure Os where
  fbmem : Option Addr
  ioctl : Bool
  deriving DecidableEq, Repr

def enxio : ℤ := 6

def layerPriv : LayerPrivateFb := ⟨⟨-1, 800, 480, 0, 0, 0, 0⟩, 0⟩

/-- `fb` is the framebuffer of the GPU driver. fb_open returns 0 or an error. -/
def openLayer (fb : Addr) (s : LayerPrivateFb) (os : Os) (width : Int32) : Effect LayerPrivateFb :=
  match os.fbmem with
  | none => ⟨.fdErr, { s with fd := -enxio }, []⟩
  | some fbmem =>
    let fbAddr := if os.ioctl then fb else 0
    if fbAddr = 0 then
      ⟨.failure, { s with fd := 0, pitch := 0, fbSize := 0, fbAddr := 0, fbmem := 0 },
        [.acquire (.fbOpen fbmem), .release (.fbOpen fbmem)]⟩
    else
      let pitch := pitchOf width
      ⟨.success, { s with fd := 0, pitch, fbSize := fbSizeOf pitch s.height, fbAddr, fbmem := fbmem },
        [.acquire (.fbOpen fbmem), .use (.block fbAddr)]⟩

def createLayer (fb : Addr) (s : LayerPrivateFb) (devId : ℕ) (layerInfo : Option Int32) (layerId : Bool)
    (os : Os) : Effect LayerPrivateFb := checkCreate s devId layerInfo layerId (openLayer fb s os)

/-- `free(priv->fbAddr)` is the release of a block. -/
def closeLayer (s : LayerPrivateFb) (devId layerId : ℕ) : Effect LayerPrivateFb :=
  checkIds s devId layerId
    ⟨.success, { s with fd := -1, layerAddr := 0, fbAddr := 0, fbmem := 0 },
      releaseIf (s.fbmem ≠ 0) (.fbOpen s.fbmem) ++ releaseIf (s.layerAddr ≠ 0) (.block s.layerAddr)
        ++ releaseIf (s.fbAddr ≠ 0) (.block s.fbAddr)⟩

def flush (s : LayerPrivateFb) (handed : List Addr) (devId layerId : ℕ) (buffer : Option Addr) :
    Effect LayerPrivateFb :=
  checkIds s devId layerId (flushTo s .block s.fbAddr s.fbSize handed buffer)

def getLayerBuffer (s : LayerPrivateFb) (devId layerId : ℕ) (buffer : Bool) (malloc : Addr) :
    Effect LayerPrivateFb :=
  if buffer = false then ⟨.nullPtr, s, []⟩
  else
    checkIds s devId layerId
      (if s.fd < 0 ∨ s.fbmem = 0 ∨ malloc = 0 then ⟨.failure, s, []⟩
      else ⟨.success, { s with layerAddr := malloc }, [.acquire (.block malloc), .use (.block malloc)]⟩)

def held (s : LayerPrivateFb) : Multiset Resource :=
  heldIf (s.fbmem ≠ 0) (.fbOpen s.fbmem) + heldIf (s.layerAddr ≠ 0) (.block s.layerAddr)

end Gpu

/-- An implementation: what it may use without acquiring it, what a record accounts for, its calls. -/
structure Board (σ ω : Type) where
  start : σ
  lent : Finset Resource
  held : σ → Multiset Resource
  call : σ → List Addr → Event ω → Effect σ

def mapped : Board LayerPrivate Mapped.Os where
  start := Mapped.layerPriv
  lent := ∅
  held := Mapped.held
  call s handed
    | .createLayer devId layerInfo layerId os => Mapped.createLayer s devId layerInfo layerId os
    | .closeLayer devId layerId => Mapped.closeLayer s devId layerId
    | .flush devId layerId buffer => Mapped.flush s handed devId layerId buffer
    | .getLayerBuffer devId layerId buffer malloc => Mapped.getLayerBuffer s devId layerId buffer malloc

def gpu (fb : Addr) : Board Gpu.LayerPrivateFb Gpu.Os where
  start := Gpu.layerPriv
  lent := {.block fb}
  held := Gpu.held
  call s handed
    | .createLayer devId layerInfo layerId os => Gpu.createLayer fb s devId layerInfo layerId os
    | .closeLayer devId layerId => Gpu.closeLayer s devId layerId
    | .flush devId layerId buffer => Gpu.flush s handed devId layerId buffer
    | .getLayerBuffer devId layerId buffer malloc => Gpu.getLayerBuffer s devId layerId buffer malloc

/-- `handed` are the blocks that GetLayerBuffer returned; `before` is the record before the
CreateLayer that the next CloseLayer matches. -/
structure State (σ : Type) where
  priv : σ
  live : Multiset Resource
  handed : List Addr
  before : Option σ

/-- A successful acquisition gives no error value, and nothing that is in use; the framebuffer device
may be opened again. -/
def Granted (lent : Finset Resource) (live : Multiset Resource) : Op Resource → Prop
  | .acquire (.fd n) => 0 ≤ n ∧ .fd n ∉ live
  | .acquire (.mapping a) => a ≠ 0 ∧ a ≠ mapFailed ∧ .mapping a ∉ live
  | .acquire (.block a) => a ≠ 0 ∧ .block a ∉ live ∧ .block a ∉ lent
  | .acquire (.fbOpen p) => p ≠ 0
  | _ => True

instance (lent : Finset Resource) (live : Multiset Resource) (op : Op Resource) :
    Decidable (Granted lent live op) := by
  unfold Granted
  split <;> infer_instance

variable {σ ω : Type}

def Board.initial (b : Board σ ω) : State σ := ⟨b.start, 0, [], none⟩

def handedAfter (s : State σ) (e : Event ω) (ret : DispErrCode) : List Addr :=
  match e, ret with
  | .getLayerBuffer _ _ _ malloc, .success => malloc :: s.handed
  | _, _ => s.handed

def beforeAfter (s : State σ) (e : Event ω) (ret : DispErrCode) : Option σ :=
  match e, ret with
  | .createLayer .., .success => some s.priv
  | .closeLayer .., .success => none
  | _, _ => s.before

def Board.effect (b : Board σ ω) (s : State σ) (e : Event ω) : Effect σ := b.call s.priv s.handed e

def Board.next (b : Board σ ω) (s : State σ) (e : Event ω) : State σ :=
  let f := b.effect s e
  ⟨f.priv, after s.live f.ops, handedAfter s e f.ret, beforeAfter s e f.ret⟩

def Board.system (b : Board σ ω) : System (State σ) (Event ω) where
  Init s := s = b.initial
  next s e := if ∀ op ∈ (b.effect s e).ops, Granted b.lent s.live op then some (b.next s e) else none

/-- Each call uses only what is live or lent and releases only what is live, nothing lent among it;
what stays live is in the record; CloseLayer restores the record. -/
structure Disciplined (b : Board σ ω) (s : State σ) (e : Event ω) : Prop where
  sound : Sound b.lent s.live (b.effect s e).ops
  spared : ∀ r ∈ b.lent, .release r ∉ (b.effect s e).ops
  accounted : after s.live (b.effect s e).ops = b.held (b.effect s e).priv
  restored : ∀ devId layerId, e = .closeLayer devId layerId → (b.effect s e).ret = .success →
    ∀ p, s.before = some p → (b.effect s e).priv = p

end DisplayLayer
