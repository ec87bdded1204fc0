import DeviceQemu.HandleTable
import DeviceQemu.StepSystem
import Mathlib.Data.Option.Basic

/-! GEM buffers of a layer on one DRM file.
A commit wraps the layer's buffer in a new DrmGemBuffer and destroys the wrapper of the commit
before the last one. -/
namespace HdiDrmLayer

open StepSystem HandleTable

def invalidDrmId : UInt32 := 0

/-- GEM handles by dma-buf, framebuffer ids with the number of the call that added them: an id
may be given again. -/
structure Drm where
  gem : List (ℕ × UInt32)
  fbs : List (UInt32 × ℕ)
  added : ℕ

structure DrmGemBuffer where
  mGemHandle : UInt32
  mFdId : UInt32
  mDrmFd : Int

/-- One call of ApplyPlane: the dma-buf of the layer's buffer, and what the calls it makes
answer. An answer `none` or `false` is a failure, a number the one given to what is new. -/
structure Commit where
  fb : ℕ
  planeSet : Bool
  primeFdToHandle : Option UInt32
  addFb2 : Option UInt32
  fbSet : Bool
  crtcSet : Bool
  deriving DecidableEq

/-- What a commit has imported, and the framebuffer it has added. -/
structure Committed where
  imported : Option ℕ
  fb : Option (UInt32 × ℕ)

/-- A GEM_CLOSE: the handle, whether it was open, and what the live wrappers held. -/
structure Close where
  handle : UInt32
  wasOpen : Bool
  holders : List UInt32

/-- `current` and `last` describe the two latest commits; `opened` and `closes` are the
history of the handles. -/
structure State where
  drm : Drm
  mDrmFd : Int
  mCurrentBuffer : Option DrmGemBuffer
  mLastBuffer : Option DrmGemBuffer
  current : Option Committed
  last : Option Committed
  opened : List UInt32
  closes : List Close

def drmPrimeFDToHandle (drm : Drm) (fb : ℕ) : Option UInt32 → Option (Option UInt32 × Drm)
  | none => some (none, drm)
  | some fresh =>
    if fresh = 0 then none
    else (openObject drm.gem fb fresh).map fun (handle, gem) => (some handle, { drm with gem })

def drmModeAddFB2 (drm : Drm) : Option UInt32 → Option (Option UInt32 × Drm)
  | none => some (none, drm)
  | some id =>
    if id = 0 ∨ id ∈ drm.fbs.map Prod.fst then none
    else some (some id, { drm with fbs := (id, drm.added) :: drm.fbs, added := drm.added + 1 })

def drmModeRmFB (drm : Drm) (id : UInt32) : Drm :=
  { drm with fbs := drm.fbs.filter fun f => f.1 ≠ id }

def gemClose (drm : Drm) (handle : UInt32) : Drm := { drm with gem := close drm.gem handle }

def DrmGemBuffer.init (drm : Drm) (drmFd : Int) (c : Commit) : Option (DrmGemBuffer × Drm) :=
  let buffer : DrmGemBuffer := ⟨invalidDrmId, invalidDrmId, drmFd⟩
  if drmFd < 0 then some (buffer, drm)
  else
    (drmPrimeFDToHandle drm c.fb c.primeFdToHandle).bind fun
      | (none, drm) => some (buffer, drm)
      | (some handle, drm) =>
        (drmModeAddFB2 drm c.addFb2).map fun
          | (none, drm) => ({ buffer with mGemHandle := handle }, drm)
          | (some id, drm) => ({ buffer with mGemHandle := handle, mFdId := id }, drm)

def DrmGemBuffer.isValid (b : DrmGemBuffer) : Bool :=
  b.mGemHandle ≠ invalidDrmId ∧ b.mFdId ≠ invalidDrmId

/-- The destructor, while the wrappers of `live` exist. -/
def DrmGemBuffer.destroy (b : DrmGemBuffer) (live : List DrmGemBuffer) (s : State) : State :=
  let s := if b.mFdId ≠ 0 then { s with drm := drmModeRmFB s.drm b.mFdId } else s
  if b.mGemHandle ≠ 0 then
    { s with
      drm := gemClose s.drm b.mGemHandle
      closes := ⟨b.mGemHandle, b.mGemHandle ∈ handles s.drm.gem, live.map (·.mGemHandle)⟩ ::
        s.closes }
  else s

def Imports (s : State) (c : Commit) : Prop := 0 ≤ s.mDrmFd ∧ c.primeFdToHandle ≠ none

instance (s : State) (c : Commit) : Decidable (Imports s c) := inferInstanceAs (Decidable (_ ∧ _))

def committed (s : State) (c : Commit) (b : DrmGemBuffer) : Committed where
  imported := if Imports s c then some c.fb else none
  fb := if b.mFdId = 0 then none else some (b.mFdId, s.drm.added)

/-- The new wrapper exists before the wrapper in mLastBuffer is destroyed. -/
def getGemBuffer (s : State) (c : Commit) : Option State :=
  (DrmGemBuffer.init s.drm s.mDrmFd c).map fun (ptr, drm) =>
    let t : State := { s with
      drm
      mLastBuffer := s.mCurrentBuffer
      mCurrentBuffer := none
      last := s.current
      current := some (committed s c ptr)
      opened :=
        if ptr.mGemHandle = 0 ∨ ptr.mGemHandle ∈ handles s.drm.gem then s.opened
        else ptr.mGemHandle :: s.opened }
    let t := match s.mLastBuffer with
      | none => t
      | some b => b.destroy (ptr :: t.mLastBuffer.toList) t
    { t with mCurrentBuffer := some ptr }

inductive Result where
  | displaySuccess
  | displayFailure
  deriving DecidableEq

/-- What ApplyPlane makes of the wrapper it was given. -/
def setFb (c : Commit) : Option DrmGemBuffer → Result
  | none => .displayFailure
  | some gemBuffer =>
    if !gemBuffer.isValid then .displayFailure
    else if !c.fbSet then .displayFailure
    else if !c.crtcSet then .displayFailure
    else .displaySuccess

def applyPlane (s : State) (c : Commit) : Option (Result × State) :=
  if !c.planeSet then some (.displayFailure, s)
  else (getGemBuffer s c).map fun t => (setFb c t.mCurrentBuffer, t)

def initial (drmFd : Int) : State where
  drm := ⟨[], [], 0⟩
  mDrmFd := drmFd
  mCurrentBuffer := none
  mLastBuffer := none
  current := none
  last := none
  opened := []
  closes := []

def system : System State Commit where
  Init := fun s => s = initial s.mDrmFd
  next := fun s c => (applyPlane s c).map Prod.snd

def live (s : State) : List DrmGemBuffer := s.mCurrentBuffer.toList ++ s.mLastBuffer.toList

theorem next_eq (s : State) (c : Commit) :
    system.next s c = if c.planeSet then getGemBuffer s c else some s := by
  cases hc : c.planeSet with
  | false => simp [system, applyPlane, hc]
  | true => simp [system, applyPlane, hc, Function.comp_def]

end HdiDrmLayer
