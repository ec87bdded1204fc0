import DeviceQemu.StepSystem
import Mathlib.Data.List.Basic
import Mathlib.Data.UInt

/-! Display modes.
InitModes of DrmConnector gives the modes that the kernel reports their ids, SetActivieMode of
DrmCrtc takes an id, and UpdateMode of HdiDrmComposition turns the active id into a property blob
and commits it. -/
namespace DrmModes

open StepSystem

variable {μ : Type}

def invalidModeId : ℤ := -1
def drmInvalidId : UInt32 := 0xFFFFFFFF
def drmModeTypePreferred : UInt32 := 0x8

structure DrmModeModeInfo (μ : Type) where
  hdisplay : UInt16
  vdisplay : UInt16
  vrefresh : UInt32
  type : UInt32
  rest : μ
  deriving DecidableEq, Repr

/-- The modes of drmModeGetConnector; count_modes is an int. -/
structure Report (μ : Type) where
  modes : List (DrmModeModeInfo μ)
  count : modes.length < 2 ^ 31

structure DrmMode (μ : Type) where
  mModeInfo : DrmModeModeInfo μ
  mId : ℤ
  deriving DecidableEq, Repr

/-- The keys of mModes are the ids of the modes. -/
structure DrmConnector (μ : Type) where
  mModes : List (DrmMode μ)
  mPreferenceId : ℤ
  deriving DecidableEq, Repr

def initModesFrom (i : ℕ) (connector : DrmConnector μ) : List (DrmModeModeInfo μ) → DrmConnector μ
  | [] => connector
  | mode :: modes =>
    initModesFrom (i + 1)
      ⟨connector.mModes ++ [⟨mode, i⟩],
        if connector.mPreferenceId = invalidModeId ∧ mode.type &&& drmModeTypePreferred ≠ 0 then i
        else connector.mPreferenceId⟩ modes

def initModes (c : Report μ) : DrmConnector μ := initModesFrom 0 ⟨[], invalidModeId⟩ c.modes

structure DisplayModeInfo where
  width : UInt16
  height : UInt16
  freshRate : UInt32
  id : ℤ
  deriving DecidableEq, Repr

def DrmMode.convertToHdiMode (mode : DrmMode μ) : DisplayModeInfo :=
  ⟨mode.mModeInfo.hdisplay, mode.mModeInfo.vdisplay, mode.mModeInfo.vrefresh, mode.mId⟩

def getDisplaySupportedModes (connector : DrmConnector μ) : List DisplayModeInfo :=
  connector.mModes.map DrmMode.convertToHdiMode

def getModeFromId (connector : DrmConnector μ) (id : ℤ) : Option (DrmMode μ) :=
  connector.mModes.find? (·.mId = id)

structure DrmCrtc where
  mActiveModeId : ℤ
  mNeedModeSet : Bool
  deriving DecidableEq, Repr

inductive DispErrCode where
  | success
  | failure
  | paramErr
  deriving DecidableEq, Repr

def setActivieMode (crtc : DrmCrtc) (id : ℤ) : DispErrCode × DrmCrtc :=
  if id ≠ 0 then (.paramErr, crtc)
  else (.success, ⟨id, crtc.mNeedModeSet || decide (crtc.mActiveModeId ≠ id)⟩)

/-- `programmed` is the mode that the kernel has set the crtc to. -/
structure State (μ : Type) where
  crtc : DrmCrtc
  programmed : Option (DrmModeModeInfo μ)
  deriving DecidableEq, Repr

def setDisplayMode (s : State μ) (modeId : UInt32) : DispErrCode × State μ :=
  let r := setActivieMode s.crtc modeId.toInt32.toInt
  (r.1, { s with crtc := r.2 })

/-- What drmModeCreatePropertyBlob returns, and whether the three drmModeAtomicAddProperty and
drmModeAtomicCommit succeed. -/
structure Answers where
  blob : Option UInt32
  addActive : Bool
  addMode : Bool
  addCrtcId : Bool
  commit : Bool
  deriving DecidableEq, Repr

structure Answers.Good (k : Answers) : Prop where
  blob : ∃ id, k.blob = some id ∧ id ≠ drmInvalidId
  addActive : k.addActive = true
  addMode : k.addMode = true
  addCrtcId : k.addCrtcId = true
  commit : k.commit = true

structure DrmModeBlock (μ : Type) where
  mBlockId : UInt32
  blob : DrmModeModeInfo μ

def getModeBlockFromId (connector : DrmConnector μ) (k : Answers) (id : ℤ) :
    Option (DrmModeBlock μ) :=
  (getModeFromId connector id).map fun mode => ⟨k.blob.getD drmInvalidId, mode.mModeInfo⟩

def updateMode (connector : DrmConnector μ) (k : Answers) (s : State μ) : DispErrCode × State μ :=
  if s.crtc.mNeedModeSet then
    match getModeBlockFromId connector k s.crtc.mActiveModeId with
    | none => (.success, s)
    | some modeBlock =>
      if modeBlock.mBlockId ≠ drmInvalidId then
        if k.addActive && k.addMode && k.addCrtcId && k.commit then
          (.success, ⟨{ s.crtc with mNeedModeSet := false }, some modeBlock.blob⟩)
        else (.failure, s)
      else (.success, s)
  else (.success, s)

/-- AllocMem may fail; what Apply returns is not looked at. -/
def pushFirstFrame (connector : DrmConnector μ) (allocMem : Bool) (k : Answers) (s : State μ) :
    DispErrCode × State μ :=
  match getModeFromId connector s.crtc.mActiveModeId with
  | none => (.failure, s)
  | some _ => if allocMem then (.success, (updateMode connector k s).2) else (.failure, s)

/-- GetDisplaySupportedModes succeeds, so that no mode at all is not an error. -/
def preferredMode (connector : DrmConnector μ) : ℤ :=
  if connector.mPreferenceId = invalidModeId then 0 else connector.mPreferenceId

/-- SetDisplayMode takes the id as a uint32_t and hands it on as an int32_t. -/
def chosePreferenceMode (connector : DrmConnector μ) (allocMem : Bool) (k : Answers)
    (s : State μ) : DispErrCode × State μ :=
  let r := setDisplayMode s (preferredMode connector).toInt32.toUInt32
  if r.1 ≠ .success then (.failure, r.2) else pushFirstFrame connector allocMem k r.2

inductive Event where
  | setDisplayMode (modeId : UInt32)
  | chosePreferenceMode (allocMem : Bool) (k : Answers)
  | updateMode (k : Answers)
  deriving DecidableEq, Repr

def next (connector : DrmConnector μ) (s : State μ) : Event → State μ
  | .setDisplayMode modeId => (setDisplayMode s modeId).2
  | .chosePreferenceMode allocMem k => (chosePreferenceMode connector allocMem k s).2
  | .updateMode k => (updateMode connector k s).2

def system (connector : DrmConnector μ) : System (State μ) Event where
  Init s := s.crtc = ⟨invalidModeId, false⟩
  next s e := some (next connector s e)

end DrmModes
