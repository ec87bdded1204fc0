import DeviceQemu.DrmDevice
import DeviceQemu.DrmModes

/-! Hot plug.
HandleHotplug of DrmConnector, the dispatch of DrmDevice and the loops of HdiSession. What the kernel
answers is a parameter of each call. A call without a result reads `encoders[0]` of no encoders. -/
namespace DrmHotplug

open DrmDevice (DrmEncoder pipeBit)
open DrmModes (Report initModes)

variable {μ σ γ : Type}

inductive DrmModeConnection where
  | connected
  | disconnected
  | unknownConnection
  deriving DecidableEq, Repr

inductive DispErrCode where
  | success
  | failure
  | nullPtr
  deriving DecidableEq, Repr

def DispErrCode.toBool (code : DispErrCode) : Bool := code ≠ .success

structure DrmCrtc extends DrmDevice.DrmCrtc where
  mActivePropId : UInt32
  mModePropId : UInt32
  deriving DecidableEq, Repr

structure DrmConnector (μ : Type) where
  mId : UInt32
  mEncoderId : UInt32
  mConnectState : DrmModeConnection
  mPropCrtcId : UInt32
  modes : DrmModes.DrmConnector μ
  deriving DecidableEq, Repr

structure ConnectorReport (μ : Type) where
  connection : DrmModeConnection
  encoders : List UInt32
  modes : Report μ

/-- What the kernel answers during one HandleHotplug. `stackBlob` is what `blob_id` holds before it is
set, and `propCrtcId` what Init finds afterwards. -/
structure Kernel (μ : Type) where
  atomicAlloc : Bool
  getConnector : Option (ConnectorReport μ)
  createPropertyBlob : Option UInt32
  stackBlob : UInt32
  addActive : Int32
  addMode : Int32
  addCrtcId : Int32
  commit : Int32
  propCrtcId : Option UInt32

/-- drmModeAtomicAddProperty. -/
structure Assignment where
  object : UInt32
  property : UInt32
  value : UInt32
  deriving DecidableEq, Repr

structure Updated (μ : Type) where
  crtc : Option DrmCrtc
  crtcId : UInt32
  connector : DrmConnector μ
  encoders : List DrmEncoder

def setCrtcId (encoders : List DrmEncoder) (id crtcId : UInt32) : List DrmEncoder :=
  encoders.map fun encoder =>
    if encoder.mEncoderId = id then { encoder with mCrtcId := crtcId } else encoder

/-- The loop has no break, so that the last crtc that is the whole mask is taken. -/
def maskCrtc (encoder : DrmEncoder) (crtcs : List DrmCrtc) : Option DrmCrtc :=
  crtcs.reverse.find? fun crtc => encoder.mPossibleCrtcs = pipeBit crtc.mPipe

def updateCrtcId (connector : DrmConnector μ) (encoders : List DrmEncoder) (crtcs : List DrmCrtc)
    (plugIn : Bool) (encoderId : UInt32) : Updated μ :=
  match encoders.find? (·.mEncoderId = encoderId) with
  | none => ⟨none, 0, connector, encoders⟩
  | some encoder =>
    let crtc := maskCrtc encoder crtcs
    let crtcId := match crtc with
      | none => 0
      | some crtc => crtc.mId
    if plugIn then
      ⟨crtc, crtcId, { connector with mEncoderId := encoderId }, setCrtcId encoders encoderId crtcId⟩
    else ⟨crtc, 0, { connector with mEncoderId := 0 }, setCrtcId encoders encoderId 0⟩

/-- What HandleHotplug returns and leaves; `vsync` is the argument of EnableVsync, and `committed` the
request that the kernel has taken. -/
structure Handled (μ : Type) where
  ret : Bool
  connector : DrmConnector μ
  encoders : List DrmEncoder
  vsync : Option Bool
  committed : Option (List Assignment)

def added (ret : Int32) (a : Assignment) : List Assignment := if ret < 0 then [] else [a]

/-- HandleHotplug once the crtc is there; the answer to the blob's creation is not looked at. -/
def commitHotplug (k : Kernel μ) (c : ConnectorReport μ) (plugIn : Bool) (crtc : DrmCrtc)
    (u : Updated μ) : Handled μ :=
  let blobId := k.createPropertyBlob.getD k.stackBlob
  let pset := added k.addActive ⟨crtc.mId, crtc.mActivePropId, if plugIn then 1 else 0⟩
    ++ added k.addMode ⟨crtc.mId, crtc.mModePropId, blobId⟩
    ++ added k.addCrtcId ⟨u.connector.mId, u.connector.mPropCrtcId, u.crtcId⟩
  if (k.addActive ||| k.addMode) ||| k.addCrtcId < 0 then
    ⟨DispErrCode.failure.toBool, u.connector, u.encoders, some plugIn, none⟩
  else if k.commit < 0 then
    ⟨DispErrCode.failure.toBool, u.connector, u.encoders, some plugIn, none⟩
  else
    ⟨true, { u.connector with mConnectState := c.connection, modes := initModes c.modes }, u.encoders,
      some plugIn, some pset⟩

def DrmConnector.handleHotplug (k : Kernel μ) (connector : DrmConnector μ) (encoders : List DrmEncoder)
    (crtcs : List DrmCrtc) (plugIn : Bool) : Option (Handled μ) :=
  if k.atomicAlloc then
    match k.getConnector with
    | none => some ⟨false, connector, encoders, none, none⟩
    | some c =>
      if connector.mConnectState = c.connection then some ⟨false, connector, encoders, none, none⟩
      else
        match c.encoders with
        | [] => none
        | encoderId :: _ =>
          let u := updateCrtcId connector encoders crtcs plugIn encoderId
          match u.crtc with
          | none => some ⟨DispErrCode.failure.toBool, u.connector, u.encoders, none, none⟩
          | some crtc => some (commitHotplug k c plugIn crtc u)
  else some ⟨DispErrCode.nullPtr.toBool, connector, encoders, none, none⟩

/-- What Init returns is not looked at. -/
def DrmConnector.init (k : Kernel μ) (connector : DrmConnector μ) : DrmConnector μ :=
  { connector with mPropCrtcId := k.propCrtcId.getD connector.mPropCrtcId }

structure Device (μ : Type) where
  mConnectors : List (DrmConnector μ)
  mEncoders : List DrmEncoder
  mCrtcs : List DrmCrtc
  dispConnectorIdMaps : List (UInt32 × UInt32)

/-- The loop over mConnectors, which `i` of them are behind. -/
def handleConnectors (k : ℕ → Kernel μ) (d : Device μ) (plugIn : Bool) (connectorId : UInt32) (i : ℕ) :
    List (DrmConnector μ) → Option (Bool × Device μ)
  | [] => some (false, d)
  | connector :: rest =>
    if connectorId = connector.mId then
      match connector.handleHotplug (k i) d.mEncoders d.mCrtcs plugIn with
      | none => none
      | some r =>
        if r.ret then
          some (true, { d with
            mConnectors := d.mConnectors.set i (r.connector.init (k i)), mEncoders := r.encoders })
        else
          handleConnectors k { d with
            mConnectors := d.mConnectors.set i r.connector, mEncoders := r.encoders } plugIn connectorId
            (i + 1) rest
    else handleConnectors k d plugIn connectorId (i + 1) rest

def Device.handleHotplug (k : ℕ → Kernel μ) (d : Device μ) (dispId : UInt32) (plugIn : Bool) :
    Option (Bool × Device μ) :=
  match d.dispConnectorIdMaps.find? (·.1 = dispId) with
  | none => some (false, d)
  | some entry => handleConnectors k d plugIn entry.2 0 d.mConnectors

structure Answer where
  device : ℕ
  dispId : UInt32
  ret : Bool
  deriving DecidableEq, Repr

structure Notice (γ : Type) where
  devId : UInt32
  connect : Bool
  callback : γ
  deriving DecidableEq, Repr

/-- HandleHotplug of the interface of a device, on a state of all the devices. -/
abbrev Handler (σ : Type) := σ → ℕ → UInt32 → Bool → Option (Bool × σ)

structure Session (σ γ : Type) where
  devices : σ
  answers : List Answer
  notices : List (Notice γ)

def doHotPlugCallback (callbacks : List γ) (devId : UInt32) (connect : Bool) : List (Notice γ) :=
  callbacks.map fun callback => ⟨devId, connect, callback⟩

def handleDisplay (handle : Handler σ) (callbacks : List γ) (plugIn : Bool) (device : ℕ)
    (s : Session σ γ) (dispId : UInt32) : Option (Session σ γ) :=
  (handle s.devices device dispId plugIn).map fun r =>
    ⟨r.2, s.answers ++ [⟨device, dispId, r.1⟩],
      s.notices ++ if r.1 then doHotPlugCallback callbacks dispId plugIn else []⟩

/-- The loops of HdiSession over `devices` many devices and, for each, over mHdiDisplays. -/
def handleHotplug (handle : Handler σ) (callbacks : List γ) (devices : ℕ) (mHdiDisplays : List UInt32)
    (plugIn : Bool) (s : Session σ γ) : Option (Session σ γ) :=
  (List.range devices).foldlM (fun s device =>
    mHdiDisplays.foldlM (handleDisplay handle callbacks plugIn device) s) s

/-- The devices of DRM as devices of a session; `k` are the answers for a device and a display. -/
def drmHandler (k : ℕ → UInt32 → ℕ → Kernel μ) : Handler (List (Device μ)) :=
  fun ds device dispId plugIn =>
    match ds[device]? with
    | none => some (false, ds)
    | some d => (d.handleHotplug (k device dispId) dispId plugIn).map fun r => (r.1, ds.set device r.2)

end DrmHotplug
