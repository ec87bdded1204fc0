import DeviceQemu.HdiDisplay

/-! Composition of the layers of a display.
PrepareDisplayLayers copies the pointers of mLayers to two lists, mChangeLayers of the display
and mCompLayers of the gfx composition. GetDisplayCompChange and Commit read through them
later. The drm composition lists the client layer only. -/
namespace HdiComposition

open StepSystem HdiDisplay

/-- The four types that are looked at, and the ones that are only passed on. -/
inductive CompositionType where
  | client
  | device
  | cursor
  | video
  | other (n : ℕ)
  deriving DecidableEq, Repr

/-- `destroyed` are the layers that DestroyLayer has deleted since the last
PrepareDisplayLayers. -/
structure State where
  display : HdiDisplay.State
  mCompositionType : Ptr → CompositionType
  mDeviceSelect : Ptr → CompositionType
  mChangeLayers : List Ptr
  mCompLayers : List Ptr
  destroyed : List Ptr

structure Init (s : State) : Prop where
  display : HdiDisplay.Init s.display
  mChangeLayers : s.mChangeLayers = []
  mCompLayers : s.mCompLayers = []
  destroyed : s.destroyed = []

def canHandle (_ : Ptr) : Bool := true

/-- The count of the layers and whether one of them is for the client, which starts out true. -/
def countLayers (type : Ptr → CompositionType) : List Ptr → ℕ × Bool
  | [] => (0, true)
  | p :: ps =>
    let r := countLayers type ps
    if !canHandle p then r
    else
      (r.1 + if type p ≠ .video ∧ type p ≠ .cursor then 1 else 0, r.2 || type p = .client)

def useCompositionClient (type : Ptr → CompositionType) (layers : List Ptr) : Bool :=
  (countLayers type layers).2 || (countLayers type layers).1 > 4

/-- The device is selected twice for a video or cursor layer, and the default wins. -/
def selectDevice (type : Ptr → CompositionType) (default : CompositionType)
    (select : Ptr → CompositionType) (p : Ptr) : Ptr → CompositionType :=
  let select := if type p = .video ∨ type p = .cursor then Function.update select p (type p)
    else Function.update select p default
  Function.update select p default

def setLayers (s : State) (layers : List Ptr) : State :=
  let default := if useCompositionClient s.mCompositionType layers then .client else .device
  { s with
    mDeviceSelect := (layers.filter canHandle).foldl
      (selectDevice s.mCompositionType default) s.mDeviceSelect
    mCompLayers := layers.filter canHandle }

/-- The first loop of Apply: the layers it reads, and whether it meets one for the device. -/
def needClear (type : Ptr → CompositionType) : List Ptr → List Ptr × Bool
  | [] => ([], false)
  | p :: ps =>
    if type p = .device then ([p], true)
    else
      let r := needClear type ps
      (p :: r.1, r.2)

/-- The second loop: the layers it reads, until ClearRect or BlitLayer fails for one. -/
def applyLayers (type : Ptr → CompositionType) (works : Ptr → Bool) :
    List Ptr → DisplayStatus × List Ptr
  | [] => (.success, [])
  | p :: ps =>
    if (type p = .video ∨ type p = .device) ∧ works p = false then (.failure, [p])
    else
      let r := applyLayers type works ps
      (r.1, p :: r.2)

def apply (s : State) (works : Ptr → Bool) : DisplayStatus × List Ptr :=
  let r := applyLayers s.mCompositionType works s.mCompLayers
  (r.1, (needClear s.mCompositionType s.mCompLayers).1 ++ r.2)

def createLayer (s : State) (layerInfo layerId : Bool) : Option State :=
  (HdiDisplay.createLayer s.display layerInfo layerId).map fun r =>
    { s with
      display := r.2.2
      mCompositionType := Function.update s.mCompositionType s.display.fresh .client
      mDeviceSelect := Function.update s.mDeviceSelect s.display.fresh .client }

def destroyLayer (s : State) (layerId : UInt32) : State :=
  { s with
    display := (HdiDisplay.destroyLayer s.display layerId).2
    destroyed := (s.display.mLayersMap layerId).toList ++ s.destroyed }

def changeTypes (select : Ptr → CompositionType) (type : Ptr → CompositionType) (p : Ptr) :
    Ptr → CompositionType :=
  if select p ≠ type p then Function.update type p (select p) else type

def prepareDisplayLayers (s : State) : State :=
  let layers := s.display.mLayers
  let t := setLayers s layers
  { t with
    mCompositionType := layers.foldl (changeTypes t.mDeviceSelect) t.mCompositionType
    mChangeLayers := layers
    destroyed := [] }

/-- What GetDisplayCompChange stores, and the layers it reads for that. -/
structure CompChange where
  status : DisplayStatus
  num : Option ℕ
  layers : Option (List UInt32)
  type : Option (List CompositionType)
  reads : List Ptr

def getDisplayCompChange (s : State) (num layers type : Bool) : CompChange :=
  if !num then ⟨.failure, none, none, none, []⟩
  else if !layers && !type then ⟨.success, some s.mChangeLayers.length, none, none, []⟩
  else
    { status := .success
      num := some s.mChangeLayers.length
      layers := if layers then some (s.mChangeLayers.map fun p => (s.display.heap p).mId) else none
      type := if type then some (s.mChangeLayers.map s.mCompositionType) else none
      reads := s.mChangeLayers }

inductive Event where
  | createLayer (layerInfo layerId : Bool)
  | destroyLayer (layerId : UInt32)
  | setLayerZorder (layerId zorder : UInt32)
  | prepareDisplayLayers
  | getDisplayCompChange (num layers type : Bool)
  | commit (works : Ptr → Bool)

def next (s : State) : Event → Option State
  | .createLayer layerInfo layerId => createLayer s layerInfo layerId
  | .destroyLayer layerId => some (destroyLayer s layerId)
  | .setLayerZorder layerId zorder =>
    some { s with display := (HdiDisplay.setLayerZorder s.display layerId zorder).2 }
  | .prepareDisplayLayers => some (prepareDisplayLayers s)
  | .getDisplayCompChange _ _ _ => some s
  | .commit _ => some s

def system : System State Event where
  Init := Init
  next := next

/-- The layers that a call reads through mChangeLayers or mCompLayers. -/
def reads (s : State) : Event → List Ptr
  | .getDisplayCompChange num layers type => (getDisplayCompChange s num layers type).reads
  | .commit works => (apply s works).2
  | _ => []

def empty : State where
  display := HdiDisplay.empty
  mCompositionType := fun _ => .client
  mDeviceSelect := fun _ => .client
  mChangeLayers := []
  mCompLayers := []
  destroyed := []

theorem init_empty : Init empty := ⟨HdiDisplay.init_empty, rfl, rfl, rfl⟩

end HdiComposition
