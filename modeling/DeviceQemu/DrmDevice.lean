import DeviceQemu.HdiIdSets
import Mathlib.Data.List.Nodup

/-! Discovery of displays.
DiscoveryDisplay of DrmDevice: for each connector a crtc is picked through its encoders, and a
display on the two is created, initialised and published. A crtc is an object with fixed id and
pipe; its fields that change are kept in the state, by its id. -/
namespace DrmDevice

open StepSystem
open HdiIdSets (IdSets invalideDisplayId)

structure DrmCrtc where
  mId : UInt32
  mPipe : ℕ
  deriving DecidableEq, Repr

/-- `1 << pipe` as the 32-bit mask it is compared with. -/
def pipeBit (pipe : ℕ) : UInt32 := 1 <<< UInt32.ofNat pipe

theorem toNat_pipeBit (pipe : ℕ) : (pipeBit pipe).toNat = 2 ^ (pipe % 32) := by
  have hlt : pipe % 32 < 32 := Nat.mod_lt _ (by omega)
  have hmod : (UInt32.ofNat pipe).toNat % 32 = pipe % 32 := by
    rw [UInt32.toNat_ofNat']
    omega
  rw [pipeBit, UInt32.toNat_shiftLeft, UInt32.toNat_one, Nat.one_shiftLeft, hmod]
  exact Nat.mod_eq_of_lt (Nat.pow_lt_pow_right (by omega) hlt)

theorem pipeBit_ne_zero (pipe : ℕ) : pipeBit pipe ≠ 0 := by
  intro h
  have hnat := congrArg UInt32.toNat h
  rw [toNat_pipeBit] at hnat
  exact absurd hnat (Nat.two_pow_pos _).ne'

theorem pipeBit_inj {pipe pipe' : ℕ} (h : pipe < 32) (h' : pipe' < 32)
    (heq : pipeBit pipe = pipeBit pipe') : pipe = pipe' := by
  have hnat := congrArg UInt32.toNat heq
  rw [toNat_pipeBit, toNat_pipeBit, Nat.mod_eq_of_lt h, Nat.mod_eq_of_lt h'] at hnat
  exact Nat.pow_right_injective (le_refl 2) hnat

structure DrmEncoder where
  mEncoderId : UInt32
  mCrtcId : UInt32
  mPossibleCrtcs : UInt32
  deriving DecidableEq, Repr

/-- `modes` is the size of mModes, whose keys count from 0. -/
structure DrmConnector where
  mId : UInt32
  mEncoderId : UInt32
  mPossibleEncoders : List UInt32
  mPreferenceId : ℤ
  modes : ℕ
  deriving DecidableEq, Repr

def invalidModeId : ℤ := -1

/-- drmModeGetCrtc of the resource `id`, and whether Init of the object finds its properties. -/
structure CrtcReport where
  id : UInt32
  found : Bool
  properties : Bool
  deriving DecidableEq, Repr

/-- `emplace` keeps the object that has the key already. -/
def emplaceCrtc (crtcs : List DrmCrtc) (crtc : DrmCrtc) : List DrmCrtc :=
  if crtc.mId ∈ crtcs.map DrmCrtc.mId then crtcs else crtcs ++ [crtc]

/-- The loop of FindAllCrtc, from the index `i` on. -/
def findCrtcs (crtcs : List DrmCrtc) (i : ℕ) : List CrtcReport → List DrmCrtc
  | [] => crtcs
  | r :: rs =>
    if r.found && r.properties then findCrtcs (emplaceCrtc crtcs ⟨r.id, i⟩) (i + 1) rs
    else findCrtcs crtcs (i + 1) rs

def findAllCrtc (res : List CrtcReport) : List DrmCrtc := findCrtcs [] 0 res

structure Indexed (crtcs : List DrmCrtc) (i : ℕ) : Prop where
  ids : (crtcs.map DrmCrtc.mId).Nodup
  pipes : (crtcs.map DrmCrtc.mPipe).Nodup
  below : ∀ crtc ∈ crtcs, crtc.mPipe < i

theorem Indexed.emplace {crtcs : List DrmCrtc} {i : ℕ} (h : Indexed crtcs i) (id : UInt32) :
    Indexed (emplaceCrtc crtcs ⟨id, i⟩) (i + 1) := by
  unfold emplaceCrtc
  split_ifs with hid
  · exact ⟨h.ids, h.pipes, fun crtc hmem => Nat.lt_succ_of_lt (h.below crtc hmem)⟩
  · refine ⟨?_, ?_, ?_⟩
    · rw [List.map_append, List.map_singleton]
      exact List.nodup_append_comm.mp (List.nodup_cons.mpr ⟨hid, h.ids⟩)
    · rw [List.map_append, List.map_singleton]
      refine List.nodup_append_comm.mp (List.nodup_cons.mpr ⟨fun hmem => ?_, h.pipes⟩)
      obtain ⟨crtc, hcrtc, heq⟩ := List.mem_map.mp hmem
      exact (h.below crtc hcrtc).ne heq
    · intro crtc hmem
      rcases List.mem_append.mp hmem with hold | hnew
      · exact Nat.lt_succ_of_lt (h.below crtc hold)
      · rw [List.mem_singleton.mp hnew]
        exact Nat.lt_succ_self i

theorem Indexed.mono {crtcs : List DrmCrtc} {i : ℕ} (h : Indexed crtcs i) :
    Indexed crtcs (i + 1) :=
  ⟨h.ids, h.pipes, fun crtc hmem => Nat.lt_succ_of_lt (h.below crtc hmem)⟩

theorem findCrtcs_indexed {res : List CrtcReport} : ∀ {crtcs : List DrmCrtc} {i : ℕ},
    Indexed crtcs i → Indexed (findCrtcs crtcs i res) (i + res.length) := by
  induction res with
  | nil => exact fun h => h
  | cons r res ih =>
    intro crtcs i h
    rw [List.length_cons, ← Nat.add_assoc, Nat.add_right_comm]
    unfold findCrtcs
    split_ifs
    · exact ih (h.emplace r.id)
    · exact ih h.mono

theorem findAllCrtc_indexed (res : List CrtcReport) : Indexed (findAllCrtc res) res.length := by
  have hnil : Indexed [] 0 :=
    ⟨List.nodup_nil, List.nodup_nil, fun crtc hmem => absurd hmem List.not_mem_nil⟩
  have h := @findCrtcs_indexed res _ _ hnil
  rwa [Nat.zero_add] at h

/-- mCrtcs, mEncoders and mConnectors, each in the order in which it is traversed. The keys of
mCrtcs are the ids, as FindAllCrtc leaves them. -/
structure Resources where
  mCrtcs : List DrmCrtc
  mEncoders : List DrmEncoder
  mConnectors : List DrmConnector
  crtcs_nodup : (mCrtcs.map DrmCrtc.mId).Nodup

/-- `initialised` is what Init returned; the class does not record it. -/
structure DrmDisplay where
  mId : UInt32
  mConnector : DrmConnector
  mCrtc : DrmCrtc
  initialised : Bool
  deriving DecidableEq, Repr

structure State where
  mDisplayId : UInt32 → UInt32
  mActiveModeId : UInt32 → ℤ
  displayIds : IdSets
  mDisplays : List DrmDisplay

def canBind (s : State) (crtc : DrmCrtc) : Bool := s.mDisplayId crtc.mId = invalideDisplayId

def DrmEncoder.allows (encoder : DrmEncoder) (crtc : DrmCrtc) : Bool :=
  pipeBit crtc.mPipe &&& encoder.mPossibleCrtcs ≠ 0

def DrmEncoder.currentCrtc (encoder : DrmEncoder) (crtcs : List DrmCrtc) : Option DrmCrtc :=
  match crtcs.find? (·.mId = encoder.mCrtcId) with
  | some crtc => some crtc
  | none => crtcs.find? fun crtc => encoder.mPossibleCrtcs = pipeBit crtc.mPipe

/-- The loop has no break, so that the last crtc that will do is taken. -/
def DrmEncoder.idleCrtc (s : State) (encoder : DrmEncoder) (crtcs : List DrmCrtc) :
    Option DrmCrtc :=
  crtcs.reverse.find? fun crtc => canBind s crtc && encoder.allows crtc

def DrmEncoder.pickIdleCrtcId (s : State) (encoder : DrmEncoder) (crtcs : List DrmCrtc) :
    Option UInt32 :=
  match encoder.currentCrtc crtcs with
  | none => none
  | some crtc =>
    if canBind s crtc then some crtc.mId else (encoder.idleCrtc s crtcs).map DrmCrtc.mId

def tryPickEncoder (r : Resources) (s : State) (encoderId : UInt32) : Option UInt32 :=
  match r.mEncoders.find? (·.mEncoderId = encoderId) with
  | none => none
  | some encoder => encoder.pickIdleCrtcId s r.mCrtcs

def DrmConnector.pickIdleCrtcId (r : Resources) (s : State) (connector : DrmConnector) :
    Option UInt32 :=
  match tryPickEncoder r s connector.mEncoderId with
  | some crtcId => some crtcId
  | none => connector.mPossibleEncoders.findSome? (tryPickEncoder r s)

/-- How the calls end that a display's Init makes outside: HdiGfxComposition::Init and
AllocMem for the first frame. -/
structure Outcome where
  gfxInit : Bool
  allocMem : Bool
  deriving DecidableEq, Repr

def bindToDisplay (s : State) (crtc : DrmCrtc) (id : UInt32) : Option State :=
  if s.mDisplayId crtc.mId ≠ invalideDisplayId then none
  else some { s with mDisplayId := Function.update s.mDisplayId crtc.mId id }

def unBindDisplay (s : State) (crtc : DrmCrtc) (id : UInt32) : State :=
  if s.mDisplayId crtc.mId = id then
    { s with mDisplayId := Function.update s.mDisplayId crtc.mId invalideDisplayId }
  else s

def setActivieMode (s : State) (crtc : DrmCrtc) (id : ℤ) : Option State :=
  if id ≠ 0 then none
  else some { s with mActiveModeId := Function.update s.mActiveModeId crtc.mId id }

/-- What Apply returns is not looked at. -/
def pushFirstFrame (s : State) (connector : DrmConnector) (crtc : DrmCrtc) (allocMem : Bool) :
    Bool :=
  let modeId := s.mActiveModeId crtc.mId
  decide (0 ≤ modeId ∧ modeId < connector.modes) && allocMem

/-- GetDisplaySupportedModes succeeds, so that no mode at all is not an error here. -/
def DrmConnector.preferredMode (connector : DrmConnector) : ℤ :=
  if connector.mPreferenceId = invalidModeId then 0 else connector.mPreferenceId

def chosePreferenceMode (s : State) (connector : DrmConnector) (crtc : DrmCrtc)
    (allocMem : Bool) : Bool × State :=
  match setActivieMode s crtc connector.preferredMode with
  | none => (false, s)
  | some s => (pushFirstFrame s connector crtc allocMem, s)

/-- Init of DrmDisplay: whether it succeeds, and the id the display has then. GetIdleId may not
return. -/
def initDisplay (s : State) (connector : DrmConnector) (crtc : DrmCrtc) (out : Outcome) :
    Option (Bool × UInt32 × State) :=
  s.displayIds.getIdleId.map fun (id, displayIds) =>
    let s := { s with displayIds }
    if id = invalideDisplayId then (false, invalideDisplayId, s)
    else if !out.gfxInit then (false, id, s)
    else
      match bindToDisplay s crtc id with
      | none => (false, id, s)
      | some s =>
        let (ok, s) := chosePreferenceMode s connector crtc out.allocMem
        (ok, id, s)

def publish (s : State) (display : DrmDisplay) : State :=
  if display.mId ∈ s.mDisplays.map DrmDisplay.mId then
    let s := unBindDisplay s display.mCrtc display.mId
    { s with displayIds := s.displayIds.erase display.mId }
  else { s with mDisplays := display :: s.mDisplays }

def discover (r : Resources) (s : State) (connector : DrmConnector) (out : Outcome) :
    Option State :=
  match connector.pickIdleCrtcId r s with
  | none => some s
  | some crtcId =>
    match r.mCrtcs.find? (·.mId = crtcId) with
    | none => some s
    | some crtc =>
      (initDisplay s connector crtc out).map fun (initialised, mId, s) =>
        publish s ⟨mId, connector, crtc, initialised⟩

def start (displayIds : IdSets) : State :=
  ⟨fun _ => invalideDisplayId, fun _ => invalidModeId, displayIds, []⟩

def system (r : Resources) : System State (DrmConnector × Outcome) where
  Init s := ∃ displayIds, s = start displayIds
  next s e := discover r s e.1 e.2

def discoveryDisplay (r : Resources) (displayIds : IdSets) (out : DrmConnector → Outcome) :
    Option State :=
  (system r).run (start displayIds) (r.mConnectors.map fun connector => (connector, out connector))

end DrmDevice
