import DeviceQemu.HdiCompositionLayers
import DeviceQemu.ResourceLedger
import Mathlib.Algebra.BigOperators.Group.Finset.Basic
import Mathlib.Tactic.Abel

/-! File descriptors of layers and fences.
Each HdiLayer owns a duplicate of its buffer's descriptor and of its acquire fence, and the release
fence that the last commit gave it. The gfx composition waits on and blits from the layers it has
listed; the drm composition hands the client layer to the kernel. Descriptors that come in as
arguments are the caller's and not followed, those that are handed out are the caller's too. -/
namespace HdiFences

open ResourceLedger StepSystem HdiCompositionLayers
open HdiDisplay (Ptr IdLeft)
open HdiComposition (CompositionType)

/-- A descriptor, `none` for a negative number. -/
abbrev Fd := Option ℕ

def fds (fd : Fd) : Multiset ℕ := Multiset.ofList fd.toList

/-- The members that own descriptors; `mHdiBuffer` is `none` for a null pointer. -/
structure HdiLayer where
  mHdiBuffer : Option Fd
  mReleaseFence : Fd
  mAcquireFence : Fd
  deriving DecidableEq, Repr

def HdiLayer.init : HdiLayer := ⟨none, none, none⟩

/-- The descriptor of the buffer, `GetFb`. -/
def HdiLayer.getFb (l : HdiLayer) : Fd := l.mHdiBuffer.join

def closeFd (fd : Fd) : List (Op ℕ) := fd.toList.map .release

def useFd (fd : Fd) : List (Op ℕ) := fd.toList.map .use

def opened (answer : Fd) : List (Op ℕ) := answer.toList.map .acquire

/-- SetLayerBuffer, where `buffer` and `fence` are what dup answers for those of the caller. The new
buffer is made before the old one goes. -/
def HdiLayer.setLayerBuffer (l : HdiLayer) (buffer fence : Fd) : HdiLayer × List (Op ℕ) :=
  ({ l with mHdiBuffer := some buffer, mAcquireFence := fence },
    opened buffer ++ (closeFd l.getFb ++ (opened fence ++ closeFd l.mAcquireFence)))

def HdiLayer.setReleaseFence (l : HdiLayer) (fd : Fd) : HdiLayer × List (Op ℕ) :=
  ({ l with mReleaseFence := fd }, closeFd l.mReleaseFence)

/-- The destructor; members go in the reverse of the order of their declarations. -/
def HdiLayer.destroy (l : HdiLayer) : List (Op ℕ) :=
  closeFd l.getFb ++ (closeFd l.mReleaseFence ++ closeFd l.mAcquireFence)

/-- What the kernel answers to Apply of the drm composition: whether ApplyPlane gets to add the fence
and to import the buffer, and what the commit stores for the out fence, if it is reached and goes well. -/
structure DrmAnswers where
  fenceIn : Bool
  gem : Bool
  committed : Option Fd

def drmApply (client : HdiLayer) (drm : DrmAnswers) : HdiLayer × List (Op ℕ) :=
  let plane := (if drm.fenceIn then useFd client.mAcquireFence else []) ++
    if drm.gem then useFd client.getFb else []
  match drm.committed with
  | none => (client, plane)
  | some out =>
    let set := client.setReleaseFence out
    (set.1, plane ++ (opened out ++ set.2))

/-- PushFirstFrame, at the end of Init of the display. -/
def pushFirstFrame (buffer : Fd) (drm : DrmAnswers) : HdiLayer × List (Op ℕ) :=
  let set := HdiLayer.init.setLayerBuffer buffer none
  let applied := drmApply set.1 drm
  (applied.1, set.2 ++ applied.2)

/-- `layers` are the HdiLayer objects that exist; the memory of a destroyed one stays as it was.
`live` are the open descriptors and `given` those that were handed to the caller. -/
structure State where
  comp : HdiComposition.State
  layer : Ptr → HdiLayer
  layers : Finset Ptr
  mClientLayer : HdiLayer
  live : Multiset ℕ
  given : Multiset ℕ

structure Init (s : State) : Prop where
  comp : HdiComposition.Init s.comp
  layers : s.layers = ∅
  given : s.given = 0
  pushed : ∃ buffer drm, s.mClientLayer = (pushFirstFrame buffer drm).1 ∧
    AcquiresFresh 0 (pushFirstFrame buffer drm).2 ∧ s.live = after 0 (pushFirstFrame buffer drm).2

/-- Calls with what the kernel answers: `works` whether ClearRect or BlitLayer goes well, a `fence` what
dup answers for it, and `fences` what it answers for each layer of mLayers. -/
inductive Event where
  | createLayer (layerInfo layerId : Bool)
  | destroyLayer (layerId : UInt32)
  | setLayerZorder (layerId zorder : UInt32)
  | setLayerCompositionType (layerId : UInt32) (type : CompositionType)
  | setLayerBuffer (layerId : UInt32) (buffer fence : Fd)
  | setDisplayClientBuffer (buffer fence : Fd)
  | prepareDisplayLayers
  | commit (works : Ptr → Bool) (drm : DrmAnswers) (fence : Fd)
  | getDisplayReleaseFence (fences : List Fd)
  | callerCloses (fd : ℕ)

/-- ClearRect fills the client's buffer. -/
def clearRect (client : HdiLayer) : List (Op ℕ) := useFd client.getFb

/-- BlitLayer waits for the layer's fence, also where a buffer is missing. -/
def blitLayer (src client : HdiLayer) : List (Op ℕ) :=
  useFd src.mAcquireFence ++
    if src.mHdiBuffer.isSome ∧ client.mHdiBuffer.isSome then useFd src.getFb ++ useFd client.getFb
    else []

def succeeds (s : State) (works : Ptr → Bool) (p : Ptr) : Bool :=
  works p && s.mClientLayer.mHdiBuffer.isSome &&
    (s.comp.mCompositionType p ≠ .device || (s.layer p).mHdiBuffer.isSome)

/-- What the second loop of Apply of the gfx composition does with a layer. -/
def composeLayer (s : State) (p : Ptr) : List (Op ℕ) :=
  if s.comp.mCompositionType p = .video then clearRect s.mClientLayer
  else if s.comp.mCompositionType p = .device then blitLayer (s.layer p) s.mClientLayer
  else []

def gfxApply (s : State) (works : Ptr → Bool) : HdiDisplay.DisplayStatus × List (Op ℕ) :=
  let clear := HdiComposition.needClear s.comp.mCompositionType s.comp.mCompLayers
  let r := HdiComposition.applyLayers s.comp.mCompositionType (succeeds s works) s.comp.mCompLayers
  (r.1, (if clear.2 then clearRect s.mClientLayer else []) ++ r.2.flatMap (composeLayer s))

def composerCommit (s : State) (works : Ptr → Bool) (drm : DrmAnswers) : HdiLayer × List (Op ℕ) :=
  let gfx := gfxApply s works
  if gfx.1 = .success then
    let applied := drmApply s.mClientLayer drm
    (applied.1, gfx.2 ++ applied.2)
  else (s.mClientLayer, gfx.2)

/-- `dup`, which fails for a negative number. -/
def dup (fd answer : Fd) : List (Op ℕ) := useFd fd ++ opened answer

/-- A call of CreateLayer that goes well leaves the new layer in mLayersMap. -/
def created (s : State) (comp : HdiComposition.State) : State :=
  let p := s.comp.display.fresh
  { s with
    comp
    layer := Function.update s.layer p .init
    layers := if comp.display.mLayersMap (comp.display.heap p).mId = some p then insert p s.layers
      else s.layers }

def call (s : State) : Event → Option (State × List (Op ℕ))
  | .createLayer layerInfo layerId =>
    (HdiComposition.createLayer s.comp layerInfo layerId).map fun comp => (created s comp, [])
  | .destroyLayer layerId =>
    let t := { s with comp := HdiComposition.destroyLayer s.comp layerId }
    match s.comp.display.mLayersMap layerId with
    | none => some (t, [])
    | some p => some ({ t with layers := s.layers.erase p }, (s.layer p).destroy)
  | .setLayerZorder layerId zorder =>
    let display := (HdiDisplay.setLayerZorder s.comp.display layerId zorder).2
    some ({ s with comp := { s.comp with display } }, [])
  | .setLayerCompositionType layerId type =>
    match s.comp.display.mLayersMap layerId with
    | none => some (s, [])
    | some p =>
      let mCompositionType := Function.update s.comp.mCompositionType p type
      some ({ s with comp := { s.comp with mCompositionType } }, [])
  | .setLayerBuffer layerId buffer fence =>
    match s.comp.display.mLayersMap layerId with
    | none => some (s, [])
    | some p =>
      let set := (s.layer p).setLayerBuffer buffer fence
      some ({ s with layer := Function.update s.layer p set.1 }, set.2)
  | .setDisplayClientBuffer buffer fence =>
    let set := s.mClientLayer.setLayerBuffer buffer fence
    some ({ s with mClientLayer := set.1 }, set.2)
  | .prepareDisplayLayers =>
    some ({ s with comp := HdiComposition.prepareDisplayLayers s.comp }, [])
  | .commit works drm fence =>
    let applied := composerCommit s works drm
    if fence.isSome → applied.1.mReleaseFence.isSome then
      some ({ s with mClientLayer := applied.1, given := fds fence + s.given },
        applied.2 ++ dup applied.1.mReleaseFence fence)
    else none
  | .getDisplayReleaseFence fences =>
    let mLayers := s.comp.display.mLayers
    if fences.length = mLayers.length ∧
        ∀ e ∈ mLayers.zip fences, e.2.isSome → (s.layer e.1).mReleaseFence.isSome then
      some ({ s with given := (fences.map fds).sum + s.given },
        (mLayers.zip fences).flatMap fun e => dup (s.layer e.1).mReleaseFence e.2)
    else none
  | .callerCloses fd =>
    if fd ∈ s.given then some ({ s with given := s.given.erase fd }, [.release fd]) else none

def next (s : State) (e : Event) : Option State :=
  (call s e).bind fun r =>
    if AcquiresFresh s.live r.2 then some { r.1 with live := after s.live r.2 } else none

def display : System State Event where
  Init := Init
  next := next

/-- CreateLayer runs while an id is left, and Commit while no layer that the gfx composition has listed
is destroyed. -/
def Kept (s : State) : Event → Prop
  | .createLayer _ _ => IdLeft s.comp.display
  | .commit _ _ _ => ∀ p ∈ s.comp.destroyed, p ∉ s.comp.mCompLayers
  | _ => True

instance Kept.decidable : ∀ (s : State) (e : Event), Decidable (Kept s e)
  | s, .createLayer _ _ => inferInstanceAs (Decidable (IdLeft s.comp.display))
  | s, .commit _ _ _ => inferInstanceAs (Decidable (∀ p ∈ s.comp.destroyed, p ∉ s.comp.mCompLayers))
  | _, .destroyLayer _ | _, .setLayerZorder _ _ | _, .setLayerCompositionType _ _ => isTrue trivial
  | _, .setLayerBuffer _ _ _ | _, .setDisplayClientBuffer _ _ => isTrue trivial
  | _, .prepareDisplayLayers | _, .getDisplayReleaseFence _ | _, .callerCloses _ => isTrue trivial

def HdiLayer.holds (l : HdiLayer) : Multiset ℕ :=
  fds l.getFb + (fds l.mReleaseFence + fds l.mAcquireFence)

def layersHold (layer : Ptr → HdiLayer) (layers : Finset Ptr) : Multiset ℕ :=
  ∑ p ∈ layers, (layer p).holds

def held (s : State) : Multiset ℕ := s.mClientLayer.holds + layersHold s.layer s.layers

theorem leaves_of_eq {live live' left left' : Multiset ℕ} {ops : List (Op ℕ)}
    (h : Leaves ∅ live ops left) (hl : live' = live) (hr : left = left') : Leaves ∅ live' ops left' := by
  rw [hl, ← hr]
  exact h

theorem fds_none : fds none = 0 := rfl

theorem leaves_close (fd : Fd) (rest : Multiset ℕ) : Leaves ∅ (fds fd + rest) (closeFd fd) rest := by
  cases fd with
  | none =>
    rw [fds_none, Multiset.zero_add]
    exact Leaves.nil ∅ rest
  | some n => exact (Leaves.nil ∅ rest).release

theorem leaves_opened (fd : Fd) (rest : Multiset ℕ) : Leaves ∅ rest (opened fd) (fds fd + rest) := by
  cases fd with
  | none =>
    rw [fds_none, Multiset.zero_add]
    exact Leaves.nil ∅ rest
  | some n => exact (Leaves.nil ∅ (n ::ₘ rest)).acquire

/-- The operations use descriptors of `m` and do nothing else. -/
def Uses (m : Multiset ℕ) (ops : List (Op ℕ)) : Prop := ∀ op ∈ ops, ∃ r ∈ m, op = .use r

theorem Uses.leaves {m : Multiset ℕ} {ops : List (Op ℕ)} (h : Uses m ops) : Leaves ∅ m ops m :=
  Leaves.of_uses h

theorem Uses.append {m : Multiset ℕ} {ops ops' : List (Op ℕ)} (h : Uses m ops) (h' : Uses m ops') :
    Uses m (ops ++ ops') := by
  intro op hop
  exact (List.mem_append.mp hop).elim (h op) (h' op)

theorem Uses.mono {m m' : Multiset ℕ} {ops : List (Op ℕ)} (h : Uses m ops) (hm : m ≤ m') :
    Uses m' ops := by
  intro op hop
  obtain ⟨r, hr, heq⟩ := h op hop
  exact ⟨r, Multiset.mem_of_le hm hr, heq⟩

theorem uses_nil (m : Multiset ℕ) : Uses m [] := fun _ h => absurd h List.not_mem_nil

theorem uses_useFd (fd : Fd) : Uses (fds fd) (useFd fd) := by
  cases fd with
  | none => exact uses_nil _
  | some n =>
    intro op hop
    exact ⟨n, Multiset.mem_singleton_self n, List.mem_singleton.mp hop⟩

theorem uses_getFb (l : HdiLayer) : Uses l.holds (useFd l.getFb) :=
  (uses_useFd l.getFb).mono (Multiset.le_add_right _ _)

theorem uses_releaseFence (l : HdiLayer) : Uses l.holds (useFd l.mReleaseFence) :=
  (uses_useFd l.mReleaseFence).mono ((Multiset.le_add_right _ _).trans (Multiset.le_add_left _ _))

theorem uses_acquireFence (l : HdiLayer) : Uses l.holds (useFd l.mAcquireFence) :=
  (uses_useFd l.mAcquireFence).mono ((Multiset.le_add_left _ _).trans (Multiset.le_add_left _ _))

theorem leaves_setLayerBuffer (l : HdiLayer) (buffer fence : Fd) (rest : Multiset ℕ) :
    Leaves ∅ (l.holds + rest) (l.setLayerBuffer buffer fence).2
      ((l.setLayerBuffer buffer fence).1.holds + rest) := by
  have hmade := leaves_opened buffer (l.holds + rest)
  have hgone := leaves_close l.getFb (fds buffer + fds l.mReleaseFence + fds l.mAcquireFence + rest)
  have hdup := leaves_opened fence (fds buffer + fds l.mReleaseFence + fds l.mAcquireFence + rest)
  have hclosed := leaves_close l.mAcquireFence (fds buffer + fds l.mReleaseFence + fds fence + rest)
  refine hmade.append ((leaves_of_eq hgone ?_ rfl).append (hdup.append (leaves_of_eq hclosed ?_ ?_)))
  · rw [HdiLayer.holds]
    abel
  · abel
  · change _ = fds buffer + (fds l.mReleaseFence + fds fence) + rest
    abel

theorem leaves_destroy (l : HdiLayer) (rest : Multiset ℕ) : Leaves ∅ (l.holds + rest) l.destroy rest := by
  have hbuffer := leaves_close l.getFb (fds l.mReleaseFence + (fds l.mAcquireFence + rest))
  have hrelease := leaves_close l.mReleaseFence (fds l.mAcquireFence + rest)
  refine (leaves_of_eq hbuffer ?_ rfl).append (hrelease.append (leaves_close l.mAcquireFence rest))
  rw [HdiLayer.holds]
  abel

theorem leaves_drmApply (client : HdiLayer) (drm : DrmAnswers) (rest : Multiset ℕ) :
    Leaves ∅ (client.holds + rest) (drmApply client drm).2 ((drmApply client drm).1.holds + rest) := by
  obtain ⟨fenceIn, gem, committed⟩ := drm
  have hplane : Uses (client.holds + rest) ((if fenceIn then useFd client.mAcquireFence else []) ++
      if gem then useFd client.getFb else []) := by
    refine Uses.mono (Uses.append ?_ ?_) (Multiset.le_add_right _ _)
    · split
      · exact uses_acquireFence client
      · exact uses_nil _
    · split
      · exact uses_getFb client
      · exact uses_nil _
  cases committed with
  | none => exact hplane.leaves
  | some out =>
    have hclosed := leaves_close client.mReleaseFence
      (fds client.getFb + fds client.mAcquireFence + fds out + rest)
    refine hplane.leaves.append ((leaves_opened out _).append (leaves_of_eq hclosed ?_ ?_))
    · rw [HdiLayer.holds]
      abel
    · change _ = fds client.getFb + (fds out + fds client.mAcquireFence) + rest
      abel

theorem leaves_pushFirstFrame (buffer : Fd) (drm : DrmAnswers) :
    Leaves ∅ 0 (pushFirstFrame buffer drm).2 (pushFirstFrame buffer drm).1.holds := by
  have hset := leaves_setLayerBuffer .init buffer none 0
  have hdrm := leaves_drmApply (HdiLayer.init.setLayerBuffer buffer none).1 drm 0
  rw [Multiset.add_zero, Multiset.add_zero] at hset hdrm
  exact hset.append hdrm

theorem layersHold_split {layer : Ptr → HdiLayer} {layers : Finset Ptr} {p : Ptr} (hp : p ∈ layers) :
    layersHold layer layers = (layer p).holds + layersHold layer (layers.erase p) :=
  (Finset.add_sum_erase layers (fun p => (layer p).holds) hp).symm

theorem layersHold_update {layer : Ptr → HdiLayer} {layers : Finset Ptr} {p : Ptr} (hp : p ∉ layers)
    (l : HdiLayer) : layersHold (Function.update layer p l) layers = layersHold layer layers := by
  refine Finset.sum_congr rfl fun q hq => ?_
  rw [Function.update_of_ne (ne_of_mem_of_not_mem hq hp)]

theorem layersHold_set {layer : Ptr → HdiLayer} {layers : Finset Ptr} {p : Ptr} (hp : p ∈ layers)
    (l : HdiLayer) : layersHold (Function.update layer p l) layers =
      l.holds + layersHold layer (layers.erase p) := by
  rw [layersHold_split hp, Function.update_self, layersHold_update (Finset.notMem_erase p layers)]

theorem holds_le {layer : Ptr → HdiLayer} {layers : Finset Ptr} {p : Ptr} (hp : p ∈ layers) :
    (layer p).holds ≤ layersHold layer layers := by
  rw [layersHold_split hp]
  exact Multiset.le_add_right _ _

theorem uses_gfxApply {s : State} (h : ∀ p ∈ s.comp.mCompLayers, p ∈ s.layers) (works : Ptr → Bool) :
    Uses (held s) (gfxApply s works).2 := by
  have hclear : Uses (held s) (clearRect s.mClientLayer) :=
    (uses_getFb s.mClientLayer).mono (Multiset.le_add_right _ _)
  refine Uses.append ?_ ?_
  · split
    · exact hclear
    · exact uses_nil _
  intro op hop
  obtain ⟨p, hp, hop⟩ := List.mem_flatMap.mp hop
  have hle : (s.layer p).holds ≤ held s :=
    (holds_le (h p (applyLayers_reads _ _ _ p hp))).trans (Multiset.le_add_left _ _)
  have hblit : Uses (held s) (blitLayer (s.layer p) s.mClientLayer) := by
    refine ((uses_acquireFence _).mono hle).append ?_
    split
    · exact ((uses_getFb _).mono hle).append hclear
    · exact uses_nil _
  unfold composeLayer at hop
  split at hop
  · exact hclear op hop
  split at hop
  · exact hblit op hop
  · exact absurd hop List.not_mem_nil

theorem leaves_composerCommit {s : State} (h : ∀ p ∈ s.comp.mCompLayers, p ∈ s.layers)
    (works : Ptr → Bool) (drm : DrmAnswers) :
    Leaves ∅ (held s + s.given) (composerCommit s works drm).2
      ((composerCommit s works drm).1.holds + layersHold s.layer s.layers + s.given) := by
  have hgfx := ((uses_gfxApply h works).mono (Multiset.le_add_right _ s.given)).leaves
  have hdrm := leaves_drmApply s.mClientLayer drm (layersHold s.layer s.layers + s.given)
  rw [← add_assoc, ← add_assoc] at hdrm
  unfold composerCommit
  dsimp only
  split
  · exact hgfx.append hdrm
  · exact hgfx

/-- What a run keeps in order: the existing layers are those of mLayersMap, the gfx composition has
listed no others but destroyed ones, and release fences are with the client layer only. -/
structure Ordered (s : State) : Prop where
  owned : Owned s.comp.display
  layers : ∀ p, p ∈ s.layers ↔ Present s.comp.display p
  listed : ∀ p ∈ s.comp.mCompLayers, p ∈ s.comp.destroyed ∨ Present s.comp.display p
  release : ∀ p ∈ s.layers, (s.layer p).mReleaseFence = none

theorem Ordered.mem {s : State} (h : Ordered s) {id : UInt32} {p : Ptr}
    (hp : s.comp.display.mLayersMap id = some p) : p ∈ s.layers := (h.layers p).mpr ⟨id, hp⟩

theorem Ordered.fresh {s : State} (h : Ordered s) : s.comp.display.fresh ∉ s.layers := by
  intro hp
  obtain ⟨id, hid⟩ := (h.layers _).mp hp
  exact Nat.lt_irrefl _ (h.owned.fresh id _ hid)

theorem held_created {s : State} (h : Ordered s) (comp : HdiComposition.State) :
    held (created s comp) = held s := by
  have hinit : HdiLayer.init.holds = 0 := rfl
  have hsame : layersHold (Function.update s.layer s.comp.display.fresh .init) s.layers =
      layersHold s.layer s.layers := layersHold_update h.fresh .init
  unfold held created layersHold
  dsimp only
  split
  · rw [Finset.sum_insert h.fresh, Function.update_self, hinit, Multiset.zero_add]
    exact congrArg _ hsame
  · exact congrArg _ hsame

theorem releaseFences_none {s : State} (h : Ordered s) {fences : List Fd}
    (hlen : fences.length = s.comp.display.mLayers.length)
    (hdup : ∀ e ∈ s.comp.display.mLayers.zip fences,
      e.2.isSome → (s.layer e.1).mReleaseFence.isSome) :
    (∀ fence ∈ fences, fence = none) ∧
      ∀ e ∈ s.comp.display.mLayers.zip fences, dup (s.layer e.1).mReleaseFence e.2 = [] := by
  have hnone : ∀ e ∈ s.comp.display.mLayers.zip fences,
      (s.layer e.1).mReleaseFence = none ∧ e.2 = none := by
    intro e he
    have hmem := List.of_mem_zip (a := e.1) (b := e.2) he
    have hrelease := h.release e.1 ((h.layers e.1).mpr (h.owned.present e.1 hmem.1))
    refine ⟨hrelease, ?_⟩
    have hsome := hdup e he
    rw [hrelease] at hsome
    exact Option.not_isSome_iff_eq_none.mp fun hfence => Bool.false_ne_true (hsome hfence)
  constructor
  · intro fence hfence
    obtain ⟨i, hi, rfl⟩ := List.mem_iff_getElem.mp hfence
    have hzip : (s.comp.display.mLayers[i], fences[i]) ∈ s.comp.display.mLayers.zip fences := by
      refine List.mem_iff_getElem.mpr ⟨i, ?_, List.getElem_zip⟩
      rw [List.length_zip]
      omega
    exact (hnone _ hzip).2
  · intro e he
    rw [(hnone e he).1, (hnone e he).2]
    rfl

theorem leaves_destroyed {s : State} {p : Ptr} (hp : p ∈ s.layers) :
    Leaves ∅ (held s + s.given) (s.layer p).destroy
      (s.mClientLayer.holds + layersHold s.layer (s.layers.erase p) + s.given) := by
  refine leaves_of_eq (leaves_destroy (s.layer p) (s.mClientLayer.holds +
    layersHold s.layer (s.layers.erase p) + s.given)) ?_ rfl
  rw [held, layersHold_split hp]
  abel

theorem leaves_bufferSet {s : State} {p : Ptr} (hp : p ∈ s.layers) (buffer fence : Fd) :
    Leaves ∅ (held s + s.given) ((s.layer p).setLayerBuffer buffer fence).2
      (s.mClientLayer.holds + layersHold (Function.update s.layer p
        ((s.layer p).setLayerBuffer buffer fence).1) s.layers + s.given) := by
  refine leaves_of_eq (leaves_setLayerBuffer (s.layer p) buffer fence (s.mClientLayer.holds +
    layersHold s.layer (s.layers.erase p) + s.given)) ?_ ?_
  · rw [held, layersHold_split hp]
    abel
  · rw [layersHold_set hp]
    abel

/-- The layers that the gfx composition has listed still exist, so that what it uses is held. -/
theorem leaves_committed {s : State} (hs : Ordered s)
    (hk : ∀ p ∈ s.comp.destroyed, p ∉ s.comp.mCompLayers) (works : Ptr → Bool) (drm : DrmAnswers)
    (fence : Fd) :
    Leaves ∅ (held s + s.given) ((composerCommit s works drm).2 ++
        dup (composerCommit s works drm).1.mReleaseFence fence)
      ((composerCommit s works drm).1.holds + layersHold s.layer s.layers +
        (fds fence + s.given)) := by
  have hlisted : ∀ p ∈ s.comp.mCompLayers, p ∈ s.layers := fun p hp =>
    (hs.layers p).mpr ((hs.listed p hp).resolve_left fun hd => hk p hd hp)
  have hused := (uses_releaseFence (composerCommit s works drm).1).mono
    (Multiset.le_add_right _ (layersHold s.layer s.layers + s.given))
  rw [← add_assoc] at hused
  refine (leaves_composerCommit hlisted works drm).append (hused.leaves.append
    (leaves_of_eq (leaves_opened fence _) rfl ?_))
  abel

theorem leaves_releaseFences {s : State} (hs : Ordered s) {fences : List Fd}
    (hlen : fences.length = s.comp.display.mLayers.length)
    (hdup : ∀ e ∈ s.comp.display.mLayers.zip fences,
      e.2.isSome → (s.layer e.1).mReleaseFence.isSome) :
    Leaves ∅ (held s + s.given)
      ((s.comp.display.mLayers.zip fences).flatMap fun e => dup (s.layer e.1).mReleaseFence e.2)
      (held s + ((fences.map fds).sum + s.given)) := by
  obtain ⟨hnone, hops⟩ := releaseFences_none hs hlen hdup
  have hgiven : (fences.map fds).sum = 0 := by
    refine List.sum_eq_zero fun m hm => ?_
    obtain ⟨fence, hfence, rfl⟩ := List.mem_map.mp hm
    rw [hnone fence hfence, fds_none]
  rw [List.flatMap_eq_nil_iff.mpr hops, hgiven, Multiset.zero_add]
  exact Leaves.nil ∅ _

theorem leaves_call {s t : State} {e : Event} {ops : List (Op ℕ)} (hs : Ordered s) (hk : Kept s e)
    (h : call s e = some (t, ops)) : Leaves ∅ (held s + s.given) ops (held t + t.given) := by
  cases e with
  | createLayer layerInfo layerId =>
    obtain ⟨comp, -, heq⟩ := Option.map_eq_some_iff.mp h
    obtain ⟨rfl, rfl⟩ := Prod.mk.inj heq
    rw [held_created hs]
    exact Leaves.nil ∅ _
  | destroyLayer layerId =>
    cases hp : s.comp.display.mLayersMap layerId with
    | none =>
      rw [call, hp] at h
      obtain ⟨rfl, rfl⟩ := Prod.mk.inj (Option.some.inj h)
      exact Leaves.nil ∅ _
    | some p =>
      rw [call, hp] at h
      obtain ⟨rfl, rfl⟩ := Prod.mk.inj (Option.some.inj h)
      exact leaves_destroyed (hs.mem hp)
  | setLayerZorder layerId zorder | prepareDisplayLayers =>
    obtain ⟨rfl, rfl⟩ := Prod.mk.inj (Option.some.inj h)
    exact Leaves.nil ∅ _
  | setLayerCompositionType layerId type =>
    cases hp : s.comp.display.mLayersMap layerId with
    | none | some p =>
      rw [call, hp] at h
      obtain ⟨rfl, rfl⟩ := Prod.mk.inj (Option.some.inj h)
      exact Leaves.nil ∅ _
  | setLayerBuffer layerId buffer fence =>
    cases hp : s.comp.display.mLayersMap layerId with
    | none =>
      rw [call, hp] at h
      obtain ⟨rfl, rfl⟩ := Prod.mk.inj (Option.some.inj h)
      exact Leaves.nil ∅ _
    | some p =>
      rw [call, hp] at h
      obtain ⟨rfl, rfl⟩ := Prod.mk.inj (Option.some.inj h)
      exact leaves_bufferSet (hs.mem hp) buffer fence
  | setDisplayClientBuffer buffer fence =>
    obtain ⟨rfl, rfl⟩ := Prod.mk.inj (Option.some.inj h)
    refine leaves_of_eq (leaves_setLayerBuffer s.mClientLayer buffer fence
      (layersHold s.layer s.layers + s.given)) ?_ ?_
    · rw [held, add_assoc]
    · rw [held, add_assoc]
  | commit works drm fence =>
    obtain ⟨-, h⟩ := Option.ite_none_right_eq_some.mp h
    obtain ⟨rfl, rfl⟩ := Prod.mk.inj (Option.some.inj h)
    exact leaves_committed hs hk works drm fence
  | getDisplayReleaseFence fences =>
    obtain ⟨⟨hlen, hdup⟩, h⟩ := Option.ite_none_right_eq_some.mp h
    obtain ⟨rfl, rfl⟩ := Prod.mk.inj (Option.some.inj h)
    exact leaves_releaseFences hs hlen hdup
  | callerCloses fd =>
    obtain ⟨hfd, h⟩ := Option.ite_none_right_eq_some.mp h
    obtain ⟨rfl, rfl⟩ := Prod.mk.inj (Option.some.inj h)
    refine leaves_of_eq (Leaves.nil ∅ _).release ?_ rfl
    change held s + s.given = fd ::ₘ (held s + s.given.erase fd)
    rw [← Multiset.add_cons, Multiset.cons_erase hfd]

theorem ordered_created {s : State} {layerInfo layerId : Bool} {comp : HdiComposition.State}
    (hs : Ordered s) (hk : IdLeft s.comp.display)
    (h : HdiComposition.createLayer s.comp layerInfo layerId = some comp) :
    Ordered (created s comp) := by
  obtain ⟨r, hr, rfl⟩ := Option.map_eq_some_iff.mp h
  have hcr := createLayer_created hs.owned hk hr
  have hfresh : r.2.2.mLayersMap (r.2.2.heap s.comp.display.fresh).mId = some s.comp.display.fresh ↔
      Present r.2.2 s.comp.display.fresh := by
    constructor
    · exact fun hmap => ⟨_, hmap⟩
    · rintro ⟨id, hid⟩
      rw [hcr.owned.ids id _ hid]
      exact hid
  have hlayers : ∀ p, p ∈ (created s { s.comp with
      display := r.2.2
      mCompositionType := Function.update s.comp.mCompositionType s.comp.display.fresh .client
      mDeviceSelect := Function.update s.comp.mDeviceSelect s.comp.display.fresh .client }).layers ↔
        p ∈ s.layers ∨ (p = s.comp.display.fresh ∧ Present r.2.2 p) := by
    intro p
    unfold created
    dsimp only
    split
    · rename_i hmap
      rw [Finset.mem_insert, or_comm]
      refine or_congr_right (iff_self_and.mpr ?_)
      rintro rfl
      exact hfresh.mp hmap
    · rename_i hmap
      refine (or_iff_left ?_).symm
      rintro ⟨rfl, hp⟩
      exact hmap (hfresh.mpr hp)
  constructor
  · exact hcr.owned
  · intro p
    rw [hlayers, hs.layers]
    constructor
    · rintro (hp | ⟨-, hp⟩)
      · exact hcr.old p hp
      · exact hp
    · exact fun hp => (hcr.new p hp).imp_right fun heq => ⟨heq, hp⟩
  · exact fun p hp => (hs.listed p hp).imp_right (hcr.old p)
  · intro p hp
    change (Function.update s.layer s.comp.display.fresh .init p).mReleaseFence = none
    by_cases heq : p = s.comp.display.fresh
    · rw [heq, Function.update_self]
      rfl
    · rw [Function.update_of_ne heq]
      exact hs.release p (((hlayers p).mp hp).resolve_right fun hnew => heq hnew.1)

theorem ordered_destroyed {s : State} {id : UInt32} {layers : Finset Ptr} (hs : Ordered s)
    (hlayers : ∀ p, p ∈ layers ↔ p ∈ s.layers ∧ s.comp.display.mLayersMap id ≠ some p) :
    Ordered { s with comp := HdiComposition.destroyLayer s.comp id, layers } := by
  obtain ⟨howned, hpresent⟩ := @destroyLayer_owned s.comp.display id hs.owned
  constructor
  · exact howned
  · intro p
    refine (hlayers p).trans ?_
    rw [hs.layers]
    exact (hpresent p).symm
  · intro p hp
    rcases hs.listed p hp with hd | hpr
    · exact .inl (List.mem_append_right _ hd)
    · by_cases hid : s.comp.display.mLayersMap id = some p
      · exact .inl (List.mem_append_left _ (Option.mem_toList.mpr hid))
      · exact .inr ((hpresent p).mpr ⟨hpr, hid⟩)
  · exact fun p hp => hs.release p ((hlayers p).mp hp).1

theorem Ordered.setLayerZorder {s : State} (hs : Ordered s) (layerId zorder : UInt32) :
    Ordered { s with comp := { s.comp with
      display := (HdiDisplay.setLayerZorder s.comp.display layerId zorder).2 } } := by
  obtain ⟨howned, hmap, -⟩ := @setLayerZorder_owned s.comp.display layerId zorder hs.owned
  have hpresent : ∀ p, Present (HdiDisplay.setLayerZorder s.comp.display layerId zorder).2 p ↔
      Present s.comp.display p := by
    intro p
    rw [Present, hmap, Present]
  exact ⟨howned, fun p => (hs.layers p).trans (hpresent p).symm,
    fun p hp => (hs.listed p hp).imp_right (hpresent p).mpr, hs.release⟩

theorem Ordered.setLayerBuffer {s : State} (hs : Ordered s) {p : Ptr} (hp : p ∈ s.layers)
    (buffer fence : Fd) :
    Ordered { s with
      layer := Function.update s.layer p ((s.layer p).setLayerBuffer buffer fence).1 } := by
  refine ⟨hs.owned, hs.layers, hs.listed, fun q hq => ?_⟩
  change (Function.update s.layer p _ q).mReleaseFence = none
  by_cases heq : q = p
  · rw [heq, Function.update_self]
    exact hs.release p hp
  · rw [Function.update_of_ne heq]
    exact hs.release q hq

theorem Ordered.prepared {s : State} (hs : Ordered s) :
    Ordered { s with comp := HdiComposition.prepareDisplayLayers s.comp } := by
  have hdisplay := prepareDisplayLayers_display s.comp
  constructor
  · rw [hdisplay]
    exact hs.owned
  · rw [hdisplay]
    exact hs.layers
  · rw [hdisplay, prepareDisplayLayers_composed]
    exact fun p hp => .inr (hs.owned.present p hp)
  · exact hs.release

theorem ordered_call {s t : State} {e : Event} {ops : List (Op ℕ)} (hs : Ordered s) (hk : Kept s e)
    (h : call s e = some (t, ops)) : Ordered t := by
  cases e with
  | createLayer layerInfo layerId =>
    obtain ⟨comp, hcomp, heq⟩ := Option.map_eq_some_iff.mp h
    obtain ⟨rfl, -⟩ := Prod.mk.inj heq
    exact ordered_created hs hk hcomp
  | destroyLayer layerId =>
    cases hp : s.comp.display.mLayersMap layerId with
    | none =>
      rw [call, hp] at h
      obtain ⟨rfl, -⟩ := Prod.mk.inj (Option.some.inj h)
      exact ordered_destroyed hs fun p => by rw [hp]; simp
    | some p =>
      rw [call, hp] at h
      obtain ⟨rfl, -⟩ := Prod.mk.inj (Option.some.inj h)
      refine ordered_destroyed hs fun q => ?_
      rw [hp, Finset.mem_erase, and_comm, ne_eq, ne_eq, Option.some.injEq, eq_comm]
  | setLayerZorder layerId zorder =>
    obtain ⟨rfl, -⟩ := Prod.mk.inj (Option.some.inj h)
    exact hs.setLayerZorder layerId zorder
  | setLayerCompositionType layerId type =>
    cases hp : s.comp.display.mLayersMap layerId with
    | none | some p =>
      rw [call, hp] at h
      obtain ⟨rfl, -⟩ := Prod.mk.inj (Option.some.inj h)
      exact ⟨hs.owned, hs.layers, hs.listed, hs.release⟩
  | setLayerBuffer layerId buffer fence =>
    cases hp : s.comp.display.mLayersMap layerId with
    | none =>
      rw [call, hp] at h
      obtain ⟨rfl, -⟩ := Prod.mk.inj (Option.some.inj h)
      exact hs
    | some p =>
      rw [call, hp] at h
      obtain ⟨rfl, -⟩ := Prod.mk.inj (Option.some.inj h)
      exact hs.setLayerBuffer (hs.mem hp) buffer fence
  | setDisplayClientBuffer buffer fence =>
    obtain ⟨rfl, -⟩ := Prod.mk.inj (Option.some.inj h)
    exact ⟨hs.owned, hs.layers, hs.listed, hs.release⟩
  | prepareDisplayLayers =>
    obtain ⟨rfl, -⟩ := Prod.mk.inj (Option.some.inj h)
    exact hs.prepared
  | commit works drm fence | getDisplayReleaseFence fences | callerCloses fd =>
    obtain ⟨-, h⟩ := Option.ite_none_right_eq_some.mp h
    obtain ⟨rfl, -⟩ := Prod.mk.inj (Option.some.inj h)
    exact ⟨hs.owned, hs.layers, hs.listed, hs.release⟩

/-- What is open is held by one layer or by the caller. -/
structure Accounted (s : State) : Prop where
  ordered : Ordered s
  live : s.live = held s + s.given
  nodup : s.live.Nodup

theorem next_cases {s t : State} {e : Event} (h : next s e = some t) :
    ∃ r, call s e = some r ∧ AcquiresFresh s.live r.2 ∧ t = { r.1 with live := after s.live r.2 } := by
  obtain ⟨r, hr, h⟩ := Option.bind_eq_some_iff.mp h
  obtain ⟨hfresh, h⟩ := Option.ite_none_right_eq_some.mp h
  exact ⟨r, hr, hfresh, (Option.some.inj h).symm⟩

theorem accounted_init {s : State} (h : Init s) : Accounted s := by
  obtain ⟨buffer, drm, hclient, hfresh, hlive⟩ := h.pushed
  have hnone : ∀ p, p ∉ s.layers := fun p hp => by simp [h.layers] at hp
  refine ⟨⟨init_owned h.comp.display, fun p => ?_, ?_, fun p hp => absurd hp (hnone p)⟩, ?_, ?_⟩
  · refine iff_of_false (hnone p) ?_
    rintro ⟨id, hid⟩
    rw [h.comp.display.mLayersMap] at hid
    cases hid
  · simp [h.comp.mCompLayers]
  · have hsum : layersHold s.layer ∅ = 0 := Finset.sum_empty
    rw [hlive, (leaves_pushFirstFrame buffer drm).2, held, h.layers, h.given, hclient, hsum,
      Multiset.add_zero, Multiset.add_zero]
  · rw [hlive]
    exact nodup_after hfresh Multiset.nodup_zero

theorem accounted_step {s t : State} {e : Event} (h : Accounted s) (hk : Kept s e)
    (ht : next s e = some t) : Accounted t := by
  obtain ⟨⟨u, ops⟩, hcall, hfresh, rfl⟩ := next_cases ht
  have hleaves := leaves_call h.ordered hk hcall
  have hordered := ordered_call h.ordered hk hcall
  rw [← h.live] at hleaves
  refine ⟨?_, hleaves.2, nodup_after hfresh h.nodup⟩
  exact ⟨hordered.owned, hordered.layers, hordered.listed, hordered.release⟩

theorem accounted {s : State} (h : ReachableUnder display Kept s) : Accounted s :=
  h.invariant (fun _ => accounted_init) fun _ _ _ => accounted_step

def started : State where
  comp := HdiComposition.empty
  layer _ := .init
  layers := ∅
  mClientLayer := (pushFirstFrame (some 3) ⟨true, true, some (some 4)⟩).1
  live := after 0 (pushFirstFrame (some 3) ⟨true, true, some (some 4)⟩).2
  given := 0

theorem init_started : Init started :=
  ⟨HdiComposition.init_empty, rfl, rfl, some 3, ⟨true, true, some (some 4)⟩, rfl, by decide, rfl⟩

/-- A layer with a buffer and a fence, blitted to the client's buffer for one frame. -/
def frame : List Event :=
  [.createLayer true true, .setLayerBuffer 0 (some 5) (some 6), .prepareDisplayLayers,
    .setLayerCompositionType 0 .device, .setDisplayClientBuffer (some 7) (some 8)]

def committed : Event := .commit (fun _ => true) ⟨true, true, some (some 9)⟩ (some 10)

/-- If the layer is destroyed after it was listed, the commit waits on its fence, which is closed. -/
example : ((display.run started (frame ++ [.destroyLayer 0])).bind fun s =>
    (call s committed).map fun r => decide (.use 6 ∈ r.2 ∧ 6 ∉ s.live)) = some true := by
  decide +kernel

end HdiFences
