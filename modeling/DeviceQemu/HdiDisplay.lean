import DeviceQemu.OrderedMultiset
import DeviceQemu.StepSystem
import Mathlib.Data.Finset.Card
import Mathlib.Data.UInt

/-! Layers of a display.
CreateLayer, DestroyLayer and SetLayerZorder of HdiDisplay, on a heap of HdiLayer objects:
mLayersMap owns the layers by id, mLayers orders pointers to them by their current z. The set
of ids in use is shared by all displays, so it starts out arbitrary. -/
namespace HdiDisplay

open StepSystem OrderedMultiset

def invalideLayerId : UInt32 := 0xffffffff

inductive DisplayStatus where
  | success
  | failure
  | paramErr
  deriving DecidableEq, Repr

structure HdiLayer where
  mId : UInt32
  mZorder : UInt32
  deriving DecidableEq, Repr

/-- `mId` is 0 before Init; `mZorder` is -1. -/
def HdiLayer.new : HdiLayer := ⟨0, 0xffffffff⟩

abbrev Ptr := ℕ

/-- Objects below `fresh` have been allocated; their addresses are not used again. -/
structure State where
  mIdleId : UInt32
  mIdSets : Finset UInt32
  heap : Ptr → HdiLayer
  fresh : Ptr
  mLayersMap : UInt32 → Option Ptr
  mLayers : List Ptr

structure Init (s : State) : Prop where
  mLayersMap : ∀ id, s.mLayersMap id = none
  mLayers : s.mLayers = []

def sortLayersByZ (lhs rhs : Option HdiLayer) : Bool :=
  match lhs, rhs with
  | some lhs, some rhs => lhs.mZorder < rhs.mZorder
  | none, none => true
  | _, _ => false

def less (heap : Ptr → HdiLayer) (p q : Ptr) : Bool :=
  sortLayersByZ (some (heap p)) (some (heap q))

def zorder (heap : Ptr → HdiLayer) (p : Ptr) : ℕ := (heap p).mZorder.toNat

theorem less_comparesBy (heap : Ptr → HdiLayer) : ComparesBy (less heap) (zorder heap) := by
  intro p q
  simp [less, sortLayersByZ, zorder, UInt32.lt_iff_toNat_lt]

/-- The loop of GetIdleId: the id found and the value left in mIdleId. -/
def idleLoop (ids : Finset UInt32) (oldIdleId : UInt32) : ℕ → UInt32 → Option (UInt32 × UInt32)
  | 0, _ => none
  | n + 1, idle =>
    if idle ∉ ids then some (idle, idle)
    else
      let idle := (idle + 1) % invalideLayerId
      if oldIdleId = idle then some (invalideLayerId, idle) else idleLoop ids oldIdleId n idle

/-- A loop that has not ended after 2^32 rounds has seen every id and never ends. -/
def getIdleId (s : State) : Option (UInt32 × State) :=
  (idleLoop s.mIdSets s.mIdleId (2 ^ 32) (s.mIdleId % invalideLayerId)).map fun (id, idle) =>
    (id, { s with mIdSets := insert id s.mIdSets, mIdleId := idle + 1 })

def destroyHdiLayer (s : State) (p : Ptr) : State :=
  { s with mIdSets := s.mIdSets.erase (s.heap p).mId }

def createHdiLayer (s : State) : Ptr × State :=
  (s.fresh, { s with heap := Function.update s.heap s.fresh .new, fresh := s.fresh + 1 })

/-- `emplace` keeps the layer that has the id already, and destroys the new one. -/
def emplaceLayer (s : State) (id : UInt32) (p : Ptr) : State :=
  match s.mLayersMap id with
  | none => { s with mLayersMap := Function.update s.mLayersMap id (some p) }
  | some _ => destroyHdiLayer s p

def createLayer (s : State) (layerInfo layerId : Bool) :
    Option (DisplayStatus × Option UInt32 × State) :=
  if !layerInfo then some (.paramErr, none, s)
  else if !layerId then some (.paramErr, none, s)
  else
    let (p, s₁) := createHdiLayer s
    (getIdleId s₁).map fun (id, s₂) =>
      if id = invalideLayerId then (.failure, none, destroyHdiLayer s₂ p)
      else
        let heap := Function.update s₂.heap p { s₂.heap p with mId := id }
        let s₃ := { s₂ with heap, mLayers := OrderedMultiset.insert (less heap) p s₂.mLayers }
        (.success, some id, emplaceLayer s₃ id p)

def destroyLayer (s : State) (layerId : UInt32) : DisplayStatus × State :=
  match s.mLayersMap layerId with
  | none => (.failure, s)
  | some p =>
    (.success, destroyHdiLayer { s with
      mLayers := eraseKey (less s.heap) p s.mLayers
      mLayersMap := Function.update s.mLayersMap layerId none } p)

def setLayerZorder (s : State) (layerId zorder : UInt32) : DisplayStatus × State :=
  match s.mLayersMap layerId with
  | none => (.failure, s)
  | some p =>
    if (s.heap p).mZorder = zorder then (.success, s)
    else
      let mLayers := eraseElement (less s.heap) p s.mLayers
      let heap := Function.update s.heap p { s.heap p with mZorder := zorder }
      (.success, { s with heap, mLayers := OrderedMultiset.insert (less heap) p mLayers })

inductive Event where
  | createLayer (layerInfo layerId : Bool)
  | destroyLayer (layerId : UInt32)
  | setLayerZorder (layerId zorder : UInt32)
  deriving DecidableEq, Repr

def next (s : State) : Event → Option State
  | .createLayer layerInfo layerId => (createLayer s layerInfo layerId).map fun r => r.2.2
  | .destroyLayer layerId => some (destroyLayer s layerId).2
  | .setLayerZorder layerId zorder => some (setLayerZorder s layerId zorder).2

def system : System State Event where
  Init := Init
  next := next

def empty : State := ⟨0, ∅, fun _ => .new, 0, fun _ => none, []⟩

theorem init_empty : Init empty := ⟨fun _ => rfl, rfl⟩

/-- Some id is left: those in use, without the invalid one, are fewer than there are. -/
def IdLeft (s : State) : Prop :=
  (s.mIdSets.erase invalideLayerId).card < invalideLayerId.toNat

instance (s : State) : Decidable (IdLeft s) := inferInstanceAs (Decidable (_ < _))

theorem toNat_invalid : invalideLayerId.toNat = 4294967295 := rfl

theorem toNat_ofNat_lt {k : ℕ} (hk : k < 4294967295) : (UInt32.ofNat k).toNat = k := by
  rw [UInt32.toNat_ofNat']
  omega

theorem exists_idle {s : State} (h : IdLeft s) :
    ∃ k, k < 4294967295 ∧ UInt32.ofNat k ∉ s.mIdSets := by
  by_contra hall
  simp only [not_exists, not_and, not_not] at hall
  have hsub : (Finset.range 4294967295).image UInt32.ofNat ⊆ s.mIdSets.erase invalideLayerId := by
    intro id hid
    obtain ⟨k, hk, rfl⟩ := Finset.mem_image.mp hid
    have hlt := Finset.mem_range.mp hk
    refine Finset.mem_erase.mpr ⟨?_, hall k hlt⟩
    intro heq
    have := congrArg UInt32.toNat heq
    rw [toNat_ofNat_lt hlt, toNat_invalid] at this
    omega
  have hinj : Set.InjOn UInt32.ofNat (Finset.range 4294967295 : Set ℕ) := by
    intro i hi j hj hij
    have hi := Finset.mem_range.mp hi
    have hj := Finset.mem_range.mp hj
    have := congrArg UInt32.toNat hij
    rwa [toNat_ofNat_lt hi, toNat_ofNat_lt hj] at this
  have hcard := Finset.card_le_card hsub
  rw [Finset.card_image_of_injOn hinj, Finset.card_range] at hcard
  unfold IdLeft at h
  rw [toNat_invalid] at h
  omega

theorem next_toNat {idle : UInt32} (h : idle.toNat < 4294967295) :
    ((idle + 1) % invalideLayerId).toNat = (idle.toNat + 1) % 4294967295 := by
  rw [UInt32.toNat_mod, UInt32.toNat_add, toNat_invalid, UInt32.toNat_one]
  omega

/-- The loop stops at an idle id that it reaches before it is back at the start. -/
theorem idleLoop_finds {ids : Finset UInt32} {old : UInt32} {k : ℕ} :
    ∀ {n : ℕ} {idle : UInt32}, k < n → idle.toNat < 4294967295 →
      UInt32.ofNat ((idle.toNat + k) % 4294967295) ∉ ids →
      (∀ j, 0 < j → j ≤ k → (idle.toNat + j) % 4294967295 ≠ old.toNat) →
      ∃ id, idleLoop ids old n idle = some (id, id) ∧ id ∉ ids ∧ id.toNat < 4294967295 := by
  induction k with
  | zero =>
    intro n idle hn hidle hfree _
    rw [Nat.add_zero, Nat.mod_eq_of_lt hidle, UInt32.ofNat_toNat] at hfree
    cases n with
    | zero => omega
    | succ n => exact ⟨idle, by rw [idleLoop, if_pos hfree], hfree, hidle⟩
  | succ k ih =>
    intro n idle hn hidle hfree hold
    cases n with
    | zero => omega
    | succ n =>
      by_cases hmem : idle ∉ ids
      · exact ⟨idle, by rw [idleLoop, if_pos hmem], hmem, hidle⟩
      · have hnext := next_toNat hidle
        have hne : old ≠ (idle + 1) % invalideLayerId := by
          intro heq
          exact hold 1 (by omega) (by omega) (by rw [heq, hnext])
        rw [idleLoop, if_neg hmem]
        dsimp only
        rw [if_neg hne]
        apply ih (by omega)
        · rw [hnext]
          exact Nat.mod_lt _ (by omega)
        · rwa [hnext, Nat.mod_add_mod, Nat.add_assoc, Nat.add_comm 1 k]
        · intro j hj hjk
          rw [hnext, Nat.mod_add_mod, Nat.add_assoc, Nat.add_comm 1 j]
          exact hold (j + 1) (by omega) (by omega)

theorem getIdleId_finds {s : State} (h : IdLeft s) :
    ∃ id, getIdleId s = some (id, { s with mIdSets := insert id s.mIdSets, mIdleId := id + 1 }) ∧
      id ∉ s.mIdSets ∧ id ≠ invalideLayerId := by
  obtain ⟨f, hf, hfree⟩ := exists_idle h
  have hstart : (s.mIdleId % invalideLayerId).toNat = s.mIdleId.toNat % 4294967295 := by
    rw [UInt32.toNat_mod, toNat_invalid]
  have hlt : s.mIdleId.toNat % 4294967295 < 4294967295 := Nat.mod_lt _ (by omega)
  have hold := s.mIdleId.toNat_lt
  obtain ⟨id, hid, hmem, hvalid⟩ := @idleLoop_finds s.mIdSets s.mIdleId
    ((f + 4294967295 - s.mIdleId.toNat % 4294967295) % 4294967295) (2 ^ 32)
    (s.mIdleId % invalideLayerId) (by omega) (by rwa [hstart])
    (by
      rw [hstart, Nat.add_mod_mod]
      rwa [show s.mIdleId.toNat % 4294967295 + (f + 4294967295 - s.mIdleId.toNat % 4294967295) =
        f + 4294967295 by omega, Nat.add_mod_right, Nat.mod_eq_of_lt hf])
    (by
      intro j hj hjk
      rw [hstart]
      omega)
  refine ⟨id, by rw [getIdleId, hid]; rfl, hmem, ?_⟩
  rintro rfl
  rw [toNat_invalid] at hvalid
  omega

/-- The state in which CreateLayer has added the layer `id`. -/
def addedLayer (s : State) (id : UInt32) : State :=
  let heap := Function.update s.heap s.fresh { HdiLayer.new with mId := id }
  { s with
    mIdSets := insert id s.mIdSets
    mIdleId := id + 1
    heap
    fresh := s.fresh + 1
    mLayers := OrderedMultiset.insert (less heap) s.fresh s.mLayers
    mLayersMap := Function.update s.mLayersMap id (some s.fresh) }

/-- What CreateLayer does when an id is left: nothing, or it adds a layer under a free one. -/
theorem createLayer_cases {s : State} (h : IdLeft s) {layerInfo layerId : Bool}
    (hheld : ∀ id p, s.mLayersMap id = some p → id ∈ s.mIdSets)
    {r : DisplayStatus × Option UInt32 × State} (hr : createLayer s layerInfo layerId = some r) :
    r.2.2 = s ∨ ∃ id, id ∉ s.mIdSets ∧ s.mLayersMap id = none ∧ r.2.2 = addedLayer s id := by
  simp only [createLayer] at hr
  split at hr
  · obtain rfl := Option.some.inj hr
    exact .inl rfl
  split at hr
  · obtain rfl := Option.some.inj hr
    exact .inl rfl
  obtain ⟨id, hget, hid, hvalid⟩ := getIdleId_finds (s := (createHdiLayer s).2) h
  have hid : id ∉ s.mIdSets := hid
  have hnone : s.mLayersMap id = none := by
    rw [Option.eq_none_iff_forall_ne_some]
    exact fun p hp => hid (hheld id p hp)
  rw [hget] at hr
  simp only [Option.map_some, if_neg hvalid, createHdiLayer, emplaceLayer, hnone,
    Option.some.injEq] at hr
  subst hr
  refine .inr ⟨id, hid, hnone, ?_⟩
  simp [addedLayer]

theorem addedLayer_map {s : State} {id : UInt32} (h : s.mLayersMap id = none) (id' : UInt32)
    (p : Ptr) : (addedLayer s id).mLayersMap id' = some p ↔
      (id' = id ∧ p = s.fresh) ∨ s.mLayersMap id' = some p := by
  by_cases heq : id' = id
  · subst heq
    simp [addedLayer, h, eq_comm]
  · simp [addedLayer, heq]

/-- CreateLayer returns when an id is left. -/
theorem createLayer_returns {s : State} (h : IdLeft s) (layerInfo layerId : Bool) :
    (createLayer s layerInfo layerId).isSome = true := by
  obtain ⟨id, hget, -⟩ := getIdleId_finds (s := (createHdiLayer s).2) h
  cases layerInfo with
  | false => rfl
  | true =>
    cases layerId with
    | false => rfl
    | true => simp [createLayer, hget]

end HdiDisplay
