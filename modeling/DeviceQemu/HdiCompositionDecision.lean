import DeviceQemu.HdiCompositionLayers

/-! The decision about the layers of a display.
SetLayerCompositionType requests a type for a layer, and each PrepareDisplayLayers selects one. What
was requested and what the last preparation has changed is kept beside the display. -/
namespace HdiCompositionDecision

open StepSystem HdiDisplay HdiComposition HdiCompositionLayers

/-- `requested` is the type that was last set for a layer, which is created for the client. -/
structure State where
  comp : HdiComposition.State
  requested : Ptr → CompositionType
  changed : List Ptr

structure Init (s : State) : Prop where
  comp : HdiComposition.Init s.comp
  changed : s.changed = []

inductive Event where
  | call (e : HdiComposition.Event)
  | setLayerCompositionType (layerId : UInt32) (type : CompositionType)

def setLayerCompositionType (s : State) (layerId : UInt32) (type : CompositionType) : State :=
  match s.comp.display.mLayersMap layerId with
  | none => s
  | some p =>
    { s with
      comp := { s.comp with mCompositionType := Function.update s.comp.mCompositionType p type }
      requested := Function.update s.requested p type }

def changedLayers (s t : HdiComposition.State) : List Ptr :=
  s.display.mLayers.filter fun p => t.mCompositionType p ≠ s.mCompositionType p

def record (s : State) (t : HdiComposition.State) : HdiComposition.Event → State
  | .createLayer _ _ =>
    { s with
      comp := t
      requested := Function.update s.requested s.comp.display.fresh .client }
  | .prepareDisplayLayers => { s with comp := t, changed := changedLayers s.comp t }
  | _ => { s with comp := t }

def next (s : State) : Event → Option State
  | .call e => (HdiComposition.next s.comp e).map fun t => record s t e
  | .setLayerCompositionType layerId type => some (setLayerCompositionType s layerId type)

def system : System State Event where
  Init := Init
  next := next

/-- The law of a preparation from `s` to `t`. -/
structure Decided (requested : Ptr → CompositionType) (s t : HdiComposition.State) : Prop where
  kept : ∀ p ∈ s.display.mLayers, requested p = .video ∨ requested p = .cursor →
    t.mCompositionType p = requested p
  rest : ∀ p ∈ s.display.mLayers, ¬ (requested p = .video ∨ requested p = .cursor) →
    t.mCompositionType p =
      if useCompositionClient s.mCompositionType s.display.mLayers then .client else .device
  changes : t.mChangeLayers = changedLayers s t

/-- What is reported are the layers that have changed. -/
structure Reported (s : State) (r : CompChange) : Prop where
  num : ∀ n, r.num = some n → n = s.changed.length
  layers : ∀ ids, r.layers = some ids → ids = s.changed.map fun p => (s.comp.display.heap p).mId

def Right (s : State) : Event → Prop
  | .call .prepareDisplayLayers => Decided s.requested s.comp (prepareDisplayLayers s.comp)
  | .call (.getDisplayCompChange num layers type) =>
    Reported s (getDisplayCompChange s.comp num layers type)
  | _ => True

/-- No layer is prepared that is requested as video or cursor, or that is for the client already. -/
def AllChange (s : State) : Event → Prop
  | .call .prepareDisplayLayers => ∀ p ∈ s.comp.display.mLayers,
      ¬ (s.requested p = .video ∨ s.requested p = .cursor) ∧ s.comp.mCompositionType p ≠ .client
  | _ => True

instance (s : State) : (e : Event) → Decidable (AllChange s e)
  | .call .prepareDisplayLayers => inferInstanceAs (Decidable (∀ p ∈ s.comp.display.mLayers, _ ∧ _))
  | .call (.createLayer _ _) | .call (.destroyLayer _) | .call (.setLayerZorder _ _) => isTrue trivial
  | .call (.getDisplayCompChange _ _ _) | .call (.commit _) => isTrue trivial
  | .setLayerCompositionType _ _ => isTrue trivial

theorem listed_iff (s : HdiComposition.State) :
    (prepareDisplayLayers s).mChangeLayers = changedLayers s (prepareDisplayLayers s) ↔
      ∀ p ∈ s.display.mLayers, s.mCompositionType p ≠ .client := by
  rw [prepareDisplayLayers_listed, changedLayers, eq_comm, List.filter_eq_self]
  refine forall_congr' fun p => forall_congr' fun hp => ?_
  rw [prepareDisplayLayers_client (.inr hp), decide_eq_true_iff, ne_comm]

theorem decided_iff (requested : Ptr → CompositionType) (s : HdiComposition.State) :
    Decided requested s (prepareDisplayLayers s) ↔ ∀ p ∈ s.display.mLayers,
      ¬ (requested p = .video ∨ requested p = .cursor) ∧ s.mCompositionType p ≠ .client := by
  constructor
  · intro h p hp
    refine ⟨fun hreq => ?_, (listed_iff s).mp h.changes p hp⟩
    have hkept := h.kept p hp hreq
    rw [prepareDisplayLayers_client (.inr hp)] at hkept
    rw [← hkept] at hreq
    rcases hreq with hvideo | hcursor
    · cases hvideo
    · cases hcursor
  · intro h
    constructor
    · exact fun p hp hreq => absurd hreq (h p hp).1
    · intro p hp _
      rw [prepareDisplayLayers_client (.inr hp), useCompositionClient_true, if_pos rfl]
    · exact (listed_iff s).mpr fun p hp => (h p hp).2

def Tallies (s : State) : Prop := s.comp.mChangeLayers = s.changed

theorem init_tallies {s : State} (h : Init s) : Tallies s := by
  rw [Tallies, h.comp.mChangeLayers, h.changed]

theorem getDisplayCompChange_reported {s : State} (h : Tallies s) (num layers type : Bool) :
    Reported s (getDisplayCompChange s.comp num layers type) := by
  rw [Tallies] at h
  constructor
  · intro n hn
    cases num <;> cases layers <;> cases type <;> simp_all [getDisplayCompChange]
  · intro ids hids
    cases num <;> cases layers <;> cases type <;> simp_all [getDisplayCompChange]

theorem next_tallies {s t : State} {e : Event} (h : Tallies s) (hc : AllChange s e)
    (ht : system.next s e = some t) : Tallies t := by
  cases e with
  | setLayerCompositionType layerId type =>
    obtain rfl := Option.some.inj ht
    rw [setLayerCompositionType]
    split
    · exact h
    · exact h
  | call e =>
    obtain ⟨u, hu, rfl⟩ := Option.map_eq_some_iff.mp ht
    cases e with
    | prepareDisplayLayers =>
      obtain rfl := Option.some.inj hu
      exact (listed_iff s.comp).mpr fun p hp => (hc p hp).2
    | createLayer layerInfo layerId =>
      obtain ⟨r, _, rfl⟩ := Option.map_eq_some_iff.mp hu
      exact h
    | _ =>
      obtain rfl := Option.some.inj hu
      exact h

theorem right_iff_allChange {s : State} (h : Tallies s) (e : Event) : Right s e ↔ AllChange s e := by
  cases e with
  | setLayerCompositionType => exact Iff.rfl
  | call e =>
    cases e with
    | prepareDisplayLayers => exact decided_iff s.requested s.comp
    | getDisplayCompChange num layers type =>
      exact iff_of_true (getDisplayCompChange_reported h num layers type) trivial
    | _ => exact Iff.rfl

theorem stepsMeet_right_iff {s : State} (h : Tallies s) (es : List Event) :
    StepsMeet system Right s es ↔ StepsMeet system AllChange s es :=
  stepsMeet_iff (I := Tallies) (fun _ _ _ hI hc ht => next_tallies hI hc ht)
    (fun _ e _ hI _ => right_iff_allChange hI e) h es

def empty : State := ⟨HdiComposition.empty, fun _ => .client, []⟩

theorem init_empty : Init empty := ⟨HdiComposition.init_empty, rfl⟩

end HdiCompositionDecision
