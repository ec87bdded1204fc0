import DeviceQemu.HdiComposition
import DeviceQemu.HdiDisplayLayers

/-! Layers read by the composition.
DestroyLayer takes a layer out of mLayers and mLayersMap but not out of the lists that the last
PrepareDisplayLayers has filled. -/
namespace HdiCompositionLayers

open StepSystem OrderedMultiset HdiDisplay HdiComposition

def Present (d : HdiDisplay.State) (p : Ptr) : Prop := ∃ id, d.mLayersMap id = some p

/-- Less than the agreement of the two containers: mLayers may lack layers. -/
structure Owned (d : HdiDisplay.State) : Prop where
  present : ∀ p ∈ d.mLayers, Present d p
  ids : ∀ id p, d.mLayersMap id = some p → (d.heap p).mId = id
  held : ∀ id p, d.mLayersMap id = some p → id ∈ d.mIdSets
  fresh : ∀ id p, d.mLayersMap id = some p → p < d.fresh

theorem init_owned {d : HdiDisplay.State} (h : HdiDisplay.Init d) : Owned d := by
  constructor
  · simp [h.mLayers]
  all_goals
    intro id p hp
    simp [h.mLayersMap] at hp

/-- What CreateLayer adds: one layer, not allocated before. -/
structure Created (d d' : HdiDisplay.State) : Prop where
  owned : Owned d'
  old : ∀ p, Present d p → Present d' p
  new : ∀ p, Present d' p → Present d p ∨ p = d.fresh
  fresh : d.fresh ≤ d'.fresh

theorem createLayer_created {d : HdiDisplay.State} {layerInfo layerId : Bool} (h : Owned d)
    (hc : IdLeft d) {r : DisplayStatus × Option UInt32 × HdiDisplay.State}
    (hr : HdiDisplay.createLayer d layerInfo layerId = some r) : Created d r.2.2 := by
  rcases createLayer_cases hc h.held hr with heq | ⟨id, hid, hnone, heq⟩
  · rw [heq]
    exact ⟨h, fun _ hp => hp, fun _ hp => .inl hp, le_rfl⟩
  rw [heq]
  have hmap := addedLayer_map hnone
  have hold : ∀ p, Present d p → Present (addedLayer d id) p := by
    rintro p ⟨id', hp⟩
    exact ⟨id', (hmap id' p).mpr (.inr hp)⟩
  refine ⟨⟨?_, ?_, ?_, ?_⟩, hold, ?_, Nat.le_succ _⟩
  · intro p hp
    rcases mem_insert.mp hp with rfl | hp
    · exact ⟨id, Function.update_self ..⟩
    · exact hold p (h.present p hp)
  · intro id' p hp
    rcases (hmap id' p).mp hp with ⟨rfl, rfl⟩ | hp
    · simp [addedLayer]
    · have hne : p ≠ d.fresh := (h.fresh id' p hp).ne
      simpa [addedLayer, Function.update_of_ne hne] using h.ids id' p hp
  · intro id' p hp
    rcases (hmap id' p).mp hp with ⟨rfl, rfl⟩ | hp
    · exact Finset.mem_insert_self ..
    · exact Finset.mem_insert_of_mem (h.held id' p hp)
  · intro id' p hp
    rcases (hmap id' p).mp hp with ⟨rfl, rfl⟩ | hp
    · exact Nat.lt_succ_self _
    · exact Nat.lt_succ_of_lt (h.fresh id' p hp)
  · rintro p ⟨id', hp⟩
    rcases (hmap id' p).mp hp with ⟨rfl, rfl⟩ | hp
    · exact .inr rfl
    · exact .inl ⟨id', hp⟩

theorem destroyLayer_owned {d : HdiDisplay.State} {id : UInt32} (h : Owned d) :
    Owned (HdiDisplay.destroyLayer d id).2 ∧
      ∀ p, Present (HdiDisplay.destroyLayer d id).2 p ↔
        Present d p ∧ d.mLayersMap id ≠ some p := by
  cases hp : d.mLayersMap id with
  | none =>
    simp only [HdiDisplay.destroyLayer, hp]
    exact ⟨h, fun p => by simp⟩
  | some p =>
    have hmap : ∀ id' q, Function.update d.mLayersMap id none id' = some q ↔
        id' ≠ id ∧ d.mLayersMap id' = some q := by
      intro id' q
      by_cases heq : id' = id
      · simp [heq]
      · simp [heq]
    have hpresent : ∀ q, (∃ id', Function.update d.mLayersMap id none id' = some q) ↔
        Present d q ∧ some p ≠ some q := by
      intro q
      simp only [hmap]
      constructor
      · rintro ⟨id', hne, hq⟩
        refine ⟨⟨id', hq⟩, ?_⟩
        rintro heq
        obtain rfl := Option.some.inj heq
        exact hne (by rw [← h.ids id' p hq, ← h.ids id p hp])
      · rintro ⟨⟨id', hq⟩, hne⟩
        refine ⟨id', ?_, hq⟩
        rintro rfl
        exact hne (hp.symm.trans hq)
    simp only [HdiDisplay.destroyLayer, hp, destroyHdiLayer]
    refine ⟨⟨?_, ?_, ?_, ?_⟩, hpresent⟩
    · intro q hq
      obtain ⟨hq, hz⟩ := (mem_eraseKey (less_comparesBy d.heap)).mp hq
      refine (hpresent q).mpr ⟨h.present q hq, ?_⟩
      rintro heq
      obtain rfl := Option.some.inj heq
      exact hz rfl
    · intro id' q hq
      exact h.ids id' q ((hmap id' q).mp hq).2
    · intro id' q hq
      obtain ⟨hne, hq⟩ := (hmap id' q).mp hq
      rw [h.ids id p hp]
      exact Finset.mem_erase.mpr ⟨hne, h.held id' q hq⟩
    · intro id' q hq
      exact h.fresh id' q ((hmap id' q).mp hq).2

theorem setLayerZorder_owned {d : HdiDisplay.State} {id z : UInt32} (h : Owned d) :
    Owned (HdiDisplay.setLayerZorder d id z).2 ∧
      (HdiDisplay.setLayerZorder d id z).2.mLayersMap = d.mLayersMap ∧
      (HdiDisplay.setLayerZorder d id z).2.fresh = d.fresh := by
  cases hp : d.mLayersMap id with
  | none =>
    simp only [HdiDisplay.setLayerZorder, hp]
    exact ⟨h, trivial, trivial⟩
  | some p =>
    by_cases hz : (d.heap p).mZorder = z
    · simp only [HdiDisplay.setLayerZorder, hp, hz, if_true]
      exact ⟨h, trivial, trivial⟩
    · have herase := eraseElement_eq (less_comparesBy d.heap) p d.mLayers
      simp only [HdiDisplay.setLayerZorder, hp, if_neg hz, herase]
      refine ⟨⟨?_, ?_, h.held, h.fresh⟩, trivial, trivial⟩
      · intro q hq
        rcases mem_insert.mp hq with rfl | hq
        · exact ⟨id, hp⟩
        · exact h.present q (List.mem_of_mem_erase hq)
      · intro id' q hq
        by_cases hqp : q = p
        · subst hqp
          simpa using h.ids id' q hq
        · simpa [Function.update_of_ne hqp] using h.ids id' q hq

theorem filter_canHandle (layers : List Ptr) : layers.filter canHandle = layers := by
  simp [canHandle]

theorem countLayers_client (type : Ptr → CompositionType) (layers : List Ptr) :
    (countLayers type layers).2 = true := by
  induction layers with
  | nil => rfl
  | cons p ps ih => simp [countLayers, canHandle, ih]

theorem useCompositionClient_true (type : Ptr → CompositionType) (layers : List Ptr) :
    useCompositionClient type layers = true := by
  simp [useCompositionClient, countLayers_client]

theorem selectDevice_eq (type : Ptr → CompositionType) (default : CompositionType)
    (select : Ptr → CompositionType) (p : Ptr) :
    selectDevice type default select p = Function.update select p default := by
  by_cases h : type p = .video ∨ type p = .cursor
  · simp [selectDevice, h]
  · simp [selectDevice, h]

theorem foldl_selectDevice {type select : Ptr → CompositionType} {default : CompositionType}
    {layers : List Ptr} {p : Ptr} (h : select p = default ∨ p ∈ layers) :
    layers.foldl (selectDevice type default) select p = default := by
  induction layers generalizing select with
  | nil => exact h.resolve_right (by simp)
  | cons q layers ih =>
    rw [List.foldl_cons, selectDevice_eq]
    apply ih
    by_cases hq : p = q
    · exact .inl (hq ▸ Function.update_self ..)
    · rw [Function.update_of_ne hq]
      exact h.imp id fun hp => (List.mem_cons.mp hp).resolve_left hq

theorem foldl_changeTypes {type select : Ptr → CompositionType} {layers : List Ptr} {p : Ptr}
    (hselect : ∀ q ∈ layers, select q = .client) (h : type p = .client ∨ p ∈ layers) :
    layers.foldl (changeTypes select) type p = .client := by
  induction layers generalizing type with
  | nil => exact h.resolve_right (by simp)
  | cons q layers ih =>
    rw [List.foldl_cons]
    apply ih fun r hr => hselect r (List.mem_cons_of_mem _ hr)
    have hq := hselect q (by simp)
    by_cases hp : p = q
    · refine .inl ?_
      subst hp
      by_cases hne : select p ≠ type p
      · simp only [changeTypes, if_pos hne, Function.update_self]
        exact hq
      · rw [changeTypes, if_neg hne, ← not_not.mp hne]
        exact hq
    · have hsame : changeTypes select type q p = type p := by
        by_cases hne : select q ≠ type q
        · simp [changeTypes, hne, hp]
        · simp [changeTypes, hne]
      rw [hsame]
      exact h.imp id fun hmem => (List.mem_cons.mp hmem).resolve_left hp

theorem setLayers_eq (s : HdiComposition.State) (layers : List Ptr) :
    setLayers s layers = { s with
      mDeviceSelect := layers.foldl (selectDevice s.mCompositionType .client) s.mDeviceSelect
      mCompLayers := layers } := by
  simp [setLayers, useCompositionClient_true, filter_canHandle]

theorem prepareDisplayLayers_display (s : HdiComposition.State) :
    (prepareDisplayLayers s).display = s.display := by
  simp only [prepareDisplayLayers, setLayers_eq]

theorem prepareDisplayLayers_listed (s : HdiComposition.State) :
    (prepareDisplayLayers s).mChangeLayers = s.display.mLayers := by
  simp only [prepareDisplayLayers, setLayers_eq]

theorem prepareDisplayLayers_composed (s : HdiComposition.State) :
    (prepareDisplayLayers s).mCompLayers = s.display.mLayers := by
  simp only [prepareDisplayLayers, setLayers_eq]

/-- Whatever was requested, the layers of the display are for the client afterwards. -/
theorem prepareDisplayLayers_client {s : HdiComposition.State} {p : Ptr}
    (h : s.mCompositionType p = .client ∨ p ∈ s.display.mLayers) :
    (prepareDisplayLayers s).mCompositionType p = .client := by
  simp only [prepareDisplayLayers, setLayers_eq]
  exact foldl_changeTypes (fun q hq => foldl_selectDevice (.inr hq)) h

structure Inv (s : HdiComposition.State) : Prop where
  owned : Owned s.display
  listed : ∀ p ∈ s.mChangeLayers, p ∈ s.destroyed ∨ Present s.display p
  gone : ∀ p ∈ s.destroyed, ¬ Present s.display p ∧ p < s.display.fresh
  same : s.mCompLayers = s.mChangeLayers
  client : ∀ p, Present s.display p → s.mCompositionType p = .client
  clientListed : ∀ p ∈ s.mChangeLayers, s.mCompositionType p = .client

theorem init_inv {s : HdiComposition.State} (h : HdiComposition.Init s) : Inv s := by
  constructor
  · exact init_owned h.display
  · simp [h.mChangeLayers]
  · simp [h.destroyed]
  · rw [h.mCompLayers, h.mChangeLayers]
  · rintro p ⟨id, hp⟩
    simp [h.display.mLayersMap] at hp
  · simp [h.mChangeLayers]

/-- CreateLayer runs while an id is left. -/
def FindsId (s : HdiComposition.State) : HdiComposition.Event → Prop
  | .createLayer _ _ => IdLeft s.display
  | _ => True

instance (s : HdiComposition.State) : ∀ e, Decidable (FindsId s e)
  | .createLayer _ _ => inferInstanceAs (Decidable (IdLeft s.display))
  | .prepareDisplayLayers => isTrue trivial
  | .destroyLayer _ | .setLayerZorder _ _ | .getDisplayCompChange _ _ _ | .commit _ => isTrue trivial

theorem prepare_inv {s : HdiComposition.State} (h : Inv s) : Inv (prepareDisplayLayers s) := by
  have hclient : ∀ p, Present s.display p → (prepareDisplayLayers s).mCompositionType p = .client :=
    fun p hp => prepareDisplayLayers_client (.inl (h.client p hp))
  constructor
  · rw [prepareDisplayLayers_display]
    exact h.owned
  · rw [prepareDisplayLayers_display, prepareDisplayLayers_listed]
    exact fun p hp => .inr (h.owned.present p hp)
  · simp [prepareDisplayLayers]
  · rw [prepareDisplayLayers_composed, prepareDisplayLayers_listed]
  · rw [prepareDisplayLayers_display]
    exact hclient
  · rw [prepareDisplayLayers_listed]
    exact fun p hp => hclient p (h.owned.present p hp)

theorem create_inv {s t : HdiComposition.State} {layerInfo layerId : Bool} (h : Inv s)
    (hc : IdLeft s.display) (ht : HdiComposition.createLayer s layerInfo layerId = some t) :
    Inv t := by
  obtain ⟨r, hr, rfl⟩ := Option.map_eq_some_iff.mp ht
  have hcr := createLayer_created h.owned hc hr
  have htype : ∀ p, s.mCompositionType p = .client ∨ p = s.display.fresh →
      Function.update s.mCompositionType s.display.fresh .client p = .client := by
    intro p hp
    by_cases heq : p = s.display.fresh
    · rw [heq, Function.update_self]
    · rw [Function.update_of_ne heq]
      exact hp.resolve_right heq
  constructor
  · exact hcr.owned
  · exact fun p hp => (h.listed p hp).imp_right (hcr.old p)
  · intro p hp
    obtain ⟨hgone, hlt⟩ := h.gone p hp
    refine ⟨fun hpres => ?_, Nat.lt_of_lt_of_le hlt hcr.fresh⟩
    rcases hcr.new p hpres with hold | rfl
    · exact hgone hold
    · exact Nat.lt_irrefl _ hlt
  · exact h.same
  · exact fun p hp => htype p ((hcr.new p hp).imp_left (h.client p))
  · exact fun p hp => htype p (.inl (h.clientListed p hp))

theorem destroy_inv {s : HdiComposition.State} {id : UInt32} (h : Inv s) :
    Inv (HdiComposition.destroyLayer s id) := by
  obtain ⟨howned, hpres⟩ := @destroyLayer_owned s.display id h.owned
  have hmem : ∀ p, p ∈ (s.display.mLayersMap id).toList ++ s.destroyed ↔
      s.display.mLayersMap id = some p ∨ p ∈ s.destroyed := by
    intro p
    rw [List.mem_append, Option.mem_toList]
  have hfresh : (HdiDisplay.destroyLayer s.display id).2.fresh = s.display.fresh := by
    cases hp : s.display.mLayersMap id <;> simp [HdiDisplay.destroyLayer, hp, destroyHdiLayer]
  constructor
  · exact howned
  · intro p hp
    rcases h.listed p hp with hd | hpr
    · exact .inl ((hmem p).mpr (.inr hd))
    · by_cases hid : s.display.mLayersMap id = some p
      · exact .inl ((hmem p).mpr (.inl hid))
      · exact .inr ((hpres p).mpr ⟨hpr, hid⟩)
  · intro p hp
    rcases (hmem p).mp hp with hid | hd
    · refine ⟨fun hpr => ((hpres p).mp hpr).2 hid, ?_⟩
      simp only [HdiComposition.destroyLayer, hfresh]
      exact h.owned.fresh id p hid
    · refine ⟨fun hpr => (h.gone p hd).1 ((hpres p).mp hpr).1, ?_⟩
      simp only [HdiComposition.destroyLayer, hfresh]
      exact (h.gone p hd).2
  · exact h.same
  · exact fun p hp => h.client p ((hpres p).mp hp).1
  · exact h.clientListed

theorem next_inv {s t : HdiComposition.State} {e : HdiComposition.Event} (h : Inv s)
    (hc : FindsId s e) (ht : HdiComposition.system.next s e = some t) : Inv t := by
  cases e with
  | createLayer layerInfo layerId => exact create_inv h hc ht
  | destroyLayer id =>
    obtain rfl := Option.some.inj ht
    exact destroy_inv h
  | setLayerZorder id z =>
    obtain rfl := Option.some.inj ht
    obtain ⟨howned, hmap, hfresh⟩ := @setLayerZorder_owned s.display id z h.owned
    have hpres : ∀ p, Present (HdiDisplay.setLayerZorder s.display id z).2 p ↔
        Present s.display p := by
      intro p
      rw [Present, hmap, Present]
    constructor
    · exact howned
    · exact fun p hp => (h.listed p hp).imp_right (hpres p).mpr
    · intro p hp
      obtain ⟨hgone, hlt⟩ := h.gone p hp
      exact ⟨fun hpr => hgone ((hpres p).mp hpr), by rw [hfresh]; exact hlt⟩
    · exact h.same
    · exact fun p hp => h.client p ((hpres p).mp hp)
    · exact h.clientListed
  | prepareDisplayLayers =>
    obtain rfl := Option.some.inj ht
    exact prepare_inv h
  | getDisplayCompChange =>
    obtain rfl := Option.some.inj ht
    exact h
  | commit =>
    obtain rfl := Option.some.inj ht
    exact h

/-- What a call reads through mChangeLayers and mCompLayers is in mLayersMap. -/
def ReadsPresent (s : HdiComposition.State) (e : HdiComposition.Event) : Prop :=
  ∀ p ∈ reads s e, Present s.display p

/-- No layer that the last PrepareDisplayLayers has listed has been destroyed since, when
GetDisplayCompChange is asked for layers or types, or Commit is called. -/
def ListedKept (s : HdiComposition.State) : HdiComposition.Event → Prop
  | .getDisplayCompChange num layers type =>
    num = true ∧ (layers = true ∨ type = true) → ∀ p ∈ s.destroyed, p ∉ s.mChangeLayers
  | .commit _ => ∀ p ∈ s.destroyed, p ∉ s.mCompLayers
  | _ => True

instance (s : HdiComposition.State) : ∀ e, Decidable (ListedKept s e)
  | .getDisplayCompChange _ _ _ => inferInstanceAs (Decidable (_ → ∀ p ∈ s.destroyed, p ∉ _))
  | .commit _ => inferInstanceAs (Decidable (∀ p ∈ s.destroyed, p ∉ s.mCompLayers))
  | .prepareDisplayLayers => isTrue trivial
  | .createLayer _ _ | .destroyLayer _ | .setLayerZorder _ _ => isTrue trivial

theorem needClear_reads {type : Ptr → CompositionType} {layers : List Ptr}
    (h : ∀ p ∈ layers, type p = .client) : (needClear type layers).1 = layers := by
  induction layers with
  | nil => rfl
  | cons p ps ih =>
    have hp := h p (by simp)
    simp [needClear, hp, ih fun q hq => h q (List.mem_cons_of_mem _ hq)]

theorem applyLayers_reads (type : Ptr → CompositionType) (works : Ptr → Bool) (layers : List Ptr) :
    ∀ p ∈ (applyLayers type works layers).2, p ∈ layers := by
  induction layers with
  | nil => simp [applyLayers]
  | cons q qs ih =>
    intro p hp
    by_cases hf : (type q = .video ∨ type q = .device) ∧ works q = false
    · simp only [applyLayers, if_pos hf, List.mem_singleton] at hp
      simp [hp]
    · simp only [applyLayers, if_neg hf, List.mem_cons] at hp
      rcases hp with rfl | hp
      · simp
      · exact List.mem_cons_of_mem _ (ih p hp)

theorem mem_reads_commit {s : HdiComposition.State} (h : Inv s) (works : Ptr → Bool) (p : Ptr) :
    p ∈ reads s (.commit works) ↔ p ∈ s.mChangeLayers := by
  have hclear := needClear_reads (h.same ▸ h.clientListed)
  simp only [reads, apply, hclear, List.mem_append]
  constructor
  · rintro (hp | hp)
    · exact h.same ▸ hp
    · exact h.same ▸ applyLayers_reads _ _ _ p hp
  · exact fun hp => .inl (h.same ▸ hp)

theorem kept_iff {s : HdiComposition.State} (h : Inv s) :
    (∀ p ∈ s.mChangeLayers, Present s.display p) ↔ ∀ p ∈ s.destroyed, p ∉ s.mChangeLayers := by
  constructor
  · intro hpres p hd hp
    exact (h.gone p hd).1 (hpres p hp)
  · intro hkept p hp
    exact (h.listed p hp).resolve_left fun hd => hkept p hd hp

theorem readsPresent_iff {s : HdiComposition.State} (h : Inv s) (e : HdiComposition.Event) :
    ReadsPresent s e ↔ ListedKept s e := by
  cases e with
  | getDisplayCompChange num layers type =>
    have hkept := kept_iff h
    cases num with
    | false => simp [ReadsPresent, ListedKept, reads, getDisplayCompChange]
    | true =>
      by_cases hask : layers = true ∨ type = true
      · have hreads : reads s (.getDisplayCompChange true layers type) = s.mChangeLayers := by
          rcases hask with rfl | rfl <;> simp [reads, getDisplayCompChange]
        simp only [ReadsPresent, ListedKept, hreads, hkept, hask, and_self, forall_const]
      · simp only [not_or, Bool.not_eq_true] at hask
        obtain ⟨rfl, rfl⟩ := hask
        simp [ReadsPresent, ListedKept, reads, getDisplayCompChange]
  | commit works =>
    simp only [ReadsPresent, mem_reads_commit h, ListedKept, h.same]
    exact kept_iff h
  | createLayer => simp [ReadsPresent, ListedKept, reads]
  | destroyLayer => simp [ReadsPresent, ListedKept, reads]
  | setLayerZorder => simp [ReadsPresent, ListedKept, reads]
  | prepareDisplayLayers => simp [ReadsPresent, ListedKept, reads]

/-- GetDisplayCompChange and Commit read present layers as long as no layer they have listed
is destroyed, and while ids are left, only then. -/
theorem reads_present_iff {s : HdiComposition.State} (h : HdiComposition.Init s)
    (es : List HdiComposition.Event) :
    (StepsMeet HdiComposition.system (fun s e => FindsId s e ∧ ListedKept s e) s es →
        StepsMeet HdiComposition.system ReadsPresent s es) ∧
      (StepsMeet HdiComposition.system FindsId s es →
        StepsMeet HdiComposition.system ReadsPresent s es →
          StepsMeet HdiComposition.system ListedKept s es) := by
  constructor
  · intro hsteps
    refine StepsMeet.imp (fun s e t hI hc => next_inv hI hc.1) ?_ (init_inv h) hsteps
    exact fun s e hI hc => (readsPresent_iff hI e).mpr hc.2
  · intro hfinds hreads
    refine StepsMeet.imp (fun s e t hI hc => next_inv hI hc.1) ?_ (init_inv h) (hfinds.and hreads)
    exact fun s e hI hc => (readsPresent_iff hI e).mp hc.2

def staleCalls : List HdiComposition.Event :=
  [.createLayer true true, .prepareDisplayLayers, .destroyLayer 0]

theorem reads_stale :
    ¬ ∀ s es, HdiComposition.Init s → StepsMeet HdiComposition.system ReadsPresent s es := by
  intro hall
  have hreads := hall HdiComposition.empty (staleCalls ++ [.getDisplayCompChange true true true])
    HdiComposition.init_empty
  have hrun : (HdiComposition.system.run HdiComposition.empty staleCalls).map
      (fun s => (s.mChangeLayers, s.display.mLayersMap (s.display.heap 0).mId)) =
        some ([0], none) := by
    decide +kernel
  obtain ⟨t, ht, hp⟩ := Option.map_eq_some_iff.mp hrun
  simp only [Prod.mk.injEq] at hp
  have hinv : Inv t := by
    have hfinds : StepsMeet HdiComposition.system FindsId HdiComposition.empty staleCalls := by
      decide +kernel
    exact (ReachableUnder.run (.init HdiComposition.init_empty) hfinds ht).invariant
      (fun _ => init_inv) fun _ _ _ => next_inv
  obtain ⟨id, hid⟩ := hreads.last ht rfl 0 (by simp [reads, getDisplayCompChange, hp.1])
  rw [hinv.owned.ids id 0 hid, hid] at hp
  simp at hp

/-- The layers are prepared again before they are read. -/
theorem reads_present_prepared :
    StepsMeet HdiComposition.system ReadsPresent HdiComposition.empty
      [.createLayer true true, .createLayer true true, .prepareDisplayLayers, .destroyLayer 0,
        .prepareDisplayLayers, .getDisplayCompChange true true true] :=
  (reads_present_iff HdiComposition.init_empty _).1 (by decide +kernel)

end HdiCompositionLayers
