import DeviceQemu.DrmDevice

/-! Published displays are pipelines of their own.
A crtc is picked only while no display is bound to it, and Init binds it. So displays that are
initialised drive different crtcs; one whose Init fails is published all the same. -/
namespace DrmDevicePipelines

open StepSystem DrmDevice
open HdiIdSets (IdSets invalideDisplayId)

def encoderIds (connector : DrmConnector) : List UInt32 :=
  connector.mEncoderId :: connector.mPossibleEncoders

def Allowed (r : Resources) (connector : DrmConnector) (crtc : DrmCrtc) : Prop :=
  ∃ encoder ∈ r.mEncoders, encoder.mEncoderId ∈ encoderIds connector ∧ encoder.allows crtc = true

instance (r : Resources) (connector : DrmConnector) (crtc : DrmCrtc) :
    Decidable (Allowed r connector crtc) := inferInstanceAs (Decidable (∃ _ ∈ _, _))

structure Pipelines (r : Resources) (s : State) : Prop where
  initialised : ∀ display ∈ s.mDisplays, display.initialised = true
  allowed : ∀ display ∈ s.mDisplays, Allowed r display.mConnector display.mCrtc
  bound : ∀ display ∈ s.mDisplays, s.mDisplayId display.mCrtc.mId = display.mId
  distinct : (s.mDisplays.map DrmDisplay.mCrtc).Nodup

/-- All that Init of a display on a crtc that is not bound can fail at. -/
def InitSucceeds (s : State) (connector : DrmConnector) (out : Outcome) : Prop :=
  s.displayIds.IdLeft ∧ out.gfxInit = true ∧
    (connector.mPreferenceId = invalidModeId ∨ connector.mPreferenceId = 0) ∧
    0 < connector.modes ∧ out.allocMem = true

instance (s : State) (connector : DrmConnector) (out : Outcome) :
    Decidable (InitSucceeds s connector out) := inferInstanceAs (Decidable (_ ∧ _))

def serves (r : Resources) (s : State) (encoderId : UInt32) : Option DrmEncoder :=
  (r.mEncoders.find? (·.mEncoderId = encoderId)).filter fun encoder =>
    (encoder.pickIdleCrtcId s r.mCrtcs).isSome

def servingEncoder (r : Resources) (s : State) (connector : DrmConnector) : Option DrmEncoder :=
  (encoderIds connector).findSome? (serves r s)

/-- The crtc that the encoder is bound to, when that is taken without a look at the mask. -/
def unmaskedCrtc (r : Resources) (s : State) (connector : DrmConnector) : Option DrmCrtc :=
  (servingEncoder r s connector).bind fun encoder =>
    (r.mCrtcs.find? (·.mId = encoder.mCrtcId)).filter fun crtc => canBind s crtc

/-- A connector that gets a crtc gets an initialised display on it, and a crtc taken because it
is bound to the encoder is one that the connector may use. -/
def Safe (r : Resources) (s : State) (e : DrmConnector × Outcome) : Prop :=
  (e.1.pickIdleCrtcId r s).isSome = true →
    InitSucceeds s e.1 e.2 ∧ ∀ crtc, unmaskedCrtc r s e.1 = some crtc → Allowed r e.1 crtc

instance (r : Resources) (s : State) (e : DrmConnector × Outcome) : Decidable (Safe r s e) :=
  decidable_of_iff ((e.1.pickIdleCrtcId r s).isSome = true →
    InitSucceeds s e.1 e.2 ∧ ((unmaskedCrtc r s e.1).all fun crtc => Allowed r e.1 crtc) = true) (by
      unfold Safe
      cases unmaskedCrtc r s e.1 <;> simp)

theorem allows_of_mask {encoder : DrmEncoder} {crtc : DrmCrtc}
    (h : encoder.mPossibleCrtcs = pipeBit crtc.mPipe) : encoder.allows crtc = true := by
  simp [DrmEncoder.allows, h, pipeBit_ne_zero]

/-- What an encoder hands out is not bound to a display, and within its mask unless the encoder
is bound to it. -/
theorem encoder_pick_cases {s : State} {encoder : DrmEncoder} {crtcs : List DrmCrtc}
    {crtcId : UInt32} (h : encoder.pickIdleCrtcId s crtcs = some crtcId) :
    ∃ crtc ∈ crtcs, crtc.mId = crtcId ∧ canBind s crtc = true ∧
      (crtcs.find? (·.mId = encoder.mCrtcId) = some crtc ∨ encoder.allows crtc = true) := by
  unfold DrmEncoder.pickIdleCrtcId at h
  split at h
  · cases h
  · rename_i crtc hcurrent
    split_ifs at h with hbind
    · refine ⟨crtc, ?_, Option.some.inj h, hbind, ?_⟩
      all_goals
        unfold DrmEncoder.currentCrtc at hcurrent
        split at hcurrent
      · rename_i hfind
        exact Option.some.inj hcurrent ▸ List.mem_of_find?_eq_some hfind
      · exact List.mem_of_find?_eq_some hcurrent
      · rename_i hfind
        exact Or.inl (Option.some.inj hcurrent ▸ hfind)
      · have hmask := List.find?_some hcurrent
        exact Or.inr (allows_of_mask (by simpa using hmask))
    · obtain ⟨idle, hidle, rfl⟩ := Option.map_eq_some_iff.mp h
      have hmem := List.mem_of_find?_eq_some hidle
      have hfits := List.find?_some hidle
      rw [Bool.and_eq_true] at hfits
      exact ⟨idle, List.mem_reverse.mp hmem, rfl, hfits.1, Or.inr hfits.2⟩

theorem pickIdleCrtcId_eq (r : Resources) (s : State) (connector : DrmConnector) :
    connector.pickIdleCrtcId r s = (encoderIds connector).findSome? (tryPickEncoder r s) := by
  unfold DrmConnector.pickIdleCrtcId encoderIds
  rw [List.findSome?_cons]
  cases tryPickEncoder r s connector.mEncoderId with
  | none => rfl
  | some crtcId => rfl

theorem tryPickEncoder_cases (r : Resources) (s : State) (id : UInt32) :
    (tryPickEncoder r s id = none ∧ serves r s id = none) ∨
      ∃ encoder crtcId, encoder ∈ r.mEncoders ∧ encoder.mEncoderId = id ∧
        encoder.pickIdleCrtcId s r.mCrtcs = some crtcId ∧ tryPickEncoder r s id = some crtcId ∧
        serves r s id = some encoder := by
  cases hfind : r.mEncoders.find? (·.mEncoderId = id) with
  | none => simp [tryPickEncoder, serves, hfind]
  | some encoder =>
    cases hpick : encoder.pickIdleCrtcId s r.mCrtcs with
    | none => simp [tryPickEncoder, serves, hfind, hpick]
    | some crtcId =>
      have hid : encoder.mEncoderId = id := by simpa using List.find?_some hfind
      refine Or.inr ⟨encoder, crtcId, List.mem_of_find?_eq_some hfind, hid, hpick, ?_, ?_⟩
      · simp [tryPickEncoder, hfind, hpick]
      · simp [serves, hfind, hpick]

theorem findSome_serves {r : Resources} {s : State} {crtcId : UInt32} {ids : List UInt32}
    (h : ids.findSome? (tryPickEncoder r s) = some crtcId) :
    ∃ encoder ∈ r.mEncoders, encoder.mEncoderId ∈ ids ∧
      encoder.pickIdleCrtcId s r.mCrtcs = some crtcId ∧
      ids.findSome? (serves r s) = some encoder := by
  induction ids with
  | nil => simp at h
  | cons id ids ih =>
    rw [List.findSome?_cons] at h
    rcases tryPickEncoder_cases r s id with ⟨hnone, hserve⟩ | ⟨encoder, c, hmem, hid, hpick, htry, hserve⟩
    · rw [hnone] at h
      obtain ⟨encoder, hmem, hid, hpick, hserves⟩ := ih h
      refine ⟨encoder, hmem, List.mem_cons_of_mem id hid, hpick, ?_⟩
      rw [List.findSome?_cons, hserve]
      exact hserves
    · rw [htry] at h
      obtain rfl := Option.some.inj h
      refine ⟨encoder, hmem, hid ▸ List.mem_cons_self, hpick, ?_⟩
      rw [List.findSome?_cons, hserve]

/-- A connector gets a crtc that no display is bound to. It may use the crtc, unless that was
taken without a look at the mask. -/
theorem pick_cases {r : Resources} {s : State} {connector : DrmConnector} {crtcId : UInt32}
    (h : connector.pickIdleCrtcId r s = some crtcId) :
    ∃ crtc ∈ r.mCrtcs, crtc.mId = crtcId ∧ canBind s crtc = true ∧
      (unmaskedCrtc r s connector = some crtc ∨ Allowed r connector crtc) := by
  rw [pickIdleCrtcId_eq] at h
  obtain ⟨encoder, hmem, hid, hpick, hserves⟩ := findSome_serves h
  obtain ⟨crtc, hcrtc, hcrtcId, hbind, hcurrent | hallows⟩ := encoder_pick_cases hpick
  · refine ⟨crtc, hcrtc, hcrtcId, hbind, Or.inl ?_⟩
    rw [unmaskedCrtc, servingEncoder, hserves, Option.bind_some, hcurrent]
    simp [hbind]
  · exact ⟨crtc, hcrtc, hcrtcId, hbind, Or.inr ⟨encoder, hmem, hid, hallows⟩⟩

theorem unmaskedCrtc_picked {r : Resources} {s : State} {connector : DrmConnector}
    {crtc : DrmCrtc} {crtcId : UInt32} (h : connector.pickIdleCrtcId r s = some crtcId)
    (hc : unmaskedCrtc r s connector = some crtc) : crtc ∈ r.mCrtcs ∧ crtc.mId = crtcId := by
  rw [pickIdleCrtcId_eq] at h
  obtain ⟨encoder, -, -, hpick, hserves⟩ := findSome_serves h
  rw [unmaskedCrtc, servingEncoder, hserves, Option.bind_some, Option.filter_eq_some_iff] at hc
  obtain ⟨hfind, hbind⟩ := hc
  have hcurrent : encoder.currentCrtc r.mCrtcs = some crtc := by
    rw [DrmEncoder.currentCrtc, hfind]
  rw [DrmEncoder.pickIdleCrtcId, hcurrent] at hpick
  simp only [hbind, if_true, Option.some.injEq] at hpick
  exact ⟨List.mem_of_find?_eq_some hfind, hpick⟩

theorem find_crtc {crtcs : List DrmCrtc} (hnodup : (crtcs.map DrmCrtc.mId).Nodup)
    {crtc : DrmCrtc} (h : crtc ∈ crtcs) : crtcs.find? (·.mId = crtc.mId) = some crtc := by
  induction crtcs with
  | nil => simp at h
  | cons c crtcs ih =>
    rw [List.map_cons, List.nodup_cons] at hnodup
    rcases List.mem_cons.mp h with rfl | hmem
    · simp
    · have hne : c.mId ≠ crtc.mId := by
        intro heq
        exact hnodup.1 (heq ▸ List.mem_map_of_mem hmem)
      rw [List.find?_cons_of_neg (by simpa using hne)]
      exact ih hnodup.2 hmem

theorem crtc_eq_of_id {crtcs : List DrmCrtc} (hnodup : (crtcs.map DrmCrtc.mId).Nodup)
    {c c' : DrmCrtc} (h : c ∈ crtcs) (h' : c' ∈ crtcs) (hid : c.mId = c'.mId) : c = c' := by
  have hfind := find_crtc hnodup h
  rw [hid, find_crtc hnodup h'] at hfind
  exact (Option.some.inj hfind).symm

/-- What the loop does for one connector: nothing, or it publishes a display on the crtc. -/
theorem discover_cases {r : Resources} {s t : State} {connector : DrmConnector} {out : Outcome}
    (h : discover r s connector out = some t) :
    (connector.pickIdleCrtcId r s = none ∧ t = s) ∨
    ∃ crtc ∈ r.mCrtcs, connector.pickIdleCrtcId r s = some crtc.mId ∧ canBind s crtc = true ∧
      (unmaskedCrtc r s connector = some crtc ∨ Allowed r connector crtc) ∧
      ∃ ok id u, initDisplay s connector crtc out = some (ok, id, u) ∧
        t = publish u ⟨id, connector, crtc, ok⟩ := by
  unfold discover at h
  split at h
  · rename_i hpick
    exact Or.inl ⟨hpick, (Option.some.inj h).symm⟩
  · rename_i crtcId hpick
    obtain ⟨crtc, hmem, rfl, hbind, hallowed⟩ := pick_cases hpick
    rw [find_crtc r.crtcs_nodup hmem] at h
    obtain ⟨⟨ok, id, u⟩, hinit, rfl⟩ := Option.map_eq_some_iff.mp h
    exact Or.inr ⟨crtc, hmem, hpick, hbind, hallowed, ok, id, u, hinit, rfl⟩

theorem preferredMode_eq_zero (connector : DrmConnector) : connector.preferredMode = 0 ↔
    connector.mPreferenceId = invalidModeId ∨ connector.mPreferenceId = 0 := by
  unfold DrmConnector.preferredMode
  split_ifs with h <;> simp [h]

theorem chosePreferenceMode_fst (s : State) (connector : DrmConnector) (crtc : DrmCrtc)
    (allocMem : Bool) : (chosePreferenceMode s connector crtc allocMem).1 = true ↔
      connector.preferredMode = 0 ∧ 0 < connector.modes ∧ allocMem = true := by
  by_cases h : connector.preferredMode = 0
  · simp [chosePreferenceMode, setActivieMode, pushFirstFrame, h]
  · simp [chosePreferenceMode, setActivieMode, h]

theorem chosePreferenceMode_snd (s : State) (connector : DrmConnector) (crtc : DrmCrtc)
    (allocMem : Bool) : ∃ mActiveModeId,
      (chosePreferenceMode s connector crtc allocMem).2 = { s with mActiveModeId } := by
  by_cases h : connector.preferredMode = 0
  · refine ⟨Function.update s.mActiveModeId crtc.mId 0, ?_⟩
    simp [chosePreferenceMode, setActivieMode, h]
  · refine ⟨s.mActiveModeId, ?_⟩
    simp [chosePreferenceMode, setActivieMode, h]

theorem initDisplay_cases {s u : State} {connector : DrmConnector} {crtc : DrmCrtc} {out : Outcome}
    {ok : Bool} {id : UInt32} (hbind : canBind s crtc = true)
    (h : initDisplay s connector crtc out = some (ok, id, u)) :
    u.mDisplays = s.mDisplays ∧ (id = invalideDisplayId ∨ id ∉ s.displayIds.mIdSets) ∧
      (ok = true ↔ InitSucceeds s connector out) ∧
      (ok = true → id ≠ invalideDisplayId ∧ u.displayIds.mIdSets = insert id s.displayIds.mIdSets ∧
        u.mDisplayId = Function.update s.mDisplayId crtc.mId id) := by
  obtain ⟨⟨id', ids⟩, hget, h⟩ := Option.map_eq_some_iff.mp h
  obtain ⟨hids, hcase⟩ := IdSets.getIdleId_cases hget
  have hbind : s.mDisplayId crtc.mId = invalideDisplayId := by simpa [canBind] using hbind
  rcases hcase with ⟨hvalid, hfree⟩ | ⟨rfl, hfull⟩
  · have hleft : s.displayIds.IdLeft := by
      by_contra hfull
      exact hfree (IdSets.all_used hfull hvalid)
    have hvalid : id' ≠ invalideDisplayId := hvalid
    cases hgfx : out.gfxInit with
    | false =>
      simp only [if_neg hvalid, hgfx, Bool.not_false, if_true, Prod.mk.injEq] at h
      obtain ⟨rfl, rfl, rfl⟩ := h
      simp [InitSucceeds, hgfx, hfree]
    | true =>
      obtain ⟨mActiveModeId, hmode⟩ := chosePreferenceMode_snd
        { s with displayIds := ids, mDisplayId := Function.update s.mDisplayId crtc.mId id' }
        connector crtc out.allocMem
      simp only [if_neg hvalid, hgfx, Bool.not_true, Bool.false_eq_true, if_false, bindToDisplay,
        hbind, ne_eq, not_true, hmode, Prod.mk.injEq] at h
      obtain ⟨rfl, rfl, rfl⟩ := h
      refine ⟨rfl, Or.inr hfree, ?_, fun _ => ⟨hvalid, hids, rfl⟩⟩
      rw [chosePreferenceMode_fst, preferredMode_eq_zero]
      simp [InitSucceeds, hleft, hgfx]
  · have hinvalid : HdiDisplay.invalideLayerId = invalideDisplayId := rfl
    simp only [hinvalid, if_true, Prod.mk.injEq] at h
    obtain ⟨rfl, rfl, rfl⟩ := h
    simp [InitSucceeds, hfull]

structure Inv (r : Resources) (s : State) : Prop where
  pipelines : Pipelines r s
  crtcs : ∀ display ∈ s.mDisplays, display.mCrtc ∈ r.mCrtcs
  ids : ∀ display ∈ s.mDisplays,
    display.mId ≠ invalideDisplayId ∧ display.mId ∈ s.displayIds.mIdSets

theorem start_inv (r : Resources) (displayIds : IdSets) : Inv r (start displayIds) := by
  refine ⟨⟨?_, ?_, ?_, List.nodup_nil⟩, ?_, ?_⟩
  all_goals
    intro display hmem
    simp [start] at hmem

theorem publish_new {r : Resources} {s u : State} {display : DrmDisplay} (h : Inv r s)
    (hu : u.mDisplays = s.mDisplays)
    (hid : display.mId = invalideDisplayId ∨ display.mId ∉ s.displayIds.mIdSets) :
    publish u display = { u with mDisplays := display :: s.mDisplays } := by
  rw [publish, if_neg, hu]
  rw [hu]
  intro hmem
  obtain ⟨other, hother, heq⟩ := List.mem_map.mp hmem
  obtain ⟨hvalid, hused⟩ := h.ids other hother
  rw [heq] at hvalid hused
  rcases hid with hinvalid | hfree
  · exact hvalid hinvalid
  · exact hfree hused

theorem Inv.crtc_ne {r : Resources} {s : State} {crtc : DrmCrtc} (h : Inv r s)
    (hbind : canBind s crtc = true) {display : DrmDisplay} (hmem : display ∈ s.mDisplays) :
    display.mCrtc.mId ≠ crtc.mId := by
  intro heq
  have hbound := h.pipelines.bound display hmem
  have hfree : s.mDisplayId crtc.mId = invalideDisplayId := by simpa [canBind] using hbind
  rw [heq, hfree] at hbound
  exact (h.ids display hmem).1 hbound.symm

theorem discover_inv {r : Resources} {s t : State} {e : DrmConnector × Outcome} (h : Inv r s)
    (hsafe : Safe r s e) (ht : discover r s e.1 e.2 = some t) : Inv r t := by
  rcases discover_cases ht with ⟨-, rfl⟩ | ⟨crtc, hcrtc, hpick, hbind, hmask, ok, id, u, hinit, rfl⟩
  · exact h
  obtain ⟨hinits, hunmasked⟩ := hsafe (by rw [hpick, Option.isSome_some])
  obtain ⟨hdisplays, hid, hok, hdone⟩ := initDisplay_cases hbind hinit
  have hok := hok.mpr hinits
  obtain ⟨hvalid, hids, hbound⟩ := hdone hok
  have hallowed : Allowed r e.1 crtc := hmask.elim (hunmasked crtc) fun hall => hall
  rw [publish_new h hdisplays hid]
  refine ⟨⟨?_, ?_, ?_, ?_⟩, ?_, ?_⟩
  · exact List.forall_mem_cons.mpr ⟨hok, h.pipelines.initialised⟩
  · exact List.forall_mem_cons.mpr ⟨hallowed, h.pipelines.allowed⟩
  · refine List.forall_mem_cons.mpr ⟨?_, fun display hmem => ?_⟩
    · rw [hbound, Function.update_self]
    · rw [hbound, Function.update_of_ne (h.crtc_ne hbind hmem), h.pipelines.bound display hmem]
  · refine List.nodup_cons.mpr ⟨fun hmem => ?_, h.pipelines.distinct⟩
    obtain ⟨display, hdisplay, heq⟩ := List.mem_map.mp hmem
    exact h.crtc_ne hbind hdisplay (congrArg DrmCrtc.mId heq)
  · exact List.forall_mem_cons.mpr ⟨hcrtc, h.crtcs⟩
  · refine List.forall_mem_cons.mpr ⟨⟨hvalid, ?_⟩, fun display hmem => ?_⟩
    · rw [hids]
      exact Finset.mem_insert_self id _
    · rw [hids]
      exact ⟨(h.ids display hmem).1, Finset.mem_insert_of_mem (h.ids display hmem).2⟩

def Astray (r : Resources) (s : State) : Prop :=
  ∃ display ∈ s.mDisplays,
    display.initialised = false ∨ ¬ Allowed r display.mConnector display.mCrtc

theorem Pipelines.not_astray {r : Resources} {s : State} (h : Pipelines r s) : ¬ Astray r s := by
  rintro ⟨display, hmem, hfail | hmask⟩
  · rw [h.initialised display hmem] at hfail
    cases hfail
  · exact hmask (h.allowed display hmem)

theorem discover_breaks {r : Resources} {s t : State} {e : DrmConnector × Outcome} (h : Inv r s)
    (hsafe : ¬ Safe r s e) (ht : discover r s e.1 e.2 = some t) : Astray r t := by
  simp only [Safe, Classical.not_imp] at hsafe
  obtain ⟨hsome, hsafe⟩ := hsafe
  rcases discover_cases ht with ⟨hnone, -⟩ | ⟨crtc, hcrtc, hpick, hbind, -, ok, id, u, hinit, rfl⟩
  · rw [hnone] at hsome
    cases hsome
  obtain ⟨hdisplays, hid, hok, -⟩ := initDisplay_cases hbind hinit
  rw [publish_new h hdisplays hid]
  refine ⟨⟨id, e.1, crtc, ok⟩, List.mem_cons_self, ?_⟩
  by_cases hinits : InitSucceeds s e.1 e.2
  · right
    intro hallowed
    refine hsafe ⟨hinits, fun crtc' hunmasked => ?_⟩
    obtain ⟨hmem, heq⟩ := unmaskedCrtc_picked hpick hunmasked
    exact crtc_eq_of_id r.crtcs_nodup hcrtc hmem heq.symm ▸ hallowed
  · left
    exact Bool.eq_false_iff.mpr fun htrue => hinits (hok.mp htrue)

theorem discover_displays {r : Resources} {s t : State} {e : DrmConnector × Outcome}
    (ht : discover r s e.1 e.2 = some t) {display : DrmDisplay} (h : display ∈ s.mDisplays) :
    display ∈ t.mDisplays := by
  rcases discover_cases ht with ⟨-, rfl⟩ | ⟨crtc, -, -, hbind, -, ok, id, u, hinit, rfl⟩
  · exact h
  rw [← (initDisplay_cases hbind hinit).1] at h
  unfold publish
  split_ifs
  · simp only [unBindDisplay]
    split_ifs <;> exact h
  · exact List.mem_cons_of_mem _ h

theorem pipelines_iff {r : Resources} {displayIds : IdSets} {out : DrmConnector → Outcome}
    {s : State} (h : discoveryDisplay r displayIds out = some s) :
    Pipelines r s ↔ StepsMeet (system r) (Safe r) (start displayIds)
      (r.mConnectors.map fun connector => (connector, out connector)) := by
  have hstep : ∀ s e t, Inv r s → Safe r s e → (system r).next s e = some t → Inv r t :=
    fun s e t => discover_inv
  constructor
  · intro hpipes
    refine stepsMeet_of_trace (B := Astray r) hstep (fun s e t => discover_breaks) ?_
      (start_inv r displayIds) h hpipes.not_astray
    rintro s e t ⟨display, hmem, hbad⟩ ht
    exact ⟨display, discover_displays ht hmem, hbad⟩
  · intro hsafe
    exact (hsafe.invariant hstep (start_inv r displayIds) h).pipelines

/-- Two connectors whose encoders may use either crtc and are bound to the first. -/
def panels : Resources where
  mCrtcs := findAllCrtc [⟨31, true, true⟩, ⟨32, true, true⟩]
  mEncoders := [⟨41, 31, 3⟩, ⟨42, 31, 3⟩]
  mConnectors := [⟨51, 41, [41], -1, 1⟩, ⟨52, 42, [42], -1, 1⟩]
  crtcs_nodup := (findAllCrtc_indexed _).ids

theorem pipelines_iff_panels :
    ∃ s, discoveryDisplay panels ⟨0, ∅⟩ (fun _ => ⟨true, true⟩) = some s ∧
      s.mDisplays.length = 2 ∧ Pipelines panels s := by
  have hrun : (discoveryDisplay panels ⟨0, ∅⟩ fun _ => ⟨true, true⟩).map
      (fun s => decide (s.mDisplays.length = 2)) = some true := by
    decide +kernel
  obtain ⟨s, hs, hlen⟩ := Option.map_eq_some_iff.mp hrun
  exact ⟨s, hs, of_decide_eq_true hlen, (pipelines_iff hs).mpr (by decide +kernel)⟩

/-- The composition of the first display cannot be initialised: the display is published, and
its crtc picked again for the second. -/
theorem pipelines_shared : ¬ ∀ r displayIds out s, discoveryDisplay r displayIds out = some s →
    Pipelines r s := by
  intro h
  have hrun : (discoveryDisplay panels ⟨0, ∅⟩ fun connector => ⟨connector.mId != 51, true⟩).map
      (fun s => decide ¬ (s.mDisplays.map DrmDisplay.mCrtc).Nodup) = some true := by
    decide +kernel
  obtain ⟨s, hs, hcrtcs⟩ := Option.map_eq_some_iff.mp hrun
  exact of_decide_eq_true hcrtcs (h panels _ _ s hs).distinct

end DrmDevicePipelines
