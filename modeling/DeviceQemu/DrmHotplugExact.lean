import DeviceQemu.DrmHotplug

/-! Whether hot plug is exact.
UpdateCrtcId writes the encoder and the connector before anything can fail, and an error code that is
returned as a bool is true. -/
namespace DrmHotplug

open DrmDevice (DrmEncoder pipeBit)
open DrmModes (initModes)

variable {μ σ γ : Type}

def Changed (k : Kernel μ) (connector : DrmConnector μ) : Prop :=
  ∃ c, k.getConnector = some c ∧ connector.mConnectState ≠ c.connection

/-- The kernel has taken the crtc's active and mode properties, with a blob that exists, and the
crtc of the connector. -/
def FullyCommitted (k : Kernel μ) (connector : DrmConnector μ) (crtcs : List DrmCrtc) (plugIn : Bool)
    (r : Handled μ) : Prop :=
  ∃ crtc ∈ crtcs, ∃ blob, k.createPropertyBlob = some blob ∧ r.committed = some
    [⟨crtc.mId, crtc.mActivePropId, if plugIn then 1 else 0⟩, ⟨crtc.mId, crtc.mModePropId, blob⟩,
      ⟨connector.mId, connector.mPropCrtcId, if plugIn then crtc.mId else 0⟩]

/-- True exactly for a change that was committed; otherwise everything is as before. -/
structure Exact (k : Kernel μ) (connector : DrmConnector μ) (encoders : List DrmEncoder)
    (crtcs : List DrmCrtc) (plugIn : Bool) (r : Handled μ) : Prop where
  ret_iff : r.ret = true ↔ Changed k connector ∧ FullyCommitted k connector crtcs plugIn r
  kept : ¬ FullyCommitted k connector crtcs plugIn r → r.encoders = encoders ∧
    r.connector.mEncoderId = connector.mEncoderId ∧
    r.connector.mConnectState = connector.mConnectState

def HandledExactly (k : Kernel μ) (connector : DrmConnector μ) (encoders : List DrmEncoder)
    (crtcs : List DrmCrtc) (plugIn : Bool) : Prop :=
  ∃ r, connector.handleHotplug k encoders crtcs plugIn = some r ∧
    Exact k connector encoders crtcs plugIn r

structure StepsSucceed (k : Kernel μ) (c : ConnectorReport μ) (encoders : List DrmEncoder)
    (crtcs : List DrmCrtc) : Prop where
  encoder : ∃ encoderId encoder, c.encoders.head? = some encoderId ∧
    encoders.find? (·.mEncoderId = encoderId) = some encoder ∧
    ∃ crtc ∈ crtcs, encoder.mPossibleCrtcs = pipeBit crtc.mPipe
  blob : k.createPropertyBlob ≠ none
  addActive : 0 ≤ k.addActive
  addMode : 0 ≤ k.addMode
  addCrtcId : 0 ≤ k.addCrtcId
  commit : 0 ≤ k.commit

theorem neg_iff_msb (a : Int32) : a < 0 ↔ a.toBitVec.msb = true := by
  rw [Int32.lt_iff_toInt_lt, BitVec.msb_eq_toInt, decide_eq_true_iff]
  exact Iff.rfl

theorem or_neg_iff (a b : Int32) : a ||| b < 0 ↔ a < 0 ∨ b < 0 := by
  rw [neg_iff_msb, neg_iff_msb, neg_iff_msb, Int32.toBitVec_or, BitVec.msb_or, Bool.or_eq_true]

@[simp] theorem added_of_neg {ret : Int32} (h : ret < 0) (a : Assignment) : added ret a = [] := if_pos h

@[simp] theorem added_of_nonneg {ret : Int32} (h : 0 ≤ ret) (a : Assignment) : added ret a = [a] :=
  if_neg (Int32.not_lt.mpr h)

theorem maskCrtc_eq_some {encoder : DrmEncoder} {crtcs : List DrmCrtc} {crtc : DrmCrtc}
    (h : maskCrtc encoder crtcs = some crtc) : crtc ∈ crtcs :=
  List.mem_reverse.mp (List.mem_of_find?_eq_some h)

theorem maskCrtc_isSome {encoder : DrmEncoder} {crtcs : List DrmCrtc} :
    (∃ crtc, maskCrtc encoder crtcs = some crtc) ↔
      ∃ crtc ∈ crtcs, encoder.mPossibleCrtcs = pipeBit crtc.mPipe := by
  rw [← Option.isSome_iff_exists, maskCrtc, List.find?_isSome]
  simp

/-- UpdateCrtcId gives a crtc exactly when the encoder is known and a crtc is its whole mask. -/
theorem updateCrtcId_crtc {connector : DrmConnector μ} {encoders : List DrmEncoder}
    {crtcs : List DrmCrtc} {plugIn : Bool} {encoderId : UInt32} :
    (∃ crtc, (updateCrtcId connector encoders crtcs plugIn encoderId).crtc = some crtc) ↔
      ∃ encoder, encoders.find? (·.mEncoderId = encoderId) = some encoder ∧
        ∃ crtc ∈ crtcs, encoder.mPossibleCrtcs = pipeBit crtc.mPipe := by
  unfold updateCrtcId
  cases hfind : encoders.find? (·.mEncoderId = encoderId) with
  | none => simp
  | some encoder => cases plugIn <;> simp [maskCrtc_isSome]

theorem updateCrtcId_spec {connector : DrmConnector μ} {encoders : List DrmEncoder}
    {crtcs : List DrmCrtc} {plugIn : Bool} {encoderId : UInt32} {crtc : DrmCrtc}
    (h : (updateCrtcId connector encoders crtcs plugIn encoderId).crtc = some crtc) :
    crtc ∈ crtcs ∧
      (updateCrtcId connector encoders crtcs plugIn encoderId).crtcId = (if plugIn then crtc.mId else 0)
      ∧ (updateCrtcId connector encoders crtcs plugIn encoderId).connector.mId = connector.mId ∧
      (updateCrtcId connector encoders crtcs plugIn encoderId).connector.mPropCrtcId
        = connector.mPropCrtcId := by
  revert h
  unfold updateCrtcId
  cases encoders.find? (·.mEncoderId = encoderId) with
  | none => simp
  | some encoder =>
    intro h
    have hmask : maskCrtc encoder crtcs = some crtc := by cases plugIn <;> exact h
    simp only [hmask]
    cases plugIn <;> exact ⟨maskCrtc_eq_some hmask, rfl, rfl, rfl⟩

structure Taken (k : Kernel μ) : Prop where
  addActive : 0 ≤ k.addActive
  addMode : 0 ≤ k.addMode
  addCrtcId : 0 ≤ k.addCrtcId
  commit : 0 ≤ k.commit

theorem commitHotplug_cases (k : Kernel μ) (c : ConnectorReport μ) (plugIn : Bool) (crtc : DrmCrtc)
    (u : Updated μ) :
    (commitHotplug k c plugIn crtc u).ret = true ∧
      (¬ Taken k ∧ (commitHotplug k c plugIn crtc u).committed = none ∨
        Taken k ∧ (commitHotplug k c plugIn crtc u).committed = some
            [⟨crtc.mId, crtc.mActivePropId, if plugIn then 1 else 0⟩,
              ⟨crtc.mId, crtc.mModePropId, k.createPropertyBlob.getD k.stackBlob⟩,
              ⟨u.connector.mId, u.connector.mPropCrtcId, u.crtcId⟩]) := by
  unfold commitHotplug
  simp only [or_neg_iff, or_assoc]
  by_cases hadd : k.addActive < 0 ∨ k.addMode < 0 ∨ k.addCrtcId < 0
  · rw [if_pos hadd]
    refine ⟨rfl, Or.inl ⟨fun h => ?_, rfl⟩⟩
    rcases hadd with hneg | hneg | hneg
    · exact Int32.not_lt.mpr h.addActive hneg
    · exact Int32.not_lt.mpr h.addMode hneg
    · exact Int32.not_lt.mpr h.addCrtcId hneg
  · rw [if_neg hadd]
    obtain ⟨hactive, hmode, hcrtcId⟩ : 0 ≤ k.addActive ∧ 0 ≤ k.addMode ∧ 0 ≤ k.addCrtcId := by
      simpa only [not_or, Int32.not_lt] using hadd
    by_cases hcommit : k.commit < 0
    · rw [if_pos hcommit]
      exact ⟨rfl, Or.inl ⟨fun h => Int32.not_lt.mpr h.commit hcommit, rfl⟩⟩
    · rw [if_neg hcommit]
      refine ⟨rfl, Or.inr ⟨⟨hactive, hmode, hcrtcId, Int32.not_lt.mp hcommit⟩, ?_⟩⟩
      simp [hactive, hmode, hcrtcId]

section Handle

variable {k : Kernel μ} {connector : DrmConnector μ} {encoders : List DrmEncoder}
  {crtcs : List DrmCrtc} {plugIn : Bool} {c : ConnectorReport μ}

theorem handle_changed (halloc : k.atomicAlloc = true) (hget : k.getConnector = some c)
    (hchanged : connector.mConnectState ≠ c.connection) {encoderId : UInt32} {rest : List UInt32}
    (hencoders : c.encoders = encoderId :: rest) :
    connector.handleHotplug k encoders crtcs plugIn =
      match (updateCrtcId connector encoders crtcs plugIn encoderId).crtc with
      | none => some ⟨true, (updateCrtcId connector encoders crtcs plugIn encoderId).connector,
          (updateCrtcId connector encoders crtcs plugIn encoderId).encoders, none, none⟩
      | some crtc => some (commitHotplug k c plugIn crtc
          (updateCrtcId connector encoders crtcs plugIn encoderId)) := by
  simp only [DrmConnector.handleHotplug, halloc, hget, hchanged, hencoders, if_true, if_false]
  rfl

/-- Whatever is committed was committed by a call in which every step but the blob succeeded. -/
theorem taken_of_committed {r : Handled μ} (halloc : k.atomicAlloc = true)
    (hget : k.getConnector = some c) (hchanged : connector.mConnectState ≠ c.connection)
    (hr : connector.handleHotplug k encoders crtcs plugIn = some r) :
    r.ret = true ∧ (r.committed ≠ none → Taken k ∧ ∃ encoderId encoder,
      c.encoders.head? = some encoderId ∧ encoders.find? (·.mEncoderId = encoderId) = some encoder ∧
        ∃ crtc ∈ crtcs, encoder.mPossibleCrtcs = pipeBit crtc.mPipe) := by
  cases hencoders : c.encoders with
  | nil => simp [DrmConnector.handleHotplug, halloc, hget, hchanged, hencoders] at hr
  | cons encoderId rest =>
    rw [handle_changed halloc hget hchanged hencoders] at hr
    cases hcrtc : (updateCrtcId connector encoders crtcs plugIn encoderId).crtc with
    | none =>
      rw [hcrtc] at hr
      obtain rfl := Option.some.inj hr
      exact ⟨rfl, fun h => absurd rfl h⟩
    | some crtc =>
      rw [hcrtc] at hr
      obtain rfl := Option.some.inj hr
      obtain ⟨hret, ⟨-, hnone⟩ | ⟨htaken, -⟩⟩ := commitHotplug_cases k c plugIn crtc
        (updateCrtcId connector encoders crtcs plugIn encoderId)
      · exact ⟨hret, fun h => absurd hnone h⟩
      · obtain ⟨encoder, hfind, hmask⟩ := updateCrtcId_crtc.mp ⟨crtc, hcrtc⟩
        exact ⟨hret, fun _ => ⟨htaken, encoderId, encoder, rfl, hfind, hmask⟩⟩

theorem committed_of_steps (halloc : k.atomicAlloc = true) (hget : k.getConnector = some c)
    (hchanged : connector.mConnectState ≠ c.connection) (h : StepsSucceed k c encoders crtcs) :
    ∃ r, connector.handleHotplug k encoders crtcs plugIn = some r ∧ r.ret = true ∧
      FullyCommitted k connector crtcs plugIn r := by
  obtain ⟨encoderId, encoder, hhead, hfind, hmask⟩ := h.encoder
  obtain ⟨rest, hencoders⟩ := List.head?_eq_some_iff.mp hhead
  obtain ⟨crtc, hcrtc⟩ : ∃ crtc,
      (updateCrtcId connector encoders crtcs plugIn encoderId).crtc = some crtc :=
    updateCrtcId_crtc.mpr ⟨encoder, hfind, hmask⟩
  obtain ⟨hmem, hcrtcId, hid, hprop⟩ := updateCrtcId_spec hcrtc
  obtain ⟨blob, hblob⟩ := Option.ne_none_iff_exists'.mp h.blob
  have htaken : Taken k := ⟨h.addActive, h.addMode, h.addCrtcId, h.commit⟩
  refine ⟨_, by rw [handle_changed halloc hget hchanged hencoders, hcrtc], ?_⟩
  obtain ⟨hret, ⟨hnot, -⟩ | ⟨-, hcommitted⟩⟩ := commitHotplug_cases k c plugIn crtc
    (updateCrtcId connector encoders crtcs plugIn encoderId)
  · exact absurd htaken hnot
  · refine ⟨hret, crtc, hmem, blob, hblob, ?_⟩
    rw [hcommitted, hblob, hcrtcId, hid, hprop]
    rfl

/-- The calls that are exact: those that have nothing to do, or do all of it. -/
theorem handledExactly_iff : HandledExactly k connector encoders crtcs plugIn ↔
    k.atomicAlloc = true ∧ ∀ c, k.getConnector = some c → connector.mConnectState ≠ c.connection →
      StepsSucceed k c encoders crtcs := by
  constructor
  · rintro ⟨r, hr, hexact⟩
    have halloc : k.atomicAlloc = true := by
      by_contra hnot
      rw [DrmConnector.handleHotplug, if_neg hnot] at hr
      obtain rfl := Option.some.inj hr
      obtain ⟨-, crtc, -, blob, -, hcommitted⟩ := hexact.ret_iff.mp rfl
      exact Option.some_ne_none _ hcommitted.symm
    refine ⟨halloc, fun c hget hchanged => ?_⟩
    obtain ⟨hret, htaken⟩ := taken_of_committed halloc hget hchanged hr
    obtain ⟨-, crtc, -, blob, hblob, hcommitted⟩ := hexact.ret_iff.mp hret
    obtain ⟨htaken, hencoder⟩ := htaken (by simp [hcommitted])
    exact ⟨hencoder, by simp [hblob], htaken.addActive, htaken.addMode, htaken.addCrtcId, htaken.commit⟩
  · rintro ⟨halloc, hsteps⟩
    by_cases hchanged : Changed k connector
    · obtain ⟨c, hget, hne⟩ := hchanged
      obtain ⟨r, hr, hret, hcommitted⟩ := committed_of_steps halloc hget hne (hsteps c hget hne)
      refine ⟨r, hr, iff_of_true hret ⟨⟨c, hget, hne⟩, hcommitted⟩, fun hnot => ?_⟩
      exact absurd hcommitted hnot
    · have hr : connector.handleHotplug k encoders crtcs plugIn
          = some ⟨false, connector, encoders, none, none⟩ := by
        rw [DrmConnector.handleHotplug, if_pos halloc]
        cases hget : k.getConnector with
        | none => rfl
        | some c =>
          have hsame : connector.mConnectState = c.connection := by
            by_contra hne
            exact hchanged ⟨c, hget, hne⟩
          exact if_pos hsame
      refine ⟨_, hr, iff_of_false Bool.false_ne_true fun h => hchanged h.1, fun _ => ⟨rfl, rfl, rfl⟩⟩

end Handle

theorem handle_false {k : Kernel μ} {connector : DrmConnector μ} {encoders : List DrmEncoder}
    {crtcs : List DrmCrtc} {plugIn : Bool} {r : Handled μ}
    (hr : connector.handleHotplug k encoders crtcs plugIn = some r) (hret : r.ret = false) :
    r.connector = connector ∧ r.encoders = encoders := by
  unfold DrmConnector.handleHotplug at hr
  split at hr
  case isFalse =>
    obtain rfl := Option.some.inj hr
    cases hret
  case isTrue halloc =>
    split at hr
    case h_1 =>
      obtain rfl := Option.some.inj hr
      exact ⟨rfl, rfl⟩
    case h_2 c hget =>
      split at hr
      case isTrue =>
        obtain rfl := Option.some.inj hr
        exact ⟨rfl, rfl⟩
      case isFalse hchanged =>
        have hcall : connector.handleHotplug k encoders crtcs plugIn = some r := by
          rw [DrmConnector.handleHotplug, if_pos halloc, hget]
          exact (if_neg hchanged).trans hr
        rw [(taken_of_committed halloc hget hchanged hcall).1] at hret
        cases hret

/-- Of the connectors from `i` on, one with the id returned true. -/
def OneHandled (k : ℕ → Kernel μ) (d : Device μ) (plugIn : Bool) (connectorId : UInt32) (i : ℕ) :
    Prop :=
  ∃ j connector r, i ≤ j ∧ d.mConnectors[j]? = some connector ∧ connectorId = connector.mId ∧
    connector.handleHotplug (k j) d.mEncoders d.mCrtcs plugIn = some r ∧ r.ret = true

theorem oneHandled_succ {k : ℕ → Kernel μ} {d : Device μ} {plugIn : Bool} {connectorId : UInt32}
    {i : ℕ} (h : ∀ connector r, d.mConnectors[i]? = some connector → connectorId = connector.mId →
      connector.handleHotplug (k i) d.mEncoders d.mCrtcs plugIn = some r → r.ret = false) :
    OneHandled k d plugIn connectorId i ↔ OneHandled k d plugIn connectorId (i + 1) := by
  constructor
  · rintro ⟨j, connector, r, hle, hconnector, hid, hr, hret⟩
    have hne : i ≠ j := by
      rintro rfl
      rw [h connector r hconnector hid hr] at hret
      cases hret
    exact ⟨j, connector, r, by omega, hconnector, hid, hr, hret⟩
  · rintro ⟨j, connector, r, hle, hrest⟩
    exact ⟨j, connector, r, by omega, hrest⟩

theorem handleConnectors_spec {k : ℕ → Kernel μ} {d : Device μ} {plugIn : Bool} {connectorId : UInt32}
    {rest : List (DrmConnector μ)} {i : ℕ} (hrest : d.mConnectors.drop i = rest)
    {r : Bool × Device μ} (hr : handleConnectors k d plugIn connectorId i rest = some r) :
    (r.1 = true ↔ OneHandled k d plugIn connectorId i) ∧ (r.1 = false → r.2 = d) := by
  induction rest generalizing i with
  | nil =>
    obtain rfl := Option.some.inj hr
    refine ⟨iff_of_false Bool.false_ne_true ?_, fun _ => rfl⟩
    rintro ⟨j, connector, -, hle, hconnector, -⟩
    have hlen := List.drop_eq_nil_iff.mp hrest
    rw [List.getElem?_eq_none (hlen.trans hle)] at hconnector
    cases hconnector
  | cons connector rest ih =>
    have hhead : d.mConnectors[i]? = some connector := by
      rw [← List.head?_drop, hrest, List.head?_cons]
    have htail : d.mConnectors.drop (i + 1) = rest := by
      rw [← List.tail_drop, hrest, List.tail_cons]
    have hother : (∀ r, connectorId = connector.mId →
        connector.handleHotplug (k i) d.mEncoders d.mCrtcs plugIn = some r → r.ret = false) →
        (OneHandled k d plugIn connectorId i ↔ OneHandled k d plugIn connectorId (i + 1)) := by
      refine fun h => oneHandled_succ fun other r hget => ?_
      obtain rfl := Option.some.inj (hhead.symm.trans hget)
      exact h r
    unfold handleConnectors at hr
    split at hr
    case isFalse hid =>
      rw [hother fun _ h => absurd h hid]
      exact ih htail hr
    case isTrue hid =>
      split at hr
      case h_1 => cases hr
      case h_2 handled hhandled =>
        by_cases hret : handled.ret = true
        · rw [if_pos hret] at hr
          obtain rfl := Option.some.inj hr
          refine ⟨iff_of_true rfl ?_, fun h => absurd h.symm Bool.false_ne_true⟩
          exact ⟨i, connector, handled, le_rfl, hhead, hid, hhandled, hret⟩
        · have hfalse := Bool.eq_false_iff.mpr hret
          obtain ⟨hconnector, hencoders⟩ := handle_false hhandled hfalse
          have hsame : { d with
              mConnectors := d.mConnectors.set i handled.connector, mEncoders := handled.encoders }
              = d := by
            obtain ⟨hlt, hget⟩ := List.getElem?_eq_some_iff.mp hhead
            rw [hconnector, hencoders, ← hget, List.set_getElem_self hlt]
          rw [if_neg hret, hsame] at hr
          rw [hother fun r _ h => Option.some.inj (hhandled.symm.trans h) ▸ hfalse]
          exact ih htail hr

/-- The device says true for the display just when the handler of its connector does, and is else as
before. -/
theorem device_true_iff {k : ℕ → Kernel μ} {d : Device μ} {dispId : UInt32} {plugIn : Bool}
    {r : Bool × Device μ} (hr : d.handleHotplug k dispId plugIn = some r) :
    (r.1 = true ↔ ∃ entry, d.dispConnectorIdMaps.find? (·.1 = dispId) = some entry ∧
      OneHandled k d plugIn entry.2 0) ∧ (r.1 = false → r.2 = d) := by
  unfold Device.handleHotplug at hr
  split at hr
  case h_1 hnone =>
    obtain rfl := Option.some.inj hr
    exact ⟨by simp [hnone], fun _ => rfl⟩
  case h_2 entry hsome =>
    obtain ⟨hiff, hkept⟩ := handleConnectors_spec List.drop_zero hr
    refine ⟨hiff.trans ?_, hkept⟩
    simp [hsome]

/-- The listeners are called for the answers that are true, and for no others. -/
def Notified (callbacks : List γ) (plugIn : Bool) (s : Session σ γ) : Prop :=
  s.notices = (s.answers.filter (·.ret)).flatMap fun answer =>
    doHotPlugCallback callbacks answer.dispId plugIn

def asked (s : Session σ γ) : List (ℕ × UInt32) := s.answers.map fun answer =>
  (answer.device, answer.dispId)

variable {handle : Handler σ} {callbacks : List γ} {plugIn : Bool}

theorem handleDisplay_notified {device : ℕ} {dispId : UInt32} {s t : Session σ γ}
    (h : Notified callbacks plugIn s)
    (ht : handleDisplay handle callbacks plugIn device s dispId = some t) :
    Notified callbacks plugIn t ∧ asked t = asked s ++ [(device, dispId)] := by
  obtain ⟨r, -, rfl⟩ := Option.map_eq_some_iff.mp ht
  constructor
  · unfold Notified at h ⊢
    rw [h, List.filter_append, List.flatMap_append]
    cases hret : r.1 <;> simp
  · simp [asked]

theorem displays_notified {device : ℕ} {displays : List UInt32} {s t : Session σ γ}
    (h : Notified callbacks plugIn s)
    (ht : displays.foldlM (handleDisplay handle callbacks plugIn device) s = some t) :
    Notified callbacks plugIn t ∧ asked t = asked s ++ displays.map (device, ·) := by
  induction displays generalizing s with
  | nil =>
    obtain rfl := Option.some.inj ht
    exact ⟨h, (List.append_nil _).symm⟩
  | cons dispId displays ih =>
    rw [List.foldlM_cons] at ht
    obtain ⟨u, hu, ht⟩ := Option.bind_eq_some_iff.mp ht
    obtain ⟨hnotified, hasked⟩ := handleDisplay_notified h hu
    obtain ⟨hnotified, hasked'⟩ := ih hnotified ht
    refine ⟨hnotified, ?_⟩
    rw [hasked', hasked, List.append_assoc]
    rfl

theorem devices_notified {devices : List ℕ} {displays : List UInt32} {s t : Session σ γ}
    (h : Notified callbacks plugIn s) (ht : devices.foldlM (fun s device =>
      displays.foldlM (handleDisplay handle callbacks plugIn device) s) s = some t) :
    Notified callbacks plugIn t ∧ asked t = asked s ++ devices.flatMap fun device =>
      displays.map (device, ·) := by
  induction devices generalizing s with
  | nil =>
    obtain rfl := Option.some.inj ht
    exact ⟨h, (List.append_nil _).symm⟩
  | cons device devices ih =>
    rw [List.foldlM_cons] at ht
    obtain ⟨u, hu, ht⟩ := Option.bind_eq_some_iff.mp ht
    obtain ⟨hnotified, hasked⟩ := displays_notified h hu
    obtain ⟨hnotified, hasked'⟩ := ih hnotified ht
    refine ⟨hnotified, ?_⟩
    rw [hasked', hasked, List.append_assoc, List.flatMap_cons]

/-- A session asks each device for each display, once and in this order, and notifies exactly for those
that said true. -/
def SessionExact (handle : Handler σ) (callbacks : List γ) (devices : ℕ) (displays : List UInt32)
    (plugIn : Bool) (ds : σ) : Prop :=
  ∀ t, handleHotplug handle callbacks devices displays plugIn ⟨ds, [], []⟩ = some t →
    Notified callbacks plugIn t ∧
      asked t = (List.range devices).flatMap fun device => displays.map (device, ·)

def refused : Kernel Unit :=
  { atomicAlloc := true
    getConnector := some ⟨.connected, [7], ⟨[], by decide⟩⟩
    createPropertyBlob := some 50
    stackBlob := 0
    addActive := 1
    addMode := 2
    addCrtcId := 3
    commit := -22
    propCrtcId := none }

end DrmHotplug
