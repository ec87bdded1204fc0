import DeviceQemu.DrmModes
import Mathlib.Data.List.GetD

/-! Which reported modes can be set.
SetActivieMode takes no id but 0, so that of the modes reported only the first can be set, and with
no mode at all an id that was not reported is taken. -/
namespace DrmModesSettable

open StepSystem DrmModes

variable {μ : Type}

def idOf (modeId : UInt32) : ℤ := modeId.toInt32.toInt

/-- GetDisplaySupportedModes reports the id. -/
def Reported (c : Report μ) (modeId : UInt32) : Prop :=
  ∃ info ∈ getDisplaySupportedModes (initModes c), info.id = idOf modeId

/-- SetDisplayMode takes the id, and the next commit sets the crtc to its mode and to no other. -/
structure Settable (c : Report μ) (s : State μ) (modeId : UInt32) (mode : DrmModeModeInfo μ) :
    Prop where
  accepted : (setDisplayMode s modeId).1 = .success
  active : (setDisplayMode s modeId).2.crtc.mActiveModeId = idOf modeId
  programs : ∀ k : Answers, k.Good →
    (updateMode (initModes c) k (setDisplayMode s modeId).2).2.programmed = some mode
  noOther : ∀ k, (updateMode (initModes c) k (setDisplayMode s modeId).2).2.programmed =
    s.programmed ∨ (updateMode (initModes c) k (setDisplayMode s modeId).2).2.programmed = some mode

/-- The `i`-th mode has the id `i` and can be set by it; an id that is not reported is refused. -/
structure Right (c : Report μ) (s : State μ) (modeId : UInt32) : Prop where
  reported : ∀ (i : ℕ) mode, c.modes[i]? = some mode → idOf modeId = i → Settable c s modeId mode
  unreported : ¬ Reported c modeId →
    (setDisplayMode s modeId).1 ≠ .success ∧ (setDisplayMode s modeId).2 = s

/-- The mode that ChosePreferenceMode selects can be set, and it sets it. -/
def PreferredRight (c : Report μ) (s : State μ) : Prop :=
  ∃ (i : ℕ) (mode : DrmModeModeInfo μ), preferredMode (initModes c) = i ∧ c.modes[i]? = some mode ∧
    Settable c s (UInt32.ofNat i) mode ∧
    ∀ k : Answers, k.Good → (chosePreferenceMode (initModes c) true k s).1 = .success ∧
      (chosePreferenceMode (initModes c) true k s).2.programmed = some mode

theorem idOf_ofNat {i : ℕ} (hi : i < 2 ^ 31) : idOf (UInt32.ofNat i) = i := by
  rw [idOf, UInt32.toInt32_ofNat', Int32.toInt_ofNat_of_lt hi]

theorem idOf_inj {modeId modeId' : UInt32} (h : idOf modeId = idOf modeId') : modeId = modeId' :=
  congrArg Int32.toUInt32 (Int32.toInt_inj.mp h)

theorem idOf_eq_zero {modeId : UInt32} : idOf modeId = 0 ↔ modeId = 0 := by
  constructor
  · exact fun h => idOf_inj h
  · rintro rfl
    rfl

theorem initModesFrom_mModes (i : ℕ) (connector : DrmConnector μ)
    (modes : List (DrmModeModeInfo μ)) :
    (initModesFrom i connector modes).mModes =
      connector.mModes ++ modes.mapIdx fun j mode => ⟨mode, (i + j : ℕ)⟩ := by
  induction modes generalizing i connector with
  | nil => simp [initModesFrom]
  | cons mode modes ih =>
    rw [initModesFrom, ih, List.mapIdx_cons, List.append_assoc]
    simp only [Nat.add_zero, List.singleton_append, Nat.add_assoc, Nat.add_comm 1]

theorem initModes_mModes (c : Report μ) :
    (initModes c).mModes = c.modes.mapIdx fun i mode => ⟨mode, i⟩ := by
  rw [initModes, initModesFrom_mModes]
  simp

theorem mem_mModes {c : Report μ} {mode : DrmMode μ} :
    mode ∈ (initModes c).mModes ↔
      ∃ i : ℕ, c.modes[i]? = some mode.mModeInfo ∧ mode.mId = i := by
  rw [initModes_mModes, List.mem_mapIdx]
  constructor
  · rintro ⟨i, hi, rfl⟩
    exact ⟨i, List.getElem?_eq_getElem hi, rfl⟩
  · rintro ⟨i, hmode, hid⟩
    obtain ⟨hi, hget⟩ := List.getElem?_eq_some_iff.mp hmode
    refine ⟨i, hi, ?_⟩
    rw [hget, ← hid]

theorem getModeFromId_of_mode {c : Report μ} {i : ℕ} {mode : DrmModeModeInfo μ}
    (h : c.modes[i]? = some mode) : getModeFromId (initModes c) i = some ⟨mode, i⟩ := by
  have hmem : (⟨mode, i⟩ : DrmMode μ) ∈ (initModes c).mModes := mem_mModes.mpr ⟨i, h, rfl⟩
  have hsome : (getModeFromId (initModes c) i).isSome = true :=
    List.find?_isSome.mpr ⟨_, hmem, by simp⟩
  obtain ⟨found, hfound⟩ := Option.isSome_iff_exists.mp hsome
  have hid : found.mId = i := by simpa using List.find?_some hfound
  obtain ⟨j, hj, hidj⟩ := mem_mModes.mp (List.mem_of_find?_eq_some hfound)
  obtain rfl : i = j := by omega
  rw [h] at hj
  rw [hfound, Option.some.inj hj, ← hid]

theorem reported_iff {c : Report μ} {modeId : UInt32} :
    Reported c modeId ↔ ∃ i < c.modes.length, idOf modeId = i := by
  unfold Reported getDisplaySupportedModes
  constructor
  · rintro ⟨info, hinfo, hid⟩
    obtain ⟨mode, hmode, rfl⟩ := List.mem_map.mp hinfo
    obtain ⟨i, hi, hidi⟩ := mem_mModes.mp hmode
    exact ⟨i, (List.getElem?_eq_some_iff.mp hi).1, hid.symm.trans hidi⟩
  · rintro ⟨i, hi, hid⟩
    have hmem : (⟨c.modes[i], i⟩ : DrmMode μ) ∈ (initModes c).mModes :=
      mem_mModes.mpr ⟨i, List.getElem?_eq_getElem hi, rfl⟩
    exact ⟨_, List.mem_map_of_mem hmem, hid.symm⟩

/-- Unless a mode set is due, the active mode is the one that the crtc is set to. -/
structure Inv (c : Report μ) (s : State μ) : Prop where
  active : s.crtc.mActiveModeId = invalidModeId ∨ s.crtc.mActiveModeId = 0
  set : s.crtc.mNeedModeSet = false → s.crtc.mActiveModeId = 0 → s.programmed = c.modes[0]?

theorem setDisplayMode_refused {modeId : UInt32} (h : modeId ≠ 0) (s : State μ) :
    setDisplayMode s modeId = (.paramErr, s) := by
  have hne : modeId.toInt32.toInt ≠ 0 := fun hz => h (idOf_eq_zero.mp hz)
  simp only [setDisplayMode, setActivieMode, if_pos hne]

theorem setDisplayMode_zero (s : State μ) : setDisplayMode s 0 =
    (.success,
      ⟨⟨0, s.crtc.mNeedModeSet || decide (s.crtc.mActiveModeId ≠ 0)⟩, s.programmed⟩) := rfl

theorem setDisplayMode_inv {c : Report μ} {s : State μ} (h : Inv c s) (modeId : UInt32) :
    Inv c (setDisplayMode s modeId).2 := by
  by_cases hzero : modeId = 0
  · rw [hzero, setDisplayMode_zero]
    refine ⟨Or.inr rfl, fun hneed _ => ?_⟩
    obtain ⟨hneed, hactive⟩ := Bool.or_eq_false_iff.mp hneed
    exact h.set hneed (by simpa using hactive)
  · rw [setDisplayMode_refused hzero]
    exact h

/-- UpdateMode either leaves all as it is or sets the crtc to the active mode. -/
theorem updateMode_cases (connector : DrmConnector μ) (k : Answers) (s : State μ) :
    (updateMode connector k s).2 = s ∨
      ∃ mode, s.crtc.mNeedModeSet = true ∧
        getModeFromId connector s.crtc.mActiveModeId = some mode ∧
        (updateMode connector k s).2 =
          ⟨{ s.crtc with mNeedModeSet := false }, some mode.mModeInfo⟩ := by
  unfold updateMode getModeBlockFromId
  cases hneed : s.crtc.mNeedModeSet with
  | false => exact Or.inl rfl
  | true =>
    cases hmode : getModeFromId connector s.crtc.mActiveModeId with
    | none => exact Or.inl rfl
    | some mode =>
      simp only [if_true, Option.map_some]
      split_ifs
      · exact Or.inr ⟨mode, trivial, rfl, rfl⟩
      · exact Or.inl rfl
      · exact Or.inl rfl

theorem updateMode_good {connector : DrmConnector μ} {k : Answers} (hk : k.Good) {s : State μ}
    (hneed : s.crtc.mNeedModeSet = true) {mode : DrmMode μ}
    (hmode : getModeFromId connector s.crtc.mActiveModeId = some mode) :
    (updateMode connector k s).2.programmed = some mode.mModeInfo := by
  obtain ⟨id, hblob, hid⟩ := hk.blob
  simp only [updateMode, hneed, if_true, getModeBlockFromId, hmode, Option.map_some, hblob,
    Option.getD_some, if_pos hid, hk.addActive, hk.addMode, hk.addCrtcId, hk.commit, Bool.and_true]

theorem updateMode_inv {c : Report μ} {s : State μ} (h : Inv c s) (k : Answers) :
    Inv c (updateMode (initModes c) k s).2 := by
  rcases updateMode_cases (initModes c) k s with heq | ⟨mode, -, hmode, heq⟩
  · rw [heq]
    exact h
  · rw [heq]
    refine ⟨h.active, fun _ hactive => ?_⟩
    obtain ⟨i, hi, hid⟩ := mem_mModes.mp (List.mem_of_find?_eq_some hmode)
    have hzero : mode.mId = s.crtc.mActiveModeId := by simpa using List.find?_some hmode
    obtain rfl : i = 0 := by
      have hactive : s.crtc.mActiveModeId = 0 := hactive
      omega
    exact hi.symm

theorem pushFirstFrame_inv {c : Report μ} {s : State μ} (h : Inv c s) (allocMem : Bool)
    (k : Answers) : Inv c (pushFirstFrame (initModes c) allocMem k s).2 := by
  unfold pushFirstFrame
  cases getModeFromId (initModes c) s.crtc.mActiveModeId with
  | none => exact h
  | some mode =>
    cases allocMem with
    | false => exact h
    | true => exact updateMode_inv h k

theorem next_inv {c : Report μ} {s : State μ} (h : Inv c s) (e : Event) :
    Inv c (next (initModes c) s e) := by
  cases e with
  | setDisplayMode modeId => exact setDisplayMode_inv h modeId
  | chosePreferenceMode allocMem k =>
    have hset := setDisplayMode_inv h (preferredMode (initModes c)).toInt32.toUInt32
    simp only [next, chosePreferenceMode]
    split_ifs
    · exact hset
    · exact pushFirstFrame_inv hset allocMem k
  | updateMode k => exact updateMode_inv h k

theorem reachable_inv {c : Report μ} {s : State μ} (h : Reachable (system (initModes c)) s) :
    Inv c s := by
  refine Reachable.invariant (fun s hs => ?_) (fun s e t hI ht => ?_) h
  · have hs : s.crtc = ⟨invalidModeId, false⟩ := hs
    refine ⟨Or.inl (by rw [hs]), fun _ hactive => ?_⟩
    rw [hs] at hactive
    exact absurd hactive (by decide)
  · exact Option.some.inj ht ▸ next_inv hI e

theorem settable_zero {c : Report μ} {s : State μ} (h : Inv c s) {mode : DrmModeModeInfo μ}
    (hmode : c.modes[0]? = some mode) : Settable c s 0 mode := by
  have hget := getModeFromId_of_mode hmode
  constructor
  · rfl
  · rfl
  · intro k hk
    rcases updateMode_cases (initModes c) k (setDisplayMode s 0).2 with heq | ⟨found, -, hfound, heq⟩
    · cases hneed : (setDisplayMode s 0).2.crtc.mNeedModeSet with
      | true => exact updateMode_good hk hneed hget
      | false =>
        rw [heq]
        exact ((setDisplayMode_inv h 0).set hneed rfl).trans hmode
    · obtain rfl := Option.some.inj (hget.symm.trans hfound)
      rw [heq]
  · intro k
    rcases updateMode_cases (initModes c) k (setDisplayMode s 0).2 with heq | ⟨found, -, hfound, heq⟩
    · exact Or.inl ((congrArg State.programmed heq).trans rfl)
    · obtain rfl := Option.some.inj (hget.symm.trans hfound)
      exact Or.inr (congrArg State.programmed heq)

theorem right_iff {c : Report μ} {s : State μ} (h : Inv c s) (modeId : UInt32) :
    Right c s modeId ↔ (modeId = 0 ↔ Reported c modeId) := by
  by_cases hzero : modeId = 0
  · subst hzero
    rw [iff_true_left rfl]
    constructor
    · intro hright
      by_contra hnot
      exact (hright.unreported hnot).1 rfl
    · intro hreported
      refine ⟨fun i mode hmode hid => ?_, fun hnot => absurd hreported hnot⟩
      obtain rfl : i = 0 := by
        have hid : (0 : ℤ) = i := hid
        omega
      exact settable_zero h hmode
  · rw [iff_false_left hzero]
    have hrefused := setDisplayMode_refused hzero s
    constructor
    · rintro hright hreported
      obtain ⟨i, hi, hid⟩ := reported_iff.mp hreported
      have haccepted := (hright.reported i _ (List.getElem?_eq_getElem hi) hid).accepted
      rw [hrefused] at haccepted
      cases haccepted
    · intro hnot
      refine ⟨fun i mode hmode hid => absurd ?_ hnot, fun _ => ?_⟩
      · exact reported_iff.mpr ⟨i, (List.getElem?_eq_some_iff.mp hmode).1, hid⟩
      · rw [hrefused]
        exact ⟨by simp, rfl⟩

theorem preferredRight_iff {c : Report μ} {s : State μ} (h : Inv c s) :
    PreferredRight c s ↔ preferredMode (initModes c) = 0 ∧ c.modes ≠ [] := by
  constructor
  · rintro ⟨i, mode, hpreferred, hmode, hset, -⟩
    obtain ⟨hi, -⟩ := List.getElem?_eq_some_iff.mp hmode
    have hcount := c.count
    have hzero : UInt32.ofNat i = 0 := by
      by_contra hne
      have haccepted := hset.accepted
      rw [setDisplayMode_refused hne] at haccepted
      cases haccepted
    have hid := idOf_ofNat (hi.trans hcount)
    rw [hzero] at hid
    refine ⟨hpreferred.trans hid.symm, fun hnil => ?_⟩
    rw [hnil] at hi
    exact Nat.not_lt_zero i hi
  · rintro ⟨hpreferred, hne⟩
    have hmode : c.modes[0]? = some (c.modes.head hne) := by
      rw [← List.head?_eq_getElem?, List.head?_eq_some_head hne]
    refine ⟨0, c.modes.head hne, hpreferred, hmode, settable_zero h hmode, fun k hk => ?_⟩
    have hset : chosePreferenceMode (initModes c) true k s =
        pushFirstFrame (initModes c) true k (setDisplayMode s 0).2 := by
      rw [chosePreferenceMode, hpreferred]
      rfl
    have hpush : pushFirstFrame (initModes c) true k (setDisplayMode s 0).2 =
        (.success, (updateMode (initModes c) k (setDisplayMode s 0).2).2) := by
      have hget := getModeFromId_of_mode hmode
      simp only [pushFirstFrame, setDisplayMode_zero]
      rw [show (0 : ℤ) = ((0 : ℕ) : ℤ) by rfl, hget]
      rfl
    rw [hset, hpush]
    exact ⟨rfl, (settable_zero h hmode).programs k hk⟩

theorem right_all_iff {c : Report μ} {s : State μ} (h : Inv c s) :
    (∀ modeId, Right c s modeId) ↔ c.modes.length = 1 := by
  have hcount := c.count
  constructor
  · intro hall
    have hzero := ((right_iff h 0).mp (hall 0)).mp rfl
    obtain ⟨i, hi, -⟩ := reported_iff.mp hzero
    by_contra hlen
    have hone : Reported c 1 := reported_iff.mpr ⟨1, by omega, rfl⟩
    exact absurd (((right_iff h 1).mp (hall 1)).mpr hone) (by decide)
  · intro hlen modeId
    rw [right_iff h, reported_iff, hlen]
    constructor
    · rintro rfl
      exact ⟨0, by omega, rfl⟩
    · rintro ⟨i, hi, hid⟩
      obtain rfl : i = 0 := by omega
      exact idOf_eq_zero.mp hid

/-- An id is treated as it should be when it is 0 just if it is reported, and the preferred mode when
it is the first one. -/
theorem modes_right_iff (c : Report μ) {s : State μ} (h : Reachable (system (initModes c)) s) :
    (∀ modeId, Right c s modeId ↔ (modeId = 0 ↔ Reported c modeId)) ∧
      (PreferredRight c s ↔ preferredMode (initModes c) = 0 ∧ c.modes ≠ []) ∧
      ((∀ modeId, Right c s modeId) ↔ c.modes.length = 1) := by
  have hinv := reachable_inv h
  exact ⟨right_iff hinv, preferredRight_iff hinv, right_all_iff hinv⟩

def mode (hdisplay vdisplay : UInt16) (type : UInt32) : DrmModeModeInfo Unit :=
  ⟨hdisplay, vdisplay, 60, type, ()⟩

def oneMode : Report Unit := ⟨[mode 1280 800 drmModeTypePreferred], by decide⟩

theorem modes_right_oneMode :
    Right oneMode ⟨⟨0, true⟩, none⟩ 0 ∧ Right oneMode ⟨⟨0, true⟩, none⟩ 1 := by
  have hinit : (system (initModes oneMode)).Init ⟨⟨invalidModeId, false⟩, none⟩ := rfl
  have hreach : Reachable (system (initModes oneMode)) ⟨⟨0, true⟩, none⟩ :=
    .step (.init hinit) (e := .setDisplayMode 0) trivial rfl
  have hall := (modes_right_iff oneMode hreach).2.2.mpr rfl
  exact ⟨hall 0, hall 1⟩

def twoModes : Report Unit := ⟨[mode 1024 768 0, mode 1280 800 drmModeTypePreferred], by decide⟩

theorem second_mode_refused :
    Reachable (system (initModes twoModes)) ⟨⟨invalidModeId, false⟩, none⟩ ∧
      Reported twoModes 1 ∧ preferredMode (initModes twoModes) = 1 ∧
      (setDisplayMode (⟨⟨invalidModeId, false⟩, none⟩ : State Unit) 1).1 = .paramErr ∧
      ¬ Right twoModes ⟨⟨invalidModeId, false⟩, none⟩ 1 := by
  have hinit : (system (initModes twoModes)).Init ⟨⟨invalidModeId, false⟩, none⟩ := rfl
  have hreported : Reported twoModes 1 := reported_iff.mpr ⟨1, by decide, rfl⟩
  refine ⟨.init hinit, hreported, by decide, rfl, fun hright => ?_⟩
  have haccepted := (hright.reported 1 _ rfl rfl).accepted
  exact absurd haccepted (by decide)

end DrmModesSettable
