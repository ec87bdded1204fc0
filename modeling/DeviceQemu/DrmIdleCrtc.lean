import DeviceQemu.DrmDevicePipelines

/-! Which idle crtc an encoder finds.
PickIdleCrtcId looks at the mask of the encoder twice: with `==` for the crtc it starts from, and
with `&` for the idle crtc it takes instead. Without a crtc to start from it gives up. -/
namespace DrmIdleCrtc

open DrmDevice DrmDevicePipelines
open HdiIdSets (IdSets invalideDisplayId)

def IdleAllowed (s : State) (encoder : DrmEncoder) (crtc : DrmCrtc) : Prop :=
  canBind s crtc = true ∧ encoder.allows crtc = true

/-- The search succeeds when there is something to find, and what it finds will do. -/
structure PicksIdle (s : State) (encoder : DrmEncoder) (crtcs : List DrmCrtc) : Prop where
  complete : (∃ crtcId, encoder.pickIdleCrtcId s crtcs = some crtcId) ↔
    ∃ crtc ∈ crtcs, IdleAllowed s encoder crtc
  sound : ∀ crtcId, encoder.pickIdleCrtcId s crtcs = some crtcId →
    ∃ crtc ∈ crtcs, crtc.mId = crtcId ∧ IdleAllowed s encoder crtc

def CurrentAllowed (encoder : DrmEncoder) (crtcs : List DrmCrtc) : Prop :=
  ∀ crtc ∈ crtcs, crtc.mId = encoder.mCrtcId → encoder.allows crtc = true

instance (encoder : DrmEncoder) (crtcs : List DrmCrtc) : Decidable (CurrentAllowed encoder crtcs) :=
  inferInstanceAs (Decidable (∀ _ ∈ _, _ → _))

/-- There is a crtc to start from: the encoder's own, or one that is its whole mask. -/
def Starts (encoder : DrmEncoder) (crtcs : List DrmCrtc) : Prop :=
  ∃ crtc ∈ crtcs, crtc.mId = encoder.mCrtcId ∨ encoder.mPossibleCrtcs = pipeBit crtc.mPipe

variable {s : State} {encoder : DrmEncoder} {crtcs : List DrmCrtc}

theorem pick_sound (h : CurrentAllowed encoder crtcs) {crtcId : UInt32}
    (hpick : encoder.pickIdleCrtcId s crtcs = some crtcId) :
    ∃ crtc ∈ crtcs, crtc.mId = crtcId ∧ IdleAllowed s encoder crtc := by
  obtain ⟨crtc, hmem, hid, hidle, hfrom⟩ := encoder_pick_cases hpick
  refine ⟨crtc, hmem, hid, hidle, ?_⟩
  rcases hfrom with hcurrent | hallowed
  · exact h crtc hmem (by simpa using List.find?_some hcurrent)
  · exact hallowed

theorem currentCrtc_eq_none : encoder.currentCrtc crtcs = none ↔ ¬ Starts encoder crtcs := by
  unfold DrmEncoder.currentCrtc Starts
  cases hfind : crtcs.find? (·.mId = encoder.mCrtcId) with
  | some crtc =>
    have hid : crtc.mId = encoder.mCrtcId := by simpa using List.find?_some hfind
    refine iff_of_false (Option.some_ne_none crtc) fun hnot => hnot ?_
    exact ⟨crtc, List.mem_of_find?_eq_some hfind, Or.inl hid⟩
  | none =>
    rw [List.find?_eq_none] at hfind
    rw [List.find?_eq_none]
    constructor
    · rintro hmask ⟨crtc, hmem, hid | hbit⟩
      · exact hfind crtc hmem (by simpa using hid)
      · exact hmask crtc hmem (by simpa using hbit)
    · intro hnot crtc hmem hbit
      exact hnot ⟨crtc, hmem, Or.inr (by simpa using hbit)⟩

theorem pick_of_starts (hstarts : Starts encoder crtcs)
    (hidle : ∃ crtc ∈ crtcs, IdleAllowed s encoder crtc) :
    ∃ crtcId, encoder.pickIdleCrtcId s crtcs = some crtcId := by
  obtain ⟨idle, hmem, hbind, hallowed⟩ := hidle
  unfold DrmEncoder.pickIdleCrtcId
  cases hcurrent : encoder.currentCrtc crtcs with
  | none => exact absurd hstarts (currentCrtc_eq_none.mp hcurrent)
  | some crtc =>
    by_cases hfree : canBind s crtc = true
    · exact ⟨crtc.mId, if_pos hfree⟩
    · have hfound : (encoder.idleCrtc s crtcs).isSome = true := by
        unfold DrmEncoder.idleCrtc
        rw [List.find?_isSome]
        exact ⟨idle, List.mem_reverse.mpr hmem, by rw [hbind, hallowed]; rfl⟩
      obtain ⟨other, hother⟩ := Option.isSome_iff_exists.mp hfound
      refine ⟨other.mId, ?_⟩
      simp only [if_neg hfree, hother, Option.map_some]

/-- PickIdleCrtcId is exact when it has a crtc to start from, or nothing to find. -/
theorem picks_idle_iff (s : State) (encoder : DrmEncoder) (crtcs : List DrmCrtc)
    (h : CurrentAllowed encoder crtcs) :
    PicksIdle s encoder crtcs ↔
      Starts encoder crtcs ∨ ¬ ∃ crtc ∈ crtcs, IdleAllowed s encoder crtc := by
  constructor
  · intro hpicks
    by_contra hnot
    obtain ⟨hstarts, hidle⟩ := not_or.mp hnot
    obtain ⟨crtcId, hpick⟩ := hpicks.complete.mpr (not_not.mp hidle)
    rw [DrmEncoder.pickIdleCrtcId, currentCrtc_eq_none.mpr hstarts] at hpick
    cases hpick
  · intro hcond
    refine ⟨⟨?_, fun hidle => ?_⟩, fun _ => pick_sound h⟩
    · rintro ⟨crtcId, hpick⟩
      obtain ⟨crtc, hmem, -, hidle⟩ := pick_sound h hpick
      exact ⟨crtc, hmem, hidle⟩
    · exact pick_of_starts (hcond.resolve_right (not_not.mpr hidle)) hidle

def twoCrtcs : List DrmCrtc := [⟨31, 0⟩, ⟨32, 1⟩]

def unbound (mask : UInt32) : DrmEncoder := ⟨40, 0, mask⟩

def noDisplays : State := start ⟨0, ∅⟩

theorem picks_idle_oneBit : PicksIdle noDisplays (unbound 2) twoCrtcs :=
  (picks_idle_iff noDisplays (unbound 2) twoCrtcs (by decide)).mpr
    (Or.inl ⟨⟨32, 1⟩, by decide, Or.inr (by decide)⟩)

/-- Both crtcs are idle and in the mask, but the mask is not one of them. -/
theorem twoBits_not_picked : (twoCrtcs.map DrmCrtc.mPipe).Nodup ∧
    CurrentAllowed (unbound 3) twoCrtcs ∧ ¬ PicksIdle noDisplays (unbound 3) twoCrtcs := by
  refine ⟨by decide, by decide, fun hpicks => ?_⟩
  have hidle : ∃ crtc ∈ twoCrtcs, IdleAllowed noDisplays (unbound 3) crtc :=
    ⟨⟨31, 0⟩, by decide, by decide, by decide⟩
  obtain ⟨crtcId, hpick⟩ := hpicks.complete.mpr hidle
  have hnone : (unbound 3).pickIdleCrtcId noDisplays twoCrtcs = none := by decide
  rw [hnone] at hpick
  cases hpick

end DrmIdleCrtc
