import DeviceQemu.StepSystem
import Mathlib.Data.Int.GCD

/-! Volume and mute of the audio streams.
The render and the capture stream each have a left and a right channel at the mixer. SetMute keeps the
volume that it finds and goes through GetVolume and SetVolume; a ghost keeps the volume that was in
force when the stream was muted. -/
namespace AlsaVolume

open StepSystem

inductive DataModel where
  | ilp32
  | lp64
  deriving DecidableEq, Repr

def DataModel.half : DataModel → ℤ
  | .ilp32 => 2 ^ 31
  | .lp64 => 2 ^ 63

def InLong (m : DataModel) (z : ℤ) : Prop := -m.half ≤ z ∧ z < m.half

instance (m : DataModel) (z : ℤ) : Decidable (InLong m z) :=
  inferInstanceAs (Decidable (_ ∧ _))

def wrap (m : DataModel) (z : ℤ) : ℤ := (z + m.half) % (2 * m.half) - m.half

inductive Direction where
  | render
  | capture
  deriving DecidableEq, Repr

/-- The value that SetVolume writes to a mixer element. -/
def Direction.element (m : DataModel) : Direction → ℤ → ℤ
  | .render, volume => wrap m (volume * 10)
  | .capture, volume => volume

structure Stream where
  left : ℤ
  right : ℤ
  muteState : Bool
  tempVolume : ℤ
  deriving DecidableEq, Repr

/-- Which reads and writes of mixer elements succeed; a write that fails changes nothing. -/
structure Answers where
  readLeft : Bool
  readRight : Bool
  writeLeft : Bool
  writeRight : Bool
  deriving DecidableEq, Repr

def getVolumeImpl (m : DataModel) (s : Stream) (a : Answers) : Option ℤ :=
  if a.readLeft = false then none
  else if a.readRight = false then none
  else some (wrap m (s.left + s.right) / 2)

def setVolumeImpl (element : ℤ → ℤ) (s : Stream) (a : Answers) (volume : ℤ) : Bool × Stream :=
  if a.writeLeft = false then (false, s)
  else if a.writeRight = false then (false, { s with left := element volume })
  else (true, { s with left := element volume, right := element volume })

/-- The result of SetVolume is dropped: `ret` is still that of GetVolume. -/
def setMuteImpl (m : DataModel) (element : ℤ → ℤ) (s : Stream) (a : Answers) (muteFlag : Bool) :
    Bool × Stream :=
  match getVolumeImpl m s a with
  | none => (false, s)
  | some vol =>
    let kept := if muteFlag then { s with tempVolume := vol } else s
    let setVol := if muteFlag then 0 else kept.tempVolume
    (true, { (setVolumeImpl element kept a setVol).2 with muteState := muteFlag })

def renderSetVolumeImpl (m : DataModel) := setVolumeImpl (Direction.render.element m)
def captureSetVolumeImpl (m : DataModel) := setVolumeImpl (Direction.capture.element m)
def renderSetMuteImpl (m : DataModel) := setMuteImpl m (Direction.render.element m)
def captureSetMuteImpl (m : DataModel) := setMuteImpl m (Direction.capture.element m)

inductive Event where
  | setVolume (volume : ℤ) (a : Answers)
  | setMute (muteFlag : Bool) (a : Answers)
  deriving DecidableEq, Repr

def Direction.setVolume (d : Direction) (m : DataModel) : Stream → Answers → ℤ → Bool × Stream :=
  match d with
  | .render => renderSetVolumeImpl m
  | .capture => captureSetVolumeImpl m

def Direction.setMute (d : Direction) (m : DataModel) : Stream → Answers → Bool → Bool × Stream :=
  match d with
  | .render => renderSetMuteImpl m
  | .capture => captureSetMuteImpl m

def Direction.call (d : Direction) (m : DataModel) (s : Stream) : Event → Bool × Stream
  | .setVolume volume a => d.setVolume m s a volume
  | .setMute muteFlag a => d.setMute m s a muteFlag

def everyAnswer : Answers := ⟨true, true, true, true⟩

/-- The volume that a GetVolume with no failure returns. -/
def Stream.volume (m : DataModel) (s : Stream) : ℤ := wrap m (s.left + s.right) / 2

/-- `before` is the volume that was in force when the stream was last muted while it was not. -/
structure State where
  stream : Stream
  before : ℤ
  deriving DecidableEq, Repr

def Direction.after (d : Direction) (m : DataModel) (s : State) (e : Event) : State :=
  let stream := (d.call m s.stream e).2
  ⟨stream, if s.stream.muteState = false ∧ stream.muteState = true then s.stream.volume m
    else s.before⟩

def Possible (m : DataModel) : Event → Prop
  | .setVolume volume _ => InLong m volume
  | .setMute .. => True

instance (m : DataModel) : (e : Event) → Decidable (Possible m e)
  | .setVolume volume _ => inferInstanceAs (Decidable (InLong m volume))
  | .setMute .. => isTrue trivial

/-- Not muted, with a zeroed tempVolume and any mixer values. -/
def Direction.system (d : Direction) (m : DataModel) : System State Event where
  Init s := s.stream.muteState = false ∧ s.stream.tempVolume = 0 ∧ s.before = 0
  next s e := if Possible m e then some (d.after m s e) else none

def Event.answers : Event → Answers
  | .setVolume _ a | .setMute _ a => a

def Writes (a : Answers) : Prop := a.writeLeft = true ∧ a.writeRight = true

instance (a : Answers) : Decidable (Writes a) := inferInstanceAs (Decidable (_ ∧ _))

/-- Unmuting restores the volume, only a call whose writes succeed mutes or unmutes, and the volume
that is set is the one that is got. -/
structure Right (d : Direction) (m : DataModel) (s : State) (e : Event) : Prop where
  restores : s.stream.muteState = true → (d.after m s e).stream.muteState = false →
    (d.after m s e).stream.volume m = s.before
  changes : (d.after m s e).stream.muteState ≠ s.stream.muteState → Writes e.answers
  gets : ∀ volume a, e = .setVolume volume a → s.stream.muteState = false →
    (d.call m s.stream e).1 = true → (d.after m s e).stream.volume m = volume

def Halved (m : DataModel) (z : ℤ) : Prop := -m.half ≤ 2 * z ∧ 2 * z < m.half

instance (m : DataModel) (z : ℤ) : Decidable (Halved m z) :=
  inferInstanceAs (Decidable (_ ∧ _))

/-- A volume that comes back as it is set; render has it ten times too large. -/
def Kept (m : DataModel) : Direction → ℤ → Prop
  | .render, volume => volume = 0
  | .capture, volume => Halved m volume

/-- Setting `tempVolume` gives the volume `before`; render sets it ten times too large. -/
def Restores (m : DataModel) : Direction → ℤ → ℤ → Prop
  | .render, tempVolume, before => (10 * tempVolume - before) % m.half = 0
  | .capture, tempVolume, before => tempVolume = before

/-- A volume is set that is kept, muting and unmuting write to the mixer without failure, and what
the last SetMute found is the volume from before the stream was muted. -/
def Consistent (d : Direction) (m : DataModel) (s : State) : Event → Prop
  | .setVolume volume a => s.stream.muteState = false → Writes a → Kept m d volume
  | .setMute muteFlag a => a.readLeft = true → a.readRight = true → muteFlag ≠ s.stream.muteState →
      Writes a ∧ (muteFlag = false → Restores m d s.stream.tempVolume s.before)

instance (d : Direction) (m : DataModel) (volume : ℤ) : Decidable (Kept m d volume) := by
  cases d
  · exact inferInstanceAs (Decidable (volume = 0))
  · exact inferInstanceAs (Decidable (Halved m volume))

instance (d : Direction) (m : DataModel) (tempVolume before : ℤ) :
    Decidable (Restores m d tempVolume before) := by
  cases d
  · exact inferInstanceAs (Decidable (_ = _))
  · exact inferInstanceAs (Decidable (_ = _))

instance (d : Direction) (m : DataModel) (s : State) : (e : Event) → Decidable (Consistent d m s e)
  | .setVolume _ _ => inferInstanceAs (Decidable (_ → _ → _))
  | .setMute _ _ => inferInstanceAs (Decidable (_ → _ → _ → _ ∧ (_ → _)))

theorem wrap_bounds (m : DataModel) (z : ℤ) : -m.half ≤ wrap m z ∧ wrap m z < m.half := by
  cases m <;> simp only [wrap, DataModel.half] <;> omega

theorem wrap_eq (m : DataModel) (z : ℤ) : ∃ k, wrap m z = z - 2 * m.half * k := by
  refine ⟨(z + m.half) / (2 * m.half), ?_⟩
  rw [wrap, Int.emod_def]
  omega

/-- The mean of two channels with the same value: it loses the value's first bit. -/
def mean (m : DataModel) (z : ℤ) : ℤ := wrap m (z + z) / 2

theorem halved_div (m : DataModel) (z : ℤ) : Halved m (wrap m z / 2) := by
  have hbounds := wrap_bounds m z
  cases m <;> simp only [Halved, DataModel.half] at hbounds ⊢ <;> omega

theorem mean_eq (m : DataModel) (z : ℤ) : ∃ k, mean m z = z - m.half * k := by
  obtain ⟨k, hk⟩ := wrap_eq m (z + z)
  refine ⟨k, ?_⟩
  have hdouble : z + z - 2 * m.half * k = 2 * (z - m.half * k) := by
    rw [Int.mul_sub, Int.two_mul z, mul_assoc]
  rw [mean, hk, hdouble, Int.mul_ediv_cancel_left _ (by decide)]

theorem halved_inj {m : DataModel} {a b : ℤ} (ha : Halved m a) (hb : Halved m b) :
    (a - b) % m.half = 0 ↔ a = b := by
  cases m <;> simp only [Halved, DataModel.half] at ha hb ⊢ <;> omega

theorem mean_eq_iff {m : DataModel} {z b : ℤ} (hb : Halved m b) :
    mean m z = b ↔ (z - b) % m.half = 0 := by
  obtain ⟨k, hk⟩ := mean_eq m z
  have hhalved : Halved m (mean m z) := halved_div m (z + z)
  rw [← halved_inj hhalved hb, hk]
  have hsub : z - m.half * k - b = z - b - m.half * k := by omega
  rw [hsub, Int.sub_mul_emod_self_left]

/-- What GetVolume reads after a volume is set. -/
def setThenGet (d : Direction) (m : DataModel) (volume : ℤ) : ℤ := mean m (d.element m volume)

theorem setThenGet_restores_iff (d : Direction) (m : DataModel) {tempVolume before : ℤ}
    (ht : Halved m tempVolume) (hb : Halved m before) :
    setThenGet d m tempVolume = before ↔ Restores m d tempVolume before := by
  rw [setThenGet, mean_eq_iff hb]
  cases d with
  | render =>
    obtain ⟨k, hk⟩ := wrap_eq m (tempVolume * 10)
    have hsub : tempVolume * 10 - 2 * m.half * k - before
        = 10 * tempVolume - before - m.half * (2 * k) := by
      rw [mul_comm 2 m.half, mul_assoc, mul_comm tempVolume 10]
      omega
    rw [Direction.element, hk, hsub, Int.sub_mul_emod_self_left]
    rfl
  | capture => exact halved_inj ht hb

theorem render_kept {m : DataModel} {volume : ℤ} (h : Halved m volume)
    (hr : Restores m .render volume volume) : volume = 0 := by
  have hnine : 10 * volume - volume = 9 * volume := by omega
  have hdvd : m.half ∣ 9 * volume := by
    rw [← hnine]
    exact Int.dvd_of_emod_eq_zero hr
  have hcoprime : Int.gcd m.half 9 = 1 := by cases m <;> decide
  obtain ⟨k, rfl⟩ := Int.dvd_of_dvd_mul_right_of_gcd_one hdvd hcoprime
  cases m <;> simp only [Halved, DataModel.half] at h ⊢ <;> omega

theorem setThenGet_eq_iff (d : Direction) (m : DataModel) {volume : ℤ} (h : InLong m volume) :
    setThenGet d m volume = volume ↔ Kept m d volume := by
  constructor
  · intro heq
    have hhalved : Halved m volume := by
      rw [← heq]
      exact halved_div m _
    cases d with
    | capture => exact hhalved
    | render =>
      have hrestores := (setThenGet_restores_iff .render m hhalved hhalved).mp heq
      exact render_kept hhalved hrestores
  · intro hkept
    have hhalved : Halved m volume := by
      cases d with
      | capture => exact hkept
      | render =>
        obtain rfl : volume = 0 := hkept
        cases m <;> decide
    rw [setThenGet_restores_iff d m hhalved hhalved]
    cases d with
    | capture => rfl
    | render =>
      obtain rfl : volume = 0 := hkept
      cases m <;> rfl

section Step

variable {d : Direction} {m : DataModel} {s : State}

theorem setVolume_eq (d : Direction) (m : DataModel) (s : Stream) (a : Answers) (volume : ℤ) :
    d.setVolume m s a volume = setVolumeImpl (d.element m) s a volume := by
  cases d <;> rfl

theorem setMute_eq (d : Direction) (m : DataModel) (s : Stream) (a : Answers) (muteFlag : Bool) :
    d.setMute m s a muteFlag = setMuteImpl m (d.element m) s a muteFlag := by
  cases d <;> rfl

theorem setVolumeImpl_other (element : ℤ → ℤ) (s : Stream) (a : Answers) (volume : ℤ) :
    (setVolumeImpl element s a volume).2.muteState = s.muteState ∧
      (setVolumeImpl element s a volume).2.tempVolume = s.tempVolume := by
  rw [setVolumeImpl]
  split_ifs <;> exact ⟨rfl, rfl⟩

theorem setVolumeImpl_fst (element : ℤ → ℤ) (s : Stream) (a : Answers) (volume : ℤ) :
    (setVolumeImpl element s a volume).1 = true ↔ Writes a := by
  rw [setVolumeImpl, Writes]
  split_ifs with hleft hright <;> simp [*]

theorem setVolumeImpl_volume {a : Answers} (hw : Writes a) (d : Direction) (m : DataModel) (s : Stream)
    (volume : ℤ) :
    ((setVolumeImpl (d.element m) s a volume).2).volume m = setThenGet d m volume := by
  rw [setVolumeImpl, hw.1, hw.2]
  rfl

theorem setMuteImpl_unread (element : ℤ → ℤ) (s : Stream) {a : Answers}
    (h : ¬ (a.readLeft = true ∧ a.readRight = true)) (muteFlag : Bool) :
    setMuteImpl m element s a muteFlag = (false, s) := by
  rw [setMuteImpl, getVolumeImpl]
  split_ifs with hleft hright <;> simp_all

theorem setMuteImpl_read (element : ℤ → ℤ) (s : Stream) {a : Answers} (hl : a.readLeft = true)
    (hr : a.readRight = true) (muteFlag : Bool) :
    setMuteImpl m element s a muteFlag =
      (true, { (setVolumeImpl element (if muteFlag then { s with tempVolume := s.volume m } else s) a
        (if muteFlag then 0 else s.tempVolume)).2 with muteState := muteFlag }) := by
  rw [setMuteImpl, getVolumeImpl, hl, hr]
  cases muteFlag <;> rfl

/-- tempVolume and the volume from before are volumes that GetVolume can return. -/
structure Shape (m : DataModel) (s : State) : Prop where
  tempVolume : Halved m s.stream.tempVolume
  before : Halved m s.before

theorem shape_after (h : Shape m s) (e : Event) : Shape m (d.after m s e) := by
  constructor
  · cases e with
    | setVolume volume a =>
      have hother := (setVolumeImpl_other (d.element m) s.stream a volume).2
      rw [Direction.after, Direction.call, setVolume_eq]
      exact hother.symm ▸ h.tempVolume
    | setMute muteFlag a =>
      rw [Direction.after, Direction.call, setMute_eq]
      by_cases hread : a.readLeft = true ∧ a.readRight = true
      · rw [setMuteImpl_read _ _ hread.1 hread.2]
        dsimp only
        rw [(setVolumeImpl_other _ _ _ _).2]
        split_ifs
        · exact halved_div m _
        · exact h.tempVolume
      · rw [setMuteImpl_unread _ _ hread]
        exact h.tempVolume
  · rw [Direction.after]
    dsimp only
    split_ifs
    · exact halved_div m _
    · exact h.before

theorem right_setVolume_iff {volume : ℤ} (hv : InLong m volume) (a : Answers) :
    Right d m s (.setVolume volume a) ↔ Consistent d m s (.setVolume volume a) := by
  have hafter : (d.after m s (.setVolume volume a)).stream =
      (setVolumeImpl (d.element m) s.stream a volume).2 := by
    rw [Direction.after, Direction.call, setVolume_eq]
  have hmute := (setVolumeImpl_other (d.element m) s.stream a volume).1
  have hret : (d.call m s.stream (.setVolume volume a)).1 = true ↔ Writes a := by
    rw [Direction.call, setVolume_eq]
    exact setVolumeImpl_fst _ _ _ _
  constructor
  · intro hright hunmuted hw
    have hget := hright.gets volume a rfl hunmuted (hret.mpr hw)
    rw [hafter, setVolumeImpl_volume hw] at hget
    exact (setThenGet_eq_iff d m hv).mp hget
  · intro hcons
    constructor
    · intro hmuted hnot
      rw [hafter, hmute, hmuted] at hnot
      cases hnot
    · intro hne
      rw [hafter, hmute] at hne
      exact absurd rfl hne
    · intro volume' a' he hunmuted hsome
      cases he
      have hw := hret.mp hsome
      rw [hafter, setVolumeImpl_volume hw]
      exact (setThenGet_eq_iff d m hv).mpr (hcons hunmuted hw)

theorem right_setMute_iff (h : Shape m s) (muteFlag : Bool) (a : Answers) :
    Right d m s (.setMute muteFlag a) ↔ Consistent d m s (.setMute muteFlag a) := by
  have hcall : (d.after m s (.setMute muteFlag a)).stream =
      (setMuteImpl m (d.element m) s.stream a muteFlag).2 := by
    rw [Direction.after, Direction.call, setMute_eq]
  by_cases hread : a.readLeft = true ∧ a.readRight = true
  · obtain ⟨hl, hr⟩ := hread
    have hmute : (d.after m s (.setMute muteFlag a)).stream.muteState = muteFlag := by
      rw [hcall, setMuteImpl_read _ _ hl hr]
    have hvolume : Writes a → muteFlag = false →
        (d.after m s (.setMute muteFlag a)).stream.volume m =
          setThenGet d m s.stream.tempVolume := by
      rintro hw rfl
      rw [hcall, setMuteImpl_read _ _ hl hr]
      exact setVolumeImpl_volume hw d m s.stream s.stream.tempVolume
    have hiff := @setThenGet_restores_iff d m _ _ h.tempVolume h.before
    constructor
    · intro hright _ _ hne
      have hw : Writes a := hright.changes (by rwa [hmute])
      refine ⟨hw, fun hflag => ?_⟩
      have hmuted : s.stream.muteState = true := by
        rw [hflag] at hne
        cases hstate : s.stream.muteState with
        | true => rfl
        | false => exact absurd hstate.symm hne
      have hrestored := hright.restores hmuted (hmute.trans hflag)
      rw [hvolume hw hflag] at hrestored
      exact hiff.mp hrestored
    · intro hcons
      constructor
      · intro hmuted hunmuted
        rw [hmute] at hunmuted
        have hne : muteFlag ≠ s.stream.muteState := by
          rw [hunmuted, hmuted]
          decide
        obtain ⟨hw, hrestores⟩ := hcons hl hr hne
        rw [hvolume hw hunmuted]
        exact hiff.mpr (hrestores hunmuted)
      · intro hne
        rw [hmute] at hne
        exact (hcons hl hr hne).1
      · intro volume' a' he
        cases he
  · rw [setMuteImpl_unread _ _ hread] at hcall
    have hcons : Consistent d m s (.setMute muteFlag a) := fun hl hr => absurd ⟨hl, hr⟩ hread
    refine iff_of_true ⟨fun hmuted hunmuted => ?_, fun hne => ?_, fun _ _ he => (by cases he)⟩ hcons
    · rw [hcall, hmuted] at hunmuted
      cases hunmuted
    · rw [hcall] at hne
      exact absurd rfl hne

theorem right_iff (h : Shape m s) {e : Event} (hp : Possible m e) :
    Right d m s e ↔ Consistent d m s e := by
  cases e with
  | setVolume volume a => exact right_setVolume_iff hp a
  | setMute muteFlag a => exact right_setMute_iff h muteFlag a

end Step

theorem init_shape {d : Direction} {m : DataModel} {s : State} (h : (d.system m).Init s) :
    Shape m s := by
  have hzero : Halved m 0 := by cases m <;> decide
  obtain ⟨-, htemp, hbefore⟩ := h
  exact ⟨htemp ▸ hzero, hbefore ▸ hzero⟩

/-- The runs on which mute and volume are consistent at each call. -/
theorem volume_iff (d : Direction) (m : DataModel) {s : State} (h : (d.system m).Init s)
    (es : List Event) :
    StepsMeet (d.system m) (Right d m) s es ↔ StepsMeet (d.system m) (Consistent d m) s es := by
  apply stepsMeet_iff (I := Shape m) _ _ (init_shape h)
  · intro s e t hs _ ht
    obtain ⟨-, ht⟩ := Option.ite_none_right_eq_some.mp ht
    rw [← Option.some.inj ht]
    exact shape_after hs e
  · intro s e t hs ht
    obtain ⟨hp, -⟩ := Option.ite_none_right_eq_some.mp ht
    exact right_iff hs hp

def stereo : State := ⟨⟨40, 61, false, 0⟩, 0⟩

theorem init_stereo (d : Direction) (m : DataModel) : (d.system m).Init stereo := ⟨rfl, rfl, rfl⟩

/-- The volume changes while the stream is muted. -/
theorem capture_consistent : StepsMeet (Direction.capture.system .lp64) (Right .capture .lp64) stereo
    [.setVolume 70 everyAnswer, .setMute true everyAnswer, .setVolume 30 everyAnswer,
      .setMute false everyAnswer] :=
  (volume_iff .capture .lp64 (init_stereo _ _) _).mpr (by decide)

/-- Muted twice, the stream comes back silent; and a render stream set to 7 reads 70. -/
theorem volume_lost :
    (((Direction.capture.system .lp64).run stereo
      [.setVolume 70 everyAnswer, .setMute true everyAnswer, .setMute true everyAnswer,
        .setMute false everyAnswer]).map fun s => (s.stream.volume .lp64, s.before)) = some (0, 70) ∧
    ¬ StepsMeet (Direction.capture.system .lp64) (Right .capture .lp64) stereo
      [.setVolume 70 everyAnswer, .setMute true everyAnswer, .setMute true everyAnswer,
        .setMute false everyAnswer] ∧
    ¬ StepsMeet (Direction.render.system .lp64) (Right .render .lp64) stereo
      [.setVolume 7 everyAnswer] := by
  refine ⟨by decide, fun h => ?_, fun h => ?_⟩
  · obtain ⟨-, h⟩ := h _ rfl
    obtain ⟨-, h⟩ := h _ rfl
    obtain ⟨-, h⟩ := h _ rfl
    obtain ⟨hright, -⟩ := h _ rfl
    exact absurd (hright.restores (by decide) (by decide)) (by decide)
  · obtain ⟨hright, -⟩ := h _ rfl
    exact absurd (hright.gets 7 everyAnswer rfl rfl (by decide)) (by decide)

end AlsaVolume
