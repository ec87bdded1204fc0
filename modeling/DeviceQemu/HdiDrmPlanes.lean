import DeviceQemu.DrmDevice

/-! Planes shared by the compositions of several displays.
HdiDrmComposition: each takes the planes that its crtc may use when it is initialised, and
binds one to its pipe when it commits. Planes are objects of the device; mPipe is the one field
of theirs that changes. -/
namespace HdiDrmPlanes

open StepSystem
open DrmDevice (DrmCrtc CrtcReport findAllCrtc pipeBit)

abbrev Ptr := ℕ

inductive PlaneType where
  | overlay
  | primary
  | cursor
  deriving DecidableEq, Repr

/-- `mCrtcId` is what the kernel reports when the plane is found. -/
structure DrmPlane where
  mPossibleCrtcs : UInt32
  mCrtcId : UInt32
  mType : PlaneType
  deriving DecidableEq, Repr

/-- mPlanes is `plane 0` to `plane (count - 1)`. DRM numbers crtcs below 32, one for each bit of
a possible_crtcs mask. -/
structure Device where
  res : List CrtcReport
  res_le : res.length ≤ 32
  plane : Ptr → DrmPlane
  count : ℕ

structure Composition where
  mCrtc : DrmCrtc
  mPlanes : List Ptr
  mCompLayers : List Ptr
  deriving DecidableEq, Repr

/-- What the Apply of a display does to a plane: it programs it, with this success, or it sets
its framebuffer to 0. -/
inductive Act where
  | programmed (display : ℕ) (plane : Ptr) (ok : Bool)
  | disabled (display : ℕ) (plane : Ptr)
  deriving DecidableEq, Repr

def Act.display : Act → ℕ
  | .programmed display _ _ | .disabled display _ => display

def Act.plane : Act → Ptr
  | .programmed _ plane _ | .disabled _ plane => plane

/-- `log` is newest first. -/
structure State where
  mPipe : Ptr → UInt32
  displays : List Composition
  log : List Act

def initial : State := ⟨fun _ => 0, [], []⟩

def possible (dev : Device) (crtc : DrmCrtc) (p : Ptr) : Bool :=
  pipeBit crtc.mPipe &&& (dev.plane p).mPossibleCrtcs ≠ 0

def getDrmPlane (dev : Device) (s : State) (crtc : DrmCrtc) (type : PlaneType) : List Ptr :=
  (List.range dev.count).filter fun p =>
    s.mPipe p = 0 && possible dev crtc p && (dev.plane p).mType = type

def initComposition (dev : Device) (s : State) (crtc : DrmCrtc) : Option State :=
  if crtc ∈ findAllCrtc dev.res ∧ crtc ∉ s.displays.map Composition.mCrtc then
    let mPlanes := getDrmPlane dev s crtc .primary ++ getDrmPlane dev s crtc .overlay
    some { s with displays := s.displays ++ [⟨crtc, mPlanes, []⟩] }
  else none

def setLayers (s : State) (d : ℕ) (clientLayer : Ptr) : Option State :=
  s.displays[d]?.map fun c =>
    { s with displays := s.displays.set d { c with mCompLayers := [clientLayer] } }

/-- The plane is not used by another crtc, and was on this crtc or none. -/
def usable (dev : Device) (s : State) (crtc : DrmCrtc) (p : Ptr) : Bool :=
  (s.mPipe p = 0 || s.mPipe p = pipeBit crtc.mPipe) &&
    ((dev.plane p).mCrtcId = crtc.mId || (dev.plane p).mCrtcId = 0)

/-- The round of FindPlaneAndApply for one layer ends with the first usable plane, whether
ApplyPlane succeeds or not. -/
def applyLayer (dev : Device) (d : ℕ) (c : Composition) (applyPlane : Ptr → Ptr → Bool) (s : State)
    (layer : Ptr) : State :=
  match c.mPlanes.find? (usable dev s c.mCrtc) with
  | none => s
  | some p =>
    let ok := applyPlane layer p
    let s := { s with log := .programmed d p ok :: s.log }
    if ok then { s with mPipe := Function.update s.mPipe p (pipeBit c.mCrtc.mPipe) } else s

def findPlaneAndApply (dev : Device) (d : ℕ) (c : Composition) (applyPlane : Ptr → Ptr → Bool)
    (s : State) : State := c.mCompLayers.foldl (applyLayer dev d c applyPlane) s

def removePlane (d : ℕ) (s : State) (p : Ptr) : State :=
  if s.mPipe p = 0 then
    { s with mPipe := Function.update s.mPipe p 0, log := .disabled d p :: s.log }
  else s

def removeUnusePlane (d : ℕ) (c : Composition) (s : State) : State :=
  c.mPlanes.foldl (removePlane d) s

/-- How the calls of one Apply end. What it adds to the request after the planes, and the
commit, change no plane. -/
structure Outcome where
  updateMode : Bool
  atomicAlloc : Bool
  outFence : Bool
  applyPlane : Ptr → Ptr → Bool

def apply (dev : Device) (s : State) (d : ℕ) (out : Outcome) : Option State :=
  s.displays[d]?.map fun c =>
    if !out.updateMode then s
    else if c.mPlanes.length < c.mCompLayers.length then s
    else if !out.atomicAlloc then s
    else if !out.outFence then s
    else removeUnusePlane d c (findPlaneAndApply dev d c out.applyPlane s)

inductive Event where
  | init (crtc : DrmCrtc)
  | setLayers (d : ℕ) (clientLayer : Ptr)
  | apply (d : ℕ) (out : Outcome)

def next (dev : Device) (s : State) : Event → Option State
  | .init crtc => initComposition dev s crtc
  | .setLayers d clientLayer => setLayers s d clientLayer
  | .apply d out => apply dev s d out

def system (dev : Device) : System State Event where
  Init s := s = initial
  next := next dev

/-- Once a display has programmed a plane, no other display touches it. -/
def Exclusive (log : List Act) : Prop :=
  log.Pairwise fun later earlier =>
    ∀ d p, earlier = .programmed d p true → later.plane = p → later.display = d

def InMask (dev : Device) (s : State) : Prop :=
  ∀ d p ok, .programmed d p ok ∈ s.log → ∃ c, s.displays[d]? = some c ∧ possible dev c.mCrtc p

structure Inv (dev : Device) (s : State) : Prop where
  crtcs : ∀ (d : ℕ) (c : Composition), s.displays[d]? = some c → c.mCrtc ∈ findAllCrtc dev.res
  distinct : ∀ (d d' : ℕ) (c c' : Composition), s.displays[d]? = some c → s.displays[d']? = some c' →
    c.mCrtc = c'.mCrtc → d = d'
  planes : ∀ (d : ℕ) (c : Composition), s.displays[d]? = some c → ∀ p ∈ c.mPlanes, possible dev c.mCrtc p
  bound : ∀ d p, .programmed d p true ∈ s.log →
    ∃ c, s.displays[d]? = some c ∧ s.mPipe p = pipeBit c.mCrtc.mPipe
  inMask : InMask dev s
  exclusive : Exclusive s.log

theorem initial_inv (dev : Device) : Inv dev initial := by
  constructor
  · simp [initial]
  · simp [initial]
  · simp [initial]
  · simp [initial]
  · simp [InMask, initial]
  · exact List.Pairwise.nil

theorem mem_getDrmPlane {dev : Device} {s : State} {crtc : DrmCrtc} {type : PlaneType} {p : Ptr}
    (h : p ∈ getDrmPlane dev s crtc type) : possible dev crtc p = true := by
  have hp := (List.mem_filter.mp h).2
  simp only [Bool.and_eq_true] at hp
  exact hp.1.2

theorem crtc_eq_of_pipe {crtcs : List DrmCrtc} (h : (crtcs.map DrmCrtc.mPipe).Nodup)
    {crtc crtc' : DrmCrtc} (hc : crtc ∈ crtcs) (hc' : crtc' ∈ crtcs)
    (heq : crtc.mPipe = crtc'.mPipe) : crtc = crtc' := List.inj_on_of_nodup_map h hc hc' heq

theorem Inv.display_eq {dev : Device} {s : State} (h : Inv dev s) {d d' : ℕ} {c c' : Composition}
    (hd : s.displays[d]? = some c) (hd' : s.displays[d']? = some c')
    (heq : pipeBit c.mCrtc.mPipe = pipeBit c'.mCrtc.mPipe) : d = d' := by
  have hindexed := DrmDevice.findAllCrtc_indexed dev.res
  have hc := h.crtcs d c hd
  have hc' := h.crtcs d' c' hd'
  have hlt : ∀ crtc ∈ findAllCrtc dev.res, crtc.mPipe < 32 := fun crtc hmem =>
    (hindexed.below crtc hmem).trans_le dev.res_le
  have hpipe := DrmDevice.pipeBit_inj (hlt _ hc) (hlt _ hc') heq
  exact h.distinct d d' c c' hd hd' (crtc_eq_of_pipe hindexed.pipes hc hc' hpipe)

theorem exclusive_cons {log : List Act} {act : Act} (h : Exclusive log)
    (hnew : ∀ d, .programmed d act.plane true ∈ log → act.display = d) :
    Exclusive (act :: log) := by
  refine List.pairwise_cons.mpr ⟨?_, h⟩
  rintro _ hmem d p rfl rfl
  exact hnew d hmem

theorem applyLayer_inv {dev : Device} {s : State} {d : ℕ} {c : Composition}
    (applyPlane : Ptr → Ptr → Bool) (layer : Ptr) (h : Inv dev s) (hd : s.displays[d]? = some c) :
    Inv dev (applyLayer dev d c applyPlane s layer) ∧
      (applyLayer dev d c applyPlane s layer).displays = s.displays := by
  unfold applyLayer
  split
  · exact ⟨h, rfl⟩
  · rename_i p hfind
    have hmem := List.mem_of_find?_eq_some hfind
    have husable := List.find?_some hfind
    simp only [usable, Bool.and_eq_true, Bool.or_eq_true, decide_eq_true_eq] at husable
    -- a plane that another display has programmed is bound to another bit
    have hown : ∀ d', .programmed d' p true ∈ s.log → d = d' := by
      intro d' hlog
      obtain ⟨c', hd', hpipe⟩ := h.bound d' p hlog
      rcases husable.1 with hzero | hbit
      · exact absurd (hpipe.symm.trans hzero) (DrmDevice.pipeBit_ne_zero _)
      · exact h.display_eq hd hd' (hbit.symm.trans hpipe)
    have hmask : ∀ ok d' p' ok', .programmed d' p' ok' ∈ .programmed d p ok :: s.log →
        ∃ c', s.displays[d']? = some c' ∧ possible dev c'.mCrtc p' := by
      intro ok d' p' ok' hlog
      rcases List.mem_cons.mp hlog with heq | hlog
      · cases heq
        exact ⟨c, hd, h.planes d c hd p hmem⟩
      · exact h.inMask d' p' ok' hlog
    cases hok : applyPlane layer p with
    | false =>
      refine ⟨⟨h.crtcs, h.distinct, h.planes, ?_, hmask false, exclusive_cons h.exclusive hown⟩, rfl⟩
      intro d' p' hlog
      rcases List.mem_cons.mp hlog with heq | hlog
      · cases heq
      · exact h.bound d' p' hlog
    | true =>
      refine ⟨⟨h.crtcs, h.distinct, h.planes, ?_, hmask true, exclusive_cons h.exclusive hown⟩, rfl⟩
      intro d' p' hlog
      rcases List.mem_cons.mp hlog with heq | hlog
      · cases heq
        exact ⟨c, hd, Function.update_self ..⟩
      · have hold : .programmed d' p' true ∈ s.log := hlog
        by_cases hp : p' = p
        · have hd' : s.displays[d']? = some c := hown d' (hp ▸ hold) ▸ hd
          exact ⟨c, hd', hp ▸ Function.update_self ..⟩
        · obtain ⟨c', hd', hpipe⟩ := h.bound d' p' hold
          exact ⟨c', hd', (Function.update_of_ne hp ..).trans hpipe⟩

theorem removePlane_inv {dev : Device} {s : State} {d : ℕ} (p : Ptr) (h : Inv dev s) :
    Inv dev (removePlane d s p) ∧ (removePlane d s p).displays = s.displays := by
  unfold removePlane
  split_ifs with hidle
  · refine ⟨⟨h.crtcs, h.distinct, h.planes, ?_, ?_, exclusive_cons h.exclusive ?_⟩, rfl⟩
    · intro d' p' hlog
      have hlog := (List.mem_cons.mp hlog).resolve_left (by simp)
      obtain ⟨c', hd', hpipe⟩ := h.bound d' p' hlog
      refine ⟨c', hd', ?_⟩
      rwa [← hidle, Function.update_eq_self]
    · intro d' p' ok hlog
      exact h.inMask d' p' ok ((List.mem_cons.mp hlog).resolve_left (by simp))
    · -- a programmed plane is not idle
      intro d' hlog
      obtain ⟨c', -, hpipe⟩ := h.bound d' p hlog
      exact absurd (hpipe.symm.trans hidle) (DrmDevice.pipeBit_ne_zero _)
  · exact ⟨h, rfl⟩

theorem apply_inv {dev : Device} {s t : State} {d : ℕ} {out : Outcome} (h : Inv dev s)
    (ht : apply dev s d out = some t) : Inv dev t := by
  obtain ⟨c, hd, rfl⟩ := Option.map_eq_some_iff.mp ht
  split_ifs
  · exact h
  · exact h
  · exact h
  · exact h
  · have hlayers : Inv dev (findPlaneAndApply dev d c out.applyPlane s) ∧
        (findPlaneAndApply dev d c out.applyPlane s).displays = s.displays := by
      refine List.foldlRecOn (motive := fun u => Inv dev u ∧ u.displays = s.displays)
        c.mCompLayers _ ⟨h, rfl⟩ fun u hu layer _ => ?_
      have hstep := applyLayer_inv out.applyPlane layer hu.1 (hu.2 ▸ hd)
      exact ⟨hstep.1, hstep.2.trans hu.2⟩
    exact List.foldlRecOn (motive := Inv dev) c.mPlanes _ hlayers.1
      fun u hu p _ => (removePlane_inv p hu).1

theorem initComposition_inv {dev : Device} {s t : State} {crtc : DrmCrtc} (h : Inv dev s)
    (ht : initComposition dev s crtc = some t) : Inv dev t := by
  unfold initComposition at ht
  split_ifs at ht with hcrtc
  obtain rfl := Option.some.inj ht
  have hold : ∀ {d : ℕ} {c : Composition} (c' : Composition), s.displays[d]? = some c →
      (s.displays ++ [c'])[d]? = some c := by
    intro d c c' hd
    rw [List.getElem?_append_left (List.getElem?_eq_some_iff.mp hd).1, hd]
  have hcases : ∀ {d : ℕ} {c c' : Composition}, (s.displays ++ [c'])[d]? = some c →
      s.displays[d]? = some c ∨ (d = s.displays.length ∧ c = c') := by
    intro d c c' hd
    by_cases hlt : d < s.displays.length
    · rw [List.getElem?_append_left hlt] at hd
      exact Or.inl hd
    · rw [List.getElem?_append_right (by omega), List.getElem?_singleton] at hd
      split_ifs at hd with hzero
      exact Or.inr ⟨by omega, (Option.some.inj hd).symm⟩
  have hother : ∀ {d : ℕ} {c : Composition}, s.displays[d]? = some c → c.mCrtc ≠ crtc := by
    intro d c hd heq
    exact hcrtc.2 (heq ▸ List.mem_map_of_mem (List.mem_of_getElem? hd))
  refine ⟨?_, ?_, ?_, ?_, ?_, h.exclusive⟩
  · intro d c hd
    rcases hcases hd with hd | ⟨-, rfl⟩
    · exact h.crtcs d c hd
    · exact hcrtc.1
  · intro d d' c c' hd hd' heq
    rcases hcases hd with hd | ⟨rfl, rfl⟩ <;> rcases hcases hd' with hd' | ⟨rfl, rfl⟩
    · exact h.distinct d d' c c' hd hd' heq
    · exact absurd heq (hother hd)
    · exact absurd heq.symm (hother hd')
    · rfl
  · intro d c hd p hp
    rcases hcases hd with hd | ⟨-, rfl⟩
    · exact h.planes d c hd p hp
    · exact (List.mem_append.mp hp).elim mem_getDrmPlane mem_getDrmPlane
  · intro d p hlog
    obtain ⟨c, hd, hpipe⟩ := h.bound d p hlog
    exact ⟨c, hold _ hd, hpipe⟩
  · intro d p ok hlog
    obtain ⟨c, hd, hpossible⟩ := h.inMask d p ok hlog
    exact ⟨c, hold _ hd, hpossible⟩

theorem setLayers_inv {dev : Device} {s t : State} {d : ℕ} {clientLayer : Ptr} (h : Inv dev s)
    (ht : setLayers s d clientLayer = some t) : Inv dev t := by
  obtain ⟨c, hd, rfl⟩ := Option.map_eq_some_iff.mp ht
  -- each display keeps its crtc and its planes
  have hback : ∀ {d' : ℕ} {c' : Composition},
      (s.displays.set d { c with mCompLayers := [clientLayer] })[d']? = some c' →
      ∃ c₀, s.displays[d']? = some c₀ ∧ c₀.mCrtc = c'.mCrtc ∧ c₀.mPlanes = c'.mPlanes := by
    intro d' c' hd'
    rw [List.getElem?_set] at hd'
    split_ifs at hd' with heq
    · subst heq
      obtain rfl := Option.some.inj hd'
      exact ⟨c, hd, rfl, rfl⟩
    · exact ⟨c', hd', rfl, rfl⟩
  have hforth : ∀ {d' : ℕ} {c' : Composition}, s.displays[d']? = some c' →
      ∃ c₁, (s.displays.set d { c with mCompLayers := [clientLayer] })[d']? = some c₁ ∧
        c₁.mCrtc = c'.mCrtc := by
    intro d' c' hd'
    rw [List.getElem?_set]
    by_cases heq : d = d'
    · subst heq
      obtain rfl := Option.some.inj (hd.symm.trans hd')
      rw [if_pos rfl, if_pos (List.getElem?_eq_some_iff.mp hd).1]
      exact ⟨_, rfl, rfl⟩
    · rw [if_neg heq]
      exact ⟨c', hd', rfl⟩
  refine ⟨?_, ?_, ?_, ?_, ?_, h.exclusive⟩
  · intro d' c' hd'
    obtain ⟨c₀, h₀, hcrtc, -⟩ := hback hd'
    exact hcrtc ▸ h.crtcs d' c₀ h₀
  · intro d₁ d₂ c₁ c₂ h₁ h₂ heq
    obtain ⟨a, ha, hac, -⟩ := hback h₁
    obtain ⟨b, hb, hbc, -⟩ := hback h₂
    exact h.distinct d₁ d₂ a b ha hb (hac.trans (heq.trans hbc.symm))
  · intro d' c' hd' p hp
    obtain ⟨c₀, h₀, hcrtc, hplanes⟩ := hback hd'
    exact hcrtc ▸ h.planes d' c₀ h₀ p (hplanes ▸ hp)
  · intro d' p hlog
    obtain ⟨c', hd', hpipe⟩ := h.bound d' p hlog
    obtain ⟨c₁, h₁, hcrtc⟩ := hforth hd'
    exact ⟨c₁, h₁, hcrtc ▸ hpipe⟩
  · intro d' p ok hlog
    obtain ⟨c', hd', hpossible⟩ := h.inMask d' p ok hlog
    obtain ⟨c₁, h₁, hcrtc⟩ := hforth hd'
    exact ⟨c₁, h₁, hcrtc ▸ hpossible⟩

theorem next_inv {dev : Device} {s t : State} {e : Event} (h : Inv dev s)
    (ht : next dev s e = some t) : Inv dev t := by
  cases e with
  | init crtc => exact initComposition_inv h ht
  | setLayers d clientLayer => exact setLayers_inv h ht
  | apply d out => exact apply_inv h ht

theorem planes_exclusive {dev : Device} {s : State} (h : Reachable (system dev) s) :
    Exclusive s.log ∧ InMask dev s := by
  have hinv : Inv dev s := by
    refine Reachable.invariant (fun s hs => ?_) (fun s e t => next_inv) h
    exact hs ▸ initial_inv dev
  exact ⟨hinv.exclusive, hinv.inMask⟩

def twoCrtcs : Device where
  res := [⟨31, true, true⟩, ⟨32, true, true⟩]
  res_le := by decide
  plane _ := ⟨3, 0, .primary⟩
  count := 2

def works : Outcome := ⟨true, true, true, fun _ _ => true⟩

/-- The second display finds both planes idle when it is initialised, and one of them taken when
it commits. -/
def interleaved : List Event :=
  [.init ⟨31, 0⟩, .init ⟨32, 1⟩, .setLayers 0 7, .setLayers 1 8, .apply 0 works, .apply 1 works,
    .apply 0 works]

theorem planes_exclusive_interleaved :
    ∃ s, s.log = [.programmed 0 0 true, .programmed 1 1 true, .disabled 0 1, .programmed 0 0 true] ∧
      Exclusive s.log ∧ InMask twoCrtcs s := by
  have hrun : ((system twoCrtcs).run initial interleaved).map (fun s => decide (s.log =
      [.programmed 0 0 true, .programmed 1 1 true, .disabled 0 1, .programmed 0 0 true])) =
        some true := by
    decide +kernel
  obtain ⟨s, hs, hlog⟩ := exists_reachable (S := system twoCrtcs) rfl hrun
  exact ⟨s, of_decide_eq_true hlog, planes_exclusive hs⟩

end HdiDrmPlanes
