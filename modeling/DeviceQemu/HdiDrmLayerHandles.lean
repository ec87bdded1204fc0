import DeviceQemu.HdiDrmLayer
import Mathlib.Data.List.Count

/-! GEM handles across commits.
A buffer that comes back within two commits shares its handle with a wrapper that is about to
be destroyed, and the handle goes with that wrapper. Framebuffer ids are never shared. -/
namespace HdiDrmLayerHandles

open StepSystem HandleTable HdiDrmLayer

structure WellFormed (drm : Drm) : Prop where
  gem : Consistent drm.gem
  nonzero : (0 : UInt32) ∉ handles drm.gem
  fbs : ∀ f ∈ drm.fbs, ∀ g ∈ drm.fbs, f.1 = g.1 → f = g
  ids : ∀ f ∈ drm.fbs, f.1 ≠ 0 ∧ f.2 < drm.added

structure Backed (drm : Drm) (b : DrmGemBuffer) (c : Committed) : Prop where
  imported : ∀ x, c.imported = some x → (x, b.mGemHandle) ∈ drm.gem
  failed : c.imported = none → b.mGemHandle = 0
  added : ∀ f, c.fb = some f → f ∈ drm.fbs ∧ f.1 = b.mFdId
  unadded : c.fb = none → b.mFdId = 0

structure Grows (drm drm' : Drm) (handle : UInt32) : Prop where
  gem : ∀ e ∈ drm.gem, e ∈ drm'.gem
  fbs : ∀ f ∈ drm.fbs, f ∈ drm'.fbs
  handles : ∀ h ∈ handles drm'.gem, h = handle ∨ h ∈ HandleTable.handles drm.gem

theorem Backed.mono {drm drm' : Drm} {b : DrmGemBuffer} {c : Committed} (h : Backed drm b c)
    (hg : ∀ e ∈ drm.gem, e ∈ drm'.gem) (hf : ∀ f ∈ drm.fbs, f ∈ drm'.fbs) : Backed drm' b c :=
  ⟨fun x hx => hg _ (h.imported x hx), h.failed,
    fun f hfb => ⟨hf f (h.added f hfb).1, (h.added f hfb).2⟩, h.unadded⟩

theorem Backed.handle_zero {drm : Drm} {b : DrmGemBuffer} {c : Committed} (hw : WellFormed drm)
    (h : Backed drm b c) : b.mGemHandle = 0 ↔ c.imported = none := by
  constructor
  · intro hz
    cases hx : c.imported with
    | none => rfl
    | some x =>
      have := mem_handles.mpr ⟨x, h.imported x hx⟩
      rw [hz] at this
      exact absurd this hw.nonzero
  · exact h.failed

theorem prime_spec {drm drm' : Drm} {fb : ℕ} {answer : Option UInt32} {handle : UInt32}
    (hw : WellFormed drm) (h : drmPrimeFDToHandle drm fb answer = some (some handle, drm')) :
    WellFormed drm' ∧ Grows drm drm' handle ∧ (fb, handle) ∈ drm'.gem ∧ drm'.added = drm.added ∧
      drm'.fbs = drm.fbs := by
  cases answer with
  | none => simp [drmPrimeFDToHandle] at h
  | some fresh =>
    by_cases hz : fresh = 0
    · simp [drmPrimeFDToHandle, hz] at h
    simp only [drmPrimeFDToHandle, if_neg hz] at h
    obtain ⟨⟨k, gem⟩, ho, heq⟩ := Option.map_eq_some_iff.mp h
    simp only [Prod.mk.injEq, Option.some.injEq] at heq
    obtain ⟨rfl, rfl⟩ := heq
    refine ⟨⟨hw.gem.openObject ho, ?_, hw.fbs, hw.ids⟩,
      ⟨fun e he => openObject_mono ho he, fun f hf => hf, ?_⟩, mem_openObject ho, rfl, rfl⟩
    · intro h0
      rcases openObject_cases ho with ⟨rfl, -⟩ | ⟨rfl, rfl, -, -⟩
      · exact hw.nonzero h0
      · rcases List.mem_cons.mp h0 with h0 | h0
        · exact hz h0.symm
        · exact hw.nonzero h0
    · intro h hh
      rcases openObject_cases ho with ⟨rfl, -⟩ | ⟨rfl, rfl, -, -⟩
      · exact .inr hh
      · exact List.mem_cons.mp hh

theorem addFB2_spec {drm drm' : Drm} {answer : Option UInt32} {r : Option UInt32}
    (hw : WellFormed drm) (h : drmModeAddFB2 drm answer = some (r, drm')) :
    WellFormed drm' ∧ drm'.gem = drm.gem ∧ (∀ f ∈ drm.fbs, f ∈ drm'.fbs) ∧
      ∀ id, r = some id → id ≠ 0 ∧ (id, drm.added) ∈ drm'.fbs := by
  cases answer with
  | none =>
    simp only [drmModeAddFB2, Option.some.injEq, Prod.mk.injEq] at h
    obtain ⟨rfl, rfl⟩ := h
    exact ⟨hw, rfl, fun f hf => hf, by simp⟩
  | some id =>
    by_cases hbad : id = 0 ∨ id ∈ drm.fbs.map Prod.fst
    · simp only [drmModeAddFB2, if_pos hbad, reduceCtorEq] at h
    simp only [drmModeAddFB2, if_neg hbad, Option.some.injEq, Prod.mk.injEq] at h
    obtain ⟨rfl, rfl⟩ := h
    have hfresh : ∀ f ∈ drm.fbs, f.1 ≠ id := fun f hf heq =>
      hbad (.inr (List.mem_map.mpr ⟨f, hf, heq⟩))
    refine ⟨⟨hw.gem, hw.nonzero, ?_, ?_⟩, rfl, fun f hf => List.mem_cons_of_mem _ hf, ?_⟩
    · intro f hf g hg heq
      rcases List.mem_cons.mp hf with rfl | hf
      · rcases List.mem_cons.mp hg with rfl | hg
        · rfl
        · exact absurd heq.symm (hfresh g hg)
      · rcases List.mem_cons.mp hg with rfl | hg
        · exact absurd heq (hfresh f hf)
        · exact hw.fbs f hf g hg heq
    · intro f hf
      rcases List.mem_cons.mp hf with rfl | hf
      · exact ⟨fun hz => hbad (.inl hz), Nat.lt_succ_self _⟩
      · exact ⟨(hw.ids f hf).1, Nat.lt_succ_of_lt (hw.ids f hf).2⟩
    · rintro id' heq
      obtain rfl := Option.some.inj heq
      exact ⟨fun hz => hbad (.inl hz), List.mem_cons_self ..⟩

theorem prime_fails {drm drm' : Drm} {fb : ℕ} {answer : Option UInt32}
    (h : drmPrimeFDToHandle drm fb answer = some (none, drm')) : answer = none ∧ drm' = drm := by
  cases answer with
  | none =>
    simp only [drmPrimeFDToHandle, Option.some.injEq, Prod.mk.injEq, true_and] at h
    exact ⟨rfl, h.symm⟩
  | some fresh =>
    by_cases hz : fresh = 0
    · simp [drmPrimeFDToHandle, hz] at h
    · simp only [drmPrimeFDToHandle, if_neg hz] at h
      obtain ⟨_, -, heq⟩ := Option.map_eq_some_iff.mp h
      simp at heq

theorem prime_imports {drm drm' : Drm} {fb : ℕ} {answer : Option UInt32} {handle : UInt32}
    (h : drmPrimeFDToHandle drm fb answer = some (some handle, drm')) : answer ≠ none := by
  rintro rfl
  simp [drmPrimeFDToHandle] at h

theorem unimported_spec {s : State} {c : Commit} (hw : WellFormed s.drm) (hno : ¬ Imports s c)
    (fd : Int) : WellFormed s.drm ∧ Grows s.drm s.drm invalidDrmId ∧
      Backed s.drm ⟨invalidDrmId, invalidDrmId, fd⟩
        (committed s c ⟨invalidDrmId, invalidDrmId, fd⟩) := by
  refine ⟨hw, ⟨fun _ he => he, fun _ hf => hf, fun h hh => .inr hh⟩, ?_⟩
  simp only [committed, if_neg hno]
  exact ⟨by simp, fun _ => rfl, by simp [invalidDrmId], fun _ => rfl⟩

theorem init_spec {s : State} {c : Commit} {b : DrmGemBuffer} {drm : Drm}
    (hw : WellFormed s.drm) (h : DrmGemBuffer.init s.drm s.mDrmFd c = some (b, drm)) :
    WellFormed drm ∧ Grows s.drm drm b.mGemHandle ∧ Backed drm b (committed s c b) := by
  by_cases hfd : s.mDrmFd < 0
  · simp only [DrmGemBuffer.init, if_pos hfd, Option.some.injEq, Prod.mk.injEq] at h
    obtain ⟨rfl, rfl⟩ := h
    have hno : ¬ Imports s c := fun hi => by
      have := hi.1
      omega
    exact unimported_spec hw hno _
  simp only [DrmGemBuffer.init, if_neg hfd] at h
  obtain ⟨⟨handle, drm₁⟩, hprime, h⟩ := Option.bind_eq_some_iff.mp h
  cases handle with
  | none =>
    obtain ⟨hanswer, rfl⟩ := prime_fails hprime
    simp only [Option.some.injEq, Prod.mk.injEq] at h
    obtain ⟨rfl, rfl⟩ := h
    exact unimported_spec hw (fun hi => hi.2 hanswer) _
  | some handle =>
    obtain ⟨hw₁, hg₁, hmem, hadded, hfbs⟩ := prime_spec hw hprime
    have hyes : Imports s c := ⟨by omega, prime_imports hprime⟩
    obtain ⟨⟨id, drm₂⟩, hadd, heq⟩ := Option.map_eq_some_iff.mp h
    obtain ⟨hw₂, hgem, hkept, hid⟩ := addFB2_spec hw₁ hadd
    have hgrows : Grows s.drm drm₂ handle :=
      ⟨fun e he => hgem ▸ hg₁.gem e he, fun f hf => hkept f (hfbs ▸ hf),
        fun h hh => hg₁.handles h (hgem ▸ hh)⟩
    have himported : ∀ x, some c.fb = some x → (x, handle) ∈ drm₂.gem := by
      intro x hx
      obtain rfl := Option.some.inj hx
      rw [hgem]
      exact hmem
    cases id with
    | none =>
      simp only [Prod.mk.injEq] at heq
      obtain ⟨rfl, rfl⟩ := heq
      refine ⟨hw₂, hgrows, ?_⟩
      simp only [committed, if_pos hyes]
      exact ⟨himported, by simp, by simp [invalidDrmId], fun _ => rfl⟩
    | some id =>
      simp only [Prod.mk.injEq] at heq
      obtain ⟨rfl, rfl⟩ := heq
      obtain ⟨hne, hnew⟩ := hid id rfl
      refine ⟨hw₂, hgrows, ?_⟩
      simp only [committed, if_pos hyes, if_neg hne]
      refine ⟨himported, by simp, ?_, by simp⟩
      intro f hf
      obtain rfl := Option.some.inj hf
      exact ⟨hadded ▸ hnew, rfl⟩

def released (drm : Drm) (b : DrmGemBuffer) : Drm :=
  { drm with
    gem := close drm.gem b.mGemHandle
    fbs := drm.fbs.filter fun f => f.1 ≠ b.mFdId }

theorem destroy_eq {s : State} (hw : WellFormed s.drm) (b : DrmGemBuffer)
    (live : List DrmGemBuffer) :
    b.destroy live s = { s with
      drm := released s.drm b
      closes := if b.mGemHandle = 0 then s.closes
        else ⟨b.mGemHandle, b.mGemHandle ∈ handles s.drm.gem, live.map (·.mGemHandle)⟩ ::
          s.closes } := by
  have hgem : b.mGemHandle = 0 → close s.drm.gem b.mGemHandle = s.drm.gem := by
    intro hz
    refine List.filter_eq_self.mpr fun e he => ?_
    rw [hz]
    simp only [ne_eq, decide_not, Bool.not_eq_true', decide_eq_false_iff_not]
    intro heq
    exact hw.nonzero (mem_handles.mpr ⟨e.1, heq ▸ he⟩)
  have hfbs : b.mFdId = 0 → s.drm.fbs.filter (fun f => f.1 ≠ b.mFdId) = s.drm.fbs := by
    intro hz
    refine List.filter_eq_self.mpr fun f hf => ?_
    simpa [hz] using (hw.ids f hf).1
  by_cases hf : b.mFdId = 0
  · by_cases hg : b.mGemHandle = 0
    · simp only [DrmGemBuffer.destroy, released, hgem hg, hfbs hf]
      simp [hf, hg]
    · simp only [DrmGemBuffer.destroy, released, hfbs hf]
      simp [hf, hg, gemClose]
  · by_cases hg : b.mGemHandle = 0
    · simp only [DrmGemBuffer.destroy, released, hgem hg]
      simp [hf, hg, drmModeRmFB]
    · simp [DrmGemBuffer.destroy, released, hf, hg, drmModeRmFB, gemClose]

theorem WellFormed.released {drm : Drm} (hw : WellFormed drm) (b : DrmGemBuffer) :
    WellFormed (released drm b) := by
  refine ⟨hw.gem.close _, fun h => hw.nonzero (mem_handles_close.mp h).1, ?_, ?_⟩
  · intro f hf g hg heq
    exact hw.fbs f (List.mem_of_mem_filter hf) g (List.mem_of_mem_filter hg) heq
  · intro f hf
    exact hw.ids f (List.mem_of_mem_filter hf)

/-- A wrapper that shares nothing with the destroyed one keeps what it holds. -/
theorem Backed.released {drm : Drm} {b b' : DrmGemBuffer} {c : Committed} (h : Backed drm b c)
    (hgem : ∀ x, c.imported = some x → b.mGemHandle ≠ b'.mGemHandle)
    (hfb : ∀ f, c.fb = some f → b.mFdId ≠ b'.mFdId) : Backed (released drm b') b c := by
  refine ⟨fun x hx => mem_close.mpr ⟨h.imported x hx, hgem x hx⟩, h.failed, ?_, h.unadded⟩
  intro f hf
  obtain ⟨hmem, hid⟩ := h.added f hf
  refine ⟨List.mem_filter.mpr ⟨hmem, ?_⟩, hid⟩
  simpa [hid] using hfb f hf

def BackedBy (drm : Drm) : Option DrmGemBuffer → Option Committed → Prop
  | some b, some c => Backed drm b c
  | none, none => True
  | _, _ => False

/-- A handle is closed once for each time it was opened, while no other wrapper holds it; what
the two latest commits have added is still there. -/
structure GemSafe (s : State) : Prop where
  unheld : ∀ c ∈ s.closes, c.handle ∉ c.holders
  wasOpen : ∀ c ∈ s.closes, c.wasOpen = true
  once : ∀ h, s.opened.count h =
    (s.closes.map Close.handle).count h + if h ∈ handles s.drm.gem then 1 else 0
  held : ∀ h ∈ handles s.drm.gem, h ∈ (live s).map (·.mGemHandle)
  framebuffers : ∀ c, s.current = some c ∨ s.last = some c → ∀ f, c.fb = some f → f ∈ s.drm.fbs

structure Inv (s : State) : Prop where
  drm : WellFormed s.drm
  current : BackedBy s.drm s.mCurrentBuffer s.current
  last : BackedBy s.drm s.mLastBuffer s.last
  distinct : ∀ u, s.current = some u → ∀ l, s.last = some l → ∀ f, u.fb = some f → l.fb ≠ some f
  safe : GemSafe s

/-- The dma-buf imported by the commit before the last one was not imported by the last one
and is not imported now. -/
def NotBack (s : State) (c : Commit) : Prop :=
  c.planeSet = true → ∀ l, s.last = some l → ∀ x, l.imported = some x →
    (∀ u, s.current = some u → u.imported ≠ some x) ∧ (Imports s c → c.fb ≠ x)

theorem initial_inv (drmFd : Int) : Inv (initial drmFd) := by
  constructor
  · exact ⟨consistent_nil, by simp [initial, handles], by simp [initial], by simp [initial]⟩
  · trivial
  · trivial
  · simp [initial]
  · constructor <;> simp [initial, handles]

/-- Opening keeps the count: a handle enters the table together with the history. -/
theorem once_open {gem gem' : List (ℕ × UInt32)} {opened : List UInt32} {closed : List UInt32}
    {k : UInt32} (hmono : ∀ h ∈ handles gem, h ∈ handles gem')
    (hnew : ∀ h ∈ handles gem', h = k ∨ h ∈ handles gem) (hk : k = 0 ∨ k ∈ handles gem')
    (hzero : (0 : UInt32) ∉ handles gem')
    (h : ∀ h, opened.count h = closed.count h + if h ∈ handles gem then 1 else 0) (h' : UInt32) :
    (if k = 0 ∨ k ∈ handles gem then opened else k :: opened).count h' =
      closed.count h' + if h' ∈ handles gem' then 1 else 0 := by
  by_cases hold : k = 0 ∨ k ∈ handles gem
  · rw [if_pos hold, h h']
    have hiff : h' ∈ handles gem ↔ h' ∈ handles gem' := by
      refine ⟨hmono h', fun hm => ?_⟩
      rcases hnew h' hm with rfl | hm'
      · exact hold.resolve_left fun hz => hzero (hz ▸ hm)
      · exact hm'
    simp only [hiff]
  · rw [if_neg hold, List.count_cons, h h']
    simp only [not_or] at hold
    by_cases hk' : h' = k
    · subst hk'
      simp [hold.2, hk.resolve_left hold.1]
    · have hiff : h' ∈ handles gem ↔ h' ∈ handles gem' :=
        ⟨hmono h', fun hm => (hnew h' hm).resolve_left hk'⟩
      simp [hiff, Ne.symm hk']

theorem once_close {gem : List (ℕ × UInt32)} {opened closed : List UInt32} {d : UInt32}
    (hd : d ∈ handles gem)
    (h : ∀ h, opened.count h = closed.count h + if h ∈ handles gem then 1 else 0) (h' : UInt32) :
    opened.count h' = (d :: closed).count h' + if h' ∈ handles (close gem d) then 1 else 0 := by
  rw [h h', List.count_cons]
  by_cases hd' : h' = d
  · subst hd'
    simp [mem_handles_close, hd]
  · simp [mem_handles_close, hd', Ne.symm hd']

theorem BackedBy.mono {drm drm' : Drm} {b : Option DrmGemBuffer} {c : Option Committed}
    (h : BackedBy drm b c) (hg : ∀ e ∈ drm.gem, e ∈ drm'.gem) (hf : ∀ f ∈ drm.fbs, f ∈ drm'.fbs) :
    BackedBy drm' b c := by
  cases b with
  | none => cases c with
    | none => trivial
    | some c => exact h.elim
  | some b => cases c with
    | none => exact h.elim
    | some c => exact Backed.mono h hg hf

theorem BackedBy.cases {drm : Drm} {b : Option DrmGemBuffer} {c : Option Committed}
    (h : BackedBy drm b c) :
    (b = none ∧ c = none) ∨ ∃ b' c', b = some b' ∧ c = some c' ∧ Backed drm b' c' := by
  cases b with
  | none => cases c with
    | none => exact .inl ⟨rfl, rfl⟩
    | some c => exact h.elim
  | some b => cases c with
    | none => exact h.elim
    | some c => exact .inr ⟨b, c, rfl, rfl, h⟩

theorem handle_mem {drm : Drm} {b : DrmGemBuffer} {c : Committed} (h : Backed drm b c)
    (hz : b.mGemHandle ≠ 0) : ∃ x, c.imported = some x ∧ (x, b.mGemHandle) ∈ drm.gem := by
  cases hx : c.imported with
  | none => exact absurd (h.failed hx) hz
  | some x => exact ⟨x, rfl, h.imported x hx⟩

theorem fb_mem {drm : Drm} {b : DrmGemBuffer} {c : Committed} (h : Backed drm b c)
    (hz : b.mFdId ≠ 0) : ∃ f, c.fb = some f ∧ f ∈ drm.fbs ∧ f.1 = b.mFdId := by
  cases hf : c.fb with
  | none => exact absurd (h.unadded hf) hz
  | some f => exact ⟨f, rfl, h.added f hf⟩

/-- Framebuffers of different calls have different ids while both are there. -/
theorem fb_ne {drm : Drm} (hw : WellFormed drm) {b b' : DrmGemBuffer} {c c' : Committed}
    (h : Backed drm b c) (h' : Backed drm b' c')
    (hne : ∀ f, c.fb = some f → c'.fb ≠ some f) : ∀ f, c.fb = some f → b.mFdId ≠ b'.mFdId := by
  intro f hf heq
  obtain ⟨hmem, hid⟩ := h.added f hf
  have hz : b'.mFdId ≠ 0 := by
    rw [← heq, ← hid]
    exact (hw.ids f hmem).1
  obtain ⟨g, hg, hgmem, hgid⟩ := fb_mem h' hz
  have := hw.fbs f hmem g hgmem (by rw [hid, hgid, heq])
  exact hne f hf (this ▸ hg)

theorem handle_ne {drm : Drm} (hw : WellFormed drm) {b b' : DrmGemBuffer} {c c' : Committed}
    (h : Backed drm b c) (h' : Backed drm b' c') (hz : b'.mGemHandle ≠ 0)
    (hne : ∀ x, c'.imported = some x → c.imported ≠ some x) : b.mGemHandle ≠ b'.mGemHandle := by
  intro heq
  obtain ⟨x, hx, hmem⟩ := handle_mem h' hz
  obtain ⟨y, hy, hmem'⟩ := handle_mem h (heq ▸ hz)
  have := hw.gem.handle y x _ hmem' (heq ▸ hmem)
  exact hne x hx (this ▸ hy)

/-- Destroying a wrapper leaves another one what it holds, if they share nothing. -/
theorem Backed.kept {drm : Drm} (hw : WellFormed drm) {b b' : DrmGemBuffer} {c c' : Committed}
    (h : Backed drm b c) (h' : Backed drm b' c')
    (hgem : ∀ x, c'.imported = some x → c.imported ≠ some x)
    (hfb : ∀ f, c.fb = some f → c'.fb ≠ some f) : Backed (HdiDrmLayerHandles.released drm b') b c := by
  refine h.released (fun x hx => ?_) (fb_ne hw h h' hfb)
  by_cases hz : b'.mGemHandle = 0
  · rw [hz]
    intro h0
    rw [(h.handle_zero hw).mp h0] at hx
    cases hx
  · exact handle_ne hw h h' hz hgem

theorem BackedBy.fb_mem {drm : Drm} {b : Option DrmGemBuffer} {c : Committed}
    (h : BackedBy drm b (some c)) {f : UInt32 × ℕ} (hf : c.fb = some f) : f ∈ drm.fbs := by
  cases b with
  | none => exact h.elim
  | some b => exact (h.added f hf).1

theorem BackedBy.kept {drm : Drm} (hw : WellFormed drm) {b : Option DrmGemBuffer}
    {b' : DrmGemBuffer} {c : Option Committed} {c' : Committed} (h : BackedBy drm b c)
    (h' : Backed drm b' c')
    (hgem : ∀ x, c'.imported = some x → ∀ u, c = some u → u.imported ≠ some x)
    (hfb : ∀ u, c = some u → ∀ f, u.fb = some f → c'.fb ≠ some f) :
    BackedBy (HdiDrmLayerHandles.released drm b') b c := by
  rcases h.cases with ⟨rfl, rfl⟩ | ⟨b, u, rfl, rfl, hbu⟩
  · trivial
  · exact hbu.kept hw h' (fun x hx => hgem x hx u rfl) (hfb u rfl)

theorem BackedBy.handle_ne {drm : Drm} (hw : WellFormed drm) {b : Option DrmGemBuffer}
    {b' : DrmGemBuffer} {c : Option Committed} {c' : Committed} (h : BackedBy drm b c)
    (h' : Backed drm b' c') (hz : b'.mGemHandle ≠ 0)
    (hgem : ∀ x, c'.imported = some x → ∀ u, c = some u → u.imported ≠ some x) :
    ∀ a ∈ b.toList, a.mGemHandle ≠ b'.mGemHandle := by
  intro a ha
  rcases h.cases with ⟨rfl, rfl⟩ | ⟨b, u, rfl, rfl, hbu⟩
  · cases ha
  · obtain rfl := List.mem_singleton.mp ha
    exact HdiDrmLayerHandles.handle_ne hw hbu h' hz fun x hx => hgem x hx u rfl

/-- The state once the new wrapper exists and the older ones have moved up. -/
def moved (s : State) (c : Commit) (ptr : DrmGemBuffer) (drm : Drm) : State :=
  { s with
    drm
    mLastBuffer := s.mCurrentBuffer
    mCurrentBuffer := some ptr
    last := s.current
    current := some (committed s c ptr)
    opened :=
      if ptr.mGemHandle = 0 ∨ ptr.mGemHandle ∈ handles s.drm.gem then s.opened
      else ptr.mGemHandle :: s.opened }

theorem getGemBuffer_cases {s t : State} {c : Commit} (hw : WellFormed s.drm)
    (h : getGemBuffer s c = some t) :
    ∃ ptr drm, DrmGemBuffer.init s.drm s.mDrmFd c = some (ptr, drm) ∧
      ((s.mLastBuffer = none ∧ t = moved s c ptr drm) ∨
        ∃ b, s.mLastBuffer = some b ∧ t = { moved s c ptr drm with
          drm := released drm b
          closes := if b.mGemHandle = 0 then s.closes
            else ⟨b.mGemHandle, b.mGemHandle ∈ handles drm.gem,
              (ptr :: s.mCurrentBuffer.toList).map (·.mGemHandle)⟩ :: s.closes }) := by
  obtain ⟨⟨ptr, drm⟩, hinit, heq⟩ := Option.map_eq_some_iff.mp h
  refine ⟨ptr, drm, hinit, ?_⟩
  obtain ⟨hw', -, -⟩ := init_spec hw hinit
  cases hl : s.mLastBuffer with
  | none =>
    rw [hl] at heq
    exact .inl ⟨rfl, heq.symm⟩
  | some b =>
    rw [hl] at heq
    dsimp only at heq
    rw [destroy_eq hw'] at heq
    exact .inr ⟨b, rfl, heq.symm⟩

/-- Before anything is destroyed the handles are those of the new wrapper and the two others. -/
theorem moved_spec {s : State} {c : Commit} {ptr : DrmGemBuffer} {drm : Drm} (h : Inv s)
    (hi : DrmGemBuffer.init s.drm s.mDrmFd c = some (ptr, drm)) :
    WellFormed drm ∧ Backed drm ptr (committed s c ptr) ∧ BackedBy drm s.mCurrentBuffer s.current ∧
      BackedBy drm s.mLastBuffer s.last ∧
      (∀ f, (committed s c ptr).fb = some f → ∀ g ∈ s.drm.fbs, g ≠ f) ∧
      (∀ k ∈ handles drm.gem, k = ptr.mGemHandle ∨ k ∈ (live s).map (·.mGemHandle)) ∧
      ∀ k, (moved s c ptr drm).opened.count k =
        (s.closes.map Close.handle).count k + if k ∈ handles drm.gem then 1 else 0 := by
  obtain ⟨hw, hgrows, hback⟩ := init_spec h.drm hi
  refine ⟨hw, hback, h.current.mono hgrows.gem hgrows.fbs, h.last.mono hgrows.gem hgrows.fbs,
    ?_, ?_, ?_⟩
  · rintro f hf g hg rfl
    have hlt := (h.drm.ids g hg).2
    by_cases hz : ptr.mFdId = 0
    · simp [committed, hz] at hf
    · simp only [committed, if_neg hz, Option.some.injEq] at hf
      rw [← hf] at hlt
      exact Nat.lt_irrefl _ hlt
  · intro k hk
    rcases hgrows.handles k hk with rfl | hk
    · exact .inl rfl
    · exact .inr (h.safe.held k hk)
  · refine once_open ?_ hgrows.handles ?_ hw.nonzero h.safe.once
    · intro k hk
      obtain ⟨x, hx⟩ := mem_handles.mp hk
      exact mem_handles.mpr ⟨x, hgrows.gem _ hx⟩
    · by_cases hz : ptr.mGemHandle = 0
      · exact .inl hz
      · obtain ⟨x, -, hx⟩ := handle_mem hback hz
        exact .inr (mem_handles.mpr ⟨x, hx⟩)

theorem mem_closes {closes : List Close} {handle : UInt32} {new e : Close}
    (he : e ∈ if handle = 0 then closes else new :: closes) : e ∈ closes ∨ handle ≠ 0 ∧ e = new := by
  by_cases hz : handle = 0
  · rw [if_pos hz] at he
    exact .inl he
  · rw [if_neg hz] at he
    rcases List.mem_cons.mp he with rfl | he
    · exact .inr ⟨hz, rfl⟩
    · exact .inl he

theorem once_released {drm : Drm} (hw : WellFormed drm) {b : DrmGemBuffer} {opened : List UInt32}
    {closes : List Close} {e : Close} (he : e.handle = b.mGemHandle)
    (hopen : b.mGemHandle ≠ 0 → b.mGemHandle ∈ handles drm.gem)
    (h : ∀ k, opened.count k =
      (closes.map Close.handle).count k + if k ∈ handles drm.gem then 1 else 0) (k : UInt32) :
    opened.count k =
      ((if b.mGemHandle = 0 then closes else e :: closes).map Close.handle).count k +
        if k ∈ handles (released drm b).gem then 1 else 0 := by
  by_cases hz : b.mGemHandle = 0
  · have hiff : k ∈ handles (released drm b).gem ↔ k ∈ handles drm.gem := by
      rw [released, mem_handles_close, hz]
      exact ⟨And.left, fun hk => ⟨hk, fun h0 => hw.nonzero (h0 ▸ hk)⟩⟩
    simp only [if_pos hz, hiff]
    exact h k
  · simp only [if_neg hz, List.map_cons, he]
    exact once_close (hopen hz) h k

theorem committed_fb_ne {s : State} {c : Commit} {ptr : DrmGemBuffer} (h : Inv s)
    (hfresh : ∀ f, (committed s c ptr).fb = some f → ∀ g ∈ s.drm.fbs, g ≠ f) {u : Committed}
    (hu : s.current = some u ∨ s.last = some u) :
    ∀ f, (committed s c ptr).fb = some f → u.fb ≠ some f := by
  intro f hf huf
  exact hfresh f hf f (h.safe.framebuffers u hu f huf) rfl

theorem getGemBuffer_inv {s t : State} {c : Commit} (h : Inv s)
    (hc : ∀ l, s.last = some l → ∀ x, l.imported = some x →
      (∀ u, s.current = some u → u.imported ≠ some x) ∧ (Imports s c → c.fb ≠ x))
    (ht : getGemBuffer s c = some t) : Inv t := by
  obtain ⟨ptr, drm, hi, hcases⟩ := getGemBuffer_cases h.drm ht
  obtain ⟨hw, hback, hcur, hlast, hfresh, hheld, honce⟩ := moved_spec h hi
  have hnew : ∀ u, some (committed s c ptr) = some u → ∀ l, s.current = some l → ∀ f,
      u.fb = some f → l.fb ≠ some f := by
    rintro u hu l hl
    obtain rfl := Option.some.inj hu
    exact committed_fb_ne h hfresh (.inl hl)
  rcases hcases with ⟨hnone, rfl⟩ | ⟨b, hb, rfl⟩
  · refine ⟨hw, hback, hcur, hnew, ⟨h.safe.unheld, h.safe.wasOpen, honce, ?_, ?_⟩⟩
    · intro k hk
      have := hheld k hk
      simpa [live, moved, hnone] using this
    · rintro v (hv | hv) f hf
      · obtain rfl := Option.some.inj hv
        exact (hback.added f hf).1
      · have hv : s.current = some v := hv
        rw [hv] at hcur
        exact hcur.fb_mem hf
  · rw [hb] at hlast
    obtain ⟨l, hl, hbl⟩ : ∃ l, s.last = some l ∧ Backed drm b l := by
      rcases hlast.cases with ⟨hno, -⟩ | ⟨b', l, hb', hl, hbl⟩
      · cases hno
      · obtain rfl := Option.some.inj hb'
        exact ⟨l, hl, hbl⟩
    have hptr : ∀ x, l.imported = some x → (committed s c ptr).imported ≠ some x := by
      intro x hx heq
      by_cases him : Imports s c
      · simp only [committed, if_pos him, Option.some.injEq] at heq
        exact (hc l hl x hx).2 him heq
      · simp [committed, if_neg him] at heq
    have hgem : ∀ x, l.imported = some x → ∀ u, s.current = some u → u.imported ≠ some x :=
      fun x hx => (hc l hl x hx).1
    have hback' := hback.kept hw hbl hptr (committed_fb_ne h hfresh (.inr hl))
    have hcur' := hcur.kept hw hbl hgem fun u hu => h.distinct u hu l hl
    have hopen : b.mGemHandle ≠ 0 → b.mGemHandle ∈ handles drm.gem := by
      intro hz
      obtain ⟨x, -, hx⟩ := handle_mem hbl hz
      exact mem_handles.mpr ⟨x, hx⟩
    refine ⟨hw.released b, hback', hcur', hnew, ⟨?_, ?_, ?_, ?_, ?_⟩⟩
    · intro e he
      rcases mem_closes he with he | ⟨hz, rfl⟩
      · exact h.safe.unheld e he
      · intro hmem
        obtain ⟨a, ha, heq⟩ := List.mem_map.mp hmem
        rcases List.mem_cons.mp ha with rfl | ha
        · exact handle_ne hw hback hbl hz hptr heq
        · exact hcur.handle_ne hw hbl hz hgem a ha heq
    · intro e he
      rcases mem_closes he with he | ⟨hz, rfl⟩
      · exact h.safe.wasOpen e he
      · simpa using hopen hz
    · exact once_released hw rfl hopen honce
    · intro k hk
      obtain ⟨hk, hne⟩ := mem_handles_close.mp hk
      rcases hheld k hk with rfl | hmem
      · simp [live, moved]
      · simp only [live, hb, Option.toList_some, List.map_append, List.map_cons, List.map_nil,
          List.mem_append, List.mem_singleton] at hmem
        simp only [live, moved, Option.toList_some, List.map_append, List.map_cons, List.map_nil,
          List.mem_append]
        exact .inr (hmem.resolve_right hne)
    · rintro v (hv | hv) f hf
      · obtain rfl := Option.some.inj hv
        exact (hback'.added f hf).1
      · have hv : s.current = some v := hv
        rw [hv] at hcur'
        exact hcur'.fb_mem hf

theorem next_inv {s t : State} {c : Commit} (h : Inv s) (hc : NotBack s c)
    (ht : system.next s c = some t) : Inv t := by
  rw [next_eq] at ht
  by_cases hp : c.planeSet = true
  · rw [if_pos hp] at ht
    exact getGemBuffer_inv h (hc hp) ht
  · rw [if_neg hp] at ht
    exact Option.some.inj ht ▸ h

theorem next_unsafe {s t : State} {c : Commit} (h : Inv s) (hc : ¬ NotBack s c)
    (ht : system.next s c = some t) : ¬ GemSafe t := by
  intro hsafe
  rw [next_eq] at ht
  unfold NotBack at hc
  push Not at hc
  obtain ⟨hp, l, hl, x, hx, hback⟩ := hc
  rw [if_pos hp] at ht
  obtain ⟨ptr, drm, hi, hcases⟩ := getGemBuffer_cases h.drm ht
  obtain ⟨hw, hbp, hcur, hlast, -, -, -⟩ := moved_spec h hi
  rw [hl] at hlast
  obtain ⟨b, l', hb, hl', hbl⟩ := hlast.cases.resolve_left (by simp)
  obtain rfl := Option.some.inj hl'
  have hz : b.mGemHandle ≠ 0 := fun h0 => by
    have := (hbl.handle_zero hw).mp h0
    simp [hx] at this
  have hshared : b.mGemHandle ∈ (ptr :: s.mCurrentBuffer.toList).map (·.mGemHandle) := by
    by_cases hu : ∃ u, s.current = some u ∧ u.imported = some x
    · obtain ⟨u, hu, hux⟩ := hu
      rw [hu] at hcur
      obtain ⟨b', u', hb', hu', hbu⟩ := hcur.cases.resolve_left (by simp)
      obtain rfl := Option.some.inj hu'
      have := hw.gem.object x _ _ (hbl.imported x hx) (hbu.imported x hux)
      simp [hb', this]
    · obtain ⟨him, hfb⟩ := hback fun u hu' hux => hu ⟨u, hu', hux⟩
      have himp : (committed s c ptr).imported = some x := by simp [committed, him, hfb]
      have := hw.gem.object x _ _ (hbl.imported x hx) (hbp.imported x himp)
      simp [this]
  rcases hcases with ⟨hnone, -⟩ | ⟨b', hb', rfl⟩
  · simp [hb] at hnone
  · obtain rfl : b = b' := by simpa [hb] using hb'
    exact hsafe.unheld ⟨b.mGemHandle, b.mGemHandle ∈ handles drm.gem, _⟩ (by simp [hz]) hshared

/-- The handles and framebuffers are safe in exactly the runs in which no dma-buf comes back
within two commits. -/
theorem gem_safe_iff (drmFd : Int) (cs : List Commit) :
    StatesMeet system GemSafe (initial drmFd) cs ↔ StepsMeet system NotBack (initial drmFd) cs :=
  statesMeet_iff_stepsMeet (fun _ => Inv.safe) (fun _ _ _ => next_inv) (fun _ _ _ => next_unsafe)
    (initial_inv drmFd) cs

def commitOf (fb : ℕ) (fresh id : UInt32) : Commit := ⟨fb, true, some fresh, some id, true, true⟩

/-- One buffer twice, then another: the third commit closes the handle under mCurrentBuffer,
which is moving to mLastBuffer. -/
theorem gem_unsafe : ¬ ∀ s, Reachable system s → GemSafe s := by
  intro hall
  have hrun : (system.run (initial 3) [commitOf 1 1 41, commitOf 1 1 42, commitOf 2 2 43]).map
      (fun s => s.closes.any fun c => decide (c.handle ∈ c.holders)) = some true := by
    decide +kernel
  rcases exists_reachable (show system.Init (initial 3) from rfl) hrun with ⟨s, hs, hp⟩
  obtain ⟨c, hc, hheld⟩ := List.any_eq_true.mp hp
  exact (hall s hs).unheld c hc (of_decide_eq_true hheld)

end HdiDrmLayerHandles
