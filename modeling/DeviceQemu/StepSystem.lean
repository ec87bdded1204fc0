import Mathlib.Logic.Basic
import Mathlib.Data.Option.Basic

/-! Guarded step systems.
A run is a list of labels. The runs of interest may be restricted by a condition on each
step taken, so that safety can be stated for every run or for the runs that avoid a fault. -/
namespace StepSystem

variable {σ ε τ δ : Type*}

/-- The step labelled `e` is enabled at `s` exactly when `next s e` is defined. -/
structure System (σ ε : Type*) where
  Init : σ → Prop
  next : σ → ε → Option σ

inductive ReachableUnder (S : System σ ε) (C : σ → ε → Prop) : σ → Prop where
  | init {s} (h : S.Init s) : ReachableUnder S C s
  | step {s e t} (h : ReachableUnder S C s) (hc : C s e) (ht : S.next s e = some t) :
      ReachableUnder S C t

def Reachable (S : System σ ε) : σ → Prop := ReachableUnder S fun _ _ => True

theorem ReachableUnder.invariant {S : System σ ε} {C : σ → ε → Prop} {I : σ → Prop}
    (hi : ∀ s, S.Init s → I s)
    (hs : ∀ s e t, I s → C s e → S.next s e = some t → I t)
    {s : σ} (h : ReachableUnder S C s) : I s := by
  induction h with
  | init h => exact hi _ h
  | step _ hc ht ih => exact hs _ _ _ ih hc ht

theorem Reachable.invariant {S : System σ ε} {I : σ → Prop}
    (hi : ∀ s, S.Init s → I s) (hs : ∀ s e t, I s → S.next s e = some t → I t)
    {s : σ} (h : Reachable S s) : I s :=
  ReachableUnder.invariant hi (fun s e t hI _ => hs s e t hI) h

theorem ReachableUnder.mono {S : System σ ε} {C D : σ → ε → Prop}
    (hCD : ∀ s e, C s e → D s e) {s : σ} (h : ReachableUnder S C s) :
    ReachableUnder S D s := by
  induction h with
  | init h => exact .init h
  | step _ hc ht ih => exact .step ih (hCD _ _ hc) ht

theorem ReachableUnder.reachable {S : System σ ε} {C : σ → ε → Prop} {s : σ}
    (h : ReachableUnder S C s) : Reachable S s := h.mono fun _ _ _ => trivial

def System.run (S : System σ ε) (s : σ) : List ε → Option σ
  | [] => some s
  | e :: es => (S.next s e).bind fun t => S.run t es

@[simp] theorem run_nil (S : System σ ε) (s : σ) : S.run s [] = some s := rfl

@[simp] theorem run_cons (S : System σ ε) (s : σ) (e : ε) (es : List ε) :
    S.run s (e :: es) = (S.next s e).bind fun t => S.run t es := rfl

theorem run_append (S : System σ ε) (s : σ) (es fs : List ε) :
    S.run s (es ++ fs) = (S.run s es).bind fun t => S.run t fs := by
  induction es generalizing s with
  | nil => rfl
  | cons e es ih =>
    rw [List.cons_append, run_cons, run_cons, Option.bind_assoc]
    exact congrArg _ (funext ih)

/-- Every step that the labels take from `s` satisfies `C`. -/
def StepsMeet (S : System σ ε) (C : σ → ε → Prop) (s : σ) : List ε → Prop
  | [] => True
  | e :: es => ∀ t, S.next s e = some t → C s e ∧ StepsMeet S C t es

instance StepsMeet.decidable (S : System σ ε) (C : σ → ε → Prop) [∀ s e, Decidable (C s e)] :
    ∀ (s : σ) (es : List ε), Decidable (StepsMeet S C s es)
  | _, [] => isTrue trivial
  | s, e :: es =>
    match h : S.next s e with
    | none => isTrue fun t ht => by simp [h] at ht
    | some t =>
      have := StepsMeet.decidable S C t es
      decidable_of_iff (C s e ∧ StepsMeet S C t es) (by simp [StepsMeet, h])

/-- Every state that the labels visit from `s`, the first included, satisfies `P`. -/
def StatesMeet (S : System σ ε) (P : σ → Prop) (s : σ) : List ε → Prop
  | [] => P s
  | e :: es => P s ∧ ∀ t, S.next s e = some t → StatesMeet S P t es

theorem StatesMeet.head {S : System σ ε} {P : σ → Prop} {s : σ} {es : List ε}
    (h : StatesMeet S P s es) : P s := by
  cases es with
  | nil => exact h
  | cons => exact h.1

theorem stepsMeet_true (S : System σ ε) (s : σ) (es : List ε) :
    StepsMeet S (fun _ _ => True) s es := by
  induction es generalizing s with
  | nil => trivial
  | cons e es ih => exact fun t _ => ⟨trivial, ih t⟩

theorem StepsMeet.imp {S : System σ ε} {C D : σ → ε → Prop} {I : σ → Prop}
    (hs : ∀ s e t, I s → C s e → S.next s e = some t → I t)
    (hD : ∀ s e, I s → C s e → D s e) {s : σ} (hI : I s) {es : List ε}
    (h : StepsMeet S C s es) : StepsMeet S D s es := by
  induction es generalizing s with
  | nil => trivial
  | cons e es ih =>
    intro t ht
    obtain ⟨hc, hrest⟩ := h t ht
    exact ⟨hD s e hI hc, ih (hs s e t hI hc ht) hrest⟩

theorem stepsMeet_iff {S : System σ ε} {C D : σ → ε → Prop} {I : σ → Prop}
    (hs : ∀ s e t, I s → D s e → S.next s e = some t → I t)
    (hCD : ∀ s e t, I s → S.next s e = some t → (C s e ↔ D s e))
    {s : σ} (hI : I s) (es : List ε) : StepsMeet S C s es ↔ StepsMeet S D s es := by
  induction es generalizing s with
  | nil => exact Iff.rfl
  | cons e es ih =>
    refine forall_congr' fun t => forall_congr' fun ht => ?_
    rw [hCD s e t hI ht]
    exact and_congr_right fun hd => ih (hs s e t hI hd ht)

theorem StepsMeet.and {S : System σ ε} {C D : σ → ε → Prop} {s : σ} {es : List ε}
    (h : StepsMeet S C s es) (h' : StepsMeet S D s es) :
    StepsMeet S (fun s e => C s e ∧ D s e) s es := by
  induction es generalizing s with
  | nil => trivial
  | cons e es ih =>
    intro t ht
    obtain ⟨hc, hcs⟩ := h t ht
    obtain ⟨hd, hds⟩ := h' t ht
    exact ⟨⟨hc, hd⟩, ih hcs hds⟩

theorem StepsMeet.last {S : System σ ε} {C : σ → ε → Prop} {s t u : σ} {es : List ε} {e : ε}
    (h : StepsMeet S C s (es ++ [e])) (hr : S.run s es = some t) (hu : S.next t e = some u) :
    C t e := by
  induction es generalizing s with
  | nil =>
    obtain rfl : s = t := by simpa using hr
    exact (h u hu).1
  | cons e' es ih =>
    obtain ⟨v, hv, hr⟩ := Option.bind_eq_some_iff.mp hr
    exact ih (h v hv).2 hr

theorem ReachableUnder.run {S : System σ ε} {C : σ → ε → Prop} {s t : σ} {es : List ε}
    (h : ReachableUnder S C s) (hc : StepsMeet S C s es) (hr : S.run s es = some t) :
    ReachableUnder S C t := by
  induction es generalizing s with
  | nil =>
    obtain rfl : s = t := by simpa using hr
    exact h
  | cons e es ih =>
    obtain ⟨u, hu, hr⟩ := Option.bind_eq_some_iff.mp hr
    obtain ⟨hce, hces⟩ := hc u hu
    exact ih (.step h hce hu) hces hr

theorem Reachable.run {S : System σ ε} {s t : σ} {es : List ε}
    (h : Reachable S s) (hr : S.run s es = some t) : Reachable S t :=
  ReachableUnder.run h (stepsMeet_true S s es) hr

theorem exists_reachable {S : System σ ε} {s : σ} (h : S.Init s) {es : List ε} {p : σ → Bool}
    (hr : (S.run s es).map p = some true) : ∃ t, Reachable S t ∧ p t = true := by
  obtain ⟨t, ht, hp⟩ := Option.map_eq_some_iff.mp hr
  exact ⟨t, Reachable.run (.init h) ht, hp⟩

theorem statesMeet_of_stepsMeet {S : System σ ε} {C : σ → ε → Prop} {I P : σ → Prop}
    (hP : ∀ s, I s → P s) (hs : ∀ s e t, I s → C s e → S.next s e = some t → I t)
    {s : σ} (hI : I s) {es : List ε} (h : StepsMeet S C s es) : StatesMeet S P s es := by
  induction es generalizing s with
  | nil => exact hP s hI
  | cons e es ih =>
    refine ⟨hP s hI, fun t ht => ?_⟩
    obtain ⟨hc, hrest⟩ := h t ht
    exact ih (hs s e t hI hc ht) hrest

/-- Among the runs under `D`, a condition whose first breach falsifies `P` is met by those on
which `P` never fails. -/
theorem stepsMeet_of_statesMeet {S : System σ ε} {C D : σ → ε → Prop} {I P : σ → Prop}
    (hs : ∀ s e t, I s → C s e → S.next s e = some t → I t)
    (hbad : ∀ s e t, I s → D s e → ¬ C s e → S.next s e = some t → ¬ P t)
    {s : σ} (hI : I s) {es : List ε} (hD : StepsMeet S D s es) (h : StatesMeet S P s es) :
    StepsMeet S C s es := by
  induction es generalizing s with
  | nil => trivial
  | cons e es ih =>
    intro t ht
    obtain ⟨hd, hrest⟩ := hD t ht
    have hc : C s e := by
      by_contra hn
      exact hbad s e t hI hd hn ht (h.2 t ht).head
    exact ⟨hc, ih (hs s e t hI hc ht) hrest (h.2 t ht)⟩

/-- A condition that keeps `I`, that `I` needs for `P`, and whose first breach falsifies `P`
is met by exactly the runs on which `P` never fails. -/
theorem statesMeet_iff_stepsMeet {S : System σ ε} {C : σ → ε → Prop} {I P : σ → Prop}
    (hP : ∀ s, I s → P s)
    (hs : ∀ s e t, I s → C s e → S.next s e = some t → I t)
    (hbad : ∀ s e t, I s → ¬ C s e → S.next s e = some t → ¬ P t)
    {s : σ} (hI : I s) (es : List ε) :
    StatesMeet S P s es ↔ StepsMeet S C s es := by
  refine ⟨fun h => ?_, statesMeet_of_stepsMeet hP hs hI⟩
  exact stepsMeet_of_statesMeet hs (fun s e t hI _ => hbad s e t hI) hI (stepsMeet_true S s es) h

theorem StepsMeet.invariant {S : System σ ε} {C : σ → ε → Prop} {I : σ → Prop}
    (hs : ∀ s e t, I s → C s e → S.next s e = some t → I t)
    {s t : σ} (hI : I s) {es : List ε} (h : StepsMeet S C s es) (hr : S.run s es = some t) :
    I t := by
  induction es generalizing s with
  | nil =>
    obtain rfl : s = t := by simpa using hr
    exact hI
  | cons e es ih =>
    obtain ⟨u, hu, hr⟩ := Option.bind_eq_some_iff.mp hr
    obtain ⟨hc, hrest⟩ := h u hu
    exact ih (hs s e u hI hc hu) hrest hr

/-- When the first breach of a condition leaves a trace that no step removes, a run without the
trace at its end meets the condition. -/
theorem stepsMeet_of_trace {S : System σ ε} {C : σ → ε → Prop} {I B : σ → Prop}
    (hs : ∀ s e t, I s → C s e → S.next s e = some t → I t)
    (hbad : ∀ s e t, I s → ¬ C s e → S.next s e = some t → B t)
    (hB : ∀ s e t, B s → S.next s e = some t → B t)
    {s t : σ} (hI : I s) {es : List ε} (hr : S.run s es = some t) (ht : ¬ B t) :
    StepsMeet S C s es := by
  induction es generalizing s with
  | nil => trivial
  | cons e es ih =>
    obtain ⟨u, hu, hr⟩ := Option.bind_eq_some_iff.mp hr
    have hc : C s e := by
      by_contra hn
      exact ht (StepsMeet.invariant (fun s e t hs' _ => hB s e t hs') (hbad s e u hI hn hu)
        (stepsMeet_true S u es) hr)
    intro v hv
    obtain rfl : u = v := Option.some.inj (hu.symm.trans hv)
    exact ⟨hc, ih (hs s e u hI hc hu) hr⟩

section Departure

variable {S : System σ ε} {I Left Past : σ → Prop} {C D : σ → ε → Prop}

/-- What has left stays away. A breach of `C` makes it leave, and under `D` nothing else does while
its time is not over. -/
structure Departs (S : System σ ε) (I Left Past : σ → Prop) (C D : σ → ε → Prop) : Prop where
  inv : ∀ s e t, I s → S.next s e = some t → I t
  past : ∀ s e t, I s → S.next s e = some t → Past s → Past t
  stays : ∀ s e t, I s → S.next s e = some t → Left s → Left t
  leaves : ∀ s e t, I s → D s e → C s e → S.next s e = some t → Left t → Left s ∨ Past s
  breach : ∀ s e t, ¬ C s e → S.next s e = some t → Left t

theorem Departs.statesMeet (h : Departs S I Left Past C D) {P : σ → Prop}
    (hP : ∀ s, (Left s → Past s) → P s) {s : σ} (hI : I s) (hs : ¬ Left s) {es : List ε}
    (hD : StepsMeet S D s es) (hC : StepsMeet S C s es) : StatesMeet S P s es := by
  refine statesMeet_of_stepsMeet (I := fun s => I s ∧ (Left s → Past s)) (fun s hs => hP s hs.2) ?_
    ⟨hI, fun hl => absurd hl hs⟩ (hD.and hC)
  rintro s e t ⟨hI, hleft⟩ ⟨hd, hc⟩ ht
  refine ⟨h.inv s e t hI ht, fun hl => h.past s e t hI ht ?_⟩
  exact (h.leaves s e t hI hd hc ht hl).elim hleft id

theorem Departs.stepsMeet (h : Departs S I Left Past C D) {s t : σ} (hI : I s) {es : List ε}
    (hr : S.run s es = some t) (ht : ¬ Left t) : StepsMeet S C s es := by
  refine stepsMeet_of_trace (I := I) (B := fun s => I s ∧ Left s) ?_ ?_ ?_ hI hr fun hB => ht hB.2
  · exact fun s e t hI _ ht => h.inv s e t hI ht
  · exact fun s e t hI hc ht => ⟨h.inv s e t hI ht, h.breach s e t hc ht⟩
  · exact fun s e t hB ht => ⟨h.inv s e t hB.1 ht, h.stays s e t hB.1 ht hB.2⟩

end Departure

/-- Each admitted step of `S`, taken from a state satisfying `I`, is matched under `f` by
finitely many admitted steps of `T`. -/
structure Simulation (S : System σ ε) (C : σ → ε → Prop) (I : σ → Prop)
    (T : System τ δ) (D : τ → δ → Prop) (f : σ → τ) : Prop where
  init : ∀ s, S.Init s → T.Init (f s)
  step : ∀ s e t, I s → C s e → S.next s e = some t →
    ∃ ds, StepsMeet T D (f s) ds ∧ T.run (f s) ds = some (f t)

theorem Simulation.reachable {S : System σ ε} {C : σ → ε → Prop} {I : σ → Prop}
    {T : System τ δ} {D : τ → δ → Prop} {f : σ → τ} (h : Simulation S C I T D f)
    (hI : ∀ s, ReachableUnder S C s → I s) {s : σ} (hr : ReachableUnder S C s) :
    ReachableUnder T D (f s) := by
  induction hr with
  | init hi => exact .init (h.init _ hi)
  | step hr hc ht ih =>
    obtain ⟨ds, hd, hrun⟩ := h.step _ _ _ (hI _ hr) hc ht
    exact ih.run hd hrun

end StepSystem
