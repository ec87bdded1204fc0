import DeviceQemu.StepSystem
import Mathlib.Data.Nat.Notation

/-! Code preempted by an interrupt handler.
A thread executes one operation at a time, and an operation may expand to further ones. The
handler runs between two operations, and to its end. In a proof outline each control point of the
thread carries an assertion that the handler keeps there. -/
namespace PreemptedCode

open StepSystem

variable {σ ω κ ι : Type*}

/-- `enter` records that a call begins, `handler` is not defined where nothing is pending. -/
structure Program (σ ω κ ι : Type*) where
  exec : ω → σ → σ × List ω
  enter : κ → σ → σ
  body : κ → List ω
  handler : ι → σ → Option σ

/-- `rest` is what the thread still has to execute of its call. -/
structure Config (σ ω : Type*) where
  state : σ
  rest : List ω

inductive Act (κ ι : Type*) where
  | call (c : κ)
  | tick
  | interrupt (i : ι)
  deriving DecidableEq, Repr

def Program.next (P : Program σ ω κ ι) (c : Config σ ω) : Act κ ι → Option (Config σ ω)
  | .call k =>
    match c.rest with
    | [] => some ⟨P.enter k c.state, P.body k⟩
    | _ :: _ => none
  | .tick =>
    match c.rest with
    | [] => none
    | op :: ops => some ⟨(P.exec op c.state).1, (P.exec op c.state).2 ++ ops⟩
  | .interrupt i => (P.handler i c.state).map fun s => ⟨s, c.rest⟩

def Program.system (P : Program σ ω κ ι) (Init : σ → Prop) :
    System (Config σ ω) (Act κ ι) where
  Init c := Init c.state ∧ c.rest = []
  next := P.next

/-- Operations executed one after the other with no interrupt between them. -/
def Program.execAll (P : Program σ ω κ ι) : ℕ → List ω → σ → σ
  | _, [] => id
  | 0, _ :: _ => id
  | fuel + 1, op :: ops => fun s => P.execAll fuel ((P.exec op s).2 ++ ops) (P.exec op s).1

section Outline

variable (P : Program σ ω κ ι) (C : Config σ ω → Act κ ι → Prop) (T Q : σ → Prop)

/-- An assertion of the control point before `ops` that gives `T` and that the handler keeps. -/
structure Assertion (ops : List ω) (A : σ → Prop) : Prop where
  safe : ∀ s, A s → T s
  kept : ∀ s i t, A s → C ⟨s, ops⟩ (.interrupt i) → P.handler i s = some t → A t

/-- The assertions along the rest of a call, which ends in `Q`. The one after an operation may
depend on the state before it, as what a load has read does. -/
inductive Outlined : List ω → (σ → Prop) → Prop where
  | done (hQ : Assertion P C T [] Q) : Outlined [] Q
  | step {op : ω} {ops : List ω} {A : σ → Prop} (B : σ → σ → Prop)
      (hA : Assertion P C T (op :: ops) A)
      (hB : ∀ s, A s → B s (P.exec op s).1)
      (hn : ∀ s, A s → Outlined ((P.exec op s).2 ++ ops) (B s)) : Outlined (op :: ops) A

end Outline

variable {P : Program σ ω κ ι} {C : Config σ ω → Act κ ι → Prop} {T Q : σ → Prop}

theorem Outlined.assertion {ops : List ω} {A : σ → Prop} (h : Outlined P C T Q ops A) :
    Assertion P C T ops A := by
  cases h with
  | done hQ => exact hQ
  | step B hA => exact hA

theorem Outlined.plain {op : ω} {ops : List ω} {A B : σ → Prop} (hop : ∀ s, (P.exec op s).2 = [])
    (hA : Assertion P C T (op :: ops) A) (hB : ∀ s, A s → B (P.exec op s).1)
    (hn : Outlined P C T Q ops B) : Outlined P C T Q (op :: ops) A := by
  refine .step (fun _ => B) hA hB fun s _ => ?_
  rw [hop s]
  exact hn

theorem Outlined.load {op : ω} {ops : List ω} {A : σ → Prop} {α : Type*} {v : σ → α}
    {u : α → ω} {B : α → σ → Prop} (hop : ∀ s, P.exec op s = (s, [u (v s)]))
    (hA : Assertion P C T (op :: ops) A) (hB : ∀ s, A s → B (v s) s)
    (hn : ∀ a, Outlined P C T Q (u a :: ops) (B a)) : Outlined P C T Q (op :: ops) A := by
  refine .step (fun s => B (v s)) hA ?_ ?_
  · intro s hs
    rw [hop s]
    exact hB s hs
  · intro s _
    rw [hop s]
    exact hn (v s)

/-- The operation keeps `A`, and so does all that it expands to. -/
inductive Keeps (P : Program σ ω κ ι) (A : σ → Prop) : ω → Prop where
  | intro {op : ω} (h : ∀ s, A s → A (P.exec op s).1)
      (hm : ∀ s, A s → ∀ op' ∈ (P.exec op s).2, Keeps P A op') : Keeps P A op

theorem Keeps.plain {op : ω} {A : σ → Prop} (hop : ∀ s, (P.exec op s).2 = [])
    (h : ∀ s, A s → A (P.exec op s).1) : Keeps P A op :=
  .intro h fun s _ _ hop' => absurd (hop s ▸ hop') List.not_mem_nil

theorem Keeps.outlined {op : ω} (h : Keeps P Q op) (hQ : ∀ ops, Assertion P C T ops Q)
    {ops : List ω} (hn : Outlined P C T Q ops Q) : Outlined P C T Q (op :: ops) Q := by
  induction h generalizing ops with
  | intro h hm ih =>
    refine .step (fun _ => Q) (hQ _) h fun s hs => ?_
    have hmore : ∀ more, (∀ op' ∈ more, ∀ {ops}, Outlined P C T Q ops Q →
        Outlined P C T Q (op' :: ops) Q) → Outlined P C T Q (more ++ ops) Q := by
      intro more hops
      induction more with
      | nil => exact hn
      | cons op' more ihm =>
        exact hops op' List.mem_cons_self (ihm fun o ho => hops o (List.mem_cons_of_mem op' ho))
    exact hmore _ fun op' hop' _ => ih s hs op' hop'

theorem Outlined.frame {ops : List ω} (hQ : ∀ ops, Assertion P C T ops Q)
    (h : ∀ op ∈ ops, Keeps P Q op) : Outlined P C T Q ops Q := by
  induction ops with
  | nil => exact .done (hQ [])
  | cons op ops ih =>
    exact (h op List.mem_cons_self).outlined hQ (ih fun op' h' => h op' (List.mem_cons_of_mem op h'))

/-- What an outlined thread asserts holds wherever the handler and the thread take it. -/
structure Outlines (P : Program σ ω κ ι) (C : Config σ ω → Act κ ι → Prop) (T Q : σ → Prop)
    (Init : σ → Prop) : Prop where
  init : ∀ s, Init s → Q s
  rest : Assertion P C T [] Q
  call : ∀ k s, Q s → C ⟨s, []⟩ (.call k) →
    ∃ A, A (P.enter k s) ∧ Outlined P C T Q (P.body k) A

theorem Outlines.outlined {Init : σ → Prop} (h : Outlines P C T Q Init) {c : Config σ ω}
    (hr : ReachableUnder (P.system Init) C c) : ∃ A, A c.state ∧ Outlined P C T Q c.rest A := by
  refine ReachableUnder.invariant
    (I := fun c => ∃ A, A c.state ∧ Outlined P C T Q c.rest A) ?_ ?_ hr
  · rintro ⟨s, rest⟩ ⟨hs, rfl⟩
    exact ⟨Q, h.init s hs, .done h.rest⟩
  · rintro ⟨s, rest⟩ a d ⟨A, hs, ho⟩ hc ht
    cases a with
    | call k =>
      cases rest with
      | cons op ops => exact absurd ht (by simp [Program.system, Program.next])
      | nil =>
        obtain rfl := Option.some.inj ht
        cases ho with
        | done => exact h.call k s hs hc
    | tick =>
      cases ho with
      | done => exact absurd ht (by simp [Program.system, Program.next])
      | step B hA hB hn =>
        obtain rfl := Option.some.inj ht
        exact ⟨B s, hB s hs, hn s hs⟩
    | interrupt i =>
      obtain ⟨t, hi, rfl⟩ := Option.map_eq_some_iff.mp ht
      exact ⟨A, ho.assertion.kept s i t hs hc hi, ho⟩

theorem Outlines.safe {Init : σ → Prop} (h : Outlines P C T Q Init) {c : Config σ ω}
    (hr : ReachableUnder (P.system Init) C c) : T c.state := by
  obtain ⟨A, hs, ho⟩ := h.outlined hr
  exact ho.assertion.safe _ hs

end PreemptedCode
