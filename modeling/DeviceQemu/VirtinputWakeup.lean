import DeviceQemu.InterruptLine
import DeviceQemu.Virtinput

/-! Wake-ups of the virtinput event queue.
VirtinHandleEv suppresses interrupts while it drains and does not look again after it has
allowed them, so an event that arrives in between has no notice of its own. Whether it is
handled is decided at the acknowledgement. -/
namespace VirtinputWakeup

open StepSystem InterruptLine Virtmmio Virtinput

variable {pf : Platform} {sc : Screen}

/-- VirtinHandleEv runs or is certain to: a posted semaphore wakes InputWorkTask. -/
def evServing (s : State) : Bool :=
  decide (s.handler ≠ .off) || s.sem || decide (s.irq = .post)

def evLine (s : State) : Line where
  pending := s.q.last != s.q.used.index
  owed := s.dev.raising
  masked := s.q.avail.flag == virtqAvailFNoInterrupt
  status := s.isr
  serving := evServing s

/-- Interrupts are allowed again by the time the handler notifies the device. -/
def Unmasked (s : State) : Prop :=
  s.handler = .notify ∨ s.handler = .ack → s.q.avail.flag ≠ virtqAvailFNoInterrupt

/-- Something is left to bring VirtinHandleEv back to what it did not take. -/
def Recalled (s : State) : Prop :=
  s.q.last = s.q.used.index ∨ s.dev.raising = true ∨ s.sem = true ∨ s.irq = .post

instance (s : State) : Decidable (Recalled s) := inferInstanceAs (Decidable (_ ∨ _ ∨ _ ∨ _))

/-- The acknowledgement comes when the queue is drained, before the device has decided on the
interrupt for what it appended, or with the task signalled once more. -/
def EvAckSafe (s : State) : Event → Prop
  | .irq => s.irq = .handling → s.handler = .ack → Recalled s
  | .task => s.handler = .ack → Recalled s
  | _ => True

instance (s : State) : ∀ e, Decidable (EvAckSafe s e)
  | .irq => inferInstanceAs (Decidable (s.irq = .handling → s.handler = .ack → Recalled s))
  | .task => inferInstanceAs (Decidable (s.handler = .ack → Recalled s))
  | .callback | .fetch | .write _ _ | .append | .raise | .usedFlag _ => isTrue trivial

theorem ack_follows {s : State} (hpc : s.handler = .ack) (hu : Unmasked s) (hc : Recalled s) :
    Follows (evLine s) (evLine { s with isr := false, handler := .off }) := by
  by_cases hrest : s.sem = true ∨ s.irq = .post
  · apply follows_ack
    · exact fun _ => Or.inr (by simp [evLine, evServing, hpc])
    · rcases hrest with hsem | hpost
      · simp [evLine, evServing, hsem]
      · simp [evLine, evServing, hpost]
  · rw [not_or] at hrest
    apply follows_leave_ack
    · simpa [evLine] using hu (Or.inr hpc)
    · intro hp
      rcases hc with hlast | hraise | hsem | hpost
      · simp [evLine, hlast] at hp
      · exact hraise
      · exact absurd hsem hrest.1
      · exact absurd hpost hrest.2
    · simp [evLine, evServing, hrest]

theorem handler_follows {s t : State} (hu : Unmasked s) (hc : s.handler = .ack → Recalled s)
    (ht : handlerStep pf s = some t) :
    Follows (evLine s) (evLine t) := by
  cases hpc : s.handler with
  | off => simp [handlerStep, hpc] at ht
  | mask =>
    simp only [handlerStep, hpc, Option.some.injEq] at ht
    subst ht
    refine Leads.follows ⟨[.mask], by simp, ?_⟩
    simp [line, Line.next, evLine, evServing, hpc, State.setAvail]
  | test =>
    simp only [handlerStep, hpc, Option.some.injEq] at ht
    subst ht
    refine (Leads.of_eq ?_).follows
    by_cases h : s.q.last = s.q.used.index
    · simp [evLine, evServing, hpc, h]
    · simp [evLine, evServing, hpc, h]
  | process idx =>
    simp only [handlerStep, hpc, Option.some.injEq] at ht
    subst ht
    refine (Leads.of_eq ?_).follows
    cases pf with
    | liteosA | riscv32 => simp [evLine, evServing, hpc, processEvent]
  | advance =>
    simp only [handlerStep, hpc, Option.some.injEq] at ht
    subst ht
    refine Leads.follows ⟨[.take (s.q.last + 1 != s.q.used.index)], by simp, ?_⟩
    simp [line, Line.next, evLine, evServing, hpc]
  | read | recycle | publish | notify =>
    simp only [handlerStep, hpc, Option.some.injEq] at ht
    subst ht
    exact (Leads.of_eq (by simp [evLine, evServing, hpc, State.setAvail])).follows
  | unmask =>
    simp only [handlerStep, hpc, Option.some.injEq] at ht
    subst ht
    refine Leads.follows ⟨[.unmask], by simp, ?_⟩
    simp [line, Line.next, evLine, evServing, hpc, State.setAvail, virtqAvailFNoInterrupt]
  | ack =>
    have hfollows := ack_follows hpc hu (hc hpc)
    simp only [handlerStep, hpc, Option.some.injEq] at ht
    subst ht
    exact hfollows

theorem handler_unmasked {s t : State} (hu : Unmasked s) (ht : handlerStep pf s = some t) :
    Unmasked t := by
  cases hpc : s.handler with
  | off => simp [handlerStep, hpc] at ht
  | test =>
    simp only [handlerStep, hpc, Option.some.injEq] at ht
    subst ht
    by_cases h : s.q.last = s.q.used.index
    · simp [Unmasked, h]
    · simp [Unmasked, h]
  | unmask =>
    simp only [handlerStep, hpc, Option.some.injEq] at ht
    subst ht
    simp [Unmasked, State.setAvail, virtqAvailFNoInterrupt]
  | notify =>
    have hflag := hu (Or.inl hpc)
    simp only [handlerStep, hpc, Option.some.injEq] at ht
    subst ht
    exact fun _ => hflag
  | mask | read | process | recycle | advance | publish | ack =>
    simp only [handlerStep, hpc, Option.some.injEq] at ht
    subst ht
    simp [Unmasked]

theorem irq_follows {s t : State} (hu : Unmasked s) (hc : EvAckSafe s .irq)
    (ht : irqStep pf s = some t) :
    Follows (evLine s) (evLine t) ∧ Unmasked t := by
  cases hpc : s.irq with
  | idle =>
    simp only [irqStep, hpc, Option.some.injEq] at ht
    subst ht
    exact ⟨(Leads.of_eq (by simp [evLine, evServing, hpc])).follows, hu⟩
  | status =>
    simp only [irqStep, hpc] at ht
    by_cases hset : s.isr = true
    · cases pf with
      | liteosA =>
        simp only [hset, if_true, Option.some.injEq] at ht
        subst ht
        refine ⟨Leads.follows ⟨[.serve], by simp, ?_⟩, by simp [Unmasked]⟩
        simp [line, Line.next, evLine, evServing, hset]
      | riscv32 =>
        simp only [hset, if_true, Option.some.injEq] at ht
        subst ht
        refine ⟨Leads.follows ⟨[.serve], by simp, ?_⟩, hu⟩
        simp [line, Line.next, evLine, evServing, hset]
    · simp only [hset, Bool.false_eq_true, if_false, Option.some.injEq] at ht
      subst ht
      exact ⟨(Leads.of_eq (by simp [evLine, evServing, hpc, hset])).follows, hu⟩
  | handling =>
    simp only [irqStep, hpc] at ht
    split at ht
    · obtain rfl := Option.some.inj ht
      exact ⟨(Leads.of_eq (by simp [evLine, evServing, hpc])).follows, hu⟩
    · exact ⟨handler_follows hu (hc hpc) ht, handler_unmasked hu ht⟩
  | post =>
    simp only [irqStep, hpc, Option.some.injEq] at ht
    subst ht
    exact ⟨(Leads.of_eq (by simp [evLine, evServing, hpc])).follows, hu⟩

theorem task_follows {s t : State} (hu : Unmasked s) (hc : EvAckSafe s .task)
    (ht : taskStep pf s = some t) :
    Follows (evLine s) (evLine t) ∧ Unmasked t := by
  cases pf with
  | liteosA => simp [taskStep] at ht
  | riscv32 =>
    simp only [taskStep] at ht
    split at ht
    · split at ht
      next hsem =>
        obtain rfl := Option.some.inj ht
        exact ⟨(Leads.of_eq (by simp [evLine, evServing, hsem])).follows, by simp [Unmasked]⟩
      next => simp at ht
    · exact ⟨handler_follows hu hc ht, handler_unmasked hu ht⟩

theorem other_leads {s t : State} {e : Event} (hirq : e ≠ .irq) (htask : e ≠ .task)
    (ht : next pf sc s e = some t) :
    Leads (evLine s) (evLine t) ∧ t.handler = s.handler ∧ t.q.avail.flag = s.q.avail.flag := by
  cases e with
  | irq => exact absurd rfl hirq
  | task => exact absurd rfl htask
  | callback =>
    simp only [next, callbackStep] at ht
    split at ht
    · split at ht
      · simp at ht
      · obtain rfl := Option.some.inj ht
        exact ⟨Leads.refl _, rfl, rfl⟩
    all_goals
      obtain rfl := Option.some.inj ht
      exact ⟨Leads.refl _, rfl, rfl⟩
  | fetch =>
    simp only [next, deviceFetch] at ht
    obtain ⟨-, ht⟩ := Option.ite_none_left_eq_some.mp ht
    obtain rfl := Option.some.inj ht
    exact ⟨Leads.refl _, rfl, rfl⟩
  | write i e =>
    simp only [next, deviceWrite] at ht
    split at ht
    · obtain rfl := Option.some.inj ht
      exact ⟨Leads.refl _, rfl, rfl⟩
    · simp at ht
  | append =>
    simp only [next, deviceAppend] at ht
    split at ht
    · simp at ht
    · obtain rfl := Option.some.inj ht
      exact ⟨⟨[.append (s.q.last != s.q.used.index + 1)], by simp, rfl⟩, rfl, rfl⟩
  | raise =>
    simp only [next, deviceRaise] at ht
    obtain ⟨-, ht⟩ := Option.ite_none_right_eq_some.mp ht
    obtain rfl := Option.some.inj ht
    exact ⟨⟨[.decide false], by simp, rfl⟩, rfl, rfl⟩
  | usedFlag flag =>
    obtain rfl := Option.some.inj ht
    exact ⟨Leads.refl _, rfl, rfl⟩

theorem ev_line_init {s : State} (h : Init s) : line.Init (evLine s) := by
  constructor
  · simp [evLine, h.last, h.usedIndex]
  · simp [evLine, h.availFlag, virtqAvailFNoInterrupt]

theorem unmasked_step {s t : State} {e : Event} (hu : Unmasked s) (hc : EvAckSafe s e)
    (ht : next pf sc s e = some t) : Unmasked t := by
  by_cases hirq : e = .irq
  · subst hirq
    exact (irq_follows hu hc ht).2
  by_cases htask : e = .task
  · subst htask
    exact (task_follows hu hc ht).2
  obtain ⟨-, hhandler, hflag⟩ := other_leads hirq htask ht
  unfold Unmasked at hu ⊢
  rwa [hhandler, hflag]

theorem ev_simulation :
    Simulation (system pf sc) EvAckSafe Unmasked line AckSafe evLine := by
  constructor
  · intro s h
    exact ev_line_init h
  · intro s e t hu hc ht
    by_cases hirq : e = .irq
    · subst hirq
      exact (irq_follows hu hc ht).1
    by_cases htask : e = .task
    · subst htask
      exact (task_follows hu hc ht).1
    exact (other_leads hirq htask ht).1.follows

structure EvInv (s : State) : Prop where
  unmasked : Unmasked s
  covered : Covered (evLine s)

theorem evInv_init {s : State} (h : Init s) : EvInv s :=
  ⟨by simp [Unmasked, h.handler], line_init (ev_line_init h)⟩

theorem evInv_step {s t : State} {e : Event} (h : EvInv s) (hc : EvAckSafe s e)
    (ht : (system pf sc).next s e = some t) : EvInv t :=
  ⟨unmasked_step h.unmasked hc ht, covered_step ev_simulation h.unmasked hc ht h.covered⟩

/-- With VirtinHandleEv neither running nor signalled, and the device's decision made, an event
that was not taken has an interrupt pending. -/
def EvNoticed (s : State) : Prop :=
  s.handler = .off → s.sem = false → s.irq ≠ .post → s.dev.raising = false →
    s.q.last ≠ s.q.used.index → s.isr = true

theorem evInv_noticed {s : State} (h : EvInv s) : EvNoticed s := by
  intro hoff hsem hpost hraise hne
  apply h.covered.status_of_pending hraise
  · simp [evLine, evServing, hoff, hsem, hpost]
  · simpa [evLine] using hne

/-- Nothing runs, nothing is signalled, and the device has no decision to make. -/
structure Quiet (s : State) : Prop where
  irq : s.irq = .idle
  handler : s.handler = .off
  sem : s.sem = false
  isr : s.isr = false
  raising : s.dev.raising = false

theorem EvNoticed.drained {s : State} (h : EvNoticed s) (hq : Quiet s) :
    s.q.last = s.q.used.index := by
  by_contra hne
  have := h hq.handler hq.sem (by simp [hq.irq]) hq.raising hne
  simp [hq.isr] at this

theorem ack_unnoticed {s : State} (hc : ¬ Recalled s) :
    ¬ EvNoticed { s with isr := false, handler := .off } := by
  intro h
  simp only [Recalled, not_or, Bool.not_eq_true] at hc
  rcases hc with ⟨hne, hraise, hsem, hpost⟩
  have := h rfl hsem hpost hraise hne
  simp at this

theorem events_noticed_iff {s : State} (h : Init s) (es : List Event) :
    (StatesMeet (system pf sc) EvNoticed s es ↔ StepsMeet (system pf sc) EvAckSafe s es) ∧
      (StepsMeet (system pf sc) EvAckSafe s es →
        StatesMeet (system pf sc) (fun s => Quiet s → s.q.last = s.q.used.index) s es) := by
  have hstep : ∀ s e t, EvInv s → EvAckSafe s e → (system pf sc).next s e = some t → EvInv t :=
    fun s e t => evInv_step
  constructor
  · refine statesMeet_iff_stepsMeet (fun _ => evInv_noticed) hstep ?_ (evInv_init h) es
    intro s e t hI hc ht
    cases e with
    | irq =>
      simp only [EvAckSafe, Classical.not_imp] at hc
      rcases hc with ⟨hirq, hack, hc⟩
      have hbad := ack_unnoticed hc
      simp only [system, next, irqStep, hirq, hack, handlerStep, Option.some.injEq] at ht
      subst ht
      rwa [hirq] at hbad
    | task =>
      simp only [EvAckSafe, Classical.not_imp] at hc
      rcases hc with ⟨hack, hc⟩
      cases pf with
      | liteosA => simp [system, next, taskStep] at ht
      | riscv32 =>
        simp only [system, next, taskStep, hack, handlerStep, Option.some.injEq] at ht
        subst ht
        exact ack_unnoticed hc
    | callback | fetch | write | append | raise | usedFlag => exact absurd trivial hc
  · exact statesMeet_of_stepsMeet (fun _ hI => EvNoticed.drained (evInv_noticed hI)) hstep
      (evInv_init h)

def keyDown : List Event := [.fetch, .write 0 ⟨evKey, btnLeft, 1⟩, .append, .raise]

/-- VirtinHandleEv takes one event and stands before its publication. -/
def takeOne : Platform → List Event
  | .liteosA => List.replicate 9 .irq
  | .riscv32 => List.replicate 3 .irq ++ List.replicate 8 .task

def finish : Platform → List Event
  | .liteosA => List.replicate 5 .irq
  | .riscv32 => List.replicate 4 .task

/-- The second key goes down after the last test of the used ring, with interrupts suppressed. -/
def lostEvent (pf : Platform) : List Event := keyDown ++ takeOne pf ++ keyDown ++ finish pf

theorem event_stranded :
    (¬ ∀ s, Reachable (system .liteosA ⟨960, 480⟩) s → Quiet s → s.q.last = s.q.used.index) ∧
      ¬ ∀ s, Reachable (system .riscv32 ⟨960, 480⟩) s → Quiet s → s.q.last = s.q.used.index := by
  have hlost : ∀ pf, ((system pf ⟨960, 480⟩).run zeroed (lostEvent pf)).map
      (fun s => decide (s.irq = .idle) && decide (s.handler = .off) && !s.sem && !s.isr &&
        !s.dev.raising && decide (s.q.last ≠ s.q.used.index)) = some true := by
    intro pf
    cases pf <;> decide +kernel
  have hpf : ∀ pf, ¬ ∀ s, Reachable (system pf ⟨960, 480⟩) s → Quiet s →
      s.q.last = s.q.used.index := by
    intro pf h
    rcases exists_reachable init_zeroed (hlost pf) with ⟨s, hs, hp⟩
    simp only [Bool.and_eq_true, decide_eq_true_eq, Bool.not_eq_true'] at hp
    rcases hp with ⟨⟨⟨⟨⟨hirq, hoff⟩, hsem⟩, hisr⟩, hraise⟩, hne⟩
    exact hne (h s hs ⟨hirq, hoff, hsem, hisr, hraise⟩)
  exact ⟨hpf .liteosA, hpf .riscv32⟩

def spacedEvents (pf : Platform) : List Event := keyDown ++ takeOne pf ++ finish pf ++ keyDown

theorem events_noticed_iff_spacedEvents :
    StatesMeet (system .riscv32 ⟨960, 480⟩) EvNoticed zeroed (spacedEvents .riscv32) :=
  (events_noticed_iff init_zeroed (spacedEvents .riscv32)).1.mpr (by decide +kernel)

end VirtinputWakeup
