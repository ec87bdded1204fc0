import DeviceQemu.InterruptLine
import DeviceQemu.SyncRequest

/-! Completions of synchronous requests.
A call and the device take turns, so at any time there is one request at one stage. The
interrupt handler signals the event for that stage only, and a call returns what the device
made of its own request; a completion can still be lost to a late acknowledgement. -/
namespace SyncRequestCompletion

open StepSystem InterruptLine RingWindow Virtmmio SyncRequest

variable {ρ μ ω γ : Type} {d : Driver ρ μ ω γ}

inductive Stage where
  | quiet
  | queued
  | serving
  | used
  | signalled
  deriving DecidableEq, Repr

def Stage.unfetched : Stage → UInt16
  | .queued => 1
  | _ => 0

/-- The request is published and not used. -/
def Stage.unused : Stage → UInt16
  | .queued | .serving => 1
  | _ => 0

def Stage.unsignalled : Stage → UInt16
  | .used => 1
  | _ => 0

def uncounted : IrqPc → UInt16
  | .advance => 1
  | _ => 0

def unpublished : CallPc ρ γ → Bool
  | .notify | .wait => false
  | _ => true

def CallOk (d : Driver ρ μ ω γ) (q : Virtq) (mem : μ) : CallPc ρ γ → Prop
  | .ring r => d.read q.desc mem 0 = d.request r
  | .publish r => d.read q.desc mem 0 = d.request r ∧
      q.avail.ring (slot q.qsz q.avail.index) = 0
  | _ => True

def unanswered (d : Driver ρ μ ω γ) (q : Virtq) (mem : μ) (dev : Device ω) : Stage → List ω
  | .queued => [d.read q.desc mem 0]
  | .serving => (dev.current.map Prod.snd).toList
  | _ => []

/-- The result of an answered request whose call has not returned. -/
def unreturned (d : Driver ρ μ ω γ) (q : Virtq) (mem : μ) (st : Stage) : CallPc ρ γ → List γ
  | .result => [d.result q.used.ring mem]
  | .release v => [v]
  | .notify | .wait =>
    match st with
    | .used | .signalled => [d.result q.used.ring mem]
    | _ => []
  | _ => []

structure Inv (d : Driver ρ μ ω γ) (s : State ρ μ ω γ) (st : Stage) : Prop where
  size : s.q.qsz = d.qsz
  populated : d.Populated s.q.desc
  flag : s.q.avail.flag = 0
  pc : unpublished s.pc = true ↔ st = .quiet
  call : CallOk d s.q s.mem s.pc
  seen : s.q.avail.index = s.dev.seen + st.unfetched
  head : st = .queued → s.q.avail.ring (slot s.q.qsz s.dev.seen) = 0
  current : s.dev.current.isSome = true ↔ st = .serving
  used : s.q.avail.index = s.q.used.index + st.unused
  last : s.q.used.index = s.q.last + uncounted s.irq + st.unsignalled
  event : s.event = true ↔ st = .signalled
  raising : s.dev.raising = true → st = .used
  isr : s.irq = .idle ∨ s.irq = .status → s.isr = true → st = .used ∧ s.dev.raising = false
  signal : s.irq = .signal → st = .used ∧ s.dev.raising = false
  asked : s.answered.map Prod.fst ++ unanswered d s.q s.mem s.dev st = s.issued.map d.request
  returned : s.returned ++ unreturned d s.q s.mem st s.pc =
    s.answered.map fun p => d.value p.2

theorem init_inv {s : State ρ μ ω γ} (h : Init d s) : Inv d s .quiet := by
  constructor
  · exact h.size
  · exact h.populated
  · exact h.availFlag
  · simp [h.pc, unpublished]
  · simp [h.pc, CallOk]
  · simp [h.availIndex, h.dev, Stage.unfetched]
  · simp
  · simp [h.dev]
  · simp [h.availIndex, h.usedIndex, Stage.unused]
  · simp [h.usedIndex, h.last, h.irq, uncounted, Stage.unsignalled]
  · simp [h.event]
  · simp [h.dev]
  · simp [h.isr]
  · simp [h.irq]
  · simp [h.answered, h.issued, unanswered]
  · simp [h.returned, h.answered, h.pc, unreturned]

theorem call_step {s t : State ρ μ ω γ} {st : Stage} (h : Inv d s st)
    (ht : callStep d s = some t) : ∃ st', Inv d t st' := by
  have hcall := h.call
  have hpc' := h.pc
  rcases h with ⟨h1, h2, h3, -, -, h6, h7, h8, h9, h10, h11, h12, h13, h14, h15, h16⟩
  cases hpc : s.pc with
  | idle => simp [callStep, hpc] at ht
  | acquire r =>
    rw [hpc] at h16
    obtain rfl : st = .quiet := hpc'.mp (by rw [hpc]; rfl)
    simp only [callStep, hpc, Option.map_eq_some_iff] at ht
    rcases ht with ⟨mem, -, rfl⟩
    exact ⟨.quiet, h1, h2, h3, by simp [unpublished], trivial, h6, h7, h8, h9, h10, h11, h12, h13,
      h14, h15, h16⟩
  | fill r =>
    rw [hpc] at h16
    obtain rfl : st = .quiet := hpc'.mp (by rw [hpc]; rfl)
    simp only [callStep, hpc, Option.some.injEq] at ht
    subst ht
    exact ⟨.quiet, h1, d.populated_fill r _ _ h2, h3, by simp [unpublished],
      d.read_fill r _ _ h2, h6, h7, h8, h9, h10, h11, h12, h13, h14, h15, h16⟩
  | ring r =>
    rw [hpc] at h16 hcall
    obtain rfl : st = .quiet := hpc'.mp (by rw [hpc]; rfl)
    simp only [callStep, hpc, Option.some.injEq] at ht
    subst ht
    exact ⟨.quiet, h1, h2, h3, by simp [unpublished], ⟨hcall, Function.update_self ..⟩, h6,
      by simp, h8, h9, h10, h11, h12, h13, h14, h15, h16⟩
  | publish r =>
    rw [hpc] at h16 hcall
    obtain rfl : st = .quiet := hpc'.mp (by rw [hpc]; rfl)
    simp only [callStep, hpc, Option.some.injEq] at ht
    subst ht
    rcases hcall with ⟨hread, hhead⟩
    simp only [Stage.unfetched, Stage.unused, UInt16.add_zero] at h6 h9
    refine ⟨.queued, h1, h2, h3, by simp [unpublished], trivial, ?_, ?_, ?_, ?_, h10, ?_, ?_, ?_,
      ?_, ?_, ?_⟩
    · simp [Stage.unfetched, h6]
    · simpa [h6] using hhead
    · simpa using h8
    · simp [Stage.unused, h9]
    · simpa using h11
    · simpa using h12
    · simpa using h13
    · simpa using h14
    · simpa [unanswered, hread] using h15
    · exact h16
  | notify =>
    rw [hpc] at h16
    have hbusy : st ≠ .quiet := by
      intro hst
      have := hpc'.mpr hst
      simp [hpc, unpublished] at this
    simp only [callStep, hpc, Option.some.injEq] at ht
    subst ht
    exact ⟨st, h1, h2, h3, by simp [unpublished, hbusy], trivial, h6, h7, h8, h9, h10, h11, h12,
      h13, h14, h15, h16⟩
  | wait =>
    rw [hpc] at h16
    simp only [callStep, hpc, Option.map_eq_some_iff, Prod.exists] at ht
    rcases ht with ⟨ret, event, hwait, rfl⟩
    by_cases hset : s.event = true
    · obtain rfl : st = .signalled := h11.mp hset
      simp only [dmaEventWait, hset, if_true, Option.some.injEq, Prod.mk.injEq] at hwait
      rcases hwait with ⟨rfl, rfl⟩
      exact ⟨.quiet, h1, h2, h3, by simp [unpublished], trivial, h6, by simp, by simpa using h8,
        h9, h10, by simp, by simpa using h12, by simpa using h13, by simpa using h14, h15, h16⟩
    · simp [dmaEventWait, hset] at hwait
  | result =>
    rw [hpc] at h16
    obtain rfl : st = .quiet := hpc'.mp (by rw [hpc]; rfl)
    simp only [callStep, hpc, Option.some.injEq] at ht
    subst ht
    exact ⟨.quiet, h1, h2, h3, by simp [unpublished], trivial, h6, h7, h8, h9, h10, h11, h12, h13,
      h14, h15, h16⟩
  | release v =>
    rw [hpc] at h16
    obtain rfl : st = .quiet := hpc'.mp (by rw [hpc]; rfl)
    simp only [callStep, hpc, Option.some.injEq] at ht
    subst ht
    exact ⟨.quiet, h1, h2, h3, by simp [unpublished], trivial, h6, h7, h8, h9, h10, h11, h12, h13,
      h14, h15, by simpa [unreturned] using h16⟩

theorem irq_step {s t : State ρ μ ω γ} {st : Stage} (h : Inv d s st) (ht : irqStep s = some t) :
    ∃ st', Inv d t st' := by
  rcases h with ⟨h1, h2, h3, h4, h5, h6, h7, h8, h9, h10, h11, h12, h13, h14, h15, h16⟩
  cases hpc : s.irq with
  | idle =>
    rw [hpc] at h10
    simp only [irqStep, hpc, Option.some.injEq] at ht
    subst ht
    exact ⟨st, h1, h2, h3, h4, h5, h6, h7, h8, h9, h10, h11, h12, fun _ => h13 (Or.inl hpc),
      by simp, h15, h16⟩
  | status =>
    rw [hpc] at h10
    simp only [irqStep, hpc, Option.some.injEq] at ht
    subst ht
    by_cases hset : s.isr = true
    · refine ⟨st, h1, h2, h3, h4, h5, h6, h7, h8, h9, ?_, h11, h12, ?_, ?_, h15, h16⟩
      · simpa [hset, uncounted] using h10
      · simp [hset]
      · exact fun _ => h13 (Or.inr hpc) hset
    · refine ⟨st, h1, h2, h3, h4, h5, h6, h7, h8, h9, ?_, h11, h12, ?_, ?_, h15, h16⟩
      · simpa [hset, uncounted] using h10
      · exact fun _ hisr => absurd hisr hset
      · simp [hset]
  | signal =>
    obtain ⟨rfl, hraise⟩ := h14 hpc
    rw [hpc] at h10
    simp only [irqStep, hpc, Option.some.injEq] at ht
    subst ht
    refine ⟨.signalled, h1, h2, h3, by simpa using h4, h5, h6, by simp, by simpa using h8, h9, ?_,
      by simp, by simp [hraise], by simp, by simp, h15, ?_⟩
    · simpa [uncounted, Stage.unsignalled] using h10
    · cases hcall : s.pc with
      | notify | wait => rwa [hcall] at h16
      | _ => simp [hcall, unpublished] at h4
  | advance =>
    rw [hpc] at h10
    simp only [irqStep, hpc, Option.some.injEq] at ht
    subst ht
    refine ⟨st, h1, h2, h3, h4, h5, h6, h7, h8, h9, ?_, h11, h12, by simp, by simp, h15, h16⟩
    simpa [uncounted] using h10
  | ack =>
    rw [hpc] at h10
    simp only [irqStep, hpc, Option.some.injEq] at ht
    subst ht
    exact ⟨st, h1, h2, h3, h4, h5, h6, h7, h8, h9, h10, h11, h12, by simp, by simp, h15, h16⟩

theorem fetch_step {s t : State ρ μ ω γ} {st : Stage} (h : Inv d s st)
    (ht : deviceFetch d s = some t) : Inv d t .serving := by
  rcases h with ⟨h1, h2, h3, h4, h5, h6, h7, h8, h9, h10, h11, h12, h13, h14, h15, h16⟩
  simp only [deviceFetch] at ht
  obtain ⟨hidle, ht⟩ := Option.ite_none_left_eq_some.mp ht
  rw [not_or] at hidle
  rcases hidle with ⟨hseen, -⟩
  have hst : st = .queued := by
    by_contra hne
    have hzero : st.unfetched = 0 := by
      cases st with
      | queued => exact absurd rfl hne
      | _ => rfl
    rw [hzero, UInt16.add_zero] at h6
    exact hseen h6.symm
  subst hst
  have hhead := h7 rfl
  obtain rfl := Option.some.inj ht
  refine ⟨h1, h2, h3, by simpa using h4, h5, ?_, by simp, by simp, h9, h10, by simpa using h11,
    by simpa using h12, by simpa using h13, by simpa using h14, ?_, ?_⟩
  · simpa [Stage.unfetched] using h6
  · simpa [unanswered, hhead] using h15
  · cases hcall : s.pc with
    | notify | wait => rwa [hcall] at h16
    | _ => simp [hcall, unpublished] at h4

theorem complete_step {s t : State ρ μ ω γ} {st : Stage} {a : Answer} (h : Inv d s st)
    (ht : deviceComplete d s a = some t) : Inv d t .used := by
  rcases h with ⟨h1, h2, h3, h4, h5, h6, h7, h8, h9, h10, h11, h12, h13, h14, h15, h16⟩
  simp only [deviceComplete] at ht
  split at ht
  · simp at ht
  next head w hcur =>
    obtain rfl : st = .serving := h8.mp (by rw [hcur]; rfl)
    obtain rfl := Option.some.inj ht
    simp only [Stage.unfetched, Stage.unused, Stage.unsignalled, UInt16.add_zero] at h6 h9 h10
    refine ⟨h1, h2, h3, by simpa using h4, ?_, ?_, by simp, by simp, ?_, ?_, by simpa using h11,
      by simp, ?_, ?_, ?_, ?_⟩
    · cases hcall : s.pc with
      | ring r | publish r => simp [hcall, unpublished] at h4
      | _ => trivial
    · simpa [Stage.unfetched] using h6
    · simpa [Stage.unused] using h9
    · simp [h10, Stage.unsignalled]
    · intro hirq hisr
      have := (h13 hirq hisr).1
      simp at this
    · intro hirq
      have := (h14 hirq).1
      simp at this
    · simpa [unanswered, hcur] using h15
    · cases hcall : s.pc with
      | notify | wait =>
        rw [hcall] at h16
        simp only [unreturned, List.append_nil] at h16
        simp [unreturned, h16, d.result_store, h1]
      | _ => simp [hcall, unpublished] at h4

theorem raise_step {s t : State ρ μ ω γ} {st : Stage} (h : Inv d s st)
    (ht : deviceRaise s = some t) : Inv d t st := by
  rcases h with ⟨h1, h2, h3, h4, h5, h6, h7, h8, h9, h10, h11, h12, h13, h14, h15, h16⟩
  simp only [deviceRaise] at ht
  split at ht
  next hraise =>
    have hst := h12 hraise
    obtain rfl := Option.some.inj ht
    exact ⟨h1, h2, h3, h4, h5, h6, h7, h8, h9, h10, h11, by simp, fun _ _ => ⟨hst, rfl⟩,
      fun _ => ⟨hst, rfl⟩, h15, h16⟩
  next => simp at ht

theorem next_step {s t : State ρ μ ω γ} {st : Stage} {e : Event ρ} (h : Inv d s st)
    (ht : (system d).next s e = some t) : ∃ st', Inv d t st' := by
  cases e with
  | io r =>
    simp only [system, next] at ht
    split at ht
    next hidle =>
      obtain rfl := Option.some.inj ht
      rcases h with ⟨h1, h2, h3, h4, -, h6, h7, h8, h9, h10, h11, h12, h13, h14, h15, h16⟩
      rw [hidle] at h4 h16
      exact ⟨st, h1, h2, h3, h4, trivial, h6, h7, h8, h9, h10, h11, h12, h13, h14, h15, h16⟩
    next => simp at ht
  | call => exact call_step h ht
  | irq => exact irq_step h ht
  | fetch => exact ⟨.serving, fetch_step h ht⟩
  | complete a => exact ⟨.used, complete_step h ht⟩
  | raise => exact ⟨st, raise_step h ht⟩
  | usedFlag flag =>
    obtain rfl := Option.some.inj ht
    rcases h with ⟨h1, h2, h3, h4, h5, h6, h7, h8, h9, h10, h11, h12, h13, h14, h15, h16⟩
    have hcall : CallOk d { s.q with used := { s.q.used with flag } } s.mem s.pc := by
      cases hpc : s.pc with
      | ring r | publish r => rwa [hpc] at h5
      | _ => trivial
    have hret : unreturned d { s.q with used := { s.q.used with flag } } s.mem st s.pc =
        unreturned d s.q s.mem st s.pc := by
      cases hpc : s.pc with
      | notify | wait => cases st <;> rfl
      | _ => rfl
    rw [← hret] at h16
    exact ⟨st, h1, h2, h3, h4, hcall, h6, h7, h8, h9, h10, h11, h12, h13, h14, h15, h16⟩

def handling : IrqPc → Bool
  | .signal | .advance | .ack => true
  | _ => false

def requestLine (s : State ρ μ ω γ) : Line where
  pending := s.q.last != s.q.used.index
  owed := s.dev.raising
  masked := s.q.avail.flag == virtqAvailFNoInterrupt
  status := s.isr
  serving := handling s.irq

/-- The acknowledgement comes when each completion is signalled, or before the device has raised
the interrupt of the current one. -/
def AnswerAckSafe (s : State ρ μ ω γ) : Event ρ → Prop
  | .irq => s.irq = .ack → s.q.last = s.q.used.index ∨ s.dev.raising = true
  | _ => True

instance (s : State ρ μ ω γ) : ∀ e, Decidable (AnswerAckSafe s e)
  | .irq => inferInstanceAs (Decidable (s.irq = .ack → _))
  | .io _ | .call | .fetch | .complete _ | .raise | .usedFlag _ => isTrue trivial

theorem irq_follows {s t : State ρ μ ω γ} (hflag : s.q.avail.flag = 0) (hc : AnswerAckSafe s .irq)
    (ht : irqStep s = some t) :
    Follows (requestLine s) (requestLine t) := by
  cases hpc : s.irq with
  | idle =>
    simp only [irqStep, hpc, Option.some.injEq] at ht
    subst ht
    exact (Leads.of_eq (by simp [requestLine, handling, hpc])).follows
  | status =>
    simp only [irqStep, hpc, Option.some.injEq] at ht
    subst ht
    by_cases hset : s.isr = true
    · refine Leads.follows ⟨[.serve], by simp, ?_⟩
      simp [line, Line.next, requestLine, handling, hset]
    · exact (Leads.of_eq (by simp [requestLine, handling, hpc, hset])).follows
  | signal =>
    simp only [irqStep, hpc, Option.some.injEq] at ht
    subst ht
    exact (Leads.of_eq (by simp [requestLine, handling, hpc])).follows
  | advance =>
    simp only [irqStep, hpc, Option.some.injEq] at ht
    subst ht
    refine Leads.follows ⟨[.take (s.q.last + 1 != s.q.used.index)], by simp, ?_⟩
    simp [line, Line.next, requestLine, handling, hpc]
  | ack =>
    simp only [irqStep, hpc, Option.some.injEq] at ht
    subst ht
    apply follows_leave_ack
    · rw [requestLine, hflag]
      rfl
    · intro hp
      rcases hc hpc with hlast | hraise
      · simp [requestLine, hlast] at hp
      · exact hraise
    · simp [requestLine, handling]

theorem other_leads {s t : State ρ μ ω γ} {e : Event ρ} (he : e ≠ .irq)
    (ht : next d s e = some t) : Leads (requestLine s) (requestLine t) := by
  cases e with
  | irq => exact absurd rfl he
  | io r =>
    simp only [next] at ht
    split at ht
    · obtain rfl := Option.some.inj ht
      exact Leads.refl _
    · simp at ht
  | call =>
    simp only [next, callStep] at ht
    split at ht
    · simp at ht
    · simp only [Option.map_eq_some_iff] at ht
      rcases ht with ⟨mem, -, rfl⟩
      exact Leads.refl _
    case h_7 =>
      simp only [Option.map_eq_some_iff, Prod.exists] at ht
      rcases ht with ⟨ret, event, -, rfl⟩
      exact Leads.refl _
    all_goals
      obtain rfl := Option.some.inj ht
      exact Leads.refl _
  | fetch =>
    simp only [next, deviceFetch] at ht
    obtain ⟨-, ht⟩ := Option.ite_none_left_eq_some.mp ht
    obtain rfl := Option.some.inj ht
    exact Leads.refl _
  | complete a =>
    simp only [next, deviceComplete] at ht
    split at ht
    · simp at ht
    · obtain rfl := Option.some.inj ht
      exact ⟨[.append (s.q.last != s.q.used.index + 1)], by simp, rfl⟩
  | raise =>
    simp only [next, deviceRaise] at ht
    obtain ⟨-, ht⟩ := Option.ite_none_right_eq_some.mp ht
    obtain rfl := Option.some.inj ht
    exact ⟨[.decide false], by simp, rfl⟩
  | usedFlag flag =>
    obtain rfl := Option.some.inj ht
    exact Leads.refl _

theorem request_line_init {s : State ρ μ ω γ} (h : Init d s) : line.Init (requestLine s) := by
  constructor
  · simp [requestLine, h.last, h.usedIndex]
  · simp [requestLine, h.availFlag, virtqAvailFNoInterrupt]

theorem request_simulation : Simulation (system d) AnswerAckSafe (fun s => ∃ st, Inv d s st)
    line AckSafe requestLine := by
  constructor
  · intro s h
    exact request_line_init h
  · rintro s e t ⟨st, hI⟩ hc ht
    by_cases he : e = .irq
    · subst he
      exact irq_follows hI.flag hc ht
    · exact (other_leads he ht).follows

structure RequestInv (d : Driver ρ μ ω γ) (s : State ρ μ ω γ) : Prop where
  stage : ∃ st, Inv d s st
  covered : Covered (requestLine s)

/-- Outside the handler and with the interrupt raised, a completion that was not signalled has
the interrupt pending. -/
def CompletionNoticed (s : State ρ μ ω γ) : Prop :=
  s.irq = .idle → s.dev.raising = false → s.q.last ≠ s.q.used.index → s.isr = true

/-- The request is complete, and nothing is left that would wake the call. -/
structure Lost (s : State ρ μ ω γ) : Prop where
  pc : s.pc = .wait
  complete : s.q.used.index = s.q.avail.index
  raising : s.dev.raising = false
  event : s.event = false
  isr : s.isr = false
  irq : s.irq = .idle

/-- The calls return, in order, what the device made of them, and the device reads the requests
that were issued. -/
structure ReturnsOwn (d : Driver ρ μ ω γ) (s : State ρ μ ω γ) : Prop where
  returned : s.returned <+: s.answered.map fun p => d.value p.2
  answered : s.answered.map Prod.fst <+: s.issued.map d.request

theorem requestInv_noticed {s : State ρ μ ω γ} (h : RequestInv d s) : CompletionNoticed s := by
  intro hirq hraise hne
  apply h.covered.status_of_pending hraise
  · simp [requestLine, handling, hirq]
  · simpa [requestLine] using hne

theorem CompletionNoticed.not_lost {s : State ρ μ ω γ} {st : Stage} (h : CompletionNoticed s)
    (hI : Inv d s st) : ¬ Lost s := by
  rintro ⟨hpc, hcomplete, hraise, hevent, hisr, hirq⟩
  have hused := hI.used
  have hlast := hI.last
  rw [hcomplete] at hused
  have hst : st = .used := by
    cases st with
    | quiet =>
      have := hI.pc.mpr rfl
      simp [hpc, unpublished] at this
    | queued | serving => simp [Stage.unused] at hused
    | used => rfl
    | signalled =>
      have := hI.event.mpr rfl
      simp [hevent] at this
  have hne : s.q.last ≠ s.q.used.index := by
    rw [hst, hirq] at hlast
    simp [hlast, uncounted, Stage.unsignalled]
  have := h hirq hraise hne
  simp [hisr] at this

theorem Inv.returnsOwn {s : State ρ μ ω γ} {st : Stage} (h : Inv d s st) : ReturnsOwn d s := by
  constructor
  · rw [← h.returned]
    exact List.prefix_append ..
  · rw [← h.asked]
    exact List.prefix_append ..

theorem requests_complete_iff {s : State ρ μ ω γ} (h : Init d s) (es : List (Event ρ)) :
    (StatesMeet (system d) CompletionNoticed s es ↔ StepsMeet (system d) AnswerAckSafe s es) ∧
      (StepsMeet (system d) AnswerAckSafe s es →
        StatesMeet (system d) (fun s => ¬ Lost s) s es) ∧
      StatesMeet (system d) (ReturnsOwn d) s es := by
  have hinit : RequestInv d s := ⟨⟨.quiet, init_inv h⟩, line_init (request_line_init h)⟩
  have hstep : ∀ s e t, RequestInv d s → AnswerAckSafe s e → (system d).next s e = some t →
      RequestInv d t := by
    rintro s e t ⟨⟨st, hI⟩, hcov⟩ hc ht
    exact ⟨next_step hI ht, covered_step request_simulation ⟨st, hI⟩ hc ht hcov⟩
  refine ⟨?_, ?_, ?_⟩
  · refine statesMeet_iff_stepsMeet (fun _ => requestInv_noticed) hstep ?_ hinit es
    intro s e t hI hc ht hP
    cases e with
    | irq =>
      simp only [AnswerAckSafe, Classical.not_imp, not_or, Bool.not_eq_true] at hc
      rcases hc with ⟨hack, hne, hraise⟩
      simp only [system, next, irqStep, hack, Option.some.injEq] at ht
      subst ht
      have := hP rfl hraise hne
      simp at this
    | io | call | fetch | complete | raise | usedFlag => exact hc trivial
  · refine statesMeet_of_stepsMeet (fun s hI => ?_) hstep hinit
    obtain ⟨st, hst⟩ := hI.stage
    exact CompletionNoticed.not_lost (requestInv_noticed hI) hst
  · refine statesMeet_of_stepsMeet (I := fun s => ∃ st, Inv d s st) ?_ ?_ ⟨.quiet, init_inv h⟩
      (stepsMeet_true _ s es)
    · rintro s ⟨st, hI⟩
      exact Inv.returnsOwn hI
    · rintro s e t ⟨st, hI⟩ - ht
      exact next_step hI ht

def issue (r : ρ) : List (Event ρ) := .io r :: List.replicate 5 .call

def answer (a : Answer) : List (Event ρ) := [.fetch, .complete a, .raise]

def wake : List (Event ρ) := List.replicate 3 .irq ++ List.replicate 3 .call

def finish : List (Event ρ) := List.replicate 2 .irq

/-- The second request is completed while the handler of the first stands before its
acknowledgement. -/
def overtaken (r : ρ) : List (Event ρ) :=
  issue r ++ answer ⟨0, 513⟩ ++ wake ++ issue r ++ answer ⟨0, 513⟩ ++ finish

def blkDesc : UInt16 → VirtqDesc
  | 0 => ⟨4096, virtblkReqSize, virtqDescFNext, 1⟩
  | 1 => ⟨0, 0, 0, 2⟩
  | _ => ⟨8192, 1, virtqDescFWrite, 0⟩

theorem blkDesc_populated : (virtblk 4096 8192).Populated blkDesc := ⟨rfl, rfl, rfl, rfl, rfl⟩

def blk : Virtblk := ⟨⟨0, 0, 0⟩, 0⟩

def readSector : BlkIO := ⟨virtioBlkTIn, 0, 12288, 1⟩

def lost [DecidableEq ρ] [DecidableEq γ] (s : State ρ μ ω γ) : Bool :=
  decide (s.pc = .wait) && decide (s.q.used.index = s.q.avail.index) && !s.dev.raising &&
    !s.event && !s.isr && decide (s.irq = .idle)

theorem lost_reachable [DecidableEq ρ] [DecidableEq γ] {s : State ρ μ ω γ} (h : Init d s)
    (es : List (Event ρ)) (hr : ((system d).run s es).map lost = some true) :
    ¬ ∀ s, Reachable (system d) s → ¬ Lost s := by
  intro hall
  rcases exists_reachable h hr with ⟨t, ht, hp⟩
  simp only [lost, Bool.and_eq_true, decide_eq_true_eq, Bool.not_eq_true'] at hp
  rcases hp with ⟨⟨⟨⟨⟨hpc, hcomplete⟩, hraise⟩, hevent⟩, hisr⟩, hirq⟩
  exact hall t ht ⟨hpc, hcomplete, hraise, hevent, hisr, hirq⟩

theorem completion_lost :
    (¬ ∀ s, Reachable (system (virtblk 4096 8192)) s → ¬ Lost s) ∧
      ¬ ∀ s, Reachable (system virtrng) s → ¬ Lost s := by
  constructor
  · apply lost_reachable (init_zeroed blkDesc_populated blk) (overtaken readSector)
    decide +kernel
  · have hinit : Init virtrng (zeroed virtrng default (Virtrng.mk false)) := init_zeroed trivial _
    apply lost_reachable hinit (overtaken ⟨12288, 16⟩)
    decide +kernel

def oneByOne (r : ρ) : List (Event ρ) :=
  issue r ++ answer ⟨0, 513⟩ ++ wake ++ finish ++ issue r ++ answer ⟨1, 1⟩ ++ wake ++ finish

theorem requests_complete_iff_oneByOne :
    StatesMeet (system (virtblk 4096 8192)) CompletionNoticed
      (zeroed (virtblk 4096 8192) blkDesc blk) (oneByOne readSector) :=
  (requests_complete_iff (init_zeroed blkDesc_populated blk) (oneByOne readSector)).1.mpr
    (by decide +kernel)

end SyncRequestCompletion
