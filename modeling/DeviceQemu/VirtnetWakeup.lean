import DeviceQemu.Virtnet

/-! Wake-ups of the virtnet interrupt handler. -/
namespace VirtnetWakeup

open StepSystem InterruptLine RingWindow Virtmmio Virtnet VirtnetTxOwnership VirtnetTxSteps
open VirtnetTx (Driver HandlerPc SenderPc NetBuf PbufChain TbufRecord liteosA riscv32)
open VirtnetRx (Mode RxPc Verdict ReleasePc)

variable {β ρ : Type} {d : Driver β ρ} {mode : Mode} {rxQsz txQsz : UInt16}

theorem senderStep_frame {s t : VirtnetTx.State β ρ} (h : VirtnetTx.senderStep d s = some t) :
    t.q.last = s.q.last ∧ t.q.used = s.q.used ∧ t.q.avail.flag = s.q.avail.flag ∧
      t.dev = s.dev ∧ t.handler = s.handler := by
  unfold VirtnetTx.senderStep at h
  split at h
  all_goals try split at h
  all_goals first | (simp at h; done) | (obtain rfl := Option.some.inj h; exact ⟨rfl, rfl, rfl, rfl, rfl⟩)

def rxServing : RxPc → Bool
  | .off | .publish | .notify => false
  | _ => true

def rxLine (rx : VirtnetRx.State) (isr : Bool) : Line where
  pending := rx.q.last != rx.q.used.index
  owed := rx.dev.raising
  masked := !raises rx.q
  status := isr
  serving := rxServing rx.handler

theorem rx_handler_leads {rx rx' : VirtnetRx.State} {v : Verdict}
    (hr : rx.handler = .recheck → raises rx.q = true)
    (ht : VirtnetRx.next mode rx (.handler v) = some rx') :
    Leads (rxLine rx true) (rxLine rx' true) := by
  simp only [VirtnetRx.next] at ht
  cases hpc : rx.handler with
  | off => simp [VirtnetRx.handlerStep, hpc] at ht
  | mask | remask =>
    simp only [VirtnetRx.handlerStep, hpc, Option.some.injEq] at ht
    subst ht
    refine ⟨[.mask], by simp, ?_⟩
    simp [line, Line.next, rxLine, rxServing, hpc, raises, VirtnetRx.State.setAvail]
  | test =>
    simp only [VirtnetRx.handlerStep, hpc, Option.some.injEq] at ht
    subst ht
    apply Leads.of_eq
    by_cases h : rx.q.last = rx.q.used.index
    · simp [rxLine, rxServing, hpc, h]
    · simp [rxLine, rxServing, hpc, h]
  | unmask =>
    simp only [VirtnetRx.handlerStep, hpc, Option.some.injEq] at ht
    subst ht
    refine ⟨[.unmask], by simp, ?_⟩
    simp [line, Line.next, rxLine, rxServing, hpc, raises, VirtnetRx.State.setAvail,
      virtqAvailFNoInterrupt]
  | recheck =>
    simp only [VirtnetRx.handlerStep, hpc, Option.some.injEq] at ht
    subst ht
    by_cases h : rx.q.last = rx.q.used.index
    · refine ⟨[.leave], by simp, ?_⟩
      cases mode <;> simp [line, Line.next, rxLine, rxServing, h, hr hpc]
    · apply Leads.of_eq
      simp [rxLine, rxServing, hpc, h]
  | read =>
    simp only [VirtnetRx.handlerStep, hpc, Option.some.injEq] at ht
    subst ht
    exact Leads.of_eq (by simp [rxLine, rxServing, hpc])
  | input e =>
    simp only [VirtnetRx.handlerStep, hpc, Option.some.injEq] at ht
    subst ht
    apply Leads.of_eq
    cases mode with
    | copy => simp [VirtnetRx.input, rxLine, rxServing, hpc]
    | zeroCopy =>
      by_cases hv : v.accept = true
      · simp [VirtnetRx.input, rxLine, rxServing, hpc, hv]
      · simp [VirtnetRx.input, rxLine, rxServing, hpc, hv]
  | recycle e =>
    simp only [VirtnetRx.handlerStep, hpc, Option.some.injEq] at ht
    subst ht
    exact Leads.of_eq (by
      simp [rxLine, rxServing, hpc, raises, VirtnetRx.State.setAvail])
  | release r =>
    simp only [VirtnetRx.handlerStep, hpc, Option.map_eq_some_iff, Prod.exists] at ht
    rcases ht with ⟨rx₁, r₁, hrel, rfl⟩
    obtain ⟨_, _, _, _, rfl⟩ := VirtnetRx.releaseStep_frame hrel
    apply Leads.of_eq
    cases r₁ <;> simp [rxLine, rxServing, hpc, raises]
  | advance =>
    simp only [VirtnetRx.handlerStep, hpc, Option.some.injEq] at ht
    subst ht
    refine ⟨[.take (rx.q.last + 1 != rx.q.used.index)], by simp, ?_⟩
    simp [line, Line.next, rxLine, rxServing, hpc, raises]
  | publish =>
    simp only [VirtnetRx.handlerStep, hpc, Option.some.injEq] at ht
    subst ht
    exact Leads.of_eq (by
      simp [rxLine, rxServing, hpc, raises, VirtnetRx.State.setAvail])
  | notify =>
    simp only [VirtnetRx.handlerStep, hpc, Option.some.injEq] at ht
    subst ht
    exact Leads.of_eq (by
      simp [rxLine, rxServing, hpc, raises, VirtnetRx.State.notify])

/-- Everything else that happens to the receive queue, short of the interrupt decision. -/
theorem rx_other_leads {rx rx' : VirtnetRx.State} {isr : Bool} {e : VirtnetRx.Event}
    (hen : e ≠ .enter) (hh : ∀ v, e ≠ .handler v) (hr : e ≠ .raise)
    (ht : VirtnetRx.next mode rx e = some rx') :
    Leads (rxLine rx isr) (rxLine rx' isr) ∧ rx'.handler = rx.handler ∧
      rx'.q.avail.flag = rx.q.avail.flag := by
  cases e with
  | enter => exact absurd rfl hen
  | handler v => exact absurd rfl (hh v)
  | raise => exact absurd rfl hr
  | free i =>
    simp only [VirtnetRx.next, VirtnetRx.appFree] at ht
    split at ht
    · obtain rfl := Option.some.inj ht
      exact ⟨Leads.refl _, rfl, rfl⟩
    · simp at ht
  | app =>
    simp only [VirtnetRx.next, VirtnetRx.appStep, Option.bind_eq_some_iff, Option.map_eq_some_iff,
      Prod.exists] at ht
    rcases ht with ⟨r, -, rx₁, r₁, hrel, rfl⟩
    obtain ⟨_, _, _, _, rfl⟩ := VirtnetRx.releaseStep_frame hrel
    refine ⟨Leads.of_eq ?_, rfl, rfl⟩
    simp [rxLine, raises]
  | fetch =>
    simp only [VirtnetRx.next, VirtnetRx.deviceFetch] at ht
    obtain ⟨-, ht⟩ := Option.ite_none_left_eq_some.mp ht
    obtain rfl := Option.some.inj ht
    exact ⟨Leads.refl _, rfl, rfl⟩
  | deliver i packet =>
    simp only [VirtnetRx.next, VirtnetRx.deviceDeliver] at ht
    split at ht
    · simp at ht
    · split at ht
      · obtain rfl := Option.some.inj ht
        exact ⟨⟨[.append (rx.q.last != rx.q.used.index + 1)], by simp, rfl⟩, rfl, rfl⟩
      · simp at ht
  | usedFlag flag =>
    obtain rfl := Option.some.inj ht
    exact ⟨Leads.refl _, rfl, rfl⟩

theorem rx_raise_leads {rx rx' : VirtnetRx.State} {isr : Bool}
    (ht : VirtnetRx.next mode rx .raise = some rx') :
    Leads (rxLine rx isr) (rxLine rx' (isr || raises rx.q)) ∧ rx'.handler = rx.handler ∧
      rx'.q.avail.flag = rx.q.avail.flag := by
  simp only [VirtnetRx.next] at ht
  obtain ⟨-, ht⟩ := Option.ite_none_right_eq_some.mp ht
  obtain rfl := Option.some.inj ht
  refine ⟨⟨[.decide false], by simp, ?_⟩, rfl, rfl⟩
  simp [line, Line.next, rxLine, raises]

structure Handlers (s : State β ρ) : Prop where
  rx : s.irq ≠ .rx → s.rx.handler = .off
  tx : s.irq ≠ .tx → s.tx.handler = .off
  isr : s.irq = .rx ∨ s.irq = .tx ∨ s.irq = .ack → s.isr = true
  recheck : s.rx.handler = .recheck → raises s.rx.q = true

theorem rx_recheck_unmasked {rx rx' : VirtnetRx.State} {v : Verdict}
    (ht : VirtnetRx.next mode rx (.handler v) = some rx') (h : rx'.handler = .recheck) :
    raises rx'.q = true := by
  simp only [VirtnetRx.next] at ht
  cases hpc : rx.handler with
  | off => simp [VirtnetRx.handlerStep, hpc] at ht
  | unmask =>
    simp only [VirtnetRx.handlerStep, hpc, Option.some.injEq] at ht
    subst ht
    simp [raises, VirtnetRx.State.setAvail, virtqAvailFNoInterrupt]
  | release r =>
    simp only [VirtnetRx.handlerStep, hpc, Option.map_eq_some_iff, Prod.exists] at ht
    rcases ht with ⟨rx₁, r₁, -, rfl⟩
    cases r₁ <;> simp at h
  | input e =>
    simp only [VirtnetRx.handlerStep, hpc, Option.some.injEq] at ht
    subst ht
    cases mode with
    | copy => simp [VirtnetRx.input] at h
    | zeroCopy =>
      by_cases hv : v.accept = true
      · simp [VirtnetRx.input, hv] at h
      · simp [VirtnetRx.input, hv] at h
  | test | recheck =>
    simp only [VirtnetRx.handlerStep, hpc, Option.some.injEq] at ht
    subst ht
    by_cases hl : rx.q.last = rx.q.used.index
    · cases mode <;> simp [hl] at h
    · simp [hl] at h
  | _ =>
    simp only [VirtnetRx.handlerStep, hpc, Option.some.injEq] at ht
    subst ht
    simp at h

theorem tx_other_frame {tx tx' : VirtnetTx.State β ρ} {e : VirtnetTx.Event β}
    (hen : e ≠ .enter) (hh : e ≠ .handler) (ht : VirtnetTx.next d tx e = some tx') :
    tx'.handler = tx.handler := by
  cases e with
  | enter => exact absurd rfl hen
  | handler => exact absurd rfl hh
  | sender => exact (senderStep_frame ht).2.2.2.2
  | output p =>
    simp only [VirtnetTx.next, VirtnetTx.lowLevelOutput] at ht
    split at ht
    · split at ht <;> (obtain rfl := Option.some.inj ht; rfl)
    · simp at ht
  | fetch =>
    simp only [VirtnetTx.next, VirtnetTx.deviceFetch] at ht
    obtain ⟨-, ht⟩ := Option.ite_none_left_eq_some.mp ht
    obtain rfl := Option.some.inj ht
    rfl
  | complete i =>
    simp only [VirtnetTx.next, VirtnetTx.deviceComplete] at ht
    split at ht
    · simp at ht
    · obtain rfl := Option.some.inj ht
      rfl
  | raise =>
    simp only [VirtnetTx.next] at ht
    obtain ⟨-, ht⟩ := Option.ite_none_right_eq_some.mp ht
    obtain rfl := Option.some.inj ht
    rfl
  | usedFlag flag =>
    obtain rfl := Option.some.inj ht
    rfl

theorem handlers_init {s : State β ρ} (h : Init rxQsz txQsz s) : Handlers s := by
  constructor
  · intro _; exact h.rx.handler
  · intro _; exact h.tx.handler
  · intro hirq; simp [h.irq] at hirq
  · intro hr; simp [h.rx.handler] at hr

theorem handlers_irq_step {s t : State β ρ} {v : Verdict} (h : Handlers s)
    (ht : irqStep d mode v s = some t) : Handlers t := by
  rcases h with ⟨hrx, htx, hisr, hrecheck⟩
  cases hpc : s.irq with
  | idle =>
    simp only [irqStep, hpc, Option.some.injEq] at ht
    subst ht
    exact ⟨fun _ => hrx (by simp [hpc]), fun _ => htx (by simp [hpc]), by simp, hrecheck⟩
  | status =>
    simp only [irqStep, hpc] at ht
    split at ht
    next hset =>
      simp only [VirtnetRx.next, hrx (by simp [hpc]), Option.map_some, Option.some.injEq] at ht
      subst ht
      exact ⟨by simp, fun _ => htx (by simp [hpc]), fun _ => hset, by simp⟩
    next =>
      obtain rfl := Option.some.inj ht
      exact ⟨fun _ => hrx (by simp [hpc]), fun _ => htx (by simp [hpc]), by simp, hrecheck⟩
  | rx =>
    have hset := hisr (Or.inl hpc)
    simp only [irqStep, hpc] at ht
    split at ht
    next hoff =>
      simp only [VirtnetTx.next, htx (by simp [hpc]), Option.map_some, Option.some.injEq] at ht
      subst ht
      exact ⟨fun _ => hoff, by simp, fun _ => hset, hrecheck⟩
    next =>
      simp only [Option.map_eq_some_iff] at ht
      rcases ht with ⟨rx', hrx', rfl⟩
      exact ⟨by simp, fun _ => htx (by simp [hpc]), fun _ => hset,
        rx_recheck_unmasked hrx'⟩
  | tx =>
    have hset := hisr (Or.inr (Or.inl hpc))
    simp only [irqStep, hpc] at ht
    split at ht
    next hoff =>
      obtain rfl := Option.some.inj ht
      exact ⟨fun _ => hrx (by simp [hpc]), fun _ => hoff, fun _ => hset, hrecheck⟩
    next =>
      simp only [Option.map_eq_some_iff] at ht
      rcases ht with ⟨tx', -, rfl⟩
      exact ⟨fun _ => hrx (by simp [hpc]), by simp, fun _ => hset, hrecheck⟩
  | ack =>
    simp only [irqStep, hpc, Option.some.injEq] at ht
    subst ht
    exact ⟨fun _ => hrx (by simp [hpc]), fun _ => htx (by simp [hpc]), by simp, hrecheck⟩

theorem handlers_rx_step {s t : State β ρ} {e : VirtnetRx.Event} (h : Handlers s)
    (ht : rxStep mode s e = some t) : Handlers t := by
  rcases h with ⟨hrx, htx, hisr, hrecheck⟩
  cases e with
  | enter | handler v => simp [rxStep] at ht
  | raise =>
    simp only [rxStep, Option.map_eq_some_iff] at ht
    rcases ht with ⟨rx', hrx', rfl⟩
    rcases @rx_raise_leads _ _ _ false hrx' with ⟨-, hhandler, hflag⟩
    refine ⟨fun hi => hhandler.trans (hrx hi), htx, fun hi => by simp [hisr hi], fun hr => ?_⟩
    simpa [raises, hflag] using hrecheck (hhandler.symm.trans hr)
  | free | app | fetch | deliver | usedFlag =>
    simp only [rxStep, Option.map_eq_some_iff] at ht
    rcases ht with ⟨rx', hrx', rfl⟩
    rcases @rx_other_leads _ _ _ false _ (by simp) (by simp) (by simp) hrx' with
      ⟨-, hhandler, hflag⟩
    refine ⟨fun hi => hhandler.trans (hrx hi), htx, hisr, fun hr => ?_⟩
    simpa [raises, hflag] using hrecheck (hhandler.symm.trans hr)

theorem handlers_tx_step {s t : State β ρ} {e : VirtnetTx.Event β} (h : Handlers s)
    (ht : txStep d s e = some t) : Handlers t := by
  rcases h with ⟨hrx, htx, hisr, hrecheck⟩
  cases e with
  | enter | handler => simp [txStep] at ht
  | raise =>
    simp only [txStep, Option.map_eq_some_iff] at ht
    rcases ht with ⟨tx', htx', rfl⟩
    have hhandler := tx_other_frame (by simp) (by simp) htx'
    exact ⟨hrx, fun hi => hhandler.trans (htx hi), fun hi => by simp [hisr hi], hrecheck⟩
  | output | sender | fetch | complete | usedFlag =>
    simp only [txStep, Option.map_eq_some_iff] at ht
    rcases ht with ⟨tx', htx', rfl⟩
    have hhandler := tx_other_frame (by simp) (by simp) htx'
    exact ⟨hrx, fun hi => hhandler.trans (htx hi), hisr, hrecheck⟩

theorem handlers_step {s t : State β ρ} {e : Event β} (h : Handlers s)
    (ht : next d mode s e = some t) : Handlers t := by
  cases e with
  | irq v => exact handlers_irq_step h ht
  | rx e => exact handlers_rx_step h ht
  | tx e => exact handlers_tx_step h ht

/-- The acknowledgement comes when the receive queue is drained, or before the device has
decided on the interrupt for what it appended. -/
def RxAckSafe (s : State β ρ) : Event β → Prop
  | .irq _ => s.irq = .ack → s.rx.q.last = s.rx.q.used.index ∨ s.rx.dev.raising = true
  | _ => True

/-- Outside the handler, with the device's interrupt decision made, unprocessed packets have
an interrupt pending. -/
def RxNoticed (s : State β ρ) : Prop :=
  s.irq = .idle → s.rx.dev.raising = false → s.rx.q.last ≠ s.rx.q.used.index → s.isr = true

theorem rx_irq_follows {s t : State β ρ} {v : Verdict} (h : Handlers s)
    (hc : RxAckSafe s (.irq v)) (ht : irqStep d mode v s = some t) :
    Follows (rxLine s.rx s.isr) (rxLine t.rx t.isr) := by
  cases hpc : s.irq with
  | idle =>
    simp only [irqStep, hpc, Option.some.injEq] at ht
    subst ht
    exact (Leads.refl _).follows
  | status =>
    simp only [irqStep, hpc] at ht
    split at ht
    next hset =>
      have hoff := h.rx (by simp [hpc])
      simp only [VirtnetRx.next, hoff, Option.map_some, Option.some.injEq] at ht
      subst ht
      refine Leads.follows ⟨[.serve], by simp, ?_⟩
      simp [line, Line.next, rxLine, rxServing, hset]
    next =>
      obtain rfl := Option.some.inj ht
      exact (Leads.refl _).follows
  | rx =>
    have hset := h.isr (Or.inl hpc)
    simp only [irqStep, hpc] at ht
    split at ht
    · simp only [Option.map_eq_some_iff] at ht
      rcases ht with ⟨tx', -, rfl⟩
      exact (Leads.refl _).follows
    · simp only [Option.map_eq_some_iff] at ht
      rcases ht with ⟨rx', hrx', rfl⟩
      dsimp only
      rw [hset]
      exact (rx_handler_leads h.recheck hrx').follows
  | tx =>
    simp only [irqStep, hpc] at ht
    split at ht
    · obtain rfl := Option.some.inj ht
      exact (Leads.refl _).follows
    · simp only [Option.map_eq_some_iff] at ht
      rcases ht with ⟨tx', -, rfl⟩
      exact (Leads.refl _).follows
  | ack =>
    simp only [irqStep, hpc, Option.some.injEq] at ht
    subst ht
    refine follows_ack (fun hp => ?_) rfl
    rcases hc hpc with heq | hraise
    · simp [rxLine, heq] at hp
    · exact Or.inl hraise

theorem rx_line_init {s : State β ρ} (h : Init rxQsz txQsz s) :
    line.Init (rxLine s.rx s.isr) := by
  constructor
  · simp [rxLine, h.rx.last, h.rx.usedIndex]
  · simp [rxLine, raises, h.rx.availFlag, virtqAvailFNoInterrupt]

theorem rx_simulation : Simulation (system (ρ := ρ) d mode rxQsz txQsz) RxAckSafe Handlers
    line AckSafe (fun s => rxLine s.rx s.isr) := by
  constructor
  · intro s h
    exact rx_line_init h
  · intro s e t hI hc ht
    cases e with
    | irq v => exact rx_irq_follows hI hc ht
    | rx e =>
      apply Leads.follows
      cases e with
      | enter | handler v => simp [system, next, rxStep] at ht
      | raise =>
        simp only [system, next, rxStep, Option.map_eq_some_iff] at ht
        rcases ht with ⟨rx', hrx', rfl⟩
        exact (rx_raise_leads hrx').1
      | free | app | fetch | deliver | usedFlag =>
        simp only [system, next, rxStep, Option.map_eq_some_iff] at ht
        rcases ht with ⟨rx', hrx', rfl⟩
        exact (rx_other_leads (by simp) (by simp) (by simp) hrx').1
    | tx e =>
      apply Leads.follows
      cases e with
      | enter | handler => simp [system, next, txStep] at ht
      | raise =>
        simp only [system, next, txStep, Option.map_eq_some_iff] at ht
        rcases ht with ⟨tx', -, rfl⟩
        by_cases hr : raises s.tx.q = true
        · exact ⟨[.assert], by simp, by simp [line, Line.next, rxLine, hr]⟩
        · exact Leads.of_eq (by simp [hr])
      | output | sender | fetch | complete | usedFlag =>
        simp only [system, next, txStep, Option.map_eq_some_iff] at ht
        rcases ht with ⟨tx', -, rfl⟩
        exact Leads.refl _

structure RxInv (s : State β ρ) : Prop where
  handlers : Handlers s
  covered : Covered (rxLine s.rx s.isr)

theorem rxInv_init {s : State β ρ} (h : Init rxQsz txQsz s) : RxInv s :=
  ⟨handlers_init h, line_init (rx_line_init h)⟩

theorem rxInv_noticed {s : State β ρ} (h : RxInv s) : RxNoticed s := by
  intro hidle hraise hne
  apply h.covered.status_of_pending hraise
  · simp [rxLine, rxServing, h.handlers.rx (by simp [hidle])]
  · simpa [rxLine] using hne

/-- The receive wake-up is never lost in exactly the runs whose acknowledgements are safe. -/
theorem rx_wakeup_iff {s : State β ρ} (h : Init rxQsz txQsz s) (es : List (Event β)) :
    StatesMeet (system d mode rxQsz txQsz) RxNoticed s es ↔
      StepsMeet (system d mode rxQsz txQsz) RxAckSafe s es := by
  refine statesMeet_iff_stepsMeet (I := RxInv) (fun _ => rxInv_noticed) ?_ ?_ (rxInv_init h) es
  · intro s e t hI hc ht
    exact ⟨handlers_step hI.handlers ht, covered_step rx_simulation hI.handlers hc ht hI.covered⟩
  · intro s e t hI hc ht hP
    cases e with
    | irq v =>
      simp only [RxAckSafe, Classical.not_imp, not_or, Bool.not_eq_true] at hc
      rcases hc with ⟨hack, hne, hraise⟩
      simp only [system, next, irqStep, hack, Option.some.injEq] at ht
      subst ht
      have := hP rfl hraise hne
      simp at this
    | rx e | tx e => exact hc trivial

def good : Verdict := ⟨true, true⟩

/-- A packet is handled, and a second one arrives, with its interrupt raised, between the
recheck and the acknowledgement of the first. -/
def lostPacket : List (Event NetBuf) :=
  [Event.rx .fetch, .rx (.deliver 0 [1]), .rx .raise] ++ List.replicate 11 (Event.irq good) ++
    [Event.rx .fetch, .rx (.deliver 0 [2]), .rx .raise] ++ List.replicate 8 (Event.irq good)

theorem rx_wakeup_lost :
    ¬ ∀ s : State NetBuf NetBuf,
      Reachable (system (liteosA 0) .copy 16 32) s → RxNoticed s := by
  intro h
  have hrun : ((system (liteosA 0) .copy 16 32).run (zeroed 16 32) lostPacket).map
      (fun s => decide (s.irq = .idle) && !s.rx.dev.raising && !s.isr &&
        decide (s.rx.q.last ≠ s.rx.q.used.index)) = some true := by decide +kernel
  rcases exists_reachable (init_zeroed 16 32) hrun with ⟨s, hs, hp⟩
  simp only [Bool.and_eq_true, decide_eq_true_eq, Bool.not_eq_true'] at hp
  rcases hp with ⟨⟨⟨hidle, hraise⟩, hisr⟩, hne⟩
  have := h s hs hidle hraise hne
  simp [hisr] at this

theorem rx_wakeup_iff_lostPacket :
    StatesMeet (system (liteosA 0) .copy 16 32) RxNoticed (zeroed 16 32) lostPacket ↔
      StepsMeet (system (liteosA 0) .copy 16 32) RxAckSafe (zeroed 16 32) lostPacket :=
  rx_wakeup_iff (init_zeroed 16 32) lostPacket

/-- Some published chain has not been used yet, so the device still owes its completion. -/
def unused (tx : VirtnetTx.State β ρ) : Bool :=
  !decide (tx.dev.seen = tx.q.avail.index) || !decide (tx.dev.inFlight = [])

theorem unused_setFlag (tx : VirtnetTx.State β ρ) (flag : UInt16) (handler : HandlerPc β ρ) :
    unused { tx.setAvail { tx.q.avail with flag } with handler } = unused tx := rfl

def txServing : HandlerPc β ρ → Bool
  | .off => false
  | _ => true

/-- VirtnetTxHandle is certain to run once VirtnetRxHandle is. -/
def txLine (s : State β ρ) : Line where
  pending := s.tx.q.last != s.tx.q.used.index
  owed := s.tx.dev.raising || unused s.tx
  masked := !raises s.tx.q
  status := s.isr
  serving := decide (s.irq = .rx) || txServing s.tx.handler

/-- The acknowledgement comes when no completion is unprocessed, or when the device still
has a transmit interrupt to decide on. -/
def TxAckSafe (s : State β ρ) : Event β → Prop
  | .irq _ => s.irq = .ack →
    s.tx.q.last = s.tx.q.used.index ∨ s.tx.dev.raising = true ∨ unused s.tx = true
  | _ => True

instance (s : State β ρ) : ∀ e, Decidable (TxAckSafe s e)
  | .irq _ => inferInstanceAs (Decidable (s.irq = .ack → _))
  | .rx _ | .tx _ => isTrue trivial

theorem tx_handler_leads {s : State β ρ} {tx' : VirtnetTx.State β ρ} (hpc : s.irq = .tx)
    (hset : s.isr = true) (ht : VirtnetTx.next d s.tx .handler = some tx') :
    Leads (txLine s) (txLine { s with tx := tx' }) := by
  simp only [VirtnetTx.next] at ht
  cases hh : s.tx.handler with
  | off => simp [VirtnetTx.handlerStep, hh] at ht
  | mask =>
    simp only [VirtnetTx.handlerStep, hh, Option.some.injEq] at ht
    subst ht
    refine ⟨[.mask], by simp, ?_⟩
    simp only [txLine, unused_setFlag]
    simp [line, Line.next, txServing, hh, raises, VirtnetTx.State.setAvail]
  | test =>
    simp only [VirtnetTx.handlerStep, hh, Option.some.injEq] at ht
    subst ht
    apply Leads.of_eq
    by_cases h : s.tx.q.last = s.tx.q.used.index
    · simp [txLine, txServing, hh, h, unused]
    · simp [txLine, txServing, hh, h, unused]
  | lock head idx early =>
    simp only [VirtnetTx.handlerStep, hh] at ht
    obtain ⟨-, ht⟩ := Option.ite_none_left_eq_some.mp ht
    obtain rfl := Option.some.inj ht
    exact Leads.of_eq (by simp [txLine, txServing, hh, unused])
  | splice head idx early =>
    simp only [VirtnetTx.handlerStep, hh, Option.some.injEq] at ht
    subst ht
    exact Leads.of_eq (by
      simp [txLine, txServing, hh, unused, raises, VirtnetTx.spliceEntry,
        VirtnetTx.State.setDesc])
  | advance =>
    simp only [VirtnetTx.handlerStep, hh, Option.some.injEq] at ht
    subst ht
    refine ⟨[.take (s.tx.q.last + 1 != s.tx.q.used.index)], by simp, ?_⟩
    simp [line, Line.next, txLine, txServing, hh, unused, raises]
  | unmask =>
    -- no recheck here: what arrived since the last test is covered by the status bit
    simp only [VirtnetTx.handlerStep, hh, Option.some.injEq] at ht
    subst ht
    refine ⟨[.unmask, .leave], by simp, ?_⟩
    simp only [txLine, unused_setFlag]
    simp [line, Line.next, txServing, hpc, hset, raises, VirtnetTx.State.setAvail,
      virtqAvailFNoInterrupt]
  | read | lookup head | unlock nb | free nb =>
    simp only [VirtnetTx.handlerStep, hh, Option.some.injEq] at ht
    subst ht
    exact Leads.of_eq (by simp [txLine, txServing, hh, unused])

/-- Publishing a chain leaves the device owing its completion; no other sender step matters. -/
theorem sender_unused {tx tx' : VirtnetTx.State β ρ} {g : Owners β} (h : Inv d txQsz tx g)
    (ht : VirtnetTx.senderStep d tx = some tx') :
    unused tx' = unused tx ∨ unused tx' = true := by
  cases hpc : tx.sender with
  | publish p head =>
    simp only [VirtnetTx.senderStep, hpc, Option.some.injEq] at ht
    subst ht
    have hgap := (publish_step h hpc).avail_gap
    refine Or.inr ?_
    simp only [unused, Bool.or_eq_true, Bool.not_eq_true', decide_eq_false_iff_not]
    refine Or.inl fun heq => ?_
    rw [gap_eq_zero.mpr heq] at hgap
    simp at hgap
  | idle => simp [VirtnetTx.senderStep, hpc] at ht
  | lock p =>
    simp only [VirtnetTx.senderStep, hpc] at ht
    obtain ⟨-, ht⟩ := Option.ite_none_left_eq_some.mp ht
    obtain rfl := Option.some.inj ht
    exact Or.inl rfl
  | take p =>
    simp only [VirtnetTx.senderStep, hpc] at ht
    split at ht <;> (obtain rfl := Option.some.inj ht; exact Or.inl rfl)
  | _ =>
    simp only [VirtnetTx.senderStep, hpc, Option.some.injEq] at ht
    subst ht
    exact Or.inl rfl

theorem tx_other_leads {s : State β ρ} {tx' : VirtnetTx.State β ρ} {g : Owners β}
    {e : VirtnetTx.Event β} (h : Inv d txQsz s.tx g) (hen : e ≠ .enter) (hh : e ≠ .handler)
    (hr : e ≠ .raise) (ht : VirtnetTx.next d s.tx e = some tx') :
    Leads (txLine s) (txLine { s with tx := tx' }) := by
  cases e with
  | enter => exact absurd rfl hen
  | handler => exact absurd rfl hh
  | raise => exact absurd rfl hr
  | output p =>
    simp only [VirtnetTx.next, VirtnetTx.lowLevelOutput] at ht
    split at ht
    · split at ht <;> (obtain rfl := Option.some.inj ht; exact Leads.refl _)
    · simp at ht
  | sender =>
    rcases senderStep_frame ht with ⟨hlast, hused, hflag, hdev, hhandler⟩
    rcases sender_unused h ht with hun | hun
    · apply Leads.of_eq
      simp [txLine, raises, hlast, hused, hflag, hdev, hhandler, hun]
    · refine ⟨[.owe], by simp, ?_⟩
      simp [line, Line.next, txLine, raises, hlast, hused, hflag, hhandler, hun]
  | fetch =>
    simp only [VirtnetTx.next, VirtnetTx.deviceFetch] at ht
    obtain ⟨hne, ht⟩ := Option.ite_none_left_eq_some.mp ht
    obtain rfl := Option.some.inj ht
    apply Leads.of_eq
    simp [txLine, unused, raises, hne]
  | complete i =>
    simp only [VirtnetTx.next, VirtnetTx.deviceComplete] at ht
    split at ht
    · simp at ht
    · obtain rfl := Option.some.inj ht
      refine ⟨[.append (s.tx.q.last != s.tx.q.used.index + 1)], by simp, ?_⟩
      simp [line, Line.next, txLine, raises]
  | usedFlag flag =>
    obtain rfl := Option.some.inj ht
    exact Leads.refl _

theorem tx_raise_leads {s : State β ρ} {tx' : VirtnetTx.State β ρ}
    (ht : VirtnetTx.next d s.tx .raise = some tx') :
    Leads (txLine s) (txLine { s with tx := tx', isr := s.isr || raises s.tx.q }) := by
  simp only [VirtnetTx.next] at ht
  obtain ⟨-, ht⟩ := Option.ite_none_right_eq_some.mp ht
  obtain rfl := Option.some.inj ht
  refine ⟨[.decide (unused s.tx)], by simp, ?_⟩
  simp [line, Line.next, txLine, raises, unused]

structure TxInv (d : Driver β ρ) (txQsz : UInt16) (s : State β ρ) : Prop where
  handlers : Handlers s
  owners : ∃ g, Inv d txQsz s.tx g

theorem tx_irq_follows {s t : State β ρ} {v : Verdict} (h : Handlers s)
    (hc : TxAckSafe s (.irq v)) (ht : irqStep d mode v s = some t) :
    Follows (txLine s) (txLine t) := by
  cases hpc : s.irq with
  | idle =>
    simp only [irqStep, hpc, Option.some.injEq] at ht
    subst ht
    exact Leads.follows (Leads.of_eq (by simp [txLine, hpc]))
  | status =>
    simp only [irqStep, hpc] at ht
    split at ht
    next hset =>
      simp only [Option.map_eq_some_iff] at ht
      rcases ht with ⟨rx', -, rfl⟩
      refine Leads.follows ⟨[.serve], by simp, ?_⟩
      simp [line, Line.next, txLine, hset]
    next =>
      obtain rfl := Option.some.inj ht
      exact Leads.follows (Leads.of_eq (by simp [txLine, hpc]))
  | rx =>
    simp only [irqStep, hpc] at ht
    split at ht
    next =>
      have hoff := h.tx (by simp [hpc])
      simp only [VirtnetTx.next, hoff, Option.map_some, Option.some.injEq] at ht
      subst ht
      exact Leads.follows (Leads.of_eq (by simp [txLine, hpc, txServing, unused]))
    next =>
      simp only [Option.map_eq_some_iff] at ht
      rcases ht with ⟨rx', -, rfl⟩
      exact Leads.follows (Leads.of_eq (by simp [txLine, hpc]))
  | tx =>
    simp only [irqStep, hpc] at ht
    split at ht
    next =>
      obtain rfl := Option.some.inj ht
      exact Leads.follows (Leads.of_eq (by simp [txLine, hpc]))
    next =>
      simp only [Option.map_eq_some_iff] at ht
      rcases ht with ⟨tx', htx', rfl⟩
      have hleads := tx_handler_leads hpc (h.isr (Or.inr (Or.inl hpc))) htx'
      rw [hpc] at hleads
      exact hleads.follows
  | ack =>
    simp only [irqStep, hpc, Option.some.injEq] at ht
    subst ht
    refine follows_ack (fun hp => ?_) (by simp [txLine, hpc])
    rcases hc hpc with heq | hraise | hun
    · simp [txLine, heq] at hp
    · simp [txLine, hraise]
    · simp [txLine, hun]

theorem tx_line_init {s : State β ρ} (h : Init rxQsz txQsz s) : line.Init (txLine s) := by
  constructor
  · simp [txLine, h.tx.last, h.tx.usedIndex]
  · simp [txLine, raises, h.tx.availFlag, virtqAvailFNoInterrupt]

theorem tx_simulation : Simulation (system d mode rxQsz txQsz) TxAckSafe (TxInv d txQsz)
    line AckSafe txLine := by
  constructor
  · intro s h
    exact tx_line_init h
  · intro s e t hI hc ht
    rcases hI with ⟨hhandlers, g, howners⟩
    cases e with
    | irq v => exact tx_irq_follows hhandlers hc ht
    | rx e =>
      apply Leads.follows
      cases e with
      | enter | handler v => simp [system, next, rxStep] at ht
      | raise =>
        simp only [system, next, rxStep, Option.map_eq_some_iff] at ht
        rcases ht with ⟨rx', -, rfl⟩
        by_cases hr : raises s.rx.q = true
        · exact ⟨[.assert], by simp, by simp [line, Line.next, txLine, hr]⟩
        · exact Leads.of_eq (by simp [txLine, hr])
      | free | app | fetch | deliver | usedFlag =>
        simp only [system, next, rxStep, Option.map_eq_some_iff] at ht
        rcases ht with ⟨rx', -, rfl⟩
        exact Leads.refl _
    | tx e =>
      apply Leads.follows
      cases e with
      | enter | handler => simp [system, next, txStep] at ht
      | raise =>
        simp only [system, next, txStep, Option.map_eq_some_iff] at ht
        rcases ht with ⟨tx', htx', rfl⟩
        exact tx_raise_leads htx'
      | output | sender | fetch | complete | usedFlag =>
        simp only [system, next, txStep, Option.map_eq_some_iff] at ht
        rcases ht with ⟨tx', htx', rfl⟩
        exact tx_other_leads howners (by simp) (by simp) (by simp) htx'

theorem tx_component {s t : State β ρ} {e : Event β} (ht : next d mode s e = some t) :
    t.tx = s.tx ∨ ∃ e', VirtnetTx.next d s.tx e' = some t.tx := by
  cases e with
  | irq v =>
    simp only [next] at ht
    cases hpc : s.irq with
    | idle | ack =>
      simp only [irqStep, hpc, Option.some.injEq] at ht
      subst ht
      exact Or.inl rfl
    | status =>
      simp only [irqStep, hpc] at ht
      split at ht
      · simp only [Option.map_eq_some_iff] at ht
        rcases ht with ⟨rx', -, rfl⟩
        exact Or.inl rfl
      · obtain rfl := Option.some.inj ht
        exact Or.inl rfl
    | rx =>
      simp only [irqStep, hpc] at ht
      split at ht
      · simp only [Option.map_eq_some_iff] at ht
        rcases ht with ⟨tx', htx', rfl⟩
        exact Or.inr ⟨_, htx'⟩
      · simp only [Option.map_eq_some_iff] at ht
        rcases ht with ⟨rx', -, rfl⟩
        exact Or.inl rfl
    | tx =>
      simp only [irqStep, hpc] at ht
      split at ht
      · obtain rfl := Option.some.inj ht
        exact Or.inl rfl
      · simp only [Option.map_eq_some_iff] at ht
        rcases ht with ⟨tx', htx', rfl⟩
        exact Or.inr ⟨_, htx'⟩
  | rx e =>
    cases e <;> simp only [next, rxStep, Option.map_eq_some_iff, reduceCtorEq] at ht
    all_goals
      rcases ht with ⟨rx', -, rfl⟩
      exact Or.inl rfl
  | tx e =>
    cases e <;> simp only [next, txStep, Option.map_eq_some_iff, reduceCtorEq] at ht
    all_goals
      rcases ht with ⟨tx', htx', rfl⟩
      exact Or.inr ⟨_, htx'⟩

theorem txInv_step (hp : PowTwo txQsz) (hq : d.minRing ≤ txQsz.toNat) {s t : State β ρ}
    {e : Event β} (h : TxInv d txQsz s) (ht : next d mode s e = some t) : TxInv d txQsz t := by
  rcases h with ⟨hhandlers, g, howners⟩
  refine ⟨handlers_step hhandlers ht, ?_⟩
  rcases tx_component ht with heq | ⟨e', htx⟩
  · exact ⟨g, heq ▸ howners⟩
  · exact step_preserves_invariant hp hq howners htx

/-- A sender spinning in GetTxFreeEntry for more descriptors than are free. -/
def Waiting (d : Driver β ρ) (tx : VirtnetTx.State β ρ) : Prop :=
  ∃ p, (tx.sender = .lock p ∨ tx.sender = .take p ∨ tx.sender = .yield p) ∧
    tx.tFreeNum < d.entries p

/-- Nothing is left that would ever run VirtnetTxHandle for the waiting sender. -/
structure Stranded (d : Driver β ρ) (s : State β ρ) : Prop where
  idle : s.irq = .idle
  isr : s.isr = false
  waiting : Waiting d s.tx
  used : unused s.tx = false
  decided : s.tx.dev.raising = false

theorem all_free {tx : VirtnetTx.State β ρ} {g : Owners β} (h : Inv d txQsz tx g)
    (hw : ∃ p, tx.sender = .lock p ∨ tx.sender = .take p ∨ tx.sender = .yield p)
    (hoff : tx.handler = .off) (hu : unused tx = false) (hl : tx.q.last = tx.q.used.index) :
    tx.tFreeNum.toNat = txQsz.toNat := by
  have hheld : g.held = [] := by
    have hs := h.sender
    rcases hw with ⟨p, hp | hp | hp⟩ <;> rw [hp] at hs <;> exact hs.1
  have hcurrent : g.current = [] := by
    have hh := h.handler
    rwa [hoff] at hh
  have hused : g.used = [] := by
    have hgap := h.used_gap
    rw [hoff] at hgap
    simpa [VirtnetTxOwnership.taken, hl] using hgap.symm
  simp only [unused, Bool.or_eq_false_iff, Bool.not_eq_false', decide_eq_true_eq] at hu
  have havail : g.avail = [] := by
    have hgap := h.avail_gap
    simpa [hu.1] using hgap.symm
  have hinFlight : g.inFlight = [] := by
    have hin := h.inFlight
    simpa [hu.2] using hin
  have hlen := h.parts.length_eq
  simp only [Owners.all, Owners.loans, hheld, hcurrent, hused, havail, hinFlight,
    List.append_nil, List.flatMap_nil, length_indices] at hlen
  rw [h.freeNum, hlen]

theorem not_stranded {s : State β ρ} (h : TxInv d txQsz s) (hc : Covered (txLine s)) :
    ¬ Stranded d s := by
  rintro ⟨hidle, hisr, ⟨p, hpc, hlt⟩, hused, hraise⟩
  rcases h with ⟨hhandlers, g, hI⟩
  have hoff := hhandlers.tx (by simp [hidle])
  have hlast : s.tx.q.last = s.tx.q.used.index := by
    by_contra hne
    have hstatus := hc.status_of_pending (by simp [txLine, hraise, hused])
      (by simp [txLine, hidle, txServing, hoff]) (by simpa [txLine] using hne)
    simp [txLine, hisr] at hstatus
  have hfull := all_free hI ⟨p, hpc⟩ hoff hused hlast
  have hfit : (d.entries p).toNat ≤ txQsz.toNat := by
    have hs := hI.sender
    rw [← hI.size]
    rcases hpc with hpc | hpc | hpc <;> rw [hpc] at hs <;> exact hs.2
  have := UInt16.lt_iff_toNat_lt.mp hlt
  omega

theorem tx_never_stranded (hp : PowTwo txQsz) (hq : d.minRing ≤ txQsz.toNat) {s : State β ρ}
    (h : ReachableUnder (system d mode rxQsz txQsz) TxAckSafe s) : ¬ Stranded d s := by
  have hinv : TxInv d txQsz s ∧ Covered (txLine s) := by
    induction h with
    | init hi =>
      exact ⟨⟨handlers_init hi, _, init_inv hp.pos hi.tx⟩, line_init (tx_line_init hi)⟩
    | step _ hc ht ih =>
      exact ⟨txInv_step hp hq ih.1 ht, covered_step tx_simulation ih.1 hc ht ih.2⟩
  exact not_stranded hinv.1 hinv.2

def wholeRing : PbufChain :=
  ⟨9, ⟨100, 60⟩, List.replicate 30 ⟨200, 40⟩, by decide⟩

/-- The chain completes, with its interrupt raised, after VirtnetTxHandle has returned and
before the acknowledgement. -/
def strandedSender : List (Event PbufChain) :=
  Event.tx (.output wholeRing) :: List.replicate 9 (Event.tx .sender) ++
    [Event.tx .fetch, .rx .fetch, .rx (.deliver 0 [1]), .rx .raise] ++
    List.replicate 15 (Event.irq good) ++ [Event.tx (.complete 0), .tx .raise] ++
    [Event.irq good, .tx (.output wholeRing), .tx .sender, .tx .sender]

theorem tx_sender_stranded :
    ¬ ∀ s : State PbufChain TbufRecord,
      Reachable (system (riscv32 0 2) .zeroCopy 16 32) s → ¬ Stranded (riscv32 0 2) s := by
  intro h
  have hrun : ((system (riscv32 0 2) .zeroCopy 16 32).run (zeroed 16 32) strandedSender).map
      (fun s => decide (s.irq = .idle) && !s.isr && !unused s.tx && !s.tx.dev.raising &&
        match s.tx.sender with
        | .yield p => decide (s.tx.tFreeNum < (riscv32 0 2).entries p)
        | _ => false) = some true := by decide +kernel
  rcases exists_reachable (init_zeroed 16 32) hrun with ⟨s, hs, hp⟩
  simp only [Bool.and_eq_true, decide_eq_true_eq, Bool.not_eq_true'] at hp
  rcases hp with ⟨⟨⟨⟨hidle, hisr⟩, hused⟩, hraise⟩, hwait⟩
  refine h s hs ⟨hidle, hisr, ?_, hused, hraise⟩
  split at hwait
  next p hpc => exact ⟨p, Or.inr (Or.inr hpc), of_decide_eq_true hwait⟩
  next => simp at hwait

/-- The packets of `strandedSender`, with the chain still at the device when the handler acknowledges. -/
def safeSender : List (Event PbufChain) :=
  strandedSender.take 27 ++ List.replicate 3 (Event.irq good)

theorem tx_never_stranded_safeSender :
    ∃ s : State PbufChain TbufRecord,
      (system (riscv32 0 2) .zeroCopy 16 32).run (zeroed 16 32) safeSender = some s ∧
        ¬ Stranded (riscv32 0 2) s := by
  have hrun : ((system (riscv32 0 2) .zeroCopy 16 32).run (zeroed 16 32)
      safeSender).isSome = true := by decide +kernel
  rcases Option.isSome_iff_exists.mp hrun with ⟨s, hs⟩
  have hsteps : StepsMeet (system (riscv32 0 2) .zeroCopy 16 32) TxAckSafe (zeroed 16 32)
      safeSender := by decide +kernel
  exact ⟨s, hs, tx_never_stranded VirtnetTxPartition.powTwo_32 (Nat.zero_le _)
    (.run (.init (init_zeroed 16 32)) hsteps hs)⟩

end VirtnetWakeup
