import DeviceQemu.Virtinput
import Mathlib.Data.List.Perm.Basic

/-! Reported events against delivered events on LiteOS-A.
A buffer goes back to the device before its work item has run. As long as the device does not
write such a buffer, the work queue reports each event once, in order and with its content. -/
namespace VirtinputReports

open StepSystem RingWindow Virtmmio Virtinput

variable {sc : Screen}

def taken (last : UInt16) : HandlerPc → UInt16
  | .advance | .process _ | .recycle _ => last + 1
  | _ => last

def availIds (q : Virtq) (dev : Device) : List UInt16 := q.availFrom dev.seen

def usedIds (q : Virtq) (pc : HandlerPc) : List UInt16 :=
  (q.usedFrom (taken q.last pc)).map fun e => e.id.toUInt16

/-- The buffer VirtinHandleEv has read and not recycled. -/
def current : HandlerPc → List UInt16
  | .process idx | .recycle idx => [idx]
  | _ => []

/-- The buffer VirtinHandleEv has read and not queued. -/
def unqueued : HandlerPc → List UInt16
  | .process idx => [idx]
  | _ => []

def recycled (q : Virtq) (add : UInt16) : List UInt16 :=
  window q.qsz q.avail.ring q.avail.index (q.avail.index + add)

def filledIds (dev : Device) : List UInt16 := (dev.filled.map Prod.fst).toList

def owned (s : State) : List UInt16 :=
  availIds s.q s.dev ++ recycled s.q s.add ++ s.dev.inFlight ++ filledIds s.dev ++ current s.handler ++ usedIds s.q s.handler

def running : CallbackPc → List UInt16
  | .idle => []
  | .test idx | .scale idx _ | .recode idx _ | .report idx => [idx]

/-- Buffers with a delivered event that has not been reported, oldest first. -/
def pending (s : State) : List UInt16 :=
  running s.callback ++ s.wq ++ unqueued s.handler ++ usedIds s.q s.handler ++ filledIds s.dev

/-- The event the callback works on, whose buffer it may have changed already. -/
def CallbackOk (sc : Screen) (ev : UInt16 → VirtinEvent) (work : List VirtinEvent) :
    CallbackPc → Prop
  | .idle => work = []
  | .test idx => work = [ev idx]
  | .scale idx axis => work = [ev idx] ∧
      scaled sc (ev idx) =
        ⟨(ev idx).type, axisCode axis, (ev idx).value * sc.res axis / qemuTabletLen⟩
  | .recode idx axis => ∃ e, work = [e] ∧
      scaled sc e = ⟨(ev idx).type, axisCode axis, (ev idx).value⟩
  | .report idx => ∃ e, work = [e] ∧ scaled sc e = ev idx

/-- Pcs between batches, at which no recycled buffer waits for publication. -/
def betweenBatches : HandlerPc → Bool
  | .off | .mask | .unmask | .notify | .ack => true
  | _ => false

structure Inv (sc : Screen) (s : State) (done work : List VirtinEvent) : Prop where
  size : s.q.qsz = virtqEventQsz
  own : (owned s).Perm (indices virtqEventQsz)
  pending : (pending s).Nodup
  delivered : s.delivered =
    done ++ work ++ (s.wq ++ unqueued s.handler ++ usedIds s.q s.handler).map s.ev
  reported : s.reported = done.map (scaled sc)
  callback : CallbackOk sc s.ev work s.callback
  filled : ∀ id e, s.dev.filled = some (id, e) → s.ev id = e
  read : s.handler = .read → s.q.last ≠ s.q.used.index
  context : s.irq ≠ .handling → s.handler = .off
  add : betweenBatches s.handler = true → s.add = 0

theorem powTwo_event : PowTwo virtqEventQsz := ⟨3, rfl⟩

theorem own_nodup {s : State} {done work : List VirtinEvent} (h : Inv sc s done work) :
    (owned s).Nodup := h.own.nodup_iff.mpr (nodup_indices _)

theorem own_length {s : State} {done work : List VirtinEvent} (h : Inv sc s done work) :
    (s.q.avail.index - s.dev.seen).toNat + s.add.toNat + s.dev.inFlight.length +
      (filledIds s.dev).length + (current s.handler).length +
      (s.q.used.index - taken s.q.last s.handler).toNat = 8 := by
  have hlen := h.own.length_eq
  have hadd : (s.q.avail.index + s.add - s.q.avail.index).toNat = s.add.toNat := by
    rw [UInt16.add_comm, UInt16.add_sub_cancel]
  simpa [owned, availIds, recycled, usedIds, Virtq.availFrom, Virtq.usedFrom, hadd,
    virtqEventQsz, Nat.add_assoc] using hlen

/-- Changing the buffer of `id` is not seen through a list that does not hold it. -/
theorem map_update {ev : UInt16 → VirtinEvent} {id : UInt16} {e : VirtinEvent} {l : List UInt16}
    (h : id ∉ l) : l.map (Function.update ev id e) = l.map ev := by
  refine List.map_congr_left fun a ha => ?_
  have hne : a ≠ id := by rintro rfl; exact h ha
  exact Function.update_of_ne hne _ _

theorem init_inv {s : State} (h : Init s) : Inv sc s [] [] := by
  have hring : availIds s.q s.dev = indices virtqEventQsz := by
    simp only [availIds, Virtq.availFrom, window, h.availIndex, h.dev, h.size, indices]
    refine List.map_congr_left fun i hi => ?_
    have hlt := List.mem_range.mp hi
    have h8 : (virtqEventQsz - 0).toNat = 8 := rfl
    rw [h8] at hlt
    have hslot : slot virtqEventQsz (0 + UInt16.ofNat i) = UInt16.ofNat i := by
      rw [← UInt16.toNat_inj, slot_add_toNat powTwo_event]
      simp [virtqEventQsz]
      omega
    rw [hslot]
    apply h.availRing
    rw [UInt16.lt_iff_toNat_lt, UInt16.toNat_ofNat']
    exact lt_of_le_of_lt (Nat.mod_le _ _) hlt
  have hused : usedIds s.q s.handler = [] := by
    simp [usedIds, Virtq.usedFrom, taken, h.handler, h.usedIndex, h.last]
  have hrec : recycled s.q s.add = [] := by simp [recycled, h.add]
  have hfilled : filledIds s.dev = [] := by simp [filledIds, h.dev]
  have hflight : s.dev.inFlight = [] := by simp [h.dev]
  have hcurrent : current s.handler = [] := by simp [h.handler, current]
  have hunqueued : unqueued s.handler = [] := by simp [h.handler, unqueued]
  have hrunning : running s.callback = [] := by simp [h.callback, running]
  constructor
  · exact h.size
  · simp [owned, hring, hused, hrec, hfilled, hflight, hcurrent]
  · simp [VirtinputReports.pending, hused, hrunning, h.wq, hunqueued, hfilled]
  · simp [h.delivered, hused, h.wq, hunqueued]
  · simp [h.reported]
  · simp [h.callback, CallbackOk]
  · simp [h.dev]
  · simp [h.handler]
  · exact fun _ => h.handler
  · exact fun _ => h.add

theorem Inv.moves {s : State} {done work : List VirtinEvent} (h : Inv sc s done work)
    (flag last : UInt16) (isr : Bool) (irq : IrqPc) (doorbell : ℕ) (pc : HandlerPc)
    (hu : taken last pc = taken s.q.last s.handler) (hcur : current pc = current s.handler)
    (hunq : unqueued pc = unqueued s.handler) (hread : pc = .read → last ≠ s.q.used.index)
    (hctx : irq ≠ .handling → pc = .off) (hadd : betweenBatches pc = true → s.add = 0) :
    Inv sc { s with
      q := { s.q with last, avail := { s.q.avail with flag } }
      isr, irq, doorbell, handler := pc } done work := by
  rcases h with ⟨h1, h2, h3, h4, h5, h6, h7, -, -, -⟩
  refine ⟨h1, ?_, ?_, ?_, h5, h6, h7, hread, hctx, hadd⟩
  · simpa [owned, availIds, recycled, usedIds, Virtq.availFrom, Virtq.usedFrom, hu, hcur] using h2
  · simpa [VirtinputReports.pending, usedIds, Virtq.usedFrom, hu, hunq] using h3
  · simpa [usedIds, Virtq.usedFrom, hu, hunq] using h4

theorem read_step {s : State} {done work : List VirtinEvent} (h : Inv sc s done work)
    (hpc : s.handler = .read) (hirq : s.irq = .handling) :
    Inv sc
      { s with handler := .process (s.q.used.ring (slot s.q.qsz s.q.last)).id.toUInt16 }
      done work := by
  rcases h with ⟨h1, h2, h3, h4, h5, h6, h7, h8, -, -⟩
  have hused : usedIds s.q .read = (s.q.used.ring (slot s.q.qsz s.q.last)).id.toUInt16 ::
      usedIds s.q (.process (s.q.used.ring (slot s.q.qsz s.q.last)).id.toUInt16) := by
    simp only [usedIds, Virtq.usedFrom, taken]
    rw [window_pop (h8 hpc), List.map_cons]
  refine ⟨h1, ?_, ?_, ?_, h5, h6, h7, by simp, fun hi => absurd hirq hi, by simp [betweenBatches]⟩
  · simpa [owned, hused, hpc, current, availIds, recycled] using h2
  · simpa [VirtinputReports.pending, hused, hpc, unqueued] using h3
  · simpa [hused, hpc, unqueued] using h4

theorem process_step {s : State} {done work : List VirtinEvent} {idx : UInt16}
    (h : Inv sc s done work) (hpc : s.handler = .process idx) (hirq : s.irq = .handling) :
    Inv sc { processEvent .liteosA s idx with handler := .recycle idx } done work := by
  rcases h with ⟨h1, h2, h3, h4, h5, h6, h7, -, -, -⟩
  refine ⟨h1, ?_, ?_, ?_, h5, h6, h7, by simp, fun hi => absurd hirq hi, by simp [betweenBatches]⟩
  · simpa [owned, hpc, current, availIds, recycled, usedIds, taken, processEvent] using h2
  · simpa [VirtinputReports.pending, hpc, unqueued, usedIds, taken, processEvent] using h3
  · simpa [hpc, unqueued, usedIds, taken, processEvent] using h4

theorem recycle_step {s : State} {done work : List VirtinEvent} {idx : UInt16}
    (h : Inv sc s done work) (hpc : s.handler = .recycle idx) (hirq : s.irq = .handling) :
    Inv sc { s.setAvail { s.q.avail with
        ring := Function.update s.q.avail.ring (slot s.q.qsz (s.q.avail.index + s.add)) idx } with
      add := s.add + 1
      handler := .advance } done work := by
  have hlen := own_length h
  rw [hpc] at hlen
  simp only [current, List.length_singleton] at hlen
  rcases h with ⟨h1, h2, h3, h4, h5, h6, h7, -, -, -⟩
  have hpow : PowTwo s.q.qsz := h1 ▸ powTwo_event
  have h8 : s.q.qsz.toNat = 8 := by rw [h1]; rfl
  have hadd : (s.q.avail.index + s.add - s.q.avail.index).toNat = s.add.toNat := by
    rw [UInt16.add_comm, UInt16.add_sub_cancel]
  have havail := @window_update _ _ hpow s.q.avail.ring s.dev.seen s.q.avail.index s.add.toNat
    (by omega) idx
  rw [UInt16.ofNat_toNat] at havail
  have hrec := @window_push _ _ hpow s.q.avail.ring s.q.avail.index
    (s.q.avail.index + s.add) (by omega) idx
  rw [UInt16.add_assoc] at hrec
  refine ⟨h1, ?_, ?_, ?_, h5, h6, h7, by simp, fun hi => absurd hirq hi, by simp [betweenBatches]⟩
  · refine List.Perm.trans ?_ h2
    simp only [owned, availIds, recycled, Virtq.availFrom, State.setAvail, havail, hrec, hpc,
      current, usedIds, taken, Virtq.usedFrom]
    rw [List.perm_iff_count]
    intro a
    simp only [List.count_append, List.count_nil]
    omega
  · simpa [VirtinputReports.pending, hpc, unqueued, usedIds, taken, State.setAvail,
      Virtq.usedFrom] using h3
  · simpa [hpc, unqueued, usedIds, taken, State.setAvail, Virtq.usedFrom] using h4

theorem publish_step {s : State} {done work : List VirtinEvent}
    (h : Inv sc s done work) (hpc : s.handler = .publish) (hirq : s.irq = .handling) :
    Inv sc { s.setAvail { s.q.avail with index := s.q.avail.index + s.add } with
      add := 0
      handler := .unmask } done work := by
  have hlen := own_length h
  rcases h with ⟨h1, h2, h3, h4, h5, h6, h7, -, -, -⟩
  have hext := @window_extend _ s.q.qsz s.q.avail.ring s.dev.seen s.q.avail.index s.add.toNat
    (by omega)
  rw [UInt16.ofNat_toNat] at hext
  refine ⟨h1, ?_, ?_, ?_, h5, h6, h7, by simp, fun hi => absurd hirq hi, fun _ => rfl⟩
  · simpa [owned, availIds, recycled, Virtq.availFrom, State.setAvail, hext, hpc, current,
      usedIds, taken, Virtq.usedFrom] using h2
  · simpa [VirtinputReports.pending, hpc, unqueued, usedIds, taken, State.setAvail,
      Virtq.usedFrom] using h3
  · simpa [hpc, unqueued, usedIds, taken, State.setAvail, Virtq.usedFrom] using h4

theorem handler_step {s t : State} {done work : List VirtinEvent} (h : Inv sc s done work)
    (hirq : s.irq = .handling) (ht : handlerStep .liteosA s = some t) : Inv sc t done work := by
  cases hpc : s.handler with
  | off => simp [handlerStep, hpc] at ht
  | mask =>
    have hadd := h.add (by rw [hpc]; rfl)
    simp only [handlerStep, hpc, Option.some.injEq] at ht
    subst ht
    have h' := h.moves virtqAvailFNoInterrupt s.q.last s.isr s.irq s.doorbell .test
      (by rw [hpc]; rfl) (by rw [hpc]; rfl) (by rw [hpc]; rfl) (by simp) (fun hi => absurd hirq hi)
      (by simp [betweenBatches])
    rw [← hadd]
    exact h'
  | test =>
    simp only [handlerStep, hpc, Option.some.injEq] at ht
    subst ht
    by_cases hne : s.q.last ≠ s.q.used.index
    · rw [if_pos hne]
      exact h.moves s.q.avail.flag s.q.last s.isr s.irq s.doorbell .read (by rw [hpc]; rfl)
        (by rw [hpc]; rfl) (by rw [hpc]; rfl) (fun _ => hne) (fun hi => absurd hirq hi)
        (by simp [betweenBatches])
    · rw [if_neg hne]
      exact h.moves s.q.avail.flag s.q.last s.isr s.irq s.doorbell .publish (by rw [hpc]; rfl)
        (by rw [hpc]; rfl) (by rw [hpc]; rfl) (by simp) (fun hi => absurd hirq hi)
        (by simp [betweenBatches])
  | read =>
    simp only [handlerStep, hpc, Option.some.injEq] at ht
    subst ht
    exact read_step h hpc hirq
  | process idx =>
    simp only [handlerStep, hpc, Option.some.injEq] at ht
    subst ht
    exact process_step h hpc hirq
  | recycle idx =>
    simp only [handlerStep, hpc, Option.some.injEq] at ht
    subst ht
    exact recycle_step h hpc hirq
  | advance =>
    simp only [handlerStep, hpc, Option.some.injEq] at ht
    subst ht
    exact h.moves s.q.avail.flag (s.q.last + 1) s.isr s.irq s.doorbell .test (by rw [hpc]; rfl)
      (by rw [hpc]; rfl) (by rw [hpc]; rfl) (by simp) (fun hi => absurd hirq hi)
      (by simp [betweenBatches])
  | publish =>
    simp only [handlerStep, hpc, Option.some.injEq] at ht
    subst ht
    exact publish_step h hpc hirq
  | unmask =>
    simp only [handlerStep, hpc, Option.some.injEq] at ht
    subst ht
    exact h.moves 0 s.q.last s.isr s.irq s.doorbell .notify (by rw [hpc]; rfl)
      (by rw [hpc]; rfl) (by rw [hpc]; rfl) (by simp) (fun hi => absurd hirq hi)
      (fun _ => h.add (by rw [hpc]; rfl))
  | notify =>
    simp only [handlerStep, hpc, Option.some.injEq] at ht
    subst ht
    exact h.moves s.q.avail.flag s.q.last s.isr s.irq _ .ack (by rw [hpc]; rfl)
      (by rw [hpc]; rfl) (by rw [hpc]; rfl) (by simp) (fun hi => absurd hirq hi)
      (fun _ => h.add (by rw [hpc]; rfl))
  | ack =>
    simp only [handlerStep, hpc, Option.some.injEq] at ht
    subst ht
    exact h.moves s.q.avail.flag s.q.last false s.irq s.doorbell .off (by rw [hpc]; rfl)
      (by rw [hpc]; rfl) (by rw [hpc]; rfl) (by simp) (fun _ => rfl)
      (fun _ => h.add (by rw [hpc]; rfl))

theorem irq_step {s t : State} {done work : List VirtinEvent} (h : Inv sc s done work)
    (ht : irqStep .liteosA s = some t) : Inv sc t done work := by
  cases hpc : s.irq with
  | idle =>
    have hoff := h.context (by simp [hpc])
    simp only [irqStep, hpc, Option.some.injEq] at ht
    subst ht
    exact h.moves s.q.avail.flag s.q.last s.isr .status s.doorbell s.handler rfl rfl rfl h.read
      (fun _ => hoff) h.add
  | status =>
    have hoff := h.context (by simp [hpc])
    simp only [irqStep, hpc] at ht
    split at ht
    · obtain rfl := Option.some.inj ht
      exact h.moves s.q.avail.flag s.q.last s.isr .handling s.doorbell .mask (by rw [hoff]; rfl)
        (by rw [hoff]; rfl) (by rw [hoff]; rfl) (by simp) (fun hi => absurd rfl hi)
        (fun _ => h.add (by rw [hoff]; rfl))
    · obtain rfl := Option.some.inj ht
      exact h.moves s.q.avail.flag s.q.last s.isr .idle s.doorbell s.handler rfl rfl rfl h.read
        (fun _ => hoff) h.add
  | handling =>
    simp only [irqStep, hpc] at ht
    split at ht
    next hoff =>
      obtain rfl := Option.some.inj ht
      exact h.moves s.q.avail.flag s.q.last s.isr .idle s.doorbell s.handler rfl rfl rfl h.read
        (fun _ => hoff) h.add
    next => exact handler_step h hpc ht
  | post =>
    have hoff := h.context (by simp [hpc])
    simp only [irqStep, hpc, Option.some.injEq] at ht
    subst ht
    rcases h with ⟨h1, h2, h3, h4, h5, h6, h7, h8, -, h10⟩
    exact ⟨h1, h2, h3, h4, h5, h6, h7, h8, fun _ => hoff, h10⟩

theorem edit_step {s : State} {done work work' : List VirtinEvent} {idx : UInt16}
    {e : VirtinEvent} {pc : CallbackPc} (h : Inv sc s done work)
    (hrun : running s.callback = [idx]) (hrun' : running pc = [idx]) (hw : work' = work)
    (hok : CallbackOk sc (Function.update s.ev idx e) work' pc) :
    Inv sc { s.setEv idx e with callback := pc } done work' := by
  rcases h with ⟨h1, h2, h3, h4, h5, -, h7, h8, h9, h10⟩
  have hout : idx ∉ s.wq ++ unqueued s.handler ++ usedIds s.q s.handler ++ filledIds s.dev := by
    simp only [VirtinputReports.pending, hrun, List.append_assoc] at h3 ⊢
    exact (List.nodup_cons.mp h3).1
  refine ⟨h1, h2, ?_, ?_, h5, hok, ?_, h8, h9, h10⟩
  · simpa [VirtinputReports.pending, State.setEv, hrun, hrun'] using h3
  · have hmap := @map_update s.ev idx e _ fun hm => hout (List.mem_append_left _ hm)
    rw [hw]
    exact h4.trans (congrArg _ hmap.symm)
  · intro id f hf
    have hne : id ≠ idx := by
      rintro rfl
      exact hout (List.mem_append_right _ (by simp [filledIds, show s.dev.filled = _ from hf]))
    exact (Function.update_of_ne hne _ _).trans (h7 id f hf)

theorem callback_step {s t : State} {done work : List VirtinEvent} (h : Inv sc s done work)
    (ht : callbackStep sc s = some t) : ∃ done' work', Inv sc t done' work' := by
  have hcb := h.callback
  cases hpc : s.callback with
  | idle =>
    rw [hpc] at hcb
    simp only [callbackStep, hpc] at ht
    rcases h with ⟨h1, h2, h3, h4, h5, -, h7, h8, h9, h10⟩
    cases hwq : s.wq with
    | nil => simp [hwq] at ht
    | cons idx wq =>
      simp only [hwq, Option.some.injEq] at ht
      subst ht
      refine ⟨done, [s.ev idx], h1, h2, ?_, ?_, h5, rfl, h7, h8, h9, h10⟩
      · simpa [VirtinputReports.pending, hpc, running, hwq] using h3
      · simpa [hwq, show work = [] from hcb] using h4
  | test idx =>
    rw [hpc] at hcb
    simp only [callbackStep, hpc, Option.some.injEq] at ht
    subst ht
    have hwork : work = [s.ev idx] := hcb
    have hpend := h.pending
    rcases h with ⟨h1, h2, h3, h4, h5, -, h7, h8, h9, h10⟩
    have hstay : ∀ pc, running pc = [idx] → CallbackOk sc s.ev work pc →
        Inv sc { s with callback := pc } done work := by
      intro pc hrun hok
      refine ⟨h1, h2, ?_, h4, h5, hok, h7, h8, h9, h10⟩
      have htest : running (.test idx) = [idx] := rfl
      simpa [VirtinputReports.pending, hpc, htest, hrun] using h3
    refine ⟨done, work, hstay _ ?_ ?_⟩
    · split
      · rfl
      · split <;> rfl
    · by_cases hx : (s.ev idx).type = evAbs ∧ (s.ev idx).code = absX
      · rw [if_pos hx]
        exact ⟨hwork, by simp [scaled, hx, axisCode, Screen.res]⟩
      · by_cases hy : (s.ev idx).type = evAbs ∧ (s.ev idx).code = absY
        · rw [if_neg hx, if_pos hy]
          exact ⟨hwork, by rw [scaled, if_neg hx, if_pos hy]; rfl⟩
        · rw [if_neg hx, if_neg hy]
          exact ⟨s.ev idx, hwork, by rw [scaled, if_neg hx, if_neg hy]⟩
  | scale idx axis =>
    rw [hpc] at hcb
    simp only [callbackStep, hpc, Option.some.injEq] at ht
    subst ht
    rcases hcb with ⟨hwork, hscaled⟩
    refine ⟨done, work, edit_step h (by rw [hpc]; rfl) rfl rfl ⟨s.ev idx, hwork, ?_⟩⟩
    rw [hscaled, Function.update_self]
  | recode idx axis =>
    rw [hpc] at hcb
    simp only [callbackStep, hpc, Option.some.injEq] at ht
    subst ht
    rcases hcb with ⟨e, hwork, hscaled⟩
    refine ⟨done, work, edit_step h (by rw [hpc]; rfl) rfl rfl ⟨e, hwork, ?_⟩⟩
    rw [hscaled, Function.update_self]
  | report idx =>
    rw [hpc] at hcb
    simp only [callbackStep, hpc, Option.some.injEq] at ht
    subst ht
    rcases hcb with ⟨e, hwork, hscaled⟩
    rcases h with ⟨h1, h2, h3, h4, h5, -, h7, h8, h9, h10⟩
    refine ⟨done ++ [e], [], h1, h2, ?_, ?_, ?_, rfl, h7, h8, h9, h10⟩
    · simp only [VirtinputReports.pending, hpc, running] at h3 ⊢
      exact (List.nodup_cons.mp h3).2
    · simpa [hwork] using h4
    · simp [h5, hscaled]

/-- The device does not write a buffer whose last event is still to be reported. -/
def FreshWrite (s : State) : Event → Prop
  | .write i _ => ∀ id ∈ s.dev.inFlight[i]?, id ∉ running s.callback ++ s.wq
  | _ => True

instance (s : State) : ∀ e, Decidable (FreshWrite s e)
  | .write i _ =>
    decidable_of_iff (((s.dev.inFlight[i]?).all
      fun id => decide (id ∉ running s.callback ++ s.wq)) = true) (by simp [FreshWrite, Option.all_eq_true])
  | .irq | .task | .callback | .fetch | .append | .raise | .usedFlag _ => isTrue trivial

theorem fetch_step {s t : State} {done work : List VirtinEvent} (h : Inv sc s done work)
    (ht : deviceFetch s = some t) : Inv sc t done work := by
  rcases h with ⟨h1, h2, h3, h4, h5, h6, h7, h8, h9, h10⟩
  simp only [deviceFetch] at ht
  obtain ⟨hne, ht⟩ := Option.ite_none_left_eq_some.mp ht
  obtain rfl := Option.some.inj ht
  have havail := @window_pop _ s.q.qsz s.q.avail.ring _ _ hne
  refine ⟨h1, ?_, h3, h4, h5, h6, h7, h8, h9, h10⟩
  refine List.Perm.trans ?_ h2
  rw [List.perm_iff_count]
  intro a
  simp only [owned, availIds, Virtq.availFrom, havail, filledIds, List.count_append,
    List.count_cons, List.count_nil]
  omega

theorem unqueued_current {a : UInt16} {pc : HandlerPc} (h : a ∈ unqueued pc) : a ∈ current pc := by
  cases pc with
  | process idx => exact h
  | _ => simp [unqueued] at h

theorem callback_update {ev : UInt16 → VirtinEvent} {work : List VirtinEvent} {pc : CallbackPc}
    {id : UInt16} {e : VirtinEvent} (h : CallbackOk sc ev work pc) (hid : id ∉ running pc) :
    CallbackOk sc (Function.update ev id e) work pc := by
  cases pc with
  | idle => exact h
  | test idx | scale idx | recode idx | report idx =>
    have hne : idx ≠ id := fun heq => hid (by simp [running, heq])
    simpa only [CallbackOk, Function.update_of_ne hne] using h

theorem write_step {s t : State} {done work : List VirtinEvent} {i : ℕ} {e : VirtinEvent}
    (h : Inv sc s done work) (hc : FreshWrite s (.write i e)) (ht : deviceWrite s i e = some t) :
    Inv sc t done work := by
  have hnodup := own_nodup h
  rcases h with ⟨h1, h2, h3, h4, h5, h6, h7, h8, h9, h10⟩
  simp only [deviceWrite] at ht
  split at ht
  next id hfilled hid =>
    obtain rfl := Option.some.inj ht
    have hmem : id ∈ s.dev.inFlight := List.mem_of_getElem? hid
    have hperm : (id :: s.dev.inFlight.eraseIdx i).Perm s.dev.inFlight := by
      obtain ⟨hlt, rfl⟩ := List.getElem?_eq_some_iff.mp hid
      exact List.getElem_cons_eraseIdx_perm hlt
    have hfresh := hc id hid
    have hused : id ∉ usedIds s.q s.handler := by
      intro hm
      refine (List.nodup_append.mp hnodup).2.2 id ?_ id hm rfl
      simp [hmem]
    have hcurrent : id ∉ current s.handler := by
      intro hm
      refine (List.nodup_append.mp (List.nodup_append.mp hnodup).1).2.2 id ?_ id hm rfl
      simp [hmem]
    have hunqueued : id ∉ unqueued s.handler := fun hm => hcurrent (unqueued_current hm)
    have hout : id ∉ s.wq ++ unqueued s.handler ++ usedIds s.q s.handler := by
      simp only [List.mem_append, not_or] at hfresh ⊢
      exact ⟨⟨hfresh.2, hunqueued⟩, hused⟩
    have hrun : id ∉ running s.callback := fun hm => hfresh (List.mem_append_left _ hm)
    have hpend : id ∉ running s.callback ++ s.wq ++ unqueued s.handler ++
        usedIds s.q s.handler := by
      simp only [List.append_assoc, List.mem_append, not_or] at hout ⊢
      exact ⟨hrun, hout⟩
    refine ⟨h1, ?_, ?_, ?_, h5, callback_update h6 hrun, ?_, h8, h9, h10⟩
    · refine List.Perm.trans ?_ h2
      rw [List.perm_iff_count]
      intro a
      have hcount := hperm.count_eq a
      simp only [owned, availIds, hfilled, filledIds, State.setEv, Option.map_none, Option.map_some,
        Option.toList_none, Option.toList_some, List.count_append, List.count_cons,
        List.count_nil] at hcount ⊢
      omega
    · simp only [VirtinputReports.pending, hfilled, filledIds, State.setEv, Option.map_none,
        Option.map_some, Option.toList_none, Option.toList_some, List.append_nil] at h3 ⊢
      rw [List.nodup_append]
      refine ⟨h3, by simp, ?_⟩
      intro a ha b hb
      obtain rfl := List.mem_singleton.mp hb
      rintro rfl
      exact hpend ha
    · exact h4.trans (congrArg _ (map_update hout).symm)
    · intro id' f hf
      obtain ⟨rfl, rfl⟩ := Prod.mk.inj (Option.some.inj hf)
      exact Function.update_self ..
  next => simp at ht

theorem append_step {s t : State} {done work : List VirtinEvent} (h : Inv sc s done work)
    (ht : deviceAppend s = some t) : Inv sc t done work := by
  have hlen := own_length h
  rcases h with ⟨h1, h2, h3, h4, h5, h6, h7, h8, h9, h10⟩
  simp only [deviceAppend] at ht
  split at ht
  · simp at ht
  next id e hfilled =>
    obtain rfl := Option.some.inj ht
    have hev := h7 id e hfilled
    have hpow : PowTwo s.q.qsz := h1 ▸ powTwo_event
    have h8' : s.q.qsz.toNat = 8 := by rw [h1]; rfl
    simp only [hfilled, filledIds, Option.map_some, Option.toList_some, List.length_singleton]
      at hlen
    have hpush := @window_push _ _ hpow s.q.used.ring (taken s.q.last s.handler) s.q.used.index
      (by omega) ⟨id.toUInt32, 8⟩
    refine ⟨h1, ?_, ?_, ?_, h5, h6, by simp, ?_, h9, h10⟩
    · refine List.Perm.trans ?_ h2
      rw [List.perm_iff_count]
      intro a
      simp only [owned, availIds, Virtq.availFrom, recycled, usedIds, Virtq.usedFrom, hpush,
        hfilled, filledIds, List.map_append, List.map_cons, List.map_nil, UInt16.toUInt16_toUInt32,
        Option.map_none, Option.map_some, Option.toList_none, Option.toList_some,
        List.count_append, List.count_nil]
      omega
    · simpa [VirtinputReports.pending, usedIds, Virtq.usedFrom, hpush, hfilled, filledIds] using h3
    · simp [h4, usedIds, Virtq.usedFrom, hpush, hev]
    · intro hpc heq
      have hlast : taken s.q.last s.handler = s.q.last := by
        rw [show s.handler = .read from hpc]
        rfl
      have hgap := @gap_succ s.q.last s.q.used.index (by rw [hlast] at hlen; omega)
      have hzero : (s.q.used.index + 1 - s.q.last).toNat = 0 := gap_eq_zero.mpr heq
      omega

theorem next_step {s t : State} {done work : List VirtinEvent} {e : Event}
    (h : Inv sc s done work) (hc : FreshWrite s e) (ht : next .liteosA sc s e = some t) :
    ∃ done' work', Inv sc t done' work' := by
  cases e with
  | irq => exact ⟨done, work, irq_step h ht⟩
  | task => simp [next, taskStep] at ht
  | callback => exact callback_step h ht
  | fetch => exact ⟨done, work, fetch_step h ht⟩
  | write i e => exact ⟨done, work, write_step h hc ht⟩
  | append => exact ⟨done, work, append_step h ht⟩
  | raise =>
    simp only [next, deviceRaise] at ht
    obtain ⟨-, ht⟩ := Option.ite_none_right_eq_some.mp ht
    obtain rfl := Option.some.inj ht
    rcases h with ⟨h1, h2, h3, h4, h5, h6, h7, h8, h9, h10⟩
    exact ⟨done, work, h1, h2, h3, h4, h5, h6, h7, h8, h9, h10⟩
  | usedFlag flag =>
    obtain rfl := Option.some.inj ht
    rcases h with ⟨h1, h2, h3, h4, h5, h6, h7, h8, h9, h10⟩
    exact ⟨done, work, h1, h2, h3, h4, h5, h6, h7, h8, h9, h10⟩

theorem reachable_inv {s : State} (h : ReachableUnder (system .liteosA sc) FreshWrite s) :
    ∃ done work, Inv sc s done work := by
  refine h.invariant (I := fun s => ∃ done work, Inv sc s done work) ?_ ?_
  · exact fun s hi => ⟨[], [], init_inv hi⟩
  · rintro s e t ⟨done, work, hI⟩ hc ht
    exact next_step hI hc ht

/-- Every used element is taken and its work item has run. -/
structure Settled (s : State) : Prop where
  drained : s.q.last = s.q.used.index
  queue : s.wq = []
  callback : s.callback = .idle

/-- A drained ring leaves VirtinHandleEv no element it has read and not yet counted. -/
theorem Settled.untaken {s : State} {done work : List VirtinEvent} (h : Settled s)
    (hI : Inv sc s done work) : unqueued s.handler = [] ∧ usedIds s.q s.handler = [] := by
  have hlen := own_length hI
  have hgap : (s.q.used.index - (s.q.last + 1)).toNat = 65535 := by
    rw [h.drained, toNat_gap, UInt16.toNat_add, UInt16.toNat_one]
    have := s.q.used.index.toNat_lt
    omega
  cases hpc : s.handler with
  | process idx | recycle idx | advance =>
    simp only [hpc, taken, hgap] at hlen
    omega
  | _ => simp [unqueued, usedIds, Virtq.usedFrom, taken, h.drained]

theorem reported_delivered {s : State}
    (h : ReachableUnder (system .liteosA sc) FreshWrite s) :
    s.reported <+: s.delivered.map (scaled sc) ∧
      (Settled s → s.reported = s.delivered.map (scaled sc)) := by
  rcases reachable_inv h with ⟨done, work, hI⟩
  constructor
  · rw [hI.reported, hI.delivered, List.append_assoc, List.map_append]
    exact List.prefix_append ..
  · intro hs
    obtain ⟨hunq, hused⟩ := Settled.untaken hs hI
    have hwork : work = [] := by
      have hcb := hI.callback
      rw [hs.callback] at hcb
      exact hcb
    rw [hI.reported, hI.delivered, hwork, hs.queue, hunq, hused]
    simp

/-- Key `i` goes down, in the oldest buffer the device holds. -/
def keyDown (i : UInt16) : List Event := [.fetch, .write 0 ⟨evKey, i, 1⟩, .append, .raise]

/-- VirtinIRQhandle takes `n` used elements. -/
def handle (n : ℕ) : List Event := List.replicate (8 + 5 * n) .irq

/-- All buffers are used and recycled, and the ninth key goes into the buffer of the first one
before its work item runs. -/
def ninthKey : List Event :=
  ([0, 1, 2, 3, 4, 5, 6, 7].flatMap keyDown) ++ handle 8 ++ keyDown 8 ++
    List.replicate 3 .callback

theorem reported_overwritten :
    ¬ ∀ s, Reachable (system .liteosA ⟨960, 480⟩) s →
      s.reported <+: s.delivered.map (scaled ⟨960, 480⟩) := by
  intro h
  have hrun : ((system .liteosA ⟨960, 480⟩).run zeroed ninthKey).map
      (fun s => !decide (s.reported <+: s.delivered.map (scaled ⟨960, 480⟩))) = some true := by
    decide +kernel
  rcases exists_reachable init_zeroed hrun with ⟨s, hs, hp⟩
  simp [h s hs] at hp

def pointerMove : List Event :=
  [.fetch, .write 0 ⟨evAbs, absX, 0x4000⟩, .append, .raise] ++ handle 1 ++
    List.replicate 5 .callback

theorem reported_delivered_pointerMove :
    ∃ s, (system .liteosA ⟨960, 480⟩).run zeroed pointerMove = some s ∧
      s.reported = [⟨evAbs, absMtPositionX, 480⟩] ∧
      s.reported <+: s.delivered.map (scaled ⟨960, 480⟩) := by
  have hrun : ((system .liteosA ⟨960, 480⟩).run zeroed pointerMove).map State.reported =
      some [⟨evAbs, absMtPositionX, 480⟩] := by decide +kernel
  rcases Option.map_eq_some_iff.mp hrun with ⟨s, hs, hreported⟩
  have hsteps : StepsMeet (system .liteosA ⟨960, 480⟩) FreshWrite zeroed pointerMove := by
    decide +kernel
  exact ⟨s, hs, hreported, (reported_delivered (.run (.init init_zeroed) hsteps hs)).1⟩

end VirtinputReports
