import DeviceQemu.VirtnetRxBuffers
import Mathlib.Data.List.Perm.Basic

/-! Conservation of receive buffers.
Every step leaves each buffer id where it is or moves it from one station to another, so the
ids at all stations are always a rearrangement of the descriptor indices. -/
namespace VirtnetRxConservation

open StepSystem RingWindow Virtmmio HandoverLog VirtnetRxBuffers
open VirtnetRx (Mode ReleasePc Verdict handlerStep releaseStep releaseStep_frame)

variable {mode : Mode} {qsz : UInt16} {s t : State}

def ledger (s : State) : List UInt16 :=
  available s.rx ++ unprocessed s.rx ++ batch s.rx ++ held s

/-- Inside the section under recvLock. -/
def critical : ReleasePc → Bool
  | .ring _ | .bump | .unlock => true
  | .lock _ | .notify => false

def HandlerOk (mode : Mode) (rx : VirtnetRx.State) : Prop :=
  match rx.handler with
  | .remask | .read => rx.q.last ≠ rx.q.used.index
  | .input e => rx.q.last ≠ rx.q.used.index ∧ e = rx.q.used.ring (slot rx.q.qsz rx.q.last)
  | .recycle e =>
    (rx.q.last ≠ rx.q.used.index ∧ e = rx.q.used.ring (slot rx.q.qsz rx.q.last)) ∧ mode = .copy
  | .publish | .notify => mode = .copy
  | .release _ => mode = .zeroCopy
  | _ => True

/-- Nothing is lent where packets are copied, and nothing is batched where they are lent. -/
def ModeOk : Mode → State → Prop
  | .copy, s => s.rx.lent = [] ∧ s.apps = []
  | .zeroCopy, s => s.rx.add = 0

structure Inv (mode : Mode) (qsz : UInt16) (s : State) : Prop where
  size : s.rx.q.qsz = qsz
  desc : ∀ i, i < qsz → (s.rx.q.desc i).len = VirtnetRx.perRxBufSize
  conserved : (ledger s).Perm (indices qsz)
  handler : HandlerOk mode s.rx
  lock : (calls s).countP critical = s.rx.recvLock.toNat
  mode : ModeOk mode s

theorem Inv.count (h : Inv mode qsz s) :
    (s.rx.q.avail.index - s.rx.dev.seen).toNat + s.rx.dev.inFlight.length +
      (s.rx.q.used.index - position s.rx).toNat + (batch s.rx).length + (held s).length =
        qsz.toNat := by
  have hlen := h.conserved.length_eq
  simp only [ledger, available, unprocessed, Virtq.availFrom, Virtq.usedFrom, List.length_append,
    List.length_map, length_window, length_indices] at hlen
  omega

theorem Inv.nodup (h : Inv mode qsz s) : (ledger s).Nodup :=
  h.conserved.nodup_iff.mpr (nodup_indices qsz)

theorem Inv.available_nodup (h : Inv mode qsz s) : (available s.rx).Nodup := by
  have hn := h.nodup
  simp only [ledger, List.append_assoc] at hn
  exact hn.of_append_left

/-- What is not available does not appear among the available ids. -/
theorem Inv.apart (h : Inv mode qsz s) {id : UInt16}
    (hid : id ∈ unprocessed s.rx ∨ id ∈ batch s.rx ∨ id ∈ held s) : id ∉ available s.rx := by
  intro ha
  have hn := h.nodup
  simp only [ledger, List.append_assoc] at hn
  exact (List.nodup_append.mp hn).2.2 id ha id (by simpa using hid) rfl

theorem mem_indices {id : UInt16} : id ∈ indices qsz ↔ id < qsz := by
  have := qsz.toNat_lt
  simp only [indices, List.mem_map, List.mem_range]
  constructor
  · rintro ⟨i, hi, rfl⟩
    rw [UInt16.lt_iff_toNat_lt, UInt16.toNat_ofNat']
    omega
  · intro h
    exact ⟨id.toNat, UInt16.lt_iff_toNat_lt.mp h, UInt16.ofNat_toNat⟩

theorem gap_add_self (c k : UInt16) : (c + k - c).toNat = k.toNat := by
  rw [UInt16.add_comm, UInt16.add_sub_cancel]

theorem pending_of_not_critical {rx rx' : VirtnetRx.State} {r : ReleasePc}
    (h : critical r = false) : pending rx' r = pending rx r := by
  cases r with
  | bump => simp [critical] at h
  | _ => rfl

theorem rest_not_critical {r : ReleasePc} {rest : List ReleasePc} {b : Bool}
    (hr : critical r = true) (h : (r :: rest).countP critical = b.toNat) :
    b = true ∧ ∀ x ∈ rest, critical x = false := by
  simp only [List.countP_cons, hr, if_true] at h
  have hb := Bool.toNat_le b
  have hrest : rest.countP critical = 0 := by omega
  refine ⟨?_, fun x hx => ?_⟩
  · cases b with
    | false => simp at h
    | true => rfl
  · simpa using List.countP_eq_zero.mp hrest x hx

theorem release_moves {rx rx' : VirtnetRx.State} {r : ReleasePc} {r' : Option ReleasePc}
    {rest : List ReleasePc} (hq : PowTwo rx.q.qsz)
    (hgap : pending rx r ≠ [] → (rx.q.avail.index - rx.dev.seen).toNat < rx.q.qsz.toNat)
    (hlock : (r :: rest).countP critical = rx.recvLock.toNat)
    (h : releaseStep rx r = some (rx', r')) :
    (r'.toList ++ rest).countP critical = rx'.recvLock.toNat ∧
    rx'.q.availFrom rx'.dev.seen = rx.q.availFrom rx.dev.seen ++ released rx r ∧
    pending rx r = released rx r ++ r'.toList.flatMap (pending rx') ∧
    rest.flatMap (pending rx') = rest.flatMap (pending rx) := by
  have hlt := rx.q.qsz.toNat_lt
  have hfree (hrest : ∀ x ∈ rest, critical x = false) :
      rest.flatMap (pending rx') = rest.flatMap (pending rx) :=
    List.flatMap_congr fun x hx => pending_of_not_critical (hrest x hx)
  cases r with
  | lock id =>
    simp only [releaseStep, Option.ite_none_left_eq_some, Option.some.injEq, Prod.mk.injEq] at h
    obtain ⟨hb, rfl, rfl⟩ := h
    have hz : rest.countP critical = 0 := by simpa [List.countP_cons, hb, critical] using hlock
    refine ⟨?_, by simp [released], by simp [pending, released], hfree fun x hx => ?_⟩
    · simp [List.countP_cons, hz, critical]
    · simpa using List.countP_eq_zero.mp hz x hx
  | ring id =>
    simp only [releaseStep, Option.some.injEq, Prod.mk.injEq] at h
    obtain ⟨rfl, rfl⟩ := h
    obtain ⟨-, hrest⟩ := rest_not_critical rfl hlock
    refine ⟨?_, ?_, ?_, hfree hrest⟩
    · simpa [critical, List.countP_cons, VirtnetRx.State.setAvail] using hlock
    · simp only [released, List.append_nil, Virtq.availFrom, VirtnetRx.State.setAvail]
      simpa using window_update hq (k := 0) (hgap (by simp [pending])) id
    · simp [released, pending, VirtnetRx.State.setAvail]
  | bump =>
    simp only [releaseStep, Option.some.injEq, Prod.mk.injEq] at h
    obtain ⟨rfl, rfl⟩ := h
    obtain ⟨-, hrest⟩ := rest_not_critical rfl hlock
    have hgap := hgap (by simp [pending])
    refine ⟨?_, ?_, ?_, hfree hrest⟩
    · simpa [critical, List.countP_cons, VirtnetRx.State.setAvail] using hlock
    · simp only [released, pending, Virtq.availFrom, VirtnetRx.State.setAvail]
      exact window_bump (by omega)
    · simp [released, pending]
  | unlock =>
    simp only [releaseStep, Option.some.injEq, Prod.mk.injEq] at h
    obtain ⟨rfl, rfl⟩ := h
    obtain ⟨-, hrest⟩ := rest_not_critical rfl hlock
    refine ⟨?_, by simp [released], by simp [pending, released], hfree hrest⟩
    simpa [critical] using hrest
  | notify =>
    simp only [releaseStep, Option.some.injEq, Prod.mk.injEq] at h
    obtain ⟨rfl, rfl⟩ := h
    refine ⟨?_, by simp [released, VirtnetRx.State.notify], by simp [pending, released], ?_⟩
    · simpa [critical, List.countP_cons, VirtnetRx.State.notify] using hlock
    · rfl

/-- How a step moves ids to and from the device, and what the log says of it. -/
inductive Flow (s t : State) : Prop where
  | give (ids : List UInt16) (log : t.log = s.log ++ ids.map .give)
      (available : (available t.rx).Perm (available s.rx ++ ids))
  | take (id : UInt16) (log : t.log = s.log ++ [.take id])
      (available : (available s.rx).Perm (id :: available t.rx))

theorem Flow.quiet (log : t.log = s.log) (h : available t.rx = available s.rx) : Flow s t :=
  .give [] (by simpa using log) (by rw [h, List.append_nil])

theorem batch_zero {rx : VirtnetRx.State} (h : rx.add = 0) : batch rx = [] := by
  simp only [batch, h, UInt16.add_zero, window_self]
  split <;> rfl

theorem usedFrom_pop {rx : VirtnetRx.State} (h : rx.q.last ≠ rx.q.used.index) :
    rx.q.usedFrom rx.q.last =
      rx.q.used.ring (slot rx.q.qsz rx.q.last) :: rx.q.usedFrom (rx.q.last + 1) := window_pop h

theorem copy_calls (h : ModeOk .copy s) (hr : HandlerOk .copy s.rx) : calls s = [] := by
  cases hpc : s.rx.handler with
  | release r => simp [HandlerOk, hpc] at hr
  | _ => simp [calls, hpc, h.2]

theorem pending_congr {rx rx' : VirtnetRx.State} (hsize : rx'.q.qsz = rx.q.qsz)
    (hring : rx'.q.avail.ring = rx.q.avail.ring) (hindex : rx'.q.avail.index = rx.q.avail.index) :
    pending rx' = pending rx := by
  funext r
  cases r <;> simp only [pending, hsize, hring, hindex]

theorem Inv.silent (h : Inv mode qsz s)
    (hq : t.rx.q = { s.rx.q with
      avail := { s.rx.q.avail with flag := t.rx.q.avail.flag }
      used := { s.rx.q.used with flag := t.rx.q.used.flag } })
    (hdev : t.rx.dev.seen = s.rx.dev.seen ∧ t.rx.dev.inFlight = s.rx.dev.inFlight)
    (hlent : t.rx.lent = s.rx.lent) (hrecv : t.rx.recvLock = s.rx.recvLock)
    (hcalls : calls t = calls s) (hlog : t.log = s.log)
    (hposition : position t.rx = position s.rx) (hbatch : batch t.rx = batch s.rx)
    (hok : HandlerOk mode t.rx) (hmode : ModeOk mode t) : Inv mode qsz t ∧ Flow s t := by
  obtain ⟨hseen, hflight⟩ := hdev
  have hsize : t.rx.q.qsz = s.rx.q.qsz := by rw [hq]
  have hav : available t.rx = available s.rx := by
    rw [available, available, hseen, hflight, hq]
    rfl
  have hun : unprocessed t.rx = unprocessed s.rx := by
    rw [unprocessed, unprocessed, hposition, hq]
    rfl
  have hheld : held t = held s := by
    rw [held, held, hlent, hcalls, pending_congr hsize (by rw [hq]) (by rw [hq])]
  refine ⟨⟨hsize.trans h.size, ?_, ?_, hok, ?_, hmode⟩, .quiet hlog hav⟩
  · intro i hi
    rw [hq]
    exact h.desc i hi
  · rw [ledger, hav, hun, hbatch, hheld]
    exact h.conserved
  · rw [hcalls, hrecv]
    exact h.lock

/-- Between these program points the handler moves no buffer. -/
def plain : VirtnetRx.RxPc → Bool
  | .test | .unmask | .recheck | .remask | .read | .input _ | .recycle _ | .publish => true
  | _ => false

theorem Inv.goOn (h : Inv mode qsz s) {flag : UInt16} {pc : VirtnetRx.RxPc}
    (hs : plain s.rx.handler = true) (hpc : plain pc = true)
    (ht : t = { s with rx := { s.rx with
      q := { s.rx.q with avail := { s.rx.q.avail with flag } }, handler := pc } })
    (hok : HandlerOk mode t.rx) : Inv mode qsz t ∧ Flow s t := by
  subst ht
  refine h.silent rfl ⟨rfl, rfl⟩ rfl rfl ?_ rfl ?_ ?_ hok ?_
  · cases h' : s.rx.handler <;> cases pc <;> simp_all [calls, plain]
  · cases h' : s.rx.handler <;> cases pc <;> simp_all [position, plain]
  · cases h' : s.rx.handler <;> cases pc <;> simp_all [batch, plain]
  · have hmode := h.mode
    cases mode <;> exact hmode

theorem Inv.conserved_of (h : Inv mode qsz s)
    (hc : ∀ id, (available t.rx).count id + (unprocessed t.rx).count id + (batch t.rx).count id +
      (held t).count id = (available s.rx).count id + (unprocessed s.rx).count id +
        (batch s.rx).count id + (held s).count id) : (ledger t).Perm (indices qsz) := by
  refine List.Perm.trans ?_ h.conserved
  rw [List.perm_iff_count]
  intro id
  simp only [ledger, List.count_append, hc id]

theorem input_step (h : Inv mode qsz s) {v : Verdict} {e : VirtqUsedElem}
    (hpc : s.rx.handler = .input e) (ht : handlerNext mode v s = some t) :
    Inv mode qsz t ∧ Flow s t := by
  have hok := h.handler
  simp only [HandlerOk, hpc] at hok
  obtain ⟨hne, he⟩ := hok
  have hmode := h.mode
  have hlock := h.lock
  have hcalls : calls s = s.apps := by simp [calls, hpc]
  have hun : unprocessed s.rx = e.id.toUInt16 ::
      (s.rx.q.usedFrom (s.rx.q.last + 1)).map fun e => e.id.toUInt16 := by
    simp only [unprocessed, position, hpc, usedFrom_pop hne, List.map_cons, ← he]
  cases mode with
  | copy =>
    simp only [handlerNext, handlerStep, published, VirtnetRx.input, hpc, Option.map_some,
      Option.some.injEq, List.map_nil, List.append_nil] at ht
    subst ht
    refine h.silent rfl ⟨rfl, rfl⟩ rfl rfl ?_ rfl ?_ ?_ ⟨⟨hne, he⟩, rfl⟩ hmode
    · simp [calls, hpc]
    · simp [position, hpc]
    · simp [batch, hpc]
  | zeroCopy =>
    have hbatch := batch_zero hmode
    have hheld : held s = s.rx.lent ++ s.apps.flatMap (pending s.rx) := by rw [held, hcalls]
    by_cases hv : v.accept = true
    · simp only [handlerNext, handlerStep, published, VirtnetRx.input, hpc, hv, Option.map_some,
        Option.some.injEq, List.map_nil, List.append_nil, if_true] at ht
      have hav : available t.rx = available s.rx := by subst ht; rfl
      have hun' : unprocessed t.rx =
          (s.rx.q.usedFrom (s.rx.q.last + 1)).map fun e => e.id.toUInt16 := by subst ht; rfl
      have hbatch' : batch t.rx = [] := batch_zero (by subst ht; exact hmode)
      have hp : pending t.rx = pending s.rx := by subst ht; exact pending_congr rfl rfl rfl
      have hheld' : held t =
          s.rx.lent ++ [e.id.toUInt16] ++ s.apps.flatMap (pending s.rx) := by
        rw [held, hp]
        subst ht
        rfl
      have hcons := h.conserved_of (t := t) fun id => by
        rw [hav, hun, hun', hbatch, hbatch', hheld, hheld']
        simp only [List.count_append, List.count_cons, List.count_nil]
        omega
      subst ht
      exact ⟨⟨h.size, h.desc, hcons, trivial, hcalls ▸ hlock, hmode⟩, .quiet rfl hav⟩
    · simp only [handlerNext, handlerStep, published, VirtnetRx.input, hpc, hv, Option.map_some,
        Option.some.injEq, List.map_nil, List.append_nil] at ht
      have hav : available t.rx = available s.rx := by subst ht; rfl
      have hun' : unprocessed t.rx =
          (s.rx.q.usedFrom (s.rx.q.last + 1)).map fun e => e.id.toUInt16 := by subst ht; rfl
      have hbatch' : batch t.rx = [] := batch_zero (by subst ht; exact hmode)
      have hp : pending t.rx = pending s.rx := by subst ht; exact pending_congr rfl rfl rfl
      have hheld' : held t =
          s.rx.lent ++ e.id.toUInt16 :: s.apps.flatMap (pending s.rx) := by
        rw [held, hp]
        subst ht
        rfl
      have hcons := h.conserved_of (t := t) fun id => by
        rw [hav, hun, hun', hbatch, hbatch', hheld, hheld']
        simp only [List.count_append, List.count_cons, List.count_nil]
        omega
      have hlock' : (calls t).countP critical = t.rx.recvLock.toNat := by
        rw [hcalls] at hlock
        subst ht
        simpa [calls, critical, List.countP_cons] using hlock
      subst ht
      exact ⟨⟨h.size, h.desc, hcons, rfl, hlock', hmode⟩, .quiet rfl hav⟩

theorem recycle_step (hq : PowTwo qsz) (h : Inv mode qsz s) {v : Verdict} {e : VirtqUsedElem}
    (hpc : s.rx.handler = .recycle e) (ht : handlerNext mode v s = some t) :
    Inv mode qsz t ∧ Flow s t := by
  have hcount := h.count
  have hqlt := qsz.toNat_lt
  have hok := h.handler
  simp only [HandlerOk, hpc] at hok
  obtain ⟨⟨hne, he⟩, rfl⟩ := hok
  have hcalls : calls s = s.apps := by simp [calls, hpc]
  have hun : unprocessed s.rx = e.id.toUInt16 ::
      (s.rx.q.usedFrom (s.rx.q.last + 1)).map fun e => e.id.toUInt16 := by
    simp only [unprocessed, position, hpc, usedFrom_pop hne, List.map_cons, ← he]
  have hbatch : batch s.rx = window s.rx.q.qsz s.rx.q.avail.ring s.rx.q.avail.index
      (s.rx.q.avail.index + s.rx.add) := by simp [batch, hpc]
  have hgap : (s.rx.q.avail.index - s.rx.dev.seen).toNat + s.rx.add.toNat < qsz.toNat := by
    have := congrArg List.length hun
    rw [hbatch, length_window, gap_add_self] at hcount
    simp only [unprocessed, List.length_map, List.length_cons, Virtq.usedFrom,
      length_window] at this
    omega
  simp only [handlerNext, handlerStep, published, hpc, Option.map_some,
    Option.some.injEq, List.map_nil, List.append_nil] at ht
  have hav : available t.rx = available s.rx := by
    have hw := @window_update _ _ (h.size ▸ hq) s.rx.q.avail.ring _ _ _ (h.size ▸ hgap)
      e.id.toUInt16
    rw [UInt16.ofNat_toNat] at hw
    subst ht
    simp only [available, Virtq.availFrom, VirtnetRx.State.setAvail, hw]
  have hun' : unprocessed t.rx =
      (s.rx.q.usedFrom (s.rx.q.last + 1)).map fun e => e.id.toUInt16 := by subst ht; rfl
  have hbatch' : batch t.rx = batch s.rx ++ [e.id.toUInt16] := by
    have hroom : (s.rx.q.avail.index + s.rx.add - s.rx.q.avail.index).toNat <
        s.rx.q.qsz.toNat := by
      rw [gap_add_self, h.size]
      omega
    have hw := @window_push _ _ (h.size ▸ hq) s.rx.q.avail.ring _ _ hroom e.id.toUInt16
    rw [hbatch, ← hw]
    subst ht
    simp only [batch, VirtnetRx.State.setAvail, UInt16.add_assoc]
  have hheld : held s = [] := by simp [held, hcalls, h.mode.1, h.mode.2]
  have hheld' : held t = [] := by
    subst ht
    simp [held, calls, VirtnetRx.State.setAvail, h.mode.1, h.mode.2]
  have hcons := h.conserved_of (t := t) fun id => by
    rw [hav, hun, hun', hbatch', hheld, hheld']
    simp only [List.count_append, List.count_cons, List.count_nil]
    omega
  have hlock := h.lock
  rw [hcalls] at hlock
  subst ht
  exact ⟨⟨h.size, h.desc, hcons, trivial, hlock, h.mode⟩, .quiet rfl hav⟩

theorem advance_step (h : Inv mode qsz s) {v : Verdict} (hpc : s.rx.handler = .advance)
    (ht : handlerNext mode v s = some t) : Inv mode qsz t ∧ Flow s t := by
  have hcalls : calls s = s.apps := by simp [calls, hpc]
  simp only [handlerNext, handlerStep, published, hpc, Option.map_some,
    Option.some.injEq, List.map_nil, List.append_nil] at ht
  have hav : available t.rx = available s.rx := by subst ht; rfl
  have hun : unprocessed t.rx = unprocessed s.rx := by
    subst ht
    simp only [unprocessed, position, hpc, Virtq.usedFrom]
  have hbatch : batch t.rx = batch s.rx := by
    subst ht
    simp only [batch, hpc]
  have hp : pending t.rx = pending s.rx := by subst ht; exact pending_congr rfl rfl rfl
  have hheld : held t = held s := by
    rw [held, held, hp, hcalls]
    subst ht
    rfl
  have hcons := h.conserved_of (t := t) fun id => by rw [hav, hun, hbatch, hheld]
  have hlock := h.lock
  have hmode : ModeOk mode t := by
    have := h.mode
    subst ht
    cases mode <;> exact this
  rw [hcalls] at hlock
  subst ht
  exact ⟨⟨h.size, h.desc, hcons, trivial, hlock, hmode⟩, .quiet rfl hav⟩

theorem publish_step (h : Inv mode qsz s) {v : Verdict} (hpc : s.rx.handler = .publish)
    (ht : handlerNext mode v s = some t) : Inv mode qsz t ∧ Flow s t := by
  have hcount := h.count
  have hqlt := qsz.toNat_lt
  have hok := h.handler
  simp only [HandlerOk, hpc] at hok
  subst hok
  have hcalls : calls s = s.apps := by simp [calls, hpc]
  have hbatch : batch s.rx = window s.rx.q.qsz s.rx.q.avail.ring s.rx.q.avail.index
      (s.rx.q.avail.index + s.rx.add) := by simp [batch, hpc]
  simp only [handlerNext, handlerStep, published, hpc, Option.map_some,
    Option.some.injEq] at ht
  have hav : available t.rx =
      s.rx.q.availFrom s.rx.dev.seen ++ batch s.rx ++ s.rx.dev.inFlight := by
    rw [hbatch, length_window, gap_add_self] at hcount
    have hroom : (s.rx.q.avail.index - s.rx.dev.seen).toNat + s.rx.add.toNat < 65536 := by omega
    have hw := @window_extend _ s.rx.q.qsz s.rx.q.avail.ring _ _ _ hroom
    rw [UInt16.ofNat_toNat] at hw
    rw [hbatch]
    subst ht
    simp only [available, Virtq.availFrom, VirtnetRx.State.setAvail, hw]
  have hun : unprocessed t.rx = unprocessed s.rx := by
    subst ht
    simp only [unprocessed, position, hpc, Virtq.usedFrom, VirtnetRx.State.setAvail]
  have hbatch' : batch t.rx = [] := by subst ht; rfl
  have hheld : held s = [] := by simp [held, hcalls, h.mode.1, h.mode.2]
  have hheld' : held t = [] := by
    subst ht
    simp [held, calls, VirtnetRx.State.setAvail, h.mode.1, h.mode.2]
  have hcons := h.conserved_of (t := t) fun id => by
    rw [hav, hun, hbatch', hheld, hheld']
    simp only [available, List.count_append, List.count_nil]
    omega
  have hflow : Flow s t := by
    refine .give (batch s.rx) (by subst ht; rfl) ?_
    rw [hav, available, List.append_assoc, List.append_assoc]
    exact List.Perm.append_left _ List.perm_append_comm
  have hlock := h.lock
  rw [hcalls] at hlock
  subst ht
  exact ⟨⟨h.size, h.desc, hcons, rfl, hlock, h.mode⟩, hflow⟩

/-- What a step of ReleaseRxEntry does to the stations, whoever is in it. -/
theorem release_flow (hq : PowTwo qsz) (h : Inv .zeroCopy qsz s) {r : ReleasePc}
    {r' : Option ReleasePc} {rest : List ReleasePc} {rx : VirtnetRx.State}
    (hcalls : (calls s).Perm (r :: rest)) (hrel : releaseStep s.rx r = some (rx, r'))
    (hq' : t.rx.q = rx.q) (hdev : t.rx.dev = rx.dev) (hlent : t.rx.lent = rx.lent)
    (hadd : t.rx.add = rx.add) (hrecv : t.rx.recvLock = rx.recvLock)
    (hposition : position t.rx = position s.rx) (hcalls' : (calls t).Perm (r'.toList ++ rest))
    (hlog : t.log = s.log ++ (released s.rx r).map .give) (hok : HandlerOk .zeroCopy t.rx) :
    Inv .zeroCopy qsz t ∧ Flow s t := by
  have hcount := h.count
  have hmem : ∀ x ∈ pending s.rx r, x ∈ held s := by
    intro x hx
    have hr : r ∈ calls s := hcalls.mem_iff.mpr (List.mem_cons_self ..)
    exact List.mem_append_right _ (List.mem_flatMap.mpr ⟨r, hr, hx⟩)
  have hgap : pending s.rx r ≠ [] →
      (s.rx.q.avail.index - s.rx.dev.seen).toNat < s.rx.q.qsz.toNat := by
    intro hne
    obtain ⟨x, hx⟩ := List.exists_mem_of_ne_nil _ hne
    have := List.length_pos_of_mem (hmem x hx)
    rw [h.size]
    omega
  have hlock : (r :: rest).countP critical = s.rx.recvLock.toNat := by
    rw [← hcalls.countP_eq]
    exact h.lock
  obtain ⟨hlock', hav, hpr, hrest⟩ := release_moves (h.size ▸ hq) hgap hlock hrel
  obtain ⟨hsize, hdesc, hused, hkeep, hkept, hadd'⟩ : rx.q.qsz = s.rx.q.qsz ∧
      rx.q.desc = s.rx.q.desc ∧ rx.q.used = s.rx.q.used ∧ rx.dev = s.rx.dev ∧
        rx.lent = s.rx.lent ∧ rx.add = s.rx.add := by
    obtain ⟨_, _, _, _, rfl⟩ := releaseStep_frame hrel
    exact ⟨rfl, rfl, rfl, rfl, rfl, rfl⟩
  have hp : pending t.rx = pending rx := pending_congr (by rw [hq']) (by rw [hq']) (by rw [hq'])
  have hav' : available t.rx =
      s.rx.q.availFrom s.rx.dev.seen ++ released s.rx r ++ s.rx.dev.inFlight := by
    rw [available, hq', hdev, hav, hkeep]
  have hun : unprocessed t.rx = unprocessed s.rx := by
    simp only [unprocessed, Virtq.usedFrom, hposition, hq', hsize, hused]
  have hmode : t.rx.add = 0 := (hadd.trans hadd').trans h.mode
  have hheld : (held s).Perm (s.rx.lent ++ (pending s.rx r ++ rest.flatMap (pending s.rx))) := by
    rw [held, ← List.flatMap_cons]
    exact (hcalls.flatMap_right _).append_left _
  have hheld' : (held t).Perm (s.rx.lent ++ (r'.toList.flatMap (pending t.rx) ++
      rest.flatMap (pending s.rx))) := by
    rw [held, hlent, hkept, ← hrest, ← hp, ← List.flatMap_append]
    exact (hcalls'.flatMap_right _).append_left _
  rw [← hp] at hpr
  refine ⟨⟨?_, ?_, h.conserved_of fun id => ?_, hok, ?_, hmode⟩, .give _ hlog ?_⟩
  · rw [hq', hsize]
    exact h.size
  · rw [hq', hdesc]
    exact h.desc
  · rw [hav', hun, batch_zero hmode, batch_zero h.mode, hheld.count_eq, hheld'.count_eq, hpr]
    simp only [available, List.count_append, List.count_nil]
    omega
  · rw [hcalls'.countP_eq, hrecv]
    exact hlock'
  · rw [hav', available, List.append_assoc, List.append_assoc]
    exact List.Perm.append_left _ List.perm_append_comm

theorem release_step (hq : PowTwo qsz) (h : Inv mode qsz s) {v : Verdict} {r : ReleasePc}
    (hpc : s.rx.handler = .release r) (ht : handlerNext mode v s = some t) :
    Inv mode qsz t ∧ Flow s t := by
  have hok := h.handler
  simp only [HandlerOk, hpc] at hok
  subst hok
  simp only [handlerNext, handlerStep, published, hpc, Option.map_map, Option.map_eq_some_iff,
    Function.comp_apply, Prod.exists] at ht
  obtain ⟨rx, r', hrel, rfl⟩ := ht
  have hcalls : calls s = r :: s.apps := by simp [calls, hpc]
  have hlast : rx.q.last = s.rx.q.last := by
    obtain ⟨_, _, _, _, rfl⟩ := releaseStep_frame hrel
    rfl
  refine release_flow hq h (.of_eq hcalls) hrel rfl rfl rfl rfl rfl ?_ ?_ rfl ?_
  · cases r' <;> simp [position, hpc, hlast]
  · cases r' <;> simp [calls]
  · cases r' with
    | none => trivial
    | some r' => rfl

theorem handler_step (hq : PowTwo qsz) (h : Inv mode qsz s) {v : Verdict}
    (ht : handlerNext mode v s = some t) : Inv mode qsz t ∧ Flow s t := by
  have hok := h.handler
  have hmode := h.mode
  cases hpc : s.rx.handler with
  | off => simp [handlerNext, handlerStep, hpc] at ht
  | mask =>
    simp only [handlerNext, handlerStep, published, hpc, Option.map_some, Option.some.injEq,
      List.map_nil, List.append_nil] at ht
    subst ht
    refine h.silent rfl ⟨rfl, rfl⟩ rfl rfl ?_ rfl ?_ ?_ trivial ?_
    · simp [calls, hpc]
    · simp [position, hpc, VirtnetRx.State.setAvail]
    · simp [batch, hpc, VirtnetRx.State.setAvail]
    · cases mode with
      | copy => exact hmode
      | zeroCopy => rfl
  | test =>
    simp only [handlerNext, handlerStep, published, hpc, Option.map_some, Option.some.injEq,
      List.map_nil, List.append_nil] at ht
    by_cases he : s.rx.q.last = s.rx.q.used.index
    · rw [if_pos he] at ht
      exact h.goOn (by rw [hpc]; rfl) rfl ht.symm (by subst ht; trivial)
    · rw [if_neg he] at ht
      exact h.goOn (by rw [hpc]; rfl) rfl ht.symm (by subst ht; exact he)
  | unmask =>
    simp only [handlerNext, handlerStep, published, hpc, Option.map_some, Option.some.injEq,
      List.map_nil, List.append_nil] at ht
    exact h.goOn (by rw [hpc]; rfl) rfl ht.symm (by subst ht; trivial)
  | recheck =>
    simp only [handlerNext, handlerStep, published, hpc, Option.map_some, Option.some.injEq,
      List.map_nil, List.append_nil] at ht
    by_cases he : s.rx.q.last = s.rx.q.used.index
    · rw [if_pos he] at ht
      cases mode with
      | copy => exact h.goOn (by rw [hpc]; rfl) rfl ht.symm (by subst ht; rfl)
      | zeroCopy =>
        subst ht
        refine h.silent rfl ⟨rfl, rfl⟩ rfl rfl ?_ rfl ?_ ?_ trivial hmode
        · simp [calls, hpc]
        · simp [position, hpc]
        · rw [batch_zero hmode]
          exact batch_zero hmode
    · rw [if_neg he] at ht
      exact h.goOn (by rw [hpc]; rfl) rfl ht.symm (by subst ht; exact he)
  | remask =>
    simp only [handlerNext, handlerStep, published, hpc, Option.map_some, Option.some.injEq,
      List.map_nil, List.append_nil] at ht
    simp only [HandlerOk, hpc] at hok
    exact h.goOn (by rw [hpc]; rfl) rfl ht.symm (by subst ht; exact hok)
  | read =>
    simp only [handlerNext, handlerStep, published, hpc, Option.map_some, Option.some.injEq,
      List.map_nil, List.append_nil] at ht
    simp only [HandlerOk, hpc] at hok
    exact h.goOn (by rw [hpc]; rfl) rfl ht.symm (by subst ht; exact ⟨hok, rfl⟩)
  | notify =>
    simp only [handlerNext, handlerStep, published, hpc, Option.map_some, Option.some.injEq,
      List.map_nil, List.append_nil] at ht
    subst ht
    refine h.silent rfl ⟨rfl, rfl⟩ rfl rfl ?_ rfl ?_ ?_ trivial ?_
    · simp [calls, hpc]
    · simp [position, hpc, VirtnetRx.State.notify]
    · simp [batch, hpc]
    · cases mode <;> exact hmode
  | input e => exact input_step h hpc ht
  | recycle e => exact recycle_step hq h hpc ht
  | release r => exact release_step hq h hpc ht
  | advance => exact advance_step h hpc ht
  | publish => exact publish_step h hpc ht

theorem perm_eraseIdx {α : Type} {xs : List α} {i : ℕ} {x : α} (h : xs[i]? = some x) :
    xs.Perm (x :: xs.eraseIdx i) := by
  obtain ⟨hlt, rfl⟩ := List.getElem?_eq_some_iff.mp h
  exact (List.getElem_cons_eraseIdx_perm hlt).symm

theorem calls_perm {rest : List ReleasePc} {r : ReleasePc} (ha : s.apps.Perm (r :: rest)) :
    ∃ own, (calls s).Perm (r :: (own ++ rest)) ∧
      ∀ t : State, t.rx.handler = s.rx.handler → calls t = own ++ t.apps := by
  cases hpc : s.rx.handler with
  | release r₀ =>
    refine ⟨[r₀], ?_, fun t ht => by simp [calls, ht]⟩
    rw [show calls s = r₀ :: s.apps by simp [calls, hpc]]
    exact (ha.cons r₀).trans (.swap ..)
  | _ =>
    refine ⟨[], ?_, fun t ht => by simp [calls, ht]⟩
    simpa [calls, hpc] using ha

theorem free_step (h : Inv mode qsz s) {i : ℕ} (ht : freeNext s i = some t) :
    Inv mode qsz t ∧ Flow s t := by
  simp only [freeNext, Option.map_eq_some_iff] at ht
  obtain ⟨id, hid, ht⟩ := ht
  have hlent := perm_eraseIdx hid
  have hmode := h.mode
  cases mode with
  | copy => simp [hmode.1] at hid
  | zeroCopy =>
    have hav : available t.rx = available s.rx := by subst ht; rfl
    have hun : unprocessed t.rx = unprocessed s.rx := by subst ht; rfl
    have hmode' : t.rx.add = 0 := by subst ht; exact hmode
    have hp : pending t.rx = pending s.rx := by subst ht; exact pending_congr rfl rfl rfl
    have hcalls : (calls t).Perm (.lock id :: calls s) := by
      obtain ⟨own, hc, hown⟩ := @calls_perm t s.apps (.lock id)
        (.of_eq (by subst ht; rfl))
      rw [hown s (by subst ht; rfl)]
      exact hc
    have hheld : (held t).Perm (held s) := by
      rw [held, held, hp]
      have hl : t.rx.lent = s.rx.lent.eraseIdx i := by subst ht; rfl
      rw [hl]
      refine ((hcalls.flatMap_right _).append_left _).trans ?_
      refine List.perm_middle.trans ?_
      exact hlent.symm.append_right _
    have hcons := h.conserved_of (t := t) fun id => by
      rw [hav, hun, batch_zero hmode, batch_zero hmode', hheld.count_eq]
    have hlock : (calls t).countP critical = t.rx.recvLock.toNat := by
      rw [hcalls.countP_eq, List.countP_cons, h.lock]
      subst ht
      rfl
    have hok := h.handler
    subst ht
    exact ⟨⟨h.size, h.desc, hcons, hok, hlock, hmode'⟩, .quiet rfl hav⟩

theorem app_step (hq : PowTwo qsz) (h : Inv mode qsz s) {k : ℕ} (ht : appNext s k = some t) :
    Inv mode qsz t ∧ Flow s t := by
  simp only [appNext, Option.bind_eq_some_iff, Option.map_eq_some_iff, Prod.exists] at ht
  obtain ⟨r, hr, rx, r', hrel, ht⟩ := ht
  obtain ⟨own, hcalls, hown⟩ := calls_perm (perm_eraseIdx hr)
  have hmode := h.mode
  have hok := h.handler
  cases mode with
  | copy => simp [hmode.2] at hr
  | zeroCopy =>
    have hhandler : rx.handler = s.rx.handler ∧ rx.q.last = s.rx.q.last ∧
        rx.q.used = s.rx.q.used ∧ rx.q.qsz = s.rx.q.qsz := by
      obtain ⟨_, _, _, _, rfl⟩ := releaseStep_frame hrel
      exact ⟨rfl, rfl, rfl, rfl⟩
    subst ht
    refine release_flow hq h hcalls hrel rfl rfl rfl rfl rfl ?_ ?_ rfl ?_
    · simp only [position, hhandler]
    · rw [hown _ hhandler.1]
      exact List.perm_append_comm_assoc ..
    · simpa only [HandlerOk, hhandler] using hok

theorem fetch_step (h : Inv mode qsz s) {rx : VirtnetRx.State}
    (hrx : VirtnetRx.deviceFetch s.rx = some rx) (ht : t = { s with rx }) :
    Inv mode qsz t ∧ Flow s t := by
  simp only [VirtnetRx.deviceFetch] at hrx
  split at hrx
  · simp at hrx
  · rename_i hne
    obtain rfl := Option.some.inj hrx
    have hpop : available s.rx = s.rx.q.avail.ring (slot s.rx.q.qsz s.rx.dev.seen) ::
        (s.rx.q.availFrom (s.rx.dev.seen + 1) ++ s.rx.dev.inFlight) := by
      rw [available, Virtq.availFrom, window_pop hne]
      rfl
    have hav : (available t.rx).Perm (available s.rx) := by
      rw [hpop]
      refine .trans (.of_eq ?_) (List.perm_append_singleton _ _)
      subst ht
      exact (List.append_assoc ..).symm
    have hun : unprocessed t.rx = unprocessed s.rx := by subst ht; rfl
    have hbatch : batch t.rx = batch s.rx := by subst ht; rfl
    have hp : pending t.rx = pending s.rx := by subst ht; exact pending_congr rfl rfl rfl
    have hheld : held t = held s := by
      rw [held, held, hp]
      subst ht
      rfl
    have hcons := h.conserved_of (t := t) fun id => by
      rw [hav.count_eq, hun, hbatch, hheld]
    have hmode : ModeOk mode t := by
      have := h.mode
      subst ht
      cases mode <;> exact this
    have hok := h.handler
    have hlock := h.lock
    subst ht
    exact ⟨⟨h.size, h.desc, hcons, hok, hlock, hmode⟩, .give [] (by simp) (by simpa using hav)⟩

/-- An element appended to the used ring does not disturb the one being handled. -/
theorem handlerOk_push {rx rx' : VirtnetRx.State} {x : VirtqUsedElem} (hq : PowTwo rx.q.qsz)
    (hroom : (rx.q.used.index - position rx).toNat < rx.q.qsz.toNat) (h : HandlerOk mode rx)
    (hsize : rx'.q.qsz = rx.q.qsz) (hlast : rx'.q.last = rx.q.last)
    (hindex : rx'.q.used.index = rx.q.used.index + 1)
    (hring : rx'.q.used.ring =
      Function.update rx.q.used.ring (slot rx.q.qsz rx.q.used.index) x)
    (hpc : rx'.handler = rx.handler) : HandlerOk mode rx' := by
  simp only [HandlerOk, hpc, hsize, hlast, hindex, hring]
  cases hpc' : rx.handler with
  | remask | read =>
    simp only [position, hpc'] at hroom
    exact ne_succ hroom
  | input e =>
    simp only [HandlerOk, position, hpc'] at h hroom
    exact ⟨ne_succ hroom, h.2.trans (oldest_push hq hroom h.1 x).symm⟩
  | recycle e =>
    simp only [HandlerOk, position, hpc'] at h hroom
    exact ⟨⟨ne_succ hroom, h.1.2.trans (oldest_push hq hroom h.1.1 x).symm⟩, h.2⟩
  | release r => simpa only [HandlerOk, hpc'] using h
  | publish | notify => simpa only [HandlerOk, hpc'] using h
  | _ => trivial

theorem deliver_step (hq : PowTwo qsz) (h : Inv mode qsz s) {i : ℕ} {packet : List UInt8}
    (ht : deliverNext s i packet = some t) : Inv mode qsz t ∧ Flow s t := by
  have hcount := h.count
  have hqlt := qsz.toNat_lt
  simp only [deliverNext, Option.bind_eq_some_iff, Option.map_eq_some_iff] at ht
  obtain ⟨id, hid, rx, hrx, ht⟩ := ht
  have hflight := perm_eraseIdx hid
  have hroom : (s.rx.q.used.index - position s.rx).toNat < s.rx.q.qsz.toNat := by
    have := List.length_pos_of_mem (List.mem_of_getElem? hid)
    rw [h.size]
    omega
  simp only [VirtnetRx.deviceDeliver, hid, Option.ite_none_right_eq_some, Option.some.injEq] at hrx
  obtain ⟨-, rfl⟩ := hrx
  have hav : (available s.rx).Perm (id :: available t.rx) := by
    subst ht
    exact (hflight.append_left _).trans List.perm_middle
  have hun : unprocessed t.rx = unprocessed s.rx ++ [id] := by
    have hw := @window_push _ _ (h.size ▸ hq) s.rx.q.used.ring _ _ hroom
      ⟨id.toUInt32, VirtnetTx.virtnetHdrSize + UInt32.ofNat packet.length⟩
    subst ht
    simp only [unprocessed, Virtq.usedFrom, position] at hw ⊢
    rw [hw, List.map_append]
    simp
  have hbatch : batch t.rx = batch s.rx := by subst ht; rfl
  have hp : pending t.rx = pending s.rx := by subst ht; exact pending_congr rfl rfl rfl
  have hheld : held t = held s := by
    rw [held, held, hp]
    subst ht
    rfl
  have hcons := h.conserved_of (t := t) fun x => by
    rw [hun, hbatch, hheld, hav.count_eq]
    simp only [List.count_append, List.count_cons, List.count_nil]
    omega
  have hmode : ModeOk mode t := by
    have := h.mode
    subst ht
    cases mode <;> exact this
  have hok : HandlerOk mode t.rx := by
    refine @handlerOk_push _ _ _ ⟨id.toUInt32, VirtnetTx.virtnetHdrSize +
      UInt32.ofNat packet.length⟩ (h.size ▸ hq) hroom h.handler ?_ ?_ ?_ ?_ ?_
    all_goals (subst ht; rfl)
  have hlock := h.lock
  subst ht
  exact ⟨⟨h.size, h.desc, hcons, hok, hlock, hmode⟩, .take id rfl hav⟩

theorem next_step (hq : PowTwo qsz) (h : Inv mode qsz s) {e : Event}
    (ht : next mode s e = some t) : Inv mode qsz t ∧ Flow s t := by
  have hok := h.handler
  have hmode := h.mode
  cases e with
  | handler v => exact handler_step hq h ht
  | free i => exact free_step h ht
  | app k => exact app_step hq h ht
  | deliver i packet => exact deliver_step hq h ht
  | fetch =>
    obtain ⟨rx, hrx, ht⟩ := Option.map_eq_some_iff.mp ht
    exact fetch_step h hrx ht.symm
  | enter =>
    obtain ⟨rx, hrx, rfl⟩ := Option.map_eq_some_iff.mp ht
    cases hpc : s.rx.handler with
    | off =>
      simp only [VirtnetRx.next, hpc, Option.some.injEq] at hrx
      subst hrx
      refine h.silent rfl ⟨rfl, rfl⟩ rfl rfl ?_ rfl ?_ ?_ trivial ?_
      · simp [calls, hpc]
      · simp [position, hpc]
      · simp [batch, hpc]
      · cases mode <;> exact hmode
    | _ => simp [VirtnetRx.next, hpc] at hrx
  | raise =>
    obtain ⟨rx, hrx, rfl⟩ := Option.map_eq_some_iff.mp ht
    simp only [VirtnetRx.next, Option.ite_none_right_eq_some, Option.some.injEq] at hrx
    obtain ⟨-, rfl⟩ := hrx
    refine h.silent rfl ⟨rfl, rfl⟩ rfl rfl rfl rfl rfl rfl hok ?_
    cases mode <;> exact hmode
  | usedFlag flag =>
    simp only [next, VirtnetRx.next, Option.map_some, Option.some.injEq] at ht
    subst ht
    refine h.silent rfl ⟨rfl, rfl⟩ rfl rfl rfl rfl rfl rfl hok ?_
    cases mode <;> exact hmode

theorem init_available (h : Init qsz s) : available s.rx = indices qsz := by
  rw [available, h.rx.dev, List.append_nil, Virtq.availFrom, h.rx.availIndex, h.rx.size, window,
    indices, UInt16.sub_zero]
  refine List.map_congr_left fun i hi => ?_
  have hi' : UInt16.ofNat i < qsz := mem_indices.mp (List.mem_map_of_mem hi)
  have hslot : slot qsz (0 + UInt16.ofNat i) = UInt16.ofNat i := by
    rw [UInt16.zero_add, slot, ← UInt16.toNat_inj, UInt16.toNat_mod]
    exact Nat.mod_eq_of_lt (UInt16.lt_iff_toNat_lt.mp hi')
  rw [hslot]
  exact h.rx.availRing _ hi'

theorem init_inv (h : Init qsz s) : Inv mode qsz s := by
  have hcalls : calls s = [] := by simp [calls, h.rx.handler, h.apps]
  have hun : unprocessed s.rx = [] := by
    simp [unprocessed, position, h.rx.handler, Virtq.usedFrom, h.rx.last, h.rx.usedIndex]
  have hbatch : batch s.rx = [] := by simp [batch, h.rx.handler]
  have hheld : held s = [] := by simp [held, hcalls, h.rx.lent]
  refine ⟨h.rx.size, h.len, ?_, ?_, ?_, ?_⟩
  · rw [ledger, init_available h, hun, hbatch, hheld]
    simp
  · simp [HandlerOk, h.rx.handler]
  · simp [hcalls, h.rx.recvLock]
  · cases mode with
    | copy => exact ⟨h.rx.lent, h.apps⟩
    | zeroCopy => exact h.rx.add

structure LogOk (s : State) : Prop where
  out : ∀ id, Out s.log id ↔ id ∈ available s.rx
  alternating : Alternating s.log

theorem log_step (h : Inv mode qsz s) (h' : Inv mode qsz t) (hf : Flow s t) (hl : LogOk s) :
    LogOk t := by
  cases hf with
  | give ids hlog hav =>
    obtain ⟨-, hn, hd⟩ := List.nodup_append.mp (hav.nodup_iff.mp h'.available_nodup)
    refine ⟨fun id => ?_, ?_⟩
    · rw [hlog, out_gives, hl.out, hav.mem_iff, List.mem_append, or_comm]
    · rw [hlog]
      refine alternating_gives hl.alternating hn fun id hid hout => ?_
      exact hd id ((hl.out id).mp hout) id hid rfl
  | take id hlog hav =>
    obtain ⟨hid, -⟩ := List.nodup_cons.mp (hav.nodup_iff.mp h.available_nodup)
    refine ⟨fun x => ?_, by rw [hlog]; exact alternating_take hl.alternating⟩
    rw [hlog, out_take, hl.out, hav.mem_iff, List.mem_cons]
    constructor
    · rintro ⟨hx | hx, hne⟩
      · exact absurd hx hne
      · exact hx
    · intro hx
      exact ⟨.inr hx, fun heq => hid (heq ▸ hx)⟩

theorem init_log (h : Init qsz s) : LogOk s := by
  have hlog : s.log = [] ++ (indices qsz).map .give := by rw [h.log, List.nil_append]
  refine ⟨fun id => ?_, ?_⟩
  · rw [hlog, out_gives, init_available h]
    simp
  · rw [hlog]
    exact alternating_gives alternating_nil (nodup_indices qsz) fun id _ => not_out_nil id

theorem reachable_inv (hq : PowTwo qsz) (h : Reachable (system mode qsz) s) :
    Inv mode qsz s ∧ LogOk s := by
  apply Reachable.invariant (I := fun s => Inv mode qsz s ∧ LogOk s) _ _ h
  · intro s hs
    exact ⟨init_inv hs, init_log hs⟩
  rintro s e t ⟨h, hl⟩ ht
  obtain ⟨h', hf⟩ := next_step hq h ht
  exact ⟨h', log_step h h' hf hl⟩

/-- A slot less than one lap ahead of the device is not one it has yet to consume. -/
theorem slot_not_mem_unconsumed {rx : VirtnetRx.State} (hq : PowTwo rx.q.qsz) {k : ℕ}
    (hk : (rx.q.avail.index - rx.dev.seen).toNat + k < rx.q.qsz.toNat) :
    slot rx.q.qsz (rx.q.avail.index + UInt16.ofNat k) ∉ unconsumed rx := by
  intro hm
  simp only [unconsumed, List.mem_map, List.mem_range] at hm
  obtain ⟨i, hi, heq⟩ := hm
  have hpos : rx.q.avail.index + UInt16.ofNat k =
      rx.dev.seen + UInt16.ofNat ((rx.q.avail.index - rx.dev.seen).toNat + k) := by
    rw [UInt16.ofNat_add, ← UInt16.add_assoc, add_gap]
  rw [hpos] at heq
  exact slot_ne hq rx.dev.seen (by omega) (by omega) heq

/-- In the driver that lends its buffers, each one is available, used and unprocessed, or held
above the driver. -/
theorem lent_conserved (hq : PowTwo qsz) (h : Reachable (system .zeroCopy qsz) s) :
    (available s.rx ++ unprocessed s.rx ++ held s).Perm (indices qsz) ∧
    Alternating s.log ∧
    (∀ id, .ring id ∈ calls s → slot qsz s.rx.q.avail.index ∉ unconsumed s.rx) ∧
    ∀ id ∈ held s, id ∉ available s.rx := by
  obtain ⟨h, hl⟩ := reachable_inv hq h
  have hcount := h.count
  have hcons := h.conserved
  rw [ledger, batch_zero h.mode, List.append_nil] at hcons
  refine ⟨hcons, hl.alternating, fun id hid => ?_, fun id hid => h.apart (.inr (.inr hid))⟩
  have hmem : id ∈ held s :=
    List.mem_append_right _ (List.mem_flatMap.mpr ⟨_, hid, List.mem_singleton_self id⟩)
  have hpos := List.length_pos_of_mem hmem
  have hroom := @slot_not_mem_unconsumed s.rx (h.size ▸ hq) 0 (by rw [h.size]; omega)
  rw [h.size] at hroom
  simpa using hroom

theorem powTwo_16 : PowTwo 16 := ⟨4, by decide⟩

/-- Two packets come back in the other order; the first is lent and freed while the handler
publishes the buffer of the second, which the stack refused. -/
def refusedWhileFreed : List Event :=
  [Event.fetch, .fetch, .deliver 1 [1, 2, 3], .deliver 0 [4], .enter] ++
  List.replicate 5 (Event.handler ⟨true, true⟩) ++ List.replicate 3 (Event.handler ⟨true, false⟩) ++
  [Event.handler ⟨true, true⟩, .free 0, .handler ⟨true, true⟩]

theorem lent_conserved_refused :
    ∃ s, Reachable (system .zeroCopy 16) s ∧ calls s = [.bump, .lock 1] ∧
    (available s.rx ++ unprocessed s.rx ++ held s).Perm (indices 16) ∧
    Alternating s.log ∧
    (∀ id, .ring id ∈ calls s → slot 16 s.rx.q.avail.index ∉ unconsumed s.rx) ∧
    ∀ id ∈ held s, id ∉ available s.rx := by
  obtain ⟨s, hs, hc⟩ := @exists_reachable _ _ (system .zeroCopy 16) _ (init_zeroed 16)
    refusedWhileFreed (fun s => decide (calls s = [.bump, .lock 1])) (by decide +kernel)
  exact ⟨s, hs, of_decide_eq_true hc, lent_conserved powTwo_16 hs⟩

end VirtnetRxConservation
