import DeviceQemu.VirtnetRxConservation

/-! The packets that VirtnetRxHandle passes up.
No buffer is written while its packet waits to be handled, so LowLevelInput copies the bytes
that the device wrote, in the order of the used ring. -/
namespace VirtnetRxPackets

open StepSystem RingWindow Virtmmio VirtnetRxBuffers VirtnetRxConservation
open VirtnetRx (Mode ReleasePc Verdict handlerStep releaseStep releaseStep_frame packetLen)

variable {mode : Mode} {qsz : UInt16} {s t : State}

/-- The first used element that LowLevelInput has not seen. -/
def inputPos (rx : VirtnetRx.State) : UInt16 :=
  match rx.handler with
  | .recycle _ | .release _ | .advance => rx.q.last + 1
  | _ => rx.q.last

/-- What LowLevelInput makes of a used element. -/
def content (rx : VirtnetRx.State) (e : VirtqUsedElem) : ℕ × List UInt8 :=
  ((packetLen e).toNat, rx.packet e)

structure Packets (s : State) : Prop where
  seen : s.verdicts.length ≤ s.sent.length
  waiting : (s.rx.q.usedFrom (inputPos s.rx)).map (content s.rx) =
    (s.sent.drop s.verdicts.length).map fun p => (p.length, p)
  passed : s.rx.passed.map (fun (len, p) => (len.toNat, p)) = handedUp s.sent s.verdicts

theorem zip_of_length {sent rest : List (List UInt8)} {verdicts : List Bool}
    (h : sent.length = verdicts.length) : (sent ++ rest).zip verdicts = sent.zip verdicts := by
  have hz := @List.zip_append _ _ _ rest _ [] h
  simpa using hz

theorem handedUp_sent {sent : List (List UInt8)} {verdicts : List Bool}
    (h : verdicts.length ≤ sent.length) (p : List UInt8) :
    handedUp (sent ++ [p]) verdicts = handedUp sent verdicts := by
  have hlen : (sent.take verdicts.length).length = verdicts.length := by simpa using h
  have hsplit := List.take_append_drop verdicts.length sent
  rw [handedUp, handedUp, ← hsplit, List.append_assoc, zip_of_length hlen, zip_of_length hlen]

theorem handedUp_verdict {sent rest : List (List UInt8)} {verdicts : List Bool} {p : List UInt8}
    (h : sent.drop verdicts.length = p :: rest) (v : Bool) :
    handedUp sent (verdicts ++ [v]) =
      handedUp sent verdicts ++ if v then [(p.length, p)] else [] := by
  have hlt : verdicts.length < sent.length := by
    by_contra hn
    rw [List.drop_eq_nil_of_le (by omega)] at h
    simp at h
  have hlen : (sent.take verdicts.length).length = verdicts.length := by
    rw [List.length_take]
    omega
  have hsplit := List.take_append_drop verdicts.length sent
  rw [handedUp, handedUp, ← hsplit, h, zip_of_length hlen, List.zip_append hlen]
  cases v <;> simp

structure Unseen (s t : State) : Prop where
  used : t.rx.q.usedFrom (inputPos t.rx) = s.rx.q.usedFrom (inputPos s.rx)
  rbuf : t.rx.rbuf = s.rx.rbuf
  sent : t.sent = s.sent
  verdicts : t.verdicts = s.verdicts
  passed : t.rx.passed = s.rx.passed

theorem content_congr {rx rx' : VirtnetRx.State} (h : rx'.rbuf = rx.rbuf) :
    content rx' = content rx := by
  funext e
  simp only [content, VirtnetRx.State.packet, h]

theorem Packets.unseen (hp : Packets s) (h : Unseen s t) : Packets t := by
  constructor
  · rw [h.verdicts, h.sent]
    exact hp.seen
  · rw [h.used, content_congr h.rbuf, h.sent, h.verdicts]
    exact hp.waiting
  · rw [h.passed, h.sent, h.verdicts]
    exact hp.passed

theorem handler_unseen {v : Verdict} (hpc : ∀ e, s.rx.handler ≠ .input e)
    (ht : handlerNext mode v s = some t) : Unseen s t := by
  cases hpc' : s.rx.handler with
  | off => simp [handlerNext, handlerStep, hpc'] at ht
  | input e => exact absurd hpc' (hpc e)
  | release r =>
    simp only [handlerNext, handlerStep, hpc', Option.map_map, Option.map_eq_some_iff,
      Function.comp_apply, Prod.exists] at ht
    obtain ⟨rx, r', hrel, rfl⟩ := ht
    obtain ⟨_, _, _, _, rfl⟩ := releaseStep_frame hrel
    refine ⟨?_, rfl, rfl, rfl, rfl⟩
    cases r' <;> simp [inputPos, hpc', Virtq.usedFrom]
  | test =>
    simp only [handlerNext, handlerStep, hpc', Option.map_some, Option.some.injEq] at ht
    subst ht
    refine ⟨?_, rfl, rfl, rfl, rfl⟩
    by_cases he : s.rx.q.last = s.rx.q.used.index
    · simp only [inputPos, hpc', he, if_true]
    · simp only [inputPos, hpc', he, if_false]
  | recheck =>
    simp only [handlerNext, handlerStep, hpc', Option.map_some, Option.some.injEq] at ht
    subst ht
    refine ⟨?_, rfl, rfl, rfl, rfl⟩
    by_cases he : s.rx.q.last = s.rx.q.used.index
    · cases mode <;> simp only [inputPos, hpc', he, if_true]
    · simp only [inputPos, hpc', he, if_false]
  | _ =>
    simp only [handlerNext, handlerStep, hpc', Option.map_some, Option.some.injEq] at ht
    subst ht
    refine ⟨?_, rfl, rfl, rfl, rfl⟩
    simp [inputPos, hpc', Virtq.usedFrom, VirtnetRx.State.setAvail, VirtnetRx.State.notify]

theorem inputPos_suffix (h : HandlerOk mode s.rx) :
    ∃ pre, s.rx.q.usedFrom (position s.rx) = pre ++ s.rx.q.usedFrom (inputPos s.rx) := by
  cases hpc : s.rx.handler with
  | recycle e =>
    simp only [HandlerOk, hpc] at h
    exact ⟨[_], by simp only [position, inputPos, hpc]; exact usedFrom_pop h.1.1⟩
  | _ => exact ⟨[], by simp [position, inputPos, hpc]⟩

theorem packetLen_written {n : ℕ} (id : UInt32)
    (h : VirtnetTx.virtnetHdrSize.toNat + n ≤ VirtnetRx.perRxBufSize.toNat) :
    (packetLen ⟨id, VirtnetTx.virtnetHdrSize + UInt32.ofNat n⟩).toNat = n := by
  have hmax : VirtnetRx.perRxBufSize.toNat = 1526 := by decide
  have hhdr : VirtnetTx.virtnetHdrSize.toNat = 12 := by decide
  rw [packetLen, UInt32.add_comm, UInt32.add_sub_cancel, UInt32.toNat_toUInt16,
    UInt32.toNat_ofNat']
  omega

/-- While a buffer is in flight the used ring has a free cell. -/
theorem room_of_inFlight (h : Inv mode qsz s) {id : UInt16} (hmem : id ∈ s.rx.dev.inFlight) :
    (s.rx.q.used.index - inputPos s.rx).toNat < s.rx.q.qsz.toNat := by
  have hcount := h.count
  obtain ⟨pre, hpre⟩ := inputPos_suffix h.handler
  have hlen := congrArg List.length hpre
  have hpos := List.length_pos_of_mem hmem
  simp only [Virtq.usedFrom, List.length_append, length_window] at hlen
  rw [h.size]
  omega

theorem deliver_packets (hq : PowTwo qsz) (h : Inv mode qsz s) (hp : Packets s) {i : ℕ}
    {packet : List UInt8} (ht : deliverNext s i packet = some t) : Packets t := by
  simp only [deliverNext, Option.bind_eq_some_iff, Option.map_eq_some_iff] at ht
  obtain ⟨id, hid, rx, hrx, ht⟩ := ht
  have hmem := List.mem_of_getElem? hid
  have hav : id ∈ available s.rx := List.mem_append_right _ hmem
  have hlt : id < qsz := mem_indices.mp (h.conserved.mem_iff.mp (by
    simp only [ledger, List.append_assoc]
    exact List.mem_append_left _ hav))
  obtain ⟨pre, hpre⟩ := inputPos_suffix h.handler
  simp only [VirtnetRx.deviceDeliver, hid, Option.ite_none_right_eq_some, Option.some.injEq,
    h.desc id hlt] at hrx
  obtain ⟨hfit, rfl⟩ := hrx
  have hother : ∀ e ∈ s.rx.q.usedFrom (inputPos s.rx), e.id ≠ id.toUInt32 := by
    intro e he heq
    refine h.apart (.inl (List.mem_map.mpr ⟨e, ?_, ?_⟩)) hav
    · rw [hpre]
      exact List.mem_append_right _ he
    · simp [heq]
  have hused : t.rx.q.usedFrom (inputPos t.rx) = s.rx.q.usedFrom (inputPos s.rx) ++
      [⟨id.toUInt32, VirtnetTx.virtnetHdrSize + UInt32.ofNat packet.length⟩] := by
    subst ht
    exact window_push (h.size ▸ hq) (room_of_inFlight h hmem) _
  have hrbuf : t.rx.rbuf = Function.update s.rx.rbuf id.toUInt32
      (packet ++ (s.rx.rbuf id.toUInt32).drop packet.length) := by
    subst ht
    rfl
  have hold : ∀ e ∈ s.rx.q.usedFrom (inputPos s.rx), content t.rx e = content s.rx e := by
    intro e he
    simp only [content, VirtnetRx.State.packet, hrbuf, Function.update_of_ne (hother e he)]
  have hnew : content t.rx ⟨id.toUInt32, VirtnetTx.virtnetHdrSize + UInt32.ofNat packet.length⟩ =
      (packet.length, packet) := by
    simp only [content, VirtnetRx.State.packet, hrbuf, Function.update_self,
      packetLen_written _ hfit, List.take_left]
  have hseen := hp.seen
  have hsent : t.sent = s.sent ++ [packet] := by subst ht; rfl
  have hverdicts : t.verdicts = s.verdicts := by subst ht; rfl
  have hpassed : t.rx.passed = s.rx.passed := by subst ht; rfl
  constructor
  · rw [hsent, hverdicts, List.length_append]
    omega
  · rw [hused, hsent, hverdicts, List.drop_append_of_le_length hseen, List.map_append,
      List.map_congr_left hold, hp.waiting, List.map_singleton, hnew, List.map_append,
      List.map_singleton]
  · rw [hsent, hverdicts, hpassed, handedUp_sent hseen]
    exact hp.passed

theorem input_passed (mode : Mode) (v : Verdict) (rx : VirtnetRx.State) (e : VirtqUsedElem) :
    (VirtnetRx.input mode v rx e).passed =
      rx.passed ++ if handed mode v then [(packetLen e, rx.packet e)] else [] := by
  have hlow : (VirtnetRx.lowLevelInput mode v rx e).toList =
      if handed mode v then [(packetLen e, rx.packet e)] else [] := by
    cases mode with
    | copy =>
      rw [VirtnetRx.lowLevelInput, handed]
      split <;> rfl
    | zeroCopy => rfl
  rw [← hlow]
  cases mode with
  | copy => rfl
  | zeroCopy => by_cases hv : v.accept = true <;> simp [VirtnetRx.input, hv]

/-- The packet is behind the position of the handler, and no buffer is written. -/
theorem input_frame (mode : Mode) (v : Verdict) (rx : VirtnetRx.State) (e : VirtqUsedElem) :
    (VirtnetRx.input mode v rx e).rbuf = rx.rbuf ∧
      (VirtnetRx.input mode v rx e).q.usedFrom (inputPos (VirtnetRx.input mode v rx e)) =
        rx.q.usedFrom (rx.q.last + 1) := by
  cases mode with
  | copy => exact ⟨rfl, rfl⟩
  | zeroCopy => by_cases hv : v.accept = true <;> simp [VirtnetRx.input, hv, inputPos]

theorem input_packets (h : Inv mode qsz s) (hp : Packets s) {v : Verdict} {e : VirtqUsedElem}
    (hpc : s.rx.handler = .input e) (ht : handlerNext mode v s = some t) : Packets t := by
  have hok := h.handler
  simp only [HandlerOk, hpc] at hok
  obtain ⟨hne, he⟩ := hok
  have hwaiting := hp.waiting
  rw [show inputPos s.rx = s.rx.q.last by simp only [inputPos, hpc], usedFrom_pop hne, ← he,
    List.map_cons] at hwaiting
  cases hdrop : s.sent.drop s.verdicts.length with
  | nil => simp [hdrop] at hwaiting
  | cons p rest =>
    rw [hdrop, List.map_cons, List.cons.injEq] at hwaiting
    obtain ⟨hhead, htail⟩ := hwaiting
    simp only [handlerNext, handlerStep, hpc, Option.map_some, Option.some.injEq] at ht
    have hrx : t.rx = VirtnetRx.input mode v s.rx e := by subst ht; rfl
    have hsent : t.sent = s.sent := by subst ht; rfl
    have hverdicts : t.verdicts = s.verdicts ++ [handed mode v] := by subst ht; rfl
    have hpassed : t.rx.passed =
        s.rx.passed ++ if handed mode v then [(packetLen e, s.rx.packet e)] else [] := by
      rw [hrx, input_passed]
    obtain ⟨hrbuf, hused⟩ := input_frame mode v s.rx e
    rw [← hrx] at hrbuf hused
    have hlt : s.verdicts.length < s.sent.length := by
      by_contra hn
      rw [List.drop_eq_nil_of_le (by omega)] at hdrop
      simp at hdrop
    constructor
    · rw [hsent, hverdicts, List.length_append, List.length_singleton]
      omega
    · rw [hused, content_congr hrbuf, htail, hsent, hverdicts, List.length_append,
        List.length_singleton, ← List.drop_drop, hdrop]
      rfl
    · rw [hsent, hverdicts, hpassed, handedUp_verdict hdrop, ← hp.passed]
      cases handed mode v
      · simp
      · simpa [content] using hhead

theorem next_packets (hq : PowTwo qsz) (h : Inv mode qsz s) (hp : Packets s) {e : Event}
    (ht : next mode s e = some t) : Packets t := by
  cases e with
  | deliver i packet => exact deliver_packets hq h hp ht
  | handler v =>
    by_cases hpc : ∃ e, s.rx.handler = .input e
    · obtain ⟨e, hpc⟩ := hpc
      exact input_packets h hp hpc ht
    · exact hp.unseen (handler_unseen (fun e he => hpc ⟨e, he⟩) ht)
  | free i =>
    simp only [next, freeNext, Option.map_eq_some_iff] at ht
    obtain ⟨id, -, rfl⟩ := ht
    exact hp.unseen ⟨rfl, rfl, rfl, rfl, rfl⟩
  | app k =>
    simp only [next, appNext, Option.bind_eq_some_iff, Option.map_eq_some_iff, Prod.exists] at ht
    obtain ⟨r, -, rx, r', hrel, rfl⟩ := ht
    obtain ⟨_, _, _, _, rfl⟩ := releaseStep_frame hrel
    exact hp.unseen ⟨rfl, rfl, rfl, rfl, rfl⟩
  | fetch =>
    simp only [next, VirtnetRx.deviceFetch, Option.map_eq_some_iff,
      Option.ite_none_left_eq_some, Option.some.injEq] at ht
    obtain ⟨rx, ⟨-, rfl⟩, rfl⟩ := ht
    exact hp.unseen ⟨rfl, rfl, rfl, rfl, rfl⟩
  | enter =>
    cases hpc : s.rx.handler with
    | off =>
      simp only [next, VirtnetRx.next, hpc, Option.map_some, Option.some.injEq] at ht
      subst ht
      exact hp.unseen ⟨by simp [inputPos, hpc], rfl, rfl, rfl, rfl⟩
    | _ => simp [next, VirtnetRx.next, hpc] at ht
  | raise =>
    simp only [next, VirtnetRx.next, Option.map_eq_some_iff, Option.ite_none_right_eq_some,
      Option.some.injEq] at ht
    obtain ⟨rx, ⟨-, rfl⟩, rfl⟩ := ht
    exact hp.unseen ⟨rfl, rfl, rfl, rfl, rfl⟩
  | usedFlag flag =>
    simp only [next, VirtnetRx.next, Option.map_some, Option.some.injEq] at ht
    subst ht
    exact hp.unseen ⟨rfl, rfl, rfl, rfl, rfl⟩

theorem init_packets (h : Init qsz s) : Packets s := by
  constructor
  · simp [h.verdicts]
  · simp [inputPos, h.rx.handler, Virtq.usedFrom, h.rx.last, h.rx.usedIndex, h.sent]
  · simp [h.rx.passed, h.sent, handedUp]

theorem reachable_packets (hq : PowTwo qsz) (h : Reachable (system mode qsz) s) :
    Inv mode qsz s ∧ Packets s := by
  apply Reachable.invariant (I := fun s => Inv mode qsz s ∧ Packets s) _ _ h
  · intro s hs
    exact ⟨init_inv hs, init_packets hs⟩
  · rintro s e t ⟨h, hp⟩ ht
    exact ⟨(next_step hq h ht).1, next_packets hq h hp ht⟩

/-- In the driver that copies packets, each buffer is available, used and unprocessed, or in
the batch being recycled; and every packet for which there was a NetBuf went up once. -/
theorem copied_conserved (hq : PowTwo qsz) (h : Reachable (system .copy qsz) s) :
    (available s.rx ++ unprocessed s.rx ++ batch s.rx).Perm (indices qsz) ∧
    (∀ e, s.rx.handler = .recycle e →
      slot qsz (s.rx.q.avail.index + s.rx.add) ∉ unconsumed s.rx) ∧
    s.rx.passed.map (fun (len, p) => (len.toNat, p)) = handedUp s.sent s.verdicts := by
  obtain ⟨h, hp⟩ := reachable_packets hq h
  have hcount := h.count
  have hcons := h.conserved
  have hheld : held s = [] := by
    rw [held, h.mode.1, copy_calls h.mode h.handler]
    rfl
  rw [ledger, hheld, List.append_nil] at hcons
  refine ⟨hcons, fun e hpc => ?_, hp.passed⟩
  have hok := h.handler
  simp only [HandlerOk, hpc] at hok
  have hpos : (s.rx.q.used.index - position s.rx).toNat ≠ 0 := by
    intro h0
    simp only [position, hpc] at h0
    exact hok.1.1 (gap_eq_zero.mp h0)
  have hbatch : (batch s.rx).length = s.rx.add.toNat := by
    simp only [batch, hpc, length_window, gap_add_self]
  have hroom := @slot_not_mem_unconsumed s.rx (h.size ▸ hq) s.rx.add.toNat (by
    rw [h.size]
    omega)
  rwa [h.size, UInt16.ofNat_toNat] at hroom

/-- Two packets come back in the other order, and there is no NetBuf for the first. -/
def firstDropped : List Event :=
  [Event.fetch, .fetch, .deliver 1 [1, 2, 3], .deliver 0 [4], .enter] ++
  List.replicate 4 (Event.handler ⟨false, true⟩) ++ List.replicate 5 (Event.handler ⟨true, true⟩)

theorem copied_conserved_dropped :
    ∃ s, Reachable (system .copy 16) s ∧ batch s.rx = [1] ∧ s.rx.passed = [(1, [4])] ∧
    (available s.rx ++ unprocessed s.rx ++ batch s.rx).Perm (indices 16) ∧
    (∀ e, s.rx.handler = .recycle e →
      slot 16 (s.rx.q.avail.index + s.rx.add) ∉ unconsumed s.rx) ∧
    s.rx.passed.map (fun (len, p) => (len.toNat, p)) = handedUp s.sent s.verdicts := by
  obtain ⟨s, hs, hc⟩ := @exists_reachable _ _ (system .copy 16) _ (init_zeroed 16)
    firstDropped (fun s => decide (batch s.rx = [1] ∧ s.rx.passed = [(1, [4])])) (by decide +kernel)
  obtain ⟨hbatch, hpassed⟩ := of_decide_eq_true hc
  exact ⟨s, hs, hbatch, hpassed, copied_conserved powTwo_16 hs⟩

end VirtnetRxPackets
