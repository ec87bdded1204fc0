import DeviceQemu.UartBlockingRead
import DeviceQemu.UartPl011Fifo

/-! When reads in blocking mode deliver.
While a read waits, the event says what the ring holds or is about to hold. Where a step breaks this
the run can go on to a read that returns nothing, or waits with bytes in the ring. -/
namespace UartBlockingRead

open StepSystem CircularBuffer Uart

def ReadOk (bufSize : UInt32) (s : State) : Prop :=
  match s.ring.read with
  | .readWp _ => told bufSize s = true
  | .readRp _ wp => s.ring.transfer.rp ≠ wp
  | _ => True

def asked : UartPl011.ReadPc → Option ℕ
  | .idle => none
  | .readWp count | .readRp count _ | .upper count _ _ _ | .lower count _ _ _
  | .publish count _ _ _ => some count

def opening : HostPc → Option ℕ
  | .check count | .wait count => some count
  | _ => none

structure Inv (bufSize : UInt32) (s : State) : Prop where
  ring : UartPl011Fifo.Inv bufSize s.ring
  idle : s.host ≠ .reading → s.ring.read = .idle
  counts : ∀ count, asked s.ring.read = some count ∨ opening s.host = some count → 0 < count
  wait : waits s = true → s.block = true ∧ s.event = told bufSize s
  read : s.block = true → ReadOk bufSize s
  data : ∀ r ∈ s.results, r.1 = true → 0 < r.2.toNat

section Steps

variable {bufSize : UInt32} {s t : State}

theorem init_inv (hb : 2 ≤ bufSize.toNat) (h : Init s) : Inv bufSize s := by
  have hidle : s.ring.read = .idle := h.ring.read
  refine ⟨UartPl011Fifo.init_inv hb h.ring, fun _ => hidle, ?_, ?_, ?_, ?_⟩
  · rintro count (hcount | hcount)
    · rw [hidle] at hcount
      cases hcount
    · rw [h.host] at hcount
      cases hcount
  · intro hwaits
    rw [waits, h.host] at hwaits
    cases hwaits
  · intro _
    rw [ReadOk, hidle]
    trivial
  · simp [h.results]

/-- What a reception leaves alone, wp until it publishes. -/
structure Receives (r r' : UartPl011.State) : Prop where
  rp : r'.transfer.rp = r.transfer.rp
  read : r'.read = r.read
  wp : (∀ buf wp rp, r.recv ≠ .publish buf wp rp) → r'.transfer.wp = r.transfer.wp

theorem recvStep_receives {r r' : UartPl011.State} (h : UartPl011.recvStep bufSize r = some r') :
    Receives r r' := by
  unfold UartPl011.recvStep at h
  cases hpc : r.recv with
  | idle => simp [hpc] at h
  | publish buf wp rp =>
    simp only [hpc] at h
    obtain rfl := Option.some.inj h
    exact ⟨rfl, rfl, fun hpub => absurd hpc (hpub buf wp rp)⟩
  | upper buf wp rp i | lower buf wp rp i =>
    simp only [hpc] at h
    split at h <;> obtain rfl := Option.some.inj h <;> exact ⟨rfl, rfl, fun _ => rfl⟩
  | _ =>
    simp only [hpc] at h
    obtain rfl := Option.some.inj h
    exact ⟨rfl, rfl, fun _ => rfl⟩

theorem next_recvNotify {r r' : UartPl011.State} {buf : List UInt8}
    (h : UartPl011.next bufSize r (.recvNotify buf) = some r') :
    Receives r r' ∧ r'.transfer = r.transfer ∧ offered bufSize r.recv = 0 ∧
      offered bufSize r'.recv = 0 := by
  cases hpc : r.recv with
  | idle =>
    simp only [UartPl011.next, hpc, Option.some.injEq] at h
    subst h
    split
    · exact ⟨⟨rfl, rfl, fun _ => rfl⟩, rfl, rfl, by rw [hpc]; rfl⟩
    · exact ⟨⟨rfl, rfl, fun _ => rfl⟩, rfl, rfl, rfl⟩
  | _ => simp [UartPl011.next, hpc] at h

theorem empty_iff {r : UartPl011.State} (h : UartPl011Fifo.Inv bufSize r) :
    UartPl011.uartRxBufEmpty r = true ↔
      used bufSize.toNat r.transfer.rp.toNat r.transfer.wp.toNat = 0 := by
  rw [used_eq_zero h.rp, UInt32.toNat_inj, UartPl011.uartRxBufEmpty, beq_iff_eq]
  exact eq_comm

theorem recvStep_publish {r r' : UartPl011.State} (hI : UartPl011Fifo.Inv bufSize r)
    {buf : List UInt8} {wp rp : UInt32} (hpc : r.recv = .publish buf wp rp)
    (h : UartPl011.recvStep bufSize r = some r') :
    used bufSize.toNat r'.transfer.rp.toNat r'.transfer.wp.toNat =
      used bufSize.toNat r.transfer.rp.toNat r.transfer.wp.toNat + offered bufSize r.recv := by
  have hrecv := hI.recv
  rw [hpc] at hrecv
  have hpos := hrecv.pos
  have hroom := hrecv.room
  subst hpos
  have hs := UartPl011Fifo.recvHalves_splits hI.wp hrecv.looked buf.length
  have htotal := hs.total
  simp only [UartPl011.recvStep, hpc] at h
  obtain rfl := Option.some.inj h
  simp only [hpc, offered]
  rw [hs.after, htotal]
  apply used_push hI.rp hI.wp
  omega

theorem recvStep_ring (ht : recvStep bufSize s = some t) (hsig : signals s = false) :
    ∃ ring, UartPl011.recvStep bufSize s.ring = some ring ∧
      t = { s with ring, notified := false } := by
  unfold recvStep at ht
  unfold signals at hsig
  split at ht
  · simp_all
  · obtain ⟨ring, hring, rfl⟩ := Option.map_eq_some_iff.mp ht
    exact ⟨ring, hring, rfl⟩

/-- Up to the event and after it, a reception does not change what there is to be told. -/
theorem told_recvStep (hI : UartPl011Fifo.Inv bufSize s.ring) (hsig : signals s = false)
    {ring : UartPl011.State} (hring : UartPl011.recvStep bufSize s.ring = some ring) :
    told bufSize { s with ring, notified := false } = told bufSize s := by
  have hI' : UartPl011Fifo.Inv bufSize ring := (UartPl011Fifo.recvStep_refines hI hring).1
  have hempty := empty_iff hI
  have hempty' := empty_iff hI'
  by_cases hpub : ∃ buf wp rp, s.ring.recv = .publish buf wp rp
  · obtain ⟨buf, wp, rp, hpc⟩ := hpub
    have hnotified : s.notified = true := by
      by_contra hnot
      rw [Bool.not_eq_true] at hnot
      simp [signals, hpc, hnot] at hsig
    have hused := recvStep_publish hI hpc hring
    rw [Bool.eq_iff_iff]
    simp only [told, hnotified, Bool.or_eq_true, Bool.not_eq_true', Bool.true_and,
      Bool.false_and, decide_eq_true_eq, ← Bool.not_eq_true, hempty, hempty']
    simp only [Bool.false_eq_true, or_false]
    omega
  · have hpub' : ∀ buf wp rp, s.ring.recv ≠ .publish buf wp rp :=
      fun buf wp rp hpc => hpub ⟨buf, wp, rp, hpc⟩
    have hwp := (recvStep_receives hring).wp hpub'
    have hrp := (recvStep_receives hring).rp
    have hoffered : offered bufSize s.ring.recv = 0 := by
      cases hpc : s.ring.recv with
      | publish buf wp rp => exact absurd hpc (hpub' buf wp rp)
      | _ => rfl
    simp [told, hoffered, UartPl011.uartRxBufEmpty, hwp, hrp]

/-- A step of a reception keeps the invariant when it tells no less, and a reader that waits the
same as the event does. -/
theorem receive_inv (h : Inv bufSize s) (hring : UartPl011Fifo.Inv bufSize t.ring)
    (hr : Receives s.ring t.ring) (hblock : t.block = s.block) (hhost : t.host = s.host)
    (hresults : t.results = s.results) (htold : told bufSize s = true → told bufSize t = true)
    (hwait : waits s = true → t.event = told bufSize t) : Inv bufSize t := by
  refine ⟨hring, ?_, ?_, ?_, ?_, ?_⟩
  · rw [hhost, hr.read]
    exact h.idle
  · rw [hhost, hr.read]
    exact h.counts
  · intro hwaits
    rw [waits, hhost] at hwaits
    rw [hblock]
    exact ⟨(h.wait hwaits).1, hwait hwaits⟩
  · intro hb
    have hread := h.read (hblock ▸ hb)
    unfold ReadOk at hread ⊢
    rw [hr.read]
    cases hpc : s.ring.read with
    | readWp count =>
      rw [hpc] at hread
      exact htold hread
    | readRp count wp =>
      rw [hpc] at hread
      change t.ring.transfer.rp ≠ wp
      rw [hr.rp]
      exact hread
    | _ => trivial
  · rw [hresults]
    exact h.data

theorem recvStep_signal (hsig : signals s = true) :
    recvStep bufSize s = some { s with event := true, notified := true } := by
  unfold signals at hsig
  unfold recvStep
  split
  · rfl
  · simp_all

theorem recv_inv (h : Inv bufSize s) (hcalm : Calm bufSize s .recv)
    (ht : recvStep bufSize s = some t) : Inv bufSize t := by
  cases hsig : signals s with
  | false =>
    obtain ⟨ring, hring, rfl⟩ := recvStep_ring ht hsig
    have htold := told_recvStep h.ring hsig hring
    refine receive_inv h (UartPl011Fifo.recvStep_refines h.ring hring).1
      (recvStep_receives hring) rfl rfl rfl ?_ ?_
    · intro hs
      rwa [htold]
    · intro hwaits
      rw [htold]
      exact (h.wait hwaits).2
  | true =>
    rw [recvStep_signal hsig] at ht
    obtain rfl := Option.some.inj ht
    refine receive_inv h h.ring ⟨rfl, rfl, fun _ => rfl⟩ rfl rfl rfl ?_ ?_
    · intro hs
      unfold told at hs ⊢
      simp only [Bool.or_eq_true, Bool.and_eq_true, Bool.true_and] at hs ⊢
      exact hs.imp_right And.right
    · intro hwaits
      symm
      cases hempty : UartPl011.uartRxBufEmpty s.ring with
      | false => simp [told, hempty]
      | true => simp [told, hcalm hsig hwaits hempty]

theorem recvNotify_inv {buf : List UInt8} (h : Inv bufSize s)
    (ht : next bufSize s (.recvNotify buf) = some t) : Inv bufSize t := by
  obtain ⟨ring, hring, rfl⟩ := Option.map_eq_some_iff.mp ht
  obtain ⟨hr, htransfer, hoffered, hoffered'⟩ := next_recvNotify hring
  have htold : told bufSize { s with ring } = told bufSize s := by
    simp [told, hoffered, hoffered', UartPl011.uartRxBufEmpty, htransfer]
  refine receive_inv h (UartPl011Fifo.next_refines h.ring hring).1 hr rfl rfl rfl ?_ ?_
  · intro hs
    rwa [htold]
  · intro hwaits
    rw [htold]
    exact (h.wait hwaits).2

def copies : UartPl011.ReadPc → Bool
  | .upper _ _ _ _ | .lower _ _ _ _ | .publish _ _ _ _ => true
  | _ => false

theorem readStep_cases {r r' : UartPl011.State} (h : UartPl011.readStep bufSize r = some r') :
    (∃ count, r.read = .readWp count ∧ r' = { r with read := .readRp count r.transfer.wp }) ∨
    (∃ count, r.read = .readRp count r.transfer.rp ∧
      r' = { r with read := .idle, delivered := r.delivered ++ [(count, 0, [])] }) ∨
    (∃ pc, r' = { r with read := pc } ∧ asked pc = asked r.read ∧ copies pc = true) ∨
    ∃ count wp rp out ret, r.read = .publish count wp rp out ∧ r'.read = .idle ∧
      r'.delivered = r.delivered ++ [(count, ret, out)] := by
  unfold UartPl011.readStep at h
  cases hpc : r.read with
  | idle => simp [hpc] at h
  | readWp count =>
    simp only [hpc] at h
    exact .inl ⟨count, rfl, (Option.some.inj h).symm⟩
  | readRp count wp =>
    simp only [hpc] at h
    split at h
    case isTrue heq =>
      subst heq
      exact .inr (.inl ⟨count, rfl, (Option.some.inj h).symm⟩)
    case isFalse => exact .inr (.inr (.inl ⟨_, (Option.some.inj h).symm, rfl, rfl⟩))
  | upper count wp rp out | lower count wp rp out =>
    simp only [hpc] at h
    split at h
    all_goals exact .inr (.inr (.inl ⟨_, (Option.some.inj h).symm, rfl, rfl⟩))
  | publish count wp rp out =>
    simp only [hpc] at h
    obtain rfl := Option.some.inj h
    exact .inr (.inr (.inr ⟨count, wp, rp, out, _, rfl, rfl, rfl⟩))

theorem publish_length {r : UartPl011.State} (hI : UartPl011Fifo.Inv bufSize r) {count : ℕ}
    {wp rp : UInt32} {out : List UInt8} (hpc : r.read = .publish count wp rp out)
    (hcount : 0 < count) : 0 < out.length := by
  have hread := hI.read
  rw [hpc] at hread
  obtain ⟨hr, hlen⟩ := hread
  have hrp : rp.toNat < bufSize.toNat := hr.pos ▸ hI.rp
  have hused : used bufSize.toNat rp.toNat wp.toNat ≠ 0 := by
    rw [Ne, used_eq_zero hrp, UInt32.toNat_inj]
    exact hr.ne
  omega

theorem returned_append (r r' : UartPl011.State) (call : ℕ × UInt32 × List UInt8)
    (h : r'.delivered = r.delivered ++ [call]) : returned r r' = [call.2.1] := by
  rw [returned, h, List.drop_left]
  rfl

theorem returned_same {r r' : UartPl011.State} (h : r'.delivered = r.delivered) :
    returned r r' = [] := by
  rw [returned, h, List.drop_length]
  rfl

theorem startRead_inv {count : ℕ} (h : Inv bufSize s) (hidle : s.ring.read = .idle)
    (hcount : 0 < count) (htold : s.block = true → told bufSize s = true)
    (ht : startRead bufSize s count = some t) : Inv bufSize t := by
  obtain ⟨ring, hring, rfl⟩ := Option.map_eq_some_iff.mp ht
  have hstarted : ring = { s.ring with read := .readWp count } := by
    simp only [UartPl011.next, hidle, if_neg hcount.ne'] at hring
    exact (Option.some.inj hring).symm
  refine ⟨(UartPl011Fifo.next_refines h.ring hring).1, fun hne => absurd rfl hne, ?_, ?_, ?_, h.data⟩
  · rintro c (hc | hc)
    · rw [hstarted] at hc
      obtain rfl := Option.some.inj hc
      exact hcount
    · cases hc
  · intro hwaits
    cases hwaits
  · intro hb
    subst hstarted
    exact htold hb

theorem underway_inv {ring : UartPl011.State} (h : Inv bufSize s)
    (hI : UartPl011Fifo.Inv bufSize ring) (hdelivered : ring.delivered = s.ring.delivered)
    (hasked : asked ring.read = asked s.ring.read) (hne : ring.read ≠ .idle)
    (hok : s.block = true → ReadOk bufSize { s with ring }) :
    Inv bufSize (afterRead s ring) := by
  have hhost : (afterRead s ring).host = .reading := if_neg hne
  have hresults : (afterRead s ring).results = s.results := by
    rw [afterRead, returned_same hdelivered]
    exact List.append_nil _
  refine ⟨hI, fun hnot => absurd hhost hnot, ?_, ?_, hok, ?_⟩
  · rintro count (hcount | hcount)
    · exact h.counts count (.inl (hasked ▸ hcount))
    · rw [hhost] at hcount
      cases hcount
  · intro hwaits
    rw [waits, hhost] at hwaits
    cases hwaits
  · rw [hresults]
    exact h.data

theorem finished_inv {ring : UartPl011.State} (h : Inv bufSize s)
    (hI : UartPl011Fifo.Inv bufSize ring) (hidle : ring.read = .idle) {ret : UInt32}
    (hreturned : returned s.ring ring = [ret]) (hret : s.block = true → 0 < ret.toNat) :
    Inv bufSize (afterRead s ring) := by
  have hhost : (afterRead s ring).host = .recheck := if_pos hidle
  have hresults : (afterRead s ring).results = s.results ++ [(s.block, ret)] := by
    rw [afterRead, hreturned]
    rfl
  refine ⟨hI, fun _ => hidle, ?_, ?_, ?_, ?_⟩
  · rintro count (hcount | hcount)
    · change asked ring.read = some count at hcount
      rw [hidle] at hcount
      cases hcount
    · rw [hhost] at hcount
      cases hcount
  · intro hwaits
    rw [waits, hhost] at hwaits
    cases hwaits
  · intro _
    change ReadOk bufSize { s with ring }
    rw [ReadOk, hidle]
    trivial
  · rw [hresults]
    intro r hr hmode
    rcases List.mem_append.mp hr with hr | hr
    · exact h.data r hr hmode
    · obtain rfl := List.mem_singleton.mp hr
      exact hret hmode

theorem looked_ne {count : ℕ} (h : Inv bufSize s) (hread : s.ring.read = .readWp count)
    (hcalm : HostCalm bufSize s .reading) (hb : s.block = true) :
    s.ring.transfer.rp ≠ s.ring.transfer.wp := by
  have hlooks : looks s = true := by rw [looks, hread]
  have htold : told bufSize s = true := by
    have hok := h.read hb
    rwa [ReadOk, hread] at hok
  have hfull := hcalm hb hlooks htold
  intro heq
  rw [UartPl011.uartRxBufEmpty, heq, beq_self_eq_true] at hfull
  cases hfull

theorem reading_inv (h : Inv bufSize s) (hpc : s.host = .reading)
    (hcalm : HostCalm bufSize s .reading) (ht : hostStep bufSize s = some t) : Inv bufSize t := by
  simp only [hostStep, hpc] at ht
  obtain ⟨ring, hring, rfl⟩ := Option.map_eq_some_iff.mp ht
  have hI := (UartPl011Fifo.readStep_refines h.ring hring).1
  rcases readStep_cases hring with ⟨count, hread, rfl⟩ | ⟨count, hread, rfl⟩ |
    ⟨pc, rfl, hasked, hcopies⟩ | ⟨count, wp, rp, out, ret, hread, hidle, hdelivered⟩
  · refine underway_inv h hI rfl (by rw [hread]; rfl) (by simp) ?_
    exact looked_ne h hread hcalm
  · refine finished_inv h hI rfl (returned_append _ _ (count, 0, []) rfl) ?_
    intro hb
    have hok := h.read hb
    rw [ReadOk, hread] at hok
    exact absurd rfl hok
  · refine underway_inv h hI rfl hasked ?_ ?_
    · rintro rfl
      cases hcopies
    · intro _
      cases pc with
      | readWp => cases hcopies
      | readRp => cases hcopies
      | _ => trivial
  · have hlen : 0 < out.length :=
      publish_length h.ring hread (h.counts count (.inl (by rw [hread]; rfl)))
    have hret : ret.toNat = out.length :=
      hI.counts (count, ret, out) (by rw [hdelivered]; simp)
    refine finished_inv h hI hidle (returned_append _ _ _ hdelivered) fun _ => ?_
    rw [hret]
    exact hlen

/-- Steps of Hi35xxRead outside Pl011Read that leave the ring, and do not wait. -/
theorem outside_inv {event : Bool} {host : HostPc} (h : Inv bufSize s)
    (hidle : s.ring.read = .idle) (hreading : host = .idle ∨ host = .clear) :
    Inv bufSize { s with event, host } := by
  refine ⟨h.ring, fun _ => hidle, ?_, ?_, h.read, h.data⟩
  · rintro count (hcount | hcount)
    · exact h.counts count (.inl hcount)
    · rcases hreading with rfl | rfl <;> cases hcount
  · intro hwaits
    rcases hreading with rfl | rfl <;> cases hwaits

theorem check_inv {count : ℕ} (h : Inv bufSize s) (hpc : s.host = .check count)
    (hcalm : HostCalm bufSize s (.check count)) (ht : hostStep bufSize s = some t) :
    Inv bufSize t := by
  have hidle : s.ring.read = .idle := h.idle (by simp [hpc])
  have hcount : 0 < count := h.counts count (.inr (by rw [hpc]; rfl))
  simp only [hostStep, hpc] at ht
  split at ht
  case isTrue hempty =>
    obtain rfl := Option.some.inj ht
    obtain ⟨hb, hempty⟩ := Bool.and_eq_true_iff.mp hempty
    refine ⟨h.ring, fun _ => hidle, ?_, fun _ => ⟨hb, hcalm hb hempty⟩, h.read, h.data⟩
    rintro c (hc | hc)
    · exact h.counts c (.inl hc)
    · obtain rfl := Option.some.inj hc
      exact hcount
  case isFalse hfull =>
    refine startRead_inv h hidle hcount ?_ ht
    intro hb
    have hnot : UartPl011.uartRxBufEmpty s.ring = false := by simpa [hb] using hfull
    simp [told, hnot]

theorem wait_inv {count : ℕ} (h : Inv bufSize s) (hpc : s.host = .wait count)
    (ht : hostStep bufSize s = some t) : Inv bufSize t := by
  have hidle : s.ring.read = .idle := h.idle (by simp [hpc])
  have hcount : 0 < count := h.counts count (.inr (by rw [hpc]; rfl))
  have hwait : s.event = told bufSize s := (h.wait (by rw [waits, hpc])).2
  simp only [hostStep, hpc] at ht
  split at ht
  case isTrue hevent =>
    apply startRead_inv h hidle hcount _ ht
    intro _
    rw [← hwait, hevent]
  case isFalse => cases ht

theorem host_inv (h : Inv bufSize s) (hcalm : HostCalm bufSize s s.host)
    (ht : hostStep bufSize s = some t) : Inv bufSize t := by
  cases hpc : s.host with
  | idle => simp [hostStep, hpc] at ht
  | check count => exact check_inv h hpc (hpc ▸ hcalm) ht
  | wait count => exact wait_inv h hpc ht
  | reading => exact reading_inv h hpc (hpc ▸ hcalm) ht
  | recheck =>
    simp only [hostStep, hpc] at ht
    obtain rfl := Option.some.inj ht
    apply outside_inv h (h.idle (by simp [hpc]))
    split
    · exact .inr rfl
    · exact .inl rfl
  | clear =>
    simp only [hostStep, hpc] at ht
    obtain rfl := Option.some.inj ht
    exact outside_inv h (h.idle (by simp [hpc])) (.inl rfl)

theorem setTransMode_inv {mode : UartTransMode} (h : Inv bufSize s) (hpc : s.host = .idle) :
    Inv bufSize (setTransMode s mode) := by
  have hidle : s.ring.read = .idle := h.idle (by simp [hpc])
  have hwaits : waits s ≠ true := by simp [waits, hpc]
  have hread : ∀ block event, ReadOk bufSize { s with block, event } := by
    intro block event
    simp only [ReadOk, hidle]
  cases mode with
  | rdBlock =>
    exact ⟨h.ring, h.idle, h.counts, fun hw => absurd hw hwaits, fun _ => hread _ _, h.data⟩
  | rdNonblock =>
    exact ⟨h.ring, h.idle, h.counts, fun hw => absurd hw hwaits, fun _ => hread _ _, h.data⟩
  | other => exact h

theorem next_inv {e : Event} (h : Inv bufSize s) (hcalm : Calm bufSize s e)
    (ht : next bufSize s e = some t) : Inv bufSize t := by
  cases e with
  | recvNotify buf => exact recvNotify_inv h ht
  | recv => exact recv_inv h hcalm ht
  | read count =>
    simp only [next] at ht
    split at ht
    case isTrue hif =>
      obtain rfl := Option.some.inj ht
      refine ⟨h.ring, fun _ => h.idle (by simp [hif.1]), ?_, fun hw => ?_, h.read, h.data⟩
      · rintro c (hc | hc)
        · exact h.counts c (.inl hc)
        · obtain rfl := Option.some.inj hc
          exact hif.2
      · cases hw
    case isFalse => cases ht
  | reader => exact host_inv h hcalm ht
  | setTransMode mode =>
    simp only [next] at ht
    split at ht
    case isTrue hpc =>
      obtain rfl := Option.some.inj ht
      exact setTransMode_inv h hpc
    case isFalse => cases ht

theorem Inv.delivers (h : Inv bufSize s) : Delivers bufSize s := by
  refine ⟨h.data, fun count hpc hfull => ?_⟩
  have hidle : s.ring.read = .idle := h.idle (by simp [hpc])
  have hcount : 0 < count := h.counts count (.inr (by rw [hpc]; rfl))
  have hevent : s.event = true := by
    rw [(h.wait (by rw [waits, hpc])).2, told, hfull]
    rfl
  simp [next, hostStep, hpc, hevent, startRead, UartPl011.next, hidle]

/-- The labels lead from the state to one in which a read has returned nothing or waits for nothing. -/
def Fails (bufSize : UInt32) (s : State) (es : List Event) : Prop :=
  ∃ t, (system bufSize).run s es = some t ∧ ¬ Delivers bufSize t

theorem fails_cons {e : Event} {es : List Event} (ht : next bufSize s e = some t)
    (h : Fails bufSize t es) : Fails bufSize s (e :: es) := by
  obtain ⟨u, hrun, hfails⟩ := h
  refine ⟨u, ?_, hfails⟩
  rw [run_cons]
  change (next bufSize s e).bind _ = some u
  rw [ht]
  exact hrun

theorem fails_of_result (h : (true, 0) ∈ s.results) : Fails bufSize s [] := by
  refine ⟨s, rfl, fun hdelivers => ?_⟩
  have hdata := hdelivers.data (true, 0) h rfl
  simp at hdata

theorem look_fails {count : ℕ} (hhost : s.host = .reading) (hread : s.ring.read = .readWp count)
    (hb : s.block = true) (hempty : UartPl011.uartRxBufEmpty s.ring = true) :
    Fails bufSize s [.reader, .reader] := by
  have hsame : s.ring.transfer.wp = s.ring.transfer.rp := beq_iff_eq.mp hempty
  have hlook : next bufSize s .reader =
      some (afterRead s { s.ring with read := .readRp count s.ring.transfer.wp }) := by
    simp [next, hostStep, hhost, UartPl011.readStep, hread]
  apply fails_cons hlook
  have hreturn : next bufSize
      (afterRead s { s.ring with read := .readRp count s.ring.transfer.wp }) .reader =
      some (afterRead (afterRead s { s.ring with read := .readRp count s.ring.transfer.wp })
        { s.ring with read := .idle, delivered := s.ring.delivered ++ [(count, 0, [])] }) := by
    simp [next, hostStep, afterRead, UartPl011.readStep, hsame]
  apply fails_cons hreturn
  apply fails_of_result
  simp [afterRead, returned, hb]

theorem pass_fails {count : ℕ} (hhost : s.host = .wait count) (hidle : s.ring.read = .idle)
    (hcount : 0 < count) (hb : s.block = true) (hevent : s.event = true)
    (hempty : UartPl011.uartRxBufEmpty s.ring = true) :
    Fails bufSize s [.reader, .reader, .reader] := by
  have hpass : next bufSize s .reader = some { s with
      ring := { s.ring with read := .readWp count }
      host := .reading } := by
    simp [next, hostStep, hhost, hevent, startRead, UartPl011.next, hidle, hcount.ne']
  apply fails_cons hpass
  exact look_fails rfl rfl hb hempty

/-- A read that waits for an event that has been, when its reception publishes. -/
theorem publish_fails {count : ℕ} (hI : UartPl011Fifo.Inv bufSize s.ring)
    (hhost : s.host = .wait count) (hevent : s.event = false)
    (hempty : UartPl011.uartRxBufEmpty s.ring = true) (htold : told bufSize s = true) :
    Fails bufSize s [.recv] := by
  have hsome : s.notified = true ∧ 0 < offered bufSize s.ring.recv := by
    simpa [told, hempty] using htold
  obtain ⟨buf, wp, rp, hpc⟩ : ∃ buf wp rp, s.ring.recv = .publish buf wp rp := by
    cases hpc : s.ring.recv with
    | publish buf wp rp => exact ⟨buf, wp, rp, rfl⟩
    | _ =>
      have hnone := hsome.2
      rw [hpc] at hnone
      cases hnone
  obtain ⟨ring, hring⟩ : ∃ ring, UartPl011.recvStep bufSize s.ring = some ring := by
    simp [UartPl011.recvStep, hpc]
  have hpublish : next bufSize s .recv = some { s with ring, notified := false } := by
    simp [next, recvStep, hpc, hsome.1, hring]
  have hfull : UartPl011.uartRxBufEmpty ring = false := by
    have hused := recvStep_publish hI hpc hring
    rw [← Bool.not_eq_true, empty_iff (UartPl011Fifo.recvStep_refines hI hring).1]
    omega
  apply fails_cons hpublish
  refine ⟨_, rfl, fun hdelivers => ?_⟩
  obtain ⟨t, ht, -⟩ := hdelivers.awake count hhost hfull
  simp [next, hostStep, hhost, hevent] at ht

theorem check_fails {count : ℕ} (h : Inv bufSize s) (hpc : s.host = .check count)
    (hcalm : ¬ HostCalm bufSize s (.check count)) : ∃ es, Fails bufSize s (.reader :: es) := by
  simp only [HostCalm, Classical.not_imp] at hcalm
  obtain ⟨hb, hempty, hne⟩ := hcalm
  have hidle : s.ring.read = .idle := h.idle (by simp [hpc])
  have hcount : 0 < count := h.counts count (.inr (by rw [hpc]; rfl))
  have hwait : next bufSize s .reader = some { s with host := .wait count } := by
    simp [next, hostStep, hpc, hb, hempty]
  cases hevent : s.event with
  | true => exact ⟨_, fails_cons hwait (pass_fails rfl hidle hcount hb hevent hempty)⟩
  | false =>
    have htold : told bufSize s = true := by simpa [hevent] using hne
    exact ⟨_, fails_cons hwait (publish_fails h.ring rfl hevent hempty htold)⟩

theorem looks_fails (hpc : s.host = .reading) (hcalm : ¬ HostCalm bufSize s .reading) :
    ∃ es, Fails bufSize s (.reader :: es) := by
  simp only [HostCalm, Classical.not_imp, Bool.not_eq_false] at hcalm
  obtain ⟨hb, hlooks, -, hempty⟩ := hcalm
  cases hread : s.ring.read with
  | readWp count => exact ⟨_, look_fails hpc hread hb hempty⟩
  | _ => simp [looks, hread] at hlooks

theorem signal_fails (h : Inv bufSize s) (hcalm : ¬ Calm bufSize s .recv) :
    ∃ es, Fails bufSize s (.recv :: es) := by
  simp only [Calm, Classical.not_imp] at hcalm
  obtain ⟨hsig, hwaits, hempty, -⟩ := hcalm
  obtain ⟨count, hpc⟩ : ∃ count, s.host = .wait count := by
    cases hpc : s.host with
    | wait count => exact ⟨count, rfl⟩
    | _ => simp [waits, hpc] at hwaits
  have hidle : s.ring.read = .idle := h.idle (by simp [hpc])
  have hcount : 0 < count := h.counts count (.inr (by rw [hpc]; rfl))
  have hwrite : next bufSize s .recv = some { s with event := true, notified := true } :=
    recvStep_signal hsig
  exact ⟨_, fails_cons hwrite (pass_fails hpc hidle hcount (h.wait hwaits).1 rfl hempty)⟩

/-- After a step that is not calm the run can go on to a state that does not deliver. -/
theorem next_fails {e : Event} (h : Inv bufSize s) (hcalm : ¬ Calm bufSize s e) :
    ∃ es, Fails bufSize s (e :: es) := by
  cases e with
  | reader =>
    change ¬ HostCalm bufSize s s.host at hcalm
    cases hpc : s.host with
    | check count => exact check_fails h hpc (hpc ▸ hcalm)
    | reading => exact looks_fails hpc (hpc ▸ hcalm)
    | _ =>
      rw [hpc] at hcalm
      exact absurd trivial hcalm
  | recv => exact signal_fails h hcalm
  | _ => exact absurd trivial hcalm

end Steps

/-- As long as every step is calm, a read in blocking mode delivers data, and none waits while there
is some; and any step that is not can go on to a state where that fails. -/
theorem calm_reads_deliver {bufSize : UInt32} (hb : 2 ≤ bufSize.toNat) {s : State}
    (h : ReachableUnder (system bufSize) (Calm bufSize) s) :
    Delivers bufSize s ∧ ∀ e, ¬ Calm bufSize s e → ∃ es, Fails bufSize s (e :: es) := by
  have hI : Inv bufSize s :=
    ReachableUnder.invariant (I := Inv bufSize) (fun _ hs => init_inv hb hs)
      (fun _ _ _ hI hcalm ht => next_inv hI hcalm ht) h
  exact ⟨hI.delivers, fun e hcalm => next_fails hI hcalm⟩

def served : List Event :=
  [Event.setTransMode .rdBlock, .read 16, .reader, .recvNotify [1, 2]] ++
  List.replicate 8 Event.recv ++ List.replicate 10 Event.reader

theorem calm_reads_deliver_served : ∃ s, (system 0x4000).run (attached false) served = some s ∧
    s.results = [(true, 2)] ∧ Delivers 0x4000 s := by
  have hrun : ((system 0x4000).run (attached false) served).map (fun s => s.results) =
      some [(true, 2)] := by decide +kernel
  have hcalm : StepsMeet (system 0x4000) (Calm 0x4000) (attached false) served := by
    decide +kernel
  obtain ⟨s, hs, hresults⟩ := Option.map_eq_some_iff.mp hrun
  have hreachable := ReachableUnder.run (.init (init_attached false)) hcalm hs
  exact ⟨s, hs, hresults, (calm_reads_deliver (by decide) hreachable).1⟩

def switched : List Event :=
  [Event.setTransMode .rdNonblock, .setTransMode .rdBlock, .read 16] ++
  List.replicate 4 Event.reader

/-- The event of the second reception is cleared before the reception publishes its byte. -/
def cleared : List Event :=
  [Event.read 1, .reader, .recvNotify [1]] ++ List.replicate 7 Event.recv ++
  List.replicate 8 Event.reader ++ [Event.recvNotify [2]] ++ List.replicate 6 Event.recv ++
  [Event.reader, .read 1, .reader, .recv]

theorem stale_event_no_data :
    (∃ s, (system 0x4000).run (attached true) switched = some s ∧ s.results = [(true, 0)] ∧
      ¬ Delivers 0x4000 s) ∧
    ∃ s, (system 0x4000).run (attached true) cleared = some s ∧ s.host = .wait 1 ∧
      UartPl011.uartRxBufEmpty s.ring = false ∧ next 0x4000 s .reader = none ∧
      ¬ Delivers 0x4000 s := by
  have hswitched : ((system 0x4000).run (attached true) switched).map (fun s => s.results) =
      some [(true, 0)] := by decide +kernel
  have hcleared : ((system 0x4000).run (attached true) cleared).map (fun s =>
      (s.host, s.event, UartPl011.uartRxBufEmpty s.ring)) = some (.wait 1, false, false) := by
    decide +kernel
  constructor
  · obtain ⟨s, hs, hresults⟩ := Option.map_eq_some_iff.mp hswitched
    refine ⟨s, hs, hresults, fun h => ?_⟩
    have hdata := h.data (true, 0) (by rw [hresults]; simp) rfl
    simp at hdata
  · obtain ⟨s, hs, hstate⟩ := Option.map_eq_some_iff.mp hcleared
    obtain ⟨hhost, hevent, hfull⟩ : s.host = .wait 1 ∧ s.event = false ∧
        UartPl011.uartRxBufEmpty s.ring = false := by simpa using hstate
    have hstuck : next 0x4000 s .reader = none := by simp [next, hostStep, hhost, hevent]
    refine ⟨s, hs, hhost, hfull, hstuck, fun h => ?_⟩
    obtain ⟨t, ht, -⟩ := h.awake 1 hhost hfull
    rw [hstuck] at ht
    cases ht

end UartBlockingRead
