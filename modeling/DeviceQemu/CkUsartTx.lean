import DeviceQemu.CkUsart

/-! Sending over the C-SKY serial port.
What the driver should do with the buffers of csi_usart_send, as an automaton over what it does to
the outside, and that it does so if no call starts while its interrupt is enabled. -/
namespace CkUsartTx

open StepSystem PreemptedCode CkUsart

/-- A buffer at `data` of which `sent` bytes are handed over, or nothing to send. -/
inductive Transmitter where
  | idle
  | sending (data num sent : ℕ)
  deriving DecidableEq, Repr

/-- The bytes go out from the first on, each once, and complete is what is complete. After
csi_usart_abort_send has returned there is nothing to send. -/
def Transmitter.next : Transmitter → Out → Option Transmitter
  | t, .called (.send data num) =>
    if data = 0 ∨ num = 0 then some t else some (.sending data.toNat num.toNat 0)
  | _, .returned .abortSend _ => some .idle
  | .sending data num sent, .transmit a =>
    if a = data + sent ∧ sent < num then some (.sending data num (sent + 1)) else none
  | .idle, .transmit _ => none
  | .sending _ num sent, .event .sendComplete => if sent = num then some .idle else none
  | .idle, .event .sendComplete => none
  | t, _ => some t

def transmitter : System Transmitter Out where
  Init := (· = .idle)
  next := Transmitter.next

def sentSoFar (s : Usart) : Option Transmitter := transmitter.run .idle s.trace

/-- A call of csi_usart_send finds the interrupt of the transmitter disabled. -/
def SendsQuiet (c : Port) : Action → Prop
  | .call (.send _ _) => c.state.ier &&& ierThreIntEnable = 0
  | _ => True

instance (c : Port) (e : Action) : Decidable (SendsQuiet c e) := by
  unfold SendsQuiet
  split <;> infer_instance

def TxSilent (o : Out) : Prop := ∀ t : Transmitter, t.next o = some t

theorem sentSoFar_emit (s : Usart) (o : Out) :
    sentSoFar (s.emit o) = (sentSoFar s).bind fun t => t.next o := by
  rw [sentSoFar, Usart.emit, run_append, ← sentSoFar]
  congr 1
  funext t
  exact Option.bind_fun_some _

theorem sentSoFar_next {s : Usart} {o : Out} {t u : Transmitter} (h : sentSoFar s = some t)
    (hn : t.next o = some u) : sentSoFar (s.emit o) = some u := by
  rw [sentSoFar_emit, h, Option.bind_some, hn]

theorem sentSoFar_emit_silent {s : Usart} {o : Out} (h : TxSilent o) :
    sentSoFar (s.emit o) = sentSoFar s := by
  rw [sentSoFar_emit, funext h]
  exact Option.bind_fun_some _

def Off (s : Usart) : Prop := s.ier &&& ierThreIntEnable = 0

structure TxView where
  buf : ℕ
  total : ℕ
  cnt : ℕ
  busy : Bool

def tx (s : Usart) : TxView := ⟨s.txBuf, s.txTotalNum, s.txCnt, s.txBusy⟩

structure TxSame (s t : Usart) : Prop where
  tx : tx t = tx s
  sent : sentSoFar t = sentSoFar s

structure TxKept (s t : Usart) : Prop extends TxSame s t where
  off : Off s → Off t

theorem TxKept.rfl {s : Usart} : TxKept s s := ⟨⟨by rfl, by rfl⟩, id⟩

theorem TxKept.trans {s t u : Usart} (h : TxKept s t) (h' : TxKept t u) : TxKept s u :=
  ⟨⟨h'.tx.trans h.tx, h'.sent.trans h.sent⟩, fun hs => h'.off (h.off hs)⟩

theorem TxKept.emit {s : Usart} {o : Out} (h : TxSilent o) : TxKept s (s.emit o) :=
  ⟨⟨by rfl, sentSoFar_emit_silent h⟩, id⟩

theorem txSilent_event {e : UsartEvent} (h : e ≠ .sendComplete) : TxSilent (.event e) := by
  intro t
  cases e with
  | sendComplete => exact absurd rfl h
  | _ => cases t <;> rfl

theorem TxKept.signal {s : Usart} {e : UsartEvent} (h : e ≠ .sendComplete) :
    TxKept s (s.signal e) := by
  unfold Usart.signal
  split
  · exact .emit (txSilent_event h)
  · exact .rfl

theorem off_and (v : UInt32) : (v &&& ~~~ierThreIntEnable) &&& ierThreIntEnable = 0 := by
  rw [UInt32.and_assoc]
  have : ~~~ierThreIntEnable &&& ierThreIntEnable = 0 := by decide
  rw [this, UInt32.and_zero]

theorem txKept_drain (s : Usart) : TxKept s s.drain.1 := by
  refine ⟨⟨rfl, ?_⟩, id⟩
  have hsilent : ∀ (bs : List UInt8) (t : Transmitter), transmitter.run t (bs.map .drop) = some t := by
    intro bs t
    induction bs with
    | nil => rfl
    | cons b bs ih =>
      have hb : transmitter.next t (.drop b) = some t := by cases t <;> rfl
      rw [List.map_cons, run_cons, hb]
      exact ih
  rw [sentSoFar, Usart.drain, run_append, funext (hsilent _)]
  exact Option.bind_fun_some _

theorem txKept_recvData (b : UInt8) (s : Usart) : TxKept s (intrRecvData b s) := by
  have hstore : TxSilent (.store s.rxBuf b) := fun t => by cases t <;> rfl
  have hemit : TxKept s (s.emit (.store s.rxBuf b)) := .emit hstore
  unfold intrRecvData
  dsimp only
  split
  · refine .trans ?_ (.signal UsartEvent.noConfusion)
    exact ⟨⟨hemit.tx, hemit.sent⟩, id⟩
  · exact ⟨⟨hemit.tx, hemit.sent⟩, id⟩

theorem txKept_charTimeout (s : Usart) : TxKept s (intrCharTimeout s) := by
  unfold intrCharTimeout
  split
  · exact .rfl
  · rename_i b bs _
    split_ifs
    · have htake : TxKept s { s with fifo := bs } := ⟨⟨rfl, rfl⟩, id⟩
      exact htake.trans (txKept_recvData b _)
    · exact .emit (txSilent_event (by decide))
    · exact txKept_drain s

theorem txKept_lineStatus (lsrStat : UInt32) (s : Usart) :
    TxKept { s with ier := s.ier &&& ~~~ierThreIntEnable } (intrRecvLine lsrStat s) := by
  have hd := txKept_drain { s with ier := s.ier &&& ~~~ierThreIntEnable }
  unfold intrRecvLine
  dsimp only
  split_ifs
  · exact hd.trans (.signal (by decide))
  · exact hd.trans (.signal (by decide))
  · exact hd.trans (.signal (by decide))
  · exact hd.trans (.signal (by decide))
  · exact hd.trans (.signal (by decide))
  · exact hd

theorem off_recvLine (lsrStat : UInt32) (s : Usart) : Off (intrRecvLine lsrStat s) :=
  (txKept_lineStatus lsrStat s).off (off_and s.ier)

theorem txKept_recvLine (lsrStat : UInt32) (s : Usart) : TxKept s (intrRecvLine lsrStat s) := by
  have hoff : TxKept s { s with ier := s.ier &&& ~~~ierThreIntEnable } :=
    ⟨⟨rfl, rfl⟩, fun _ => off_and s.ier⟩
  exact hoff.trans (txKept_lineStatus lsrStat s)

/-- Only its own interrupt concerns the transmitter, and only when it is enabled. -/
theorem handler_txKept {i : Irq} {s t : Usart} (h : handler i s = some t)
    (hi : i = .thrEmpty → Off s) : TxKept s t := by
  cases i with
  | arrive b =>
    obtain rfl := Option.some.inj h
    have hb : TxSilent (.arrive b) := fun t => by cases t <;> rfl
    have hemit : TxKept s (s.emit (.arrive b)) := .emit hb
    exact ⟨⟨hemit.tx, hemit.sent⟩, id⟩
  | thrEmpty =>
    obtain ⟨⟨-, hon⟩, -⟩ := Option.ite_none_right_eq_some.mp h
    exact absurd (hi rfl) hon
  | recvData | charTimeout =>
    obtain ⟨-, h⟩ := Option.ite_none_right_eq_some.mp h
    obtain rfl := Option.some.inj h
    exact txKept_charTimeout s
  | recvLine lsrStat =>
    obtain ⟨-, h⟩ := Option.ite_none_right_eq_some.mp h
    obtain rfl := Option.some.inj h
    exact txKept_recvLine lsrStat s

/-- The record agrees with the automaton, which is in the middle of a buffer. -/
structure Midway (m : Transmitter) (v : TxView) : Prop where
  sending : m = .sending (v.buf - v.cnt) v.total v.cnt
  buf : v.cnt ≤ v.buf
  cnt : v.cnt ≤ v.total
  pos : 0 < v.total
  total : v.total < 2 ^ 32
  busy : v.busy = true

def Consistent (v : TxView) (m : Transmitter) : Prop :=
  (v.total = 0 ∧ v.busy = false) ∨ Midway m v

def Settled (s : Usart) : Prop := ∃ m, sentSoFar s = some m ∧ Consistent (tx s) m

def Accepted (s : Usart) : Prop := ∃ m, sentSoFar s = some m

theorem Settled.accepted {s : Usart} (h : Settled s) : Accepted s := h.imp fun _ h => h.1

theorem Settled.same {s t : Usart} (h : Settled s) (hk : TxSame s t) : Settled t := by
  obtain ⟨m, hm, hs⟩ := h
  exact ⟨m, hk.sent.trans hm, hk.tx ▸ hs⟩

theorem Midway.transmit {m : Transmitter} {v : TxView} (h : Midway m v) (hc : v.cnt < v.total) :
    m.next (.transmit v.buf) = some (.sending (v.buf - v.cnt) v.total (v.cnt + 1)) := by
  rw [h.sending]
  have := h.buf
  exact if_pos ⟨by omega, hc⟩

theorem Midway.advance {m : Transmitter} {v : TxView} (h : Midway m v) (hc : v.cnt < v.total) :
    Midway (.sending (v.buf - v.cnt) v.total (v.cnt + 1))
      { v with buf := v.buf + 1, cnt := v.cnt + 1 } := by
  refine ⟨?_, Nat.succ_le_succ h.buf, hc, h.pos, h.total, h.busy⟩
  rw [Nat.add_sub_add_right]

def sendFinished (s : Usart) : Usart :=
  { s with
    ier := s.ier &&& ~~~ierThreIntEnable, lastTxNum := s.txTotalNum, txCnt := 0
    txBusy := false, txBuf := 0, txTotalNum := 0 }

theorem intrThresholdEmpty_done {s : Usart} (hz : s.txTotalNum ≠ 0) (hc : s.txTotalNum ≤ s.txCnt) :
    intrThresholdEmpty s = (sendFinished s).signal .sendComplete := by
  rw [intrThresholdEmpty, if_neg hz, if_pos hc]
  rfl

theorem intrThresholdEmpty_transmit {m : Transmitter} {s : Usart} (h : Midway m (tx s))
    (hc : s.txCnt < s.txTotalNum) :
    intrThresholdEmpty s =
      { s.emit (.transmit s.txBuf) with txCnt := s.txCnt + 1, txBuf := s.txBuf + 1 } := by
  have hcnt : (s.txCnt + 1) % 2 ^ 32 = s.txCnt + 1 :=
    Nat.mod_eq_of_lt (lt_of_le_of_lt hc h.total)
  have hz : s.txTotalNum ≠ 0 := h.pos.ne'
  rw [intrThresholdEmpty, if_neg hz, if_neg (Nat.not_le.mpr hc), hcnt]

theorem settled_thresholdEmpty {s : Usart} (h : Settled s) : Settled (intrThresholdEmpty s) := by
  obtain ⟨m, hm, ⟨hz, hb⟩ | hs⟩ := h
  · have hidle : intrThresholdEmpty s = s := if_pos hz
    rw [hidle]
    exact ⟨m, hm, .inl ⟨hz, hb⟩⟩
  by_cases hc : s.txCnt < s.txTotalNum
  · rw [intrThresholdEmpty_transmit hs hc]
    exact ⟨_, sentSoFar_next hm (hs.transmit hc), .inr (hs.advance hc)⟩
  · have hdone : m.next (.event .sendComplete) = some .idle := by
      rw [hs.sending]
      exact if_pos (le_antisymm hs.cnt (Nat.not_lt.mp hc))
    rw [intrThresholdEmpty_done hs.pos.ne' (Nat.not_lt.mp hc)]
    unfold Usart.signal
    split_ifs
    · exact ⟨.idle, sentSoFar_next hm hdone, .inl ⟨rfl, rfl⟩⟩
    · exact ⟨m, hm, .inl ⟨rfl, rfl⟩⟩

theorem settled_handler {i : Irq} {s t : Usart} (hs : Settled s) (h : handler i s = some t) :
    Settled t := by
  by_cases hi : i = .thrEmpty
  · subst hi
    obtain ⟨-, h⟩ := Option.ite_none_right_eq_some.mp h
    obtain rfl := Option.some.inj h
    exact settled_thresholdEmpty hs
  · exact hs.same (handler_txKept h fun hi' => absurd hi' hi).toTxSame

theorem settled_assertion (ops : List Op) :
    Assertion ckUsartProgram SendsQuiet Accepted ops Settled :=
  ⟨fun _ => Settled.accepted, fun _ _ _ hs _ h => settled_handler hs h⟩

/-- With the interrupt disabled, what the thread knows of the transmitter. -/
def Parked (R : TxView → Transmitter → Prop) (s : Usart) : Prop :=
  Off s ∧ ∃ m, sentSoFar s = some m ∧ R (tx s) m

variable {R S : TxView → Transmitter → Prop}

theorem parked_assertion (ops : List Op) :
    Assertion ckUsartProgram SendsQuiet Accepted ops (Parked R) := by
  constructor
  · rintro s ⟨-, t, ht, -⟩
    exact ⟨t, ht⟩
  · rintro s i t ⟨hoff, m, hm, hR⟩ - h
    have hk := handler_txKept h fun _ => hoff
    exact ⟨hk.off hoff, m, hk.sent.trans hm, hk.tx ▸ hR⟩

def txFree : Op → Bool
  | .setTxBuf _ | .setTxTotalNum _ | .setTxCnt _ | .setTxBusy _ | .txCntFromTotal | .thresholdEmpty
  | .thresholdCompare | .loadTxByte | .writeThr _ | .incTxCnt | .incTxBuf | .signal _ => false
  | .ret c _ => c != .abortSend
  | _ => true

theorem txSilent_returned {c : Call} (h : c ≠ .abortSend) (code : UInt32) :
    TxSilent (.returned c code) := by
  intro t
  cases c with
  | abortSend => exact absurd rfl h
  | _ => cases t <;> rfl

theorem txSame_exec {op : Op} (h : txFree op = true) (s : Usart) : TxSame s (exec op s).1 := by
  cases op with
  | setTxBuf | setTxTotalNum | setTxCnt | setTxBusy | txCntFromTotal | thresholdEmpty => cases h
  | thresholdCompare | loadTxByte | writeThr | incTxCnt | incTxBuf | signal => cases h
  | armRxBuf a n =>
    have ha : TxSilent (.armed a n) := fun t => by cases t <;> rfl
    exact ⟨rfl, sentSoFar_emit_silent ha⟩
  | ret c code =>
    have hc : c ≠ .abortSend := bne_iff_ne.mp h
    exact (TxKept.emit (txSilent_returned hc code)).toTxSame
  | _ => exact ⟨rfl, rfl⟩

theorem settled_keeps {op : Op} (h : txFree op = true) : Keeps ckUsartProgram Settled op := by
  have hplain : ∀ {op : Op}, txFree op = true → (∀ s, (exec op s).2 = []) →
      Keeps ckUsartProgram Settled op :=
    fun h hop => .plain hop fun s hs => hs.same (txSame_exec h s)
  cases op with
  | setTxBuf | setTxTotalNum | setTxCnt | setTxBusy | txCntFromTotal | thresholdEmpty => cases h
  | thresholdCompare | loadTxByte | writeThr | incTxCnt | incTxBuf | signal => cases h
  | lastTxNumFromTotal | rxCntFromTotal | orIer | andIer =>
    refine .intro (fun s hs => hs) fun s _ op' hop => ?_
    obtain rfl := List.mem_singleton.mp hop
    exact hplain rfl fun _ => rfl
  | _ => exact hplain h fun _ => rfl

theorem outlined_free {ops : List Op} (h : ∀ op ∈ ops, txFree op = true) :
    Outlined ckUsartProgram SendsQuiet Accepted Settled ops Settled :=
  .frame settled_assertion fun op hop => settled_keeps (h op hop)

def Leads (R S : TxView → Transmitter → Prop) (op : Op) : Prop :=
  ∀ s m, sentSoFar s = some m → R (tx s) m →
    ∃ m', sentSoFar (exec op s).1 = some m' ∧ S (tx (exec op s).1) m'

theorem parked_step {op : Op} {ops : List Op} (hop : ∀ s, (exec op s).2 = [])
    (hoff : ∀ s, (exec op s).1.ier = s.ier) (hR : Leads R S op)
    (hn : Outlined ckUsartProgram SendsQuiet Accepted Settled ops (Parked S)) :
    Outlined ckUsartProgram SendsQuiet Accepted Settled (op :: ops) (Parked R) := by
  refine .plain hop (parked_assertion _) ?_ hn
  rintro s ⟨hs, m, hm, hr⟩
  exact ⟨(congrArg (· &&& ierThreIntEnable) (hoff s)).trans hs, hR s m hm hr⟩

/-- The load and the store of a read-modify-write; `x` is what the load reads. -/
theorem parked_modify {op : Op} {ops : List Op} {v : Usart → ℕ} {u : ℕ → Op} (x : ℕ)
    (hop : ∀ s, exec op s = (s, [u (v s)])) (hv : ∀ s m, R (tx s) m → v s = x)
    (huse : ∀ s, (exec (u x) s).2 = []) (hoff : ∀ s, (exec (u x) s).1.ier = s.ier)
    (hR : Leads R S (u x))
    (hn : Outlined ckUsartProgram SendsQuiet Accepted Settled ops (Parked S)) :
    Outlined ckUsartProgram SendsQuiet Accepted Settled (op :: ops) (Parked R) := by
  refine .step (fun _ => Parked R) (parked_assertion _) ?_ ?_
  · intro s hs
    exact (congrArg Prod.fst (hop s)).symm ▸ hs
  · rintro s ⟨-, m, -, hr⟩
    have hload : (exec op s).2 = [u x] := by rw [hop s, hv s m hr]
    change Outlined _ _ _ _ ((exec op s).2 ++ ops) _
    rw [hload]
    exact parked_step huse hoff hR hn

theorem outlined_abortSend :
    Outlined ckUsartProgram SendsQuiet Accepted Settled csiUsartAbortSend Settled := by
  refine .load (v := fun s => s.ier &&& ~~~ierThreIntEnable)
    (B := fun v s => v &&& ierThreIntEnable = 0 ∧ Settled s) (fun _ => rfl)
    (settled_assertion _) (fun s hs => ⟨off_and s.ier, hs⟩) fun v => ?_
  refine .plain (B := Parked fun _ _ => True) (fun _ => rfl) ?_ ?_ ?_
  · refine ⟨fun s hs => hs.2.accepted, ?_⟩
    rintro s i t ⟨hv, hs⟩ - h
    exact ⟨hv, settled_handler hs h⟩
  · rintro s ⟨hv, m, hm, -⟩
    exact ⟨hv, m, hm, trivial⟩
  refine .load (B := fun _ => Parked fun _ _ => True) (fun _ => rfl) (parked_assertion _)
    (fun _ hs => hs) fun n => ?_
  refine parked_step (S := fun _ _ => True) (fun _ => rfl) (fun _ => rfl)
    (fun s m hm _ => ⟨m, hm, trivial⟩) ?_
  refine parked_step (S := fun _ _ => True) (fun _ => rfl) (fun _ => rfl)
    (fun s m hm _ => ⟨m, hm, trivial⟩) ?_
  refine parked_step (S := fun v _ => v.busy = false) (fun _ => rfl) (fun _ => rfl)
    (fun s m hm _ => ⟨m, hm, rfl⟩) ?_
  refine parked_step (S := fun v _ => v.busy = false) (fun _ => rfl) (fun _ => rfl)
    (fun s m hm hb => ⟨m, hm, hb⟩) ?_
  refine parked_step (S := fun v _ => v.total = 0 ∧ v.busy = false) (fun _ => rfl) (fun _ => rfl)
    (fun s m hm hb => ⟨m, hm, rfl, hb⟩) ?_
  refine .plain (fun _ => rfl) (parked_assertion _) ?_ (.done (settled_assertion []))
  rintro s ⟨-, m, hm, hz⟩
  exact ⟨.idle, sentSoFar_next hm (by cases m <;> rfl), .inl hz⟩

/-- `sent` bytes of the `n` at `a` are handed over. -/
def Holding (a n cnt sent : ℕ) (buf : ℕ) (v : TxView) (m : Transmitter) : Prop :=
  v = ⟨buf, n, cnt, true⟩ ∧ m = .sending a n sent

theorem outlined_sendByte {a n : ℕ} {ops : List Op} (hpos : 0 < n)
    (hn : Outlined ckUsartProgram SendsQuiet Accepted Settled ops
      (Parked (Holding a n 1 1 (a + 1)))) :
    Outlined ckUsartProgram SendsQuiet Accepted Settled (sendByte ++ ops)
      (Parked (Holding a n 0 0 a)) := by
  refine parked_modify (S := Holding a n 0 1 a) a (fun _ => rfl)
    (fun _ _ h => congrArg TxView.buf h.1) (fun _ => rfl) (fun _ => rfl) ?_ ?_
  · rintro s m hm ⟨hv, rfl⟩
    exact ⟨_, sentSoFar_next hm (if_pos ⟨rfl, hpos⟩), hv, rfl⟩
  refine parked_modify (S := Holding a n 1 1 a) (v := fun s => (s.txCnt + 1) % 2 ^ 32) 1
    (fun _ => rfl) ?_ (fun _ => rfl) (fun _ => rfl) ?_ ?_
  · rintro s m ⟨hv, -⟩
    have hcnt : s.txCnt = 0 := congrArg TxView.cnt hv
    rw [hcnt]
    rfl
  · rintro s m hm ⟨hv, hr⟩
    exact ⟨m, hm, congrArg (fun v => { v with cnt := 1 }) hv, hr⟩
  refine parked_modify (v := fun s => s.txBuf + 1) (a + 1) (fun _ => rfl)
    (fun _ _ h => congrArg (fun v => v.buf + 1) h.1) (fun _ => rfl) (fun _ => rfl) ?_ hn
  rintro s m hm ⟨hv, hr⟩
  exact ⟨m, hm, congrArg (fun v => { v with buf := a + 1 }) hv, hr⟩

theorem outlined_enable {a n : ℕ} {data num : UInt32} (hpos : 0 < n) (hlt : n < 2 ^ 32) :
    Outlined ckUsartProgram SendsQuiet Accepted Settled
      [.orIer ierThreIntEnable, .ret (.send data num) 0] (Parked (Holding a n 1 1 (a + 1))) := by
  refine .load (v := fun s => s.ier ||| ierThreIntEnable) (u := .setIer)
    (B := fun _ => Parked (Holding a n 1 1 (a + 1)))
    (fun _ => rfl) (parked_assertion _) (fun _ hs => hs) fun v => ?_
  refine .plain (B := Settled) (fun _ => rfl) (parked_assertion _) ?_ (outlined_free ?_)
  · rintro s ⟨-, m, hm, hv, rfl⟩
    refine Settled.same ⟨_, hm, .inr ?_⟩ (txSame_exec rfl s)
    rw [hv]
    exact ⟨rfl, Nat.le_add_left 1 a, hpos, hpos, hlt, rfl⟩
  · intro op hop
    obtain rfl := List.mem_singleton.mp hop
    rfl

theorem outlined_send {data num : UInt32} (hd : data ≠ 0) (hn : num ≠ 0) :
    Outlined ckUsartProgram SendsQuiet Accepted Settled (csiUsartSend data num)
      (Parked fun _ m => m = .sending data.toNat num.toNat 0) := by
  have hpos : 0 < num.toNat := Nat.pos_of_ne_zero fun h => hn (UInt32.toNat_inj.mp h)
  have hlt : num.toNat < 2 ^ 32 := num.toNat_lt
  rw [csiUsartSend, if_neg (not_or.mpr ⟨hd, hn⟩)]
  generalize data.toNat = a, num.toNat = n at *
  refine parked_step (S := fun v m => v.buf = a ∧ m = .sending a n 0) (fun _ => rfl)
    (fun _ => rfl) (fun s m hm hr => ⟨m, hm, rfl, hr⟩) ?_
  refine parked_step (S := fun v m => v.buf = a ∧ v.total = n ∧ m = .sending a n 0) (fun _ => rfl)
    (fun _ => rfl) (fun s m hm hr => ⟨m, hm, hr.1, rfl, hr.2⟩) ?_
  refine parked_step
    (S := fun v m => v.buf = a ∧ v.total = n ∧ v.cnt = 0 ∧ m = .sending a n 0)
    (fun _ => rfl) (fun _ => rfl) (fun s m hm hr => ⟨m, hm, hr.1, hr.2.1, rfl, hr.2.2⟩) ?_
  refine parked_step (S := Holding a n 0 0 a) (fun _ => rfl) (fun _ => rfl) ?_ ?_
  · rintro s m hm ⟨hb, hl, hc, hr⟩
    exact ⟨m, hm, TxView.mk.injEq .. ▸ ⟨hb, hl, hc, rfl⟩, hr⟩
  refine parked_step (S := Holding a n 0 0 a) (fun _ => rfl) (fun _ => rfl)
    (fun s m hm hr => ⟨m, hm, hr⟩) ?_
  refine .step (fun _ => Parked (Holding a n 0 0 a)) (parked_assertion _) (fun _ hs => hs) ?_
  rintro s ⟨-, m, -, hv, -⟩
  have htotal : s.txTotalNum = n := congrArg TxView.total hv
  have hcheck : (exec .thresholdEmpty s).2 = [.thresholdCompare] := if_neg fun hz => by omega
  change Outlined _ _ _ _ ((exec .thresholdEmpty s).2 ++ _) _
  rw [hcheck]
  refine .step (fun _ => Parked (Holding a n 0 0 a)) (parked_assertion _) (fun _ hs => hs) ?_
  rintro s ⟨-, m, -, hv, -⟩
  have htotal : s.txTotalNum = n := congrArg TxView.total hv
  have hcnt : s.txCnt = 0 := congrArg TxView.cnt hv
  have hcompare : (exec .thresholdCompare s).2 = sendByte := if_neg fun hz => by omega
  change Outlined _ _ _ _ ((exec .thresholdCompare s).2 ++ _) _
  rw [hcompare]
  exact outlined_sendByte hpos (outlined_enable hpos hlt)

theorem txSilent_called {c : Call} (h : ∀ data num, c ≠ .send data num) : TxSilent (.called c) := by
  intro m
  cases c with
  | send data num => exact absurd rfl (h data num)
  | _ => cases m <;> rfl

theorem outlined_call {c : Call} (h : ∀ data num, c ≠ .send data num) :
    Outlined ckUsartProgram SendsQuiet Accepted Settled (body c) Settled := by
  cases c with
  | send data num => exact absurd rfl (h data num)
  | abortSend => exact outlined_abortSend
  | usartInit cb => exact outlined_free (by simp [body, csiUsartInitialize, txFree])
  | usartUninit => exact outlined_free (by simp [body, csiUsartUninitialize, txFree])
  | receive data num =>
    refine outlined_free ?_
    unfold body csiUsartReceive
    dsimp only
    split <;> simp [txFree]
  | abortReceive => exact outlined_free (by simp [body, csiUsartAbortReceive, txFree])
  | setInterrupt type flag =>
    refine outlined_free ?_
    unfold body csiUsartSetInterrupt
    dsimp only
    split_ifs <;> simp [txFree]

theorem transmitter_outlines : Outlines ckUsartProgram SendsQuiet Accepted Settled (· = reset) := by
  refine ⟨?_, settled_assertion [], ?_⟩
  · rintro s rfl
    exact ⟨.idle, rfl, .inl ⟨rfl, rfl⟩⟩
  intro c s hs hc
  by_cases hsend : ∃ data num, c = .send data num
  · obtain ⟨data, num, rfl⟩ := hsend
    obtain ⟨m, hm, hv⟩ := hs
    by_cases hz : data = 0 ∨ num = 0
    · refine ⟨Settled, ⟨m, sentSoFar_next hm (if_pos hz), hv⟩, outlined_free ?_⟩
      change ∀ op ∈ csiUsartSend data num, _
      rw [csiUsartSend, if_pos hz]
      simp [txFree]
    · obtain ⟨hd, hn⟩ := not_or.mp hz
      exact ⟨_, ⟨hc, _, sentSoFar_next hm (if_neg hz), rfl⟩, outlined_send hd hn⟩
  · have hother : ∀ data num, c ≠ .send data num := fun data num h => hsend ⟨data, num, h⟩
    exact ⟨Settled, hs.same (TxKept.emit (txSilent_called hother)).toTxSame, outlined_call hother⟩

/-- Whatever interrupts are taken, and wherever, the buffers are handed over byte by byte, and
completion is signalled for a whole buffer only. -/
theorem sends_conform {es : List Action} {c : Port} (hc : StepsMeet ckUsart SendsQuiet start es)
    (hr : ckUsart.run start es = some c) : ∃ m, transmitter.run .idle c.state.trace = some m :=
  transmitter_outlines.safe (.run (.init ⟨rfl, rfl⟩) hc hr)

def sendTwo : List Action :=
  .call (.usartInit true) :: List.replicate 4 .tick ++
    .call (.send 0x100 2) :: List.replicate 16 .tick

theorem sends_conform_sendTwo : ∃ c, ckUsart.run start sendTwo = some c ∧
    ∃ m, transmitter.run .idle c.state.trace = some m := by
  obtain ⟨c, hc⟩ := Option.isSome_iff_exists.mp (by decide : (ckUsart.run start sendTwo).isSome)
  exact ⟨c, hc, sends_conform (by decide) hc⟩

/-- The record when csi_usart_send has loaded the first byte. -/
def loaded (data num : UInt32) (s : Usart) : Usart :=
  { s.emit (.called (.send data num)) with
    txBuf := data.toNat, txTotalNum := num.toNat, txCnt := 0, txBusy := true, lastTxNum := 0 }

theorem loaded_run (s : Usart) {data num : UInt32} (hd : data ≠ 0) (hn : num ≠ 0) :
    ckUsart.run ⟨s, []⟩ (.call (.send data num) :: List.replicate 8 .tick) =
      some ⟨loaded data num s, [.writeThr data.toNat, .incTxCnt, .incTxBuf,
        .orIer ierThreIntEnable, .ret (.send data num) 0]⟩ := by
  have hpos : num.toNat ≠ 0 := fun h => hn (UInt32.toNat_inj.mp h)
  have hbody : csiUsartSend data num = _ := if_neg (not_or.mpr ⟨hd, hn⟩)
  simp [List.replicate, ckUsart, Program.system, Program.next, ckUsartProgram, body, hbody, exec,
    sendByte, Usart.emit, loaded, hpos]

/-- The handler comes between the load of the first byte and its store to THR. -/
def doubling (data num : UInt32) : List Action :=
  .call (.send data num) :: List.replicate 8 .tick ++ [.interrupt .thrEmpty, .tick]

theorem doubling_run {s : Usart} (hirq : s.irqEnabled = true) (hon : ¬ Off s) {data num : UInt32}
    (hd : data ≠ 0) (hn : num ≠ 0) :
    (ckUsart.run ⟨s, []⟩ (doubling data num)).map (·.state.trace) = some (s.trace ++
      [.called (.send data num), .transmit data.toNat, .transmit data.toNat]) := by
  have hpos : num.toNat ≠ 0 := fun h => hn (UInt32.toNat_inj.mp h)
  have hint : handler .thrEmpty (loaded data num s) =
      some (intrThresholdEmpty (loaded data num s)) := if_pos ⟨hirq, hon⟩
  have hsend : intrThresholdEmpty (loaded data num s) =
      { (loaded data num s).emit (.transmit data.toNat) with txCnt := 1, txBuf := data.toNat + 1 } := by
    simp [intrThresholdEmpty, loaded, Usart.emit, hpos]
  rw [doubling, run_append, loaded_run s hd hn, Option.bind_some]
  simp only [run_cons, run_nil, ckUsart, Program.system, Program.next, ckUsartProgram, hint, hsend,
    Option.map_some, Option.bind_some]
  simp [exec, Usart.emit, loaded]

theorem doubled_rejected {m : Option Transmitter} {data num : UInt32} (hd : data ≠ 0) (hn : num ≠ 0) :
    m.bind (transmitter.run ·
      [.called (.send data num), .transmit data.toNat, .transmit data.toNat]) = none := by
  cases m with
  | none => rfl
  | some t =>
    have hpos : 0 < num.toNat := Nat.pos_of_ne_zero fun h => hn (UInt32.toNat_inj.mp h)
    have hcalled : transmitter.next t (.called (.send data num)) =
        some (.sending data.toNat num.toNat 0) := if_neg (not_or.mpr ⟨hd, hn⟩)
    have hfirst : transmitter.next (.sending data.toNat num.toNat 0) (.transmit data.toNat) =
        some (.sending data.toNat num.toNat 1) := if_pos ⟨rfl, hpos⟩
    have hagain : transmitter.next (.sending data.toNat num.toNat 1) (.transmit data.toNat) = none :=
      if_neg fun h => absurd h.1 (Nat.succ_ne_self _).symm
    rw [Option.bind_some, run_cons, hcalled, Option.bind_some, run_cons, hfirst, Option.bind_some,
      run_cons, hagain, Option.bind_none]

theorem stepsMeet_noCall {c : Port} {es : List Action} (h : ∀ k, .call k ∉ es) :
    StepsMeet ckUsart SendsQuiet c es := by
  induction es generalizing c with
  | nil => trivial
  | cons e es ih =>
    intro d _
    refine ⟨?_, ih fun k hk => h k (List.mem_cons_of_mem e hk)⟩
    cases e with
    | call k => exact absurd List.mem_cons_self (h k)
    | tick | interrupt => trivial

/-- A send is safe from every interrupt that may come exactly if it starts with the interrupt of the
transmitter disabled. -/
theorem send_conforms_iff {c : Port} (h : ReachableUnder ckUsart SendsQuiet c) (hrest : c.rest = [])
    (hirq : c.state.irqEnabled = true) {data num : UInt32} (hd : data ≠ 0) (hn : num ≠ 0) :
    (∀ es d, (∀ k, .call k ∉ es) → ckUsart.run c (.call (.send data num) :: es) = some d →
      ∃ t, transmitter.run .idle d.state.trace = some t) ↔
      c.state.ier &&& ierThreIntEnable = 0 := by
  obtain ⟨s, rest⟩ := c
  obtain rfl : rest = [] := hrest
  constructor
  · intro hall
    by_contra hon
    obtain ⟨d, hrun, htrace⟩ := Option.map_eq_some_iff.mp (doubling_run hirq hon hd hn)
    obtain ⟨u, hu⟩ := hall _ d (by simp) hrun
    rw [htrace, run_append, doubled_rejected hd hn] at hu
    cases hu
  · intro hoff es d hes hr
    refine transmitter_outlines.safe (h.run ?_ hr)
    exact fun t _ => ⟨hoff, stepsMeet_noCall hes⟩

theorem send_conforms_iff_started :
    ∃ c, ckUsart.run start (.call (.usartInit true) :: List.replicate 4 .tick) = some c ∧
      ((∀ es d, (∀ k, .call k ∉ es) → ckUsart.run c (.call (.send 0x100 2) :: es) = some d →
        ∃ m, transmitter.run .idle d.state.trace = some m) ↔
        c.state.ier &&& ierThreIntEnable = 0) := by
  refine ⟨_, rfl, send_conforms_iff ?_ rfl rfl (by decide) (by decide)⟩
  exact .run (.init ⟨rfl, rfl⟩) (by decide : StepsMeet ckUsart SendsQuiet start
    (.call (.usartInit true) :: List.replicate 4 .tick)) rfl

/-- Interrupts alone can bring the buffer that is under way to its end. -/
def Finishes (c : Port) : Prop :=
  ∃ (is : List Irq) (d : Port), ckUsart.run c (is.map .interrupt) = some d ∧ d.state.txBusy = false

def Stalled (s : Usart) : Prop := s.irqEnabled = false ∨ Off s

theorem txKept_of_stalled {i : Irq} {s t : Usart} (hs : Stalled s) (h : handler i s = some t) :
    TxKept s t := by
  refine handler_txKept h ?_
  rintro rfl
  obtain ⟨⟨hirq, -⟩, -⟩ := Option.ite_none_right_eq_some.mp h
  exact hs.resolve_left (by simp [hirq])

theorem stalled_handler {i : Irq} {s t : Usart} (hs : Stalled s) (h : handler i s = some t) :
    Stalled t := by
  have hk := txKept_of_stalled hs h
  refine hs.imp (fun hirq => ?_) hk.off
  cases i with
  | arrive b =>
    obtain rfl := Option.some.inj h
    exact hirq
  | thrEmpty | recvData | charTimeout | recvLine =>
    obtain ⟨⟨hon, -⟩, -⟩ := Option.ite_none_right_eq_some.mp h
    exact absurd hon (by simp [hirq])

theorem stalled_run {is : List Irq} {c d : Port} (hs : Stalled c.state)
    (h : ckUsart.run c (is.map .interrupt) = some d) : d.state.txBusy = c.state.txBusy := by
  induction is generalizing c with
  | nil =>
    obtain rfl := Option.some.inj h
    rfl
  | cons i is ih =>
    obtain ⟨u, hu, hrun⟩ := Option.bind_eq_some_iff.mp h
    obtain ⟨t, ht, rfl⟩ := Option.map_eq_some_iff.mp hu
    have ht : handler i c.state = some t := ht
    have hbusy : t.txBusy = c.state.txBusy := congrArg TxView.busy (txKept_of_stalled hs ht).tx
    exact (ih (c := ⟨t, c.rest⟩) (stalled_handler hs ht) hrun).trans hbusy

theorem finishes_of_enabled {s : Usart} {rest : List Op} (hs : Settled s)
    (hirq : s.irqEnabled = true) (hon : ¬ Off s) : Finishes ⟨s, rest⟩ := by
  obtain ⟨m, hm, ⟨-, hb⟩ | hmid⟩ := id hs
  · exact ⟨[], _, rfl, hb⟩
  -- Each interrupt takes one of the bytes that are left, and one more the end of the buffer.
  induction hleft : s.txTotalNum - s.txCnt generalizing s m with
  | zero =>
    have hdone := intrThresholdEmpty_done hmid.pos.ne' (Nat.le_of_sub_eq_zero hleft)
    have htaken : handler .thrEmpty s = some (intrThresholdEmpty s) := if_pos ⟨hirq, hon⟩
    refine ⟨[.thrEmpty], ⟨intrThresholdEmpty s, rest⟩, ?_, ?_⟩
    · change ((handler .thrEmpty s).map _).bind _ = _
      rw [htaken]
      rfl
    · rw [hdone]
      unfold Usart.signal
      split_ifs <;> rfl
  | succ k ih =>
    have hc : s.txCnt < s.txTotalNum := by omega
    have hnext := intrThresholdEmpty_transmit hmid hc
    have htaken : handler .thrEmpty s = some (intrThresholdEmpty s) := if_pos ⟨hirq, hon⟩
    obtain ⟨is, d, hrun, hd⟩ := ih (s := intrThresholdEmpty s) (settled_thresholdEmpty hs)
      (by rw [hnext]; exact hirq) (by rw [hnext]; exact hon) _
      (by rw [hnext]; exact sentSoFar_next hm (hmid.transmit hc))
      (by rw [hnext]; exact hmid.advance hc) (by rw [hnext]; change s.txTotalNum - (s.txCnt + 1) = k; omega)
    refine ⟨.thrEmpty :: is, d, ?_, hd⟩
    change ((handler .thrEmpty s).map _).bind _ = _
    rw [htaken]
    exact hrun

theorem settled_of_idle {c : Port} (h : ReachableUnder ckUsart SendsQuiet c) (hrest : c.rest = []) :
    Settled c.state := by
  obtain ⟨A, hs, ho⟩ := transmitter_outlines.outlined h
  rw [hrest] at ho
  cases ho with
  | done => exact hs

/-- Between two calls, a buffer under way ends by interrupts exactly if they are enabled. The
interrupt for the line status disables that of the transmitter, so that after it the buffer waits
for a further call. -/
theorem pending_finishes_iff {c : Port} (h : ReachableUnder ckUsart SendsQuiet c)
    (hrest : c.rest = []) (hbusy : c.state.txBusy = true) :
    (Finishes c ↔ c.state.irqEnabled = true ∧ c.state.ier &&& ierThreIntEnable ≠ 0) ∧
      ∀ lsrStat d, ckUsart.next c (.interrupt (.recvLine lsrStat)) = some d → ¬ Finishes d := by
  have hstuck : ∀ d : Port, d.state.txBusy = true → Stalled d.state → ¬ Finishes d := by
    rintro d hd hs ⟨is, e, hrun, he⟩
    rw [stalled_run hs hrun, hd] at he
    cases he
  refine ⟨⟨fun hf => ?_, fun hon => ?_⟩, ?_⟩
  · by_contra hn
    refine hstuck c hbusy ?_ hf
    by_cases hirq : c.state.irqEnabled = true
    · exact .inr (not_not.mp fun hon => hn ⟨hirq, hon⟩)
    · exact .inl (Bool.not_eq_true _ ▸ hirq)
  · exact finishes_of_enabled (settled_of_idle h hrest) hon.1 hon.2
  · intro lsrStat d hd
    obtain ⟨t, ht, rfl⟩ := Option.map_eq_some_iff.mp hd
    obtain ⟨-, ht⟩ := Option.ite_none_right_eq_some.mp ht
    obtain rfl := Option.some.inj ht
    refine hstuck _ ?_ (.inr (off_recvLine lsrStat c.state))
    exact (congrArg TxView.busy (txKept_recvLine lsrStat c.state).tx).trans hbusy

theorem pending_finishes_iff_sendTwo : ∃ c, ckUsart.run start sendTwo = some c ∧
    (Finishes c ↔ c.state.irqEnabled = true ∧ c.state.ier &&& ierThreIntEnable ≠ 0) ∧
      ∀ lsrStat d, ckUsart.next c (.interrupt (.recvLine lsrStat)) = some d → ¬ Finishes d := by
  refine ⟨_, rfl, pending_finishes_iff ?_ rfl rfl⟩
  exact .run (.init ⟨rfl, rfl⟩) (by decide : StepsMeet ckUsart SendsQuiet start sendTwo) rfl

end CkUsartTx
