import DeviceQemu.CkUsart

/-! Receiving over the C-SKY serial port.
What the driver should do with the buffers of csi_usart_receive, as an automaton over what it does
to the outside, and that it does so if no byte comes in while a buffer is being put in place. -/
namespace CkUsartRx

open StepSystem PreemptedCode CkUsart

/-- How far csi_usart_abort_receive has come: called, returned, and the one byte after it. -/
inductive Abort where
  | no
  | asked
  | granted
  | spent
  deriving DecidableEq, Repr

/-- A buffer at `data` of which `got` bytes are filled, or nothing to receive. -/
inductive Receiver where
  | idle
  | filling (data num got : ℕ) (abort : Abort)
  deriving DecidableEq, Repr

/-- A buffer is filled from the first byte on and never left. Complete is what is full or was
aborted, and after the abort at most one more byte comes in. -/
def Receiver.next : Receiver → Out → Option Receiver
  | _, .armed a n => some (.filling a n 0 .no)
  | .filling a n k .no, .called .abortReceive => some (.filling a n k .asked)
  | .filling a n k .asked, .returned .abortReceive _ => some (.filling a n k .granted)
  | .filling a n k abort, .store b _ =>
    if b = a + k ∧ k < n ∧ abort ≠ .spent then
      some (.filling a n (k + 1) (if abort = .granted then .spent else abort))
    else none
  | .idle, .store _ _ => none
  | .filling _ n k abort, .event .receiveComplete =>
    if k = n ∨ (abort ≠ .no ∧ 0 < k) then some .idle else none
  | .idle, .event .receiveComplete => none
  | r, _ => some r

def receiver : System Receiver Out where
  Init := (· = .idle)
  next := Receiver.next

def gotSoFar (s : Usart) : Option Receiver := receiver.run .idle s.trace

def handover : List Op → Bool
  | .setRxTotalNum _ :: _ | .resetRxCnt :: _ => true
  | _ => false

def Stores (s : Usart) : Prop := s.rxTotalNum ≠ 0 ∧ s.rxBuf ≠ 0

instance (s : Usart) : Decidable (Stores s) := inferInstanceAs (Decidable (_ ∧ _))

def Fits (data num : UInt32) : Prop := data.toNat + num.toNat < 2 ^ 32

instance (data num : UInt32) : Decidable (Fits data num) := Nat.decLt _ _

/-- Buffers lie in the address space, and no byte is stored during their handover. -/
def ReceivesQuiet (c : Port) : Action → Prop
  | .call (.receive data num) => Fits data num
  | .interrupt .recvData | .interrupt .charTimeout => handover c.rest = true → ¬ Stores c.state
  | _ => True

instance (c : Port) : ∀ e : Action, Decidable (ReceivesQuiet c e)
  | .call (.receive data num) => inferInstanceAs (Decidable (Fits data num))
  | .interrupt .recvData | .interrupt .charTimeout =>
    inferInstanceAs (Decidable (handover c.rest = true → ¬ Stores c.state))
  | .call (.usartInit _) | .call .usartUninit | .call (.send _ _) | .call .abortSend
  | .call .abortReceive | .call (.setInterrupt _ _) | .tick | .interrupt (.arrive _)
  | .interrupt .thrEmpty | .interrupt (.recvLine _) => .isTrue trivial

/-- The bytes that came in, and those that were taken out of the FIFO. -/
def arrived (os : List Out) : List UInt8 :=
  os.filterMap fun
    | .arrive b => some b
    | _ => none

def taken (os : List Out) : List UInt8 :=
  os.filterMap fun
    | .store _ b | .drop b => some b
    | _ => none

def RxSilent (o : Out) : Prop := ∀ r : Receiver, r.next o = some r

theorem gotSoFar_emit (s : Usart) (o : Out) :
    gotSoFar (s.emit o) = (gotSoFar s).bind fun r => r.next o := by
  rw [gotSoFar, Usart.emit, run_append, ← gotSoFar]
  congr 1
  funext r
  exact Option.bind_fun_some _

theorem gotSoFar_next {s : Usart} {o : Out} {r r' : Receiver} (h : gotSoFar s = some r)
    (hn : r.next o = some r') : gotSoFar (s.emit o) = some r' := by
  rw [gotSoFar_emit, h, Option.bind_some, hn]

theorem gotSoFar_emit_silent {s : Usart} {o : Out} (h : RxSilent o) :
    gotSoFar (s.emit o) = gotSoFar s := by
  rw [gotSoFar_emit, funext h]
  exact Option.bind_fun_some _

structure RxView where
  buf : ℕ
  total : ℕ
  cnt : ℕ

def rx (s : Usart) : RxView := ⟨s.rxBuf, s.rxTotalNum, s.rxCnt⟩

@[simp] theorem rx_buf (s : Usart) : (rx s).buf = s.rxBuf := rfl
@[simp] theorem rx_total (s : Usart) : (rx s).total = s.rxTotalNum := rfl
@[simp] theorem rx_cnt (s : Usart) : (rx s).cnt = s.rxCnt := rfl

structure RxSame (s t : Usart) : Prop where
  rx : rx t = rx s
  got : gotSoFar t = gotSoFar s

theorem RxSame.trans {s t u : Usart} (h : RxSame s t) (h' : RxSame t u) : RxSame s u :=
  ⟨h'.rx.trans h.rx, h'.got.trans h.got⟩

theorem RxSame.emit {s : Usart} {o : Out} (h : RxSilent o) : RxSame s (s.emit o) :=
  ⟨by rfl, gotSoFar_emit_silent h⟩

theorem rxSilent_event {e : UsartEvent} (h : e ≠ .receiveComplete) : RxSilent (.event e) := by
  intro r
  cases e with
  | receiveComplete => exact absurd rfl h
  | _ => cases r <;> rfl

theorem RxSame.signal {s : Usart} {e : UsartEvent} (h : e ≠ .receiveComplete) :
    RxSame s (s.signal e) := by
  unfold Usart.signal
  split
  · exact .emit (rxSilent_event h)
  · exact ⟨rfl, rfl⟩

theorem rxSame_drain (s : Usart) : RxSame s s.drain.1 := by
  refine ⟨rfl, ?_⟩
  have hsilent : ∀ (bs : List UInt8) (r : Receiver), receiver.run r (bs.map .drop) = some r := by
    intro bs r
    induction bs with
    | nil => rfl
    | cons b bs ih =>
      have hb : receiver.next r (.drop b) = some r := by cases r <;> rfl
      rw [List.map_cons, run_cons, hb]
      exact ih
  rw [gotSoFar, Usart.drain, run_append, funext (hsilent _)]
  exact Option.bind_fun_some _

theorem rxSame_thresholdEmpty (s : Usart) : RxSame s (intrThresholdEmpty s) := by
  unfold intrThresholdEmpty
  split_ifs
  · exact ⟨rfl, rfl⟩
  · refine .trans ?_ (.signal UsartEvent.noConfusion)
    exact ⟨rfl, rfl⟩
  · have ht : RxSilent (.transmit s.txBuf) := fun r => by cases r <;> rfl
    have hemit : RxSame s (s.emit (.transmit s.txBuf)) := .emit ht
    exact ⟨hemit.rx, hemit.got⟩

theorem rxSame_recvLine (lsrStat : UInt32) (s : Usart) : RxSame s (intrRecvLine lsrStat s) := by
  have hoff : RxSame s { s with ier := s.ier &&& ~~~ierThreIntEnable } := ⟨rfl, rfl⟩
  have hd := hoff.trans (rxSame_drain _)
  unfold intrRecvLine
  dsimp only
  split_ifs
  · exact hd.trans (.signal (by decide))
  · exact hd.trans (.signal (by decide))
  · exact hd.trans (.signal (by decide))
  · exact hd.trans (.signal (by decide))
  · exact hd.trans (.signal (by decide))
  · exact hd

theorem intrCharTimeout_stores {s : Usart} {b : UInt8} {bs : List UInt8} (h : Stores s)
    (hf : s.fifo = b :: bs) : intrCharTimeout s = intrRecvData b { s with fifo := bs } := by
  rw [intrCharTimeout, hf]
  exact if_pos h

theorem rxSame_charTimeout {s : Usart} (h : ¬ Stores s) : RxSame s (intrCharTimeout s) := by
  unfold intrCharTimeout
  split
  · exact ⟨rfl, rfl⟩
  · have hnone : ¬ (s.rxTotalNum ≠ 0 ∧ s.rxBuf ≠ 0) := h
    rw [if_neg hnone]
    split_ifs
    · exact .emit (rxSilent_event (by decide))
    · exact rxSame_drain s

theorem handler_rx {i : Irq} {s t : Usart} (h : handler i s = some t) :
    RxSame s t ∨ ((i = .recvData ∨ i = .charTimeout) ∧ Stores s ∧
      ∃ b bs, s.fifo = b :: bs ∧ t = intrRecvData b { s with fifo := bs }) := by
  cases i with
  | arrive b =>
    obtain rfl := Option.some.inj h
    have hb : RxSilent (.arrive b) := fun r => by cases r <;> rfl
    have hemit : RxSame s (s.emit (.arrive b)) := .emit hb
    exact .inl ⟨hemit.rx, hemit.got⟩
  | thrEmpty =>
    obtain ⟨-, h⟩ := Option.ite_none_right_eq_some.mp h
    obtain rfl := Option.some.inj h
    exact .inl (rxSame_thresholdEmpty s)
  | recvLine lsrStat =>
    obtain ⟨-, h⟩ := Option.ite_none_right_eq_some.mp h
    obtain rfl := Option.some.inj h
    exact .inl (rxSame_recvLine lsrStat s)
  | recvData | charTimeout =>
    obtain ⟨⟨-, -, hne⟩, h⟩ := Option.ite_none_right_eq_some.mp h
    obtain rfl := Option.some.inj h
    by_cases hs : Stores s
    · obtain ⟨b, bs, hf⟩ := List.exists_cons_of_ne_nil hne
      exact .inr ⟨by simp, hs, b, bs, hf, intrCharTimeout_stores hs hf⟩
    · exact .inl (rxSame_charTimeout hs)

/-- Which count goes with `k` of `n` bytes received. -/
abbrev Counting := (cnt k n : ℕ) → Abort → Prop

/-- Between two calls: the count is that of the bytes, or the abort has set it to the total. -/
def Usual : Counting := fun cnt k n abort =>
  (cnt = k ∧ (abort = .no ∨ abort = .asked)) ∨ (cnt = n ∧ (abort = .asked ∨ abort = .granted))

/-- Once csi_usart_abort_receive is called. -/
def Asked : Counting := fun cnt k n abort =>
  (cnt = k ∧ abort = .asked) ∨ (cnt = n ∧ (abort = .asked ∨ abort = .granted))

def Ending : Counting := fun cnt _ n abort => cnt = n ∧ (abort = .asked ∨ abort = .granted)

/-- The record agrees with the automaton, which is in the middle of a buffer. -/
def Midway (S : Counting) (v : RxView) (r : Receiver) : Prop :=
  ∃ a k abort, r = .filling a v.total k abort ∧ v.buf = a + k ∧ k < v.total ∧
    v.total + 1 < 2 ^ 32 ∧ S v.cnt k v.total abort

def Serving (S : Counting) (s : Usart) : Prop :=
  ∃ r, gotSoFar s = some r ∧ ((rx s).total = 0 ∨ Midway S (rx s) r)

abbrev Settled : Usart → Prop := Serving Usual

def Accepted (s : Usart) : Prop := ∃ r, gotSoFar s = some r

theorem Serving.accepted {S : Counting} {s : Usart} (h : Serving S s) : Accepted s :=
  h.imp fun _ h => h.1

theorem Serving.same {S : Counting} {s t : Usart} (h : Serving S s) (hk : RxSame s t) :
    Serving S t := by
  obtain ⟨r, hr, hs⟩ := h
  exact ⟨r, hk.got.trans hr, hk.rx ▸ hs⟩

theorem Serving.mono {S S' : Counting} {s : Usart} (h : Serving S s)
    (hS : ∀ c k n abort, S c k n abort → S' c k n abort) : Serving S' s := by
  obtain ⟨r, hr, hz | ⟨a, k, abort, heq, hb, hlt, htop, hc⟩⟩ := h
  · exact ⟨r, hr, .inl hz⟩
  · exact ⟨r, hr, .inr ⟨a, k, abort, heq, hb, hlt, htop, hS _ _ _ _ hc⟩⟩

/-- A counting that the next byte keeps while the buffer is not full. -/
structure Advances (S : Counting) : Prop where
  usual : ∀ c k n abort, S c k n abort → Usual c k n abort
  next : ∀ k n abort, S k k n abort → k + 1 < n → S (k + 1) (k + 1) n abort

theorem usual_advances : Advances Usual := by
  refine ⟨fun _ _ _ _ h => h, ?_⟩
  rintro k n abort (⟨-, h⟩ | ⟨rfl, -⟩) hlt
  · exact .inl ⟨rfl, h⟩
  · omega

theorem asked_advances : Advances Asked := by
  refine ⟨?_, ?_⟩
  · rintro c k n abort (⟨hc, ha⟩ | h)
    · exact .inl ⟨hc, .inr ha⟩
    · exact .inr h
  · rintro k n abort (⟨-, h⟩ | ⟨rfl, -⟩) hlt
    · exact .inl ⟨rfl, h⟩
    · omega

theorem ending_advances : Advances Ending := by
  refine ⟨fun _ _ _ _ h => .inr h, ?_⟩
  rintro k n abort ⟨rfl, -⟩ hlt
  omega

def receiveFinished (s : Usart) : Usart :=
  { s with lastRxNum := s.rxTotalNum, rxCnt := 0, rxBuf := 0, rxBusy := false, rxTotalNum := 0 }

theorem next_store {a n k : ℕ} {abort : Abort} (hlt : k < n) (h : abort ≠ .spent) (b : UInt8) :
    (Receiver.filling a n k abort).next (.store (a + k) b) =
      some (.filling a n (k + 1) (if abort = .granted then .spent else abort)) :=
  if_pos ⟨rfl, hlt, h⟩

theorem next_complete {a n k : ℕ} {abort : Abort} (h : k = n ∨ (abort ≠ .no ∧ 0 < k)) :
    (Receiver.filling a n k abort).next (.event .receiveComplete) = some .idle := if_pos h

theorem serving_recvData {S : Counting} (hS : Advances S) {s : Usart} (h : Serving S s)
    (hs : Stores s) (b : UInt8) : Serving S (intrRecvData b s) := by
  obtain ⟨r, hr, hz | ⟨a, k, abort, rfl, hb, hlt, htop, hc⟩⟩ := h
  · exact absurd hz hs.1
  simp only [rx_buf, rx_total, rx_cnt] at hr hb hlt htop hc
  have husual := hS.usual _ _ _ _ hc
  have hcnt : (s.rxCnt + 1) % 2 ^ 32 = s.rxCnt + 1 := by
    refine Nat.mod_eq_of_lt ?_
    obtain ⟨he, -⟩ | ⟨he, -⟩ := husual <;> omega
  have hspent : abort ≠ .spent := by
    obtain ⟨-, rfl | rfl⟩ | ⟨-, rfl | rfl⟩ := husual <;> exact Abort.noConfusion
  have hstore := gotSoFar_next hr (hb ▸ next_store hlt hspent b)
  unfold intrRecvData
  dsimp only
  rw [hcnt]
  split_ifs with hfull
  · -- The buffer is full, or an abort has set the count to its total.
    have hfull : s.rxTotalNum ≤ s.rxCnt + 1 := hfull
    have hdone : k + 1 = s.rxTotalNum ∨
        ((if abort = .granted then Abort.spent else abort) ≠ .no ∧ 0 < k + 1) := by
      obtain ⟨he, -⟩ | ⟨-, rfl | rfl⟩ := husual
      · exact .inl (by omega)
      · exact .inr ⟨by decide, Nat.succ_pos k⟩
      · exact .inr ⟨by decide, Nat.succ_pos k⟩
    change Serving S ((receiveFinished (s.emit (.store s.rxBuf b))).signal .receiveComplete)
    unfold Usart.signal
    split_ifs
    · exact ⟨.idle, gotSoFar_next hstore (next_complete hdone), .inl rfl⟩
    · exact ⟨_, hstore, .inl rfl⟩
  · have hmore : s.rxCnt + 1 < s.rxTotalNum := Nat.not_le.mp hfull
    have hk : s.rxCnt = k := by
      obtain ⟨he, -⟩ | ⟨he, -⟩ := husual <;> omega
    have hgranted : abort ≠ .granted := by
      obtain ⟨-, rfl | rfl⟩ | ⟨he, -⟩ := husual
      · exact Abort.noConfusion
      · exact Abort.noConfusion
      · omega
    rw [if_neg hgranted] at hstore
    refine ⟨_, hstore, .inr ⟨a, k + 1, abort, rfl, ?_, ?_, htop, ?_⟩⟩
    · exact congrArg (· + 1) hb
    · exact hk ▸ hmore
    · change S (s.rxCnt + 1) (k + 1) s.rxTotalNum abort
      rw [hk] at hc hmore ⊢
      exact hS.next k s.rxTotalNum abort hc hmore

theorem serving_handler {S : Counting} (hS : Advances S) {i : Irq} {s t : Usart}
    (h : Serving S s) (ht : handler i s = some t) : Serving S t := by
  obtain hk | ⟨-, hs, b, bs, -, rfl⟩ := handler_rx ht
  · exact h.same hk
  · have htake : RxSame s { s with fifo := bs } := ⟨rfl, rfl⟩
    exact serving_recvData hS (h.same htake) hs b

theorem serving_assertion {S : Counting} (hS : Advances S) (ops : List Op) :
    Assertion ckUsartProgram ReceivesQuiet Accepted ops (Serving S) :=
  ⟨fun _ => Serving.accepted, fun _ _ _ hs _ h => serving_handler hS hs h⟩

theorem handover_assertion {ops : List Op} (h : handover ops = true) (R : RxView → Prop)
    (r : Receiver) : Assertion ckUsartProgram ReceivesQuiet Accepted ops
      fun s => gotSoFar s = some r ∧ R (rx s) := by
  refine ⟨fun s hs => ⟨r, hs.1⟩, ?_⟩
  rintro s i t ⟨hr, hR⟩ hquiet ht
  have hk : RxSame s t := by
    obtain hk | ⟨hi, hs, -⟩ := handler_rx ht
    · exact hk
    · rcases hi with rfl | rfl <;> exact absurd hs (hquiet h)
  exact ⟨hk.got.trans hr, hk.rx ▸ hR⟩

def rxFree : Op → Bool
  | .armRxBuf _ _ | .setRxTotalNum _ | .resetRxCnt | .setRxCnt _ | .rxCntFromTotal => false
  | .signal e => e != .receiveComplete
  | .ret c _ => c != .abortReceive
  | _ => true

theorem rxSilent_returned {c : Call} (h : c ≠ .abortReceive) (code : UInt32) :
    RxSilent (.returned c code) := by
  intro r
  cases c with
  | abortReceive => exact absurd rfl h
  | _ =>
    cases r with
    | idle => rfl
    | filling a n k abort => cases abort <;> rfl

theorem rxSame_exec {op : Op} (h : rxFree op = true) (s : Usart) : RxSame s (exec op s).1 := by
  cases op with
  | armRxBuf | setRxTotalNum | resetRxCnt | setRxCnt | rxCntFromTotal => cases h
  | writeThr a =>
    have ha : RxSilent (.transmit a) := fun r => by cases r <;> rfl
    exact .emit ha
  | signal e => exact .signal (bne_iff_ne.mp h)
  | ret c code => exact .emit (rxSilent_returned (bne_iff_ne.mp h) code)
  | _ => exact ⟨rfl, rfl⟩

theorem settled_plain {op : Op} (h : rxFree op = true) (hop : ∀ s, (exec op s).2 = []) :
    Keeps ckUsartProgram Settled op :=
  .plain hop fun s hs => hs.same (rxSame_exec h s)

theorem settled_expands {op : Op} (h : ∀ s, (exec op s).1 = s)
    (hm : ∀ s, ∀ op' ∈ (exec op s).2, Keeps ckUsartProgram Settled op') :
    Keeps ckUsartProgram Settled op :=
  .intro (fun s hs => (h s).symm ▸ hs) fun s _ => hm s

theorem settled_load {op op' : Op} {s : Usart} (h : (exec op s).2 = [op'])
    (hk : Keeps ckUsartProgram Settled op') : ∀ o ∈ (exec op s).2, Keeps ckUsartProgram Settled o := by
  intro o ho
  rw [h] at ho
  exact List.mem_singleton.mp ho ▸ hk

theorem settled_andIer (m : UInt32) : Keeps ckUsartProgram Settled (.andIer m) :=
  settled_expands (fun _ => rfl) fun _ => settled_load rfl (settled_plain rfl fun _ => rfl)

theorem settled_lastTxNumFromTotal : Keeps ckUsartProgram Settled .lastTxNumFromTotal :=
  settled_expands (fun _ => rfl) fun _ => settled_load rfl (settled_plain rfl fun _ => rfl)

theorem settled_loadTxByte : Keeps ckUsartProgram Settled .loadTxByte :=
  settled_expands (fun _ => rfl) fun _ => settled_load rfl (settled_plain rfl fun _ => rfl)

theorem settled_incTxCnt : Keeps ckUsartProgram Settled .incTxCnt :=
  settled_expands (fun _ => rfl) fun _ => settled_load rfl (settled_plain rfl fun _ => rfl)

theorem settled_incTxBuf : Keeps ckUsartProgram Settled .incTxBuf :=
  settled_expands (fun _ => rfl) fun _ => settled_load rfl (settled_plain rfl fun _ => rfl)

theorem settled_thresholdCompare : Keeps ckUsartProgram Settled .thresholdCompare := by
  refine settled_expands (fun _ => rfl) fun s op' hop => ?_
  simp only [exec] at hop
  split_ifs at hop
  · simp only [sendDone, List.mem_cons, List.not_mem_nil, or_false] at hop
    rcases hop with rfl | rfl | rfl | rfl | rfl | rfl | rfl
    · exact settled_andIer _
    · exact settled_lastTxNumFromTotal
    all_goals exact settled_plain rfl fun _ => rfl
  · simp only [sendByte, List.mem_cons, List.not_mem_nil, or_false] at hop
    rcases hop with rfl | rfl | rfl
    · exact settled_loadTxByte
    · exact settled_incTxCnt
    · exact settled_incTxBuf

theorem settled_thresholdEmpty : Keeps ckUsartProgram Settled .thresholdEmpty := by
  refine settled_expands (fun _ => rfl) fun s op' hop => ?_
  simp only [exec] at hop
  split_ifs at hop
  · exact absurd hop List.not_mem_nil
  · exact List.mem_singleton.mp hop ▸ settled_thresholdCompare

theorem settled_keeps {op : Op} (h : rxFree op = true) : Keeps ckUsartProgram Settled op := by
  cases op with
  | armRxBuf | setRxTotalNum | resetRxCnt | setRxCnt | rxCntFromTotal => cases h
  | andIer m => exact settled_andIer m
  | orIer m =>
    exact settled_expands (fun _ => rfl) fun _ => settled_load rfl (settled_plain rfl fun _ => rfl)
  | lastTxNumFromTotal => exact settled_lastTxNumFromTotal
  | txCntFromTotal =>
    exact settled_expands (fun _ => rfl) fun _ => settled_load rfl (settled_plain rfl fun _ => rfl)
  | thresholdEmpty => exact settled_thresholdEmpty
  | thresholdCompare => exact settled_thresholdCompare
  | loadTxByte => exact settled_loadTxByte
  | incTxCnt => exact settled_incTxCnt
  | incTxBuf => exact settled_incTxBuf
  | _ => exact settled_plain h fun _ => rfl

theorem outlined_free {ops : List Op} (h : ∀ op ∈ ops, rxFree op = true) :
    Outlined ckUsartProgram ReceivesQuiet Accepted Settled ops Settled :=
  .frame (serving_assertion usual_advances) fun op hop => settled_keeps (h op hop)

theorem outlined_receive {data num : UInt32} (hd : data ≠ 0) (hf : Fits data num) :
    Outlined ckUsartProgram ReceivesQuiet Accepted Settled (csiUsartReceive data num) Settled := by
  have htop : num.toNat + 1 < 2 ^ 32 := by
    have hpos : data.toNat ≠ 0 := fun h => hd (UInt32.toNat_inj.mp h)
    unfold Fits at hf
    omega
  rw [csiUsartReceive, if_neg hd]
  generalize data.toNat = a, num.toNat = n at *
  refine .plain (B := fun s => gotSoFar s = some (.filling a n 0 .no) ∧ (rx s).buf = a)
    (fun _ => rfl) (serving_assertion usual_advances _) ?_ ?_
  · rintro s ⟨r, hr, -⟩
    exact ⟨gotSoFar_next hr rfl, rfl⟩
  refine .plain
    (B := fun s => gotSoFar s = some (.filling a n 0 .no) ∧ (rx s).buf = a ∧ (rx s).total = n)
    (fun _ => rfl) (handover_assertion rfl (fun v => v.buf = a) _) ?_ ?_
  · rintro s ⟨hr, hb⟩
    exact ⟨hr, hb, rfl⟩
  refine .plain (B := Settled) (fun _ => rfl)
    (handover_assertion rfl (fun v => v.buf = a ∧ v.total = n) _) ?_ (outlined_free ?_)
  · rintro s ⟨hr, hb, rfl⟩
    refine ⟨_, hr, ?_⟩
    by_cases hz : (rx s).total = 0
    · exact .inl hz
    · exact .inr ⟨a, 0, .no, rfl, hb, Nat.pos_of_ne_zero hz, htop, .inl ⟨rfl, .inl rfl⟩⟩
  · simp [rxFree]

theorem rxTotalNum_handler {i : Irq} {s t : Usart} (h : handler i s = some t) :
    t.rxTotalNum = s.rxTotalNum ∨ t.rxTotalNum = 0 := by
  obtain hk | ⟨-, -, b, bs, -, rfl⟩ := handler_rx h
  · exact .inl (congrArg RxView.total hk.rx)
  · unfold intrRecvData Usart.signal
    dsimp only
    split_ifs
    · exact .inr rfl
    · exact .inr rfl
    · exact .inl rfl

/-- What csi_usart_abort_receive is about to store is the total, or there is nothing to receive. -/
def Aborting (n : ℕ) (s : Usart) : Prop :=
  Serving Asked s ∧ (s.rxTotalNum = 0 ∨ s.rxTotalNum = n)

theorem aborting_assertion (n : ℕ) (ops : List Op) :
    Assertion ckUsartProgram ReceivesQuiet Accepted ops (Aborting n) := by
  refine ⟨fun s hs => hs.1.accepted, ?_⟩
  rintro s i t ⟨hs, htotal⟩ - ht
  refine ⟨serving_handler asked_advances hs ht, ?_⟩
  obtain h | h := rxTotalNum_handler ht
  · exact h.symm ▸ htotal
  · exact .inl h

theorem next_returned (r : Receiver) (code : UInt32) :
    ∃ r', r.next (.returned .abortReceive code) = some r' := by
  cases r with
  | idle => exact ⟨_, rfl⟩
  | filling a n k abort => cases abort <;> exact ⟨_, rfl⟩

theorem next_called (r : Receiver) : ∃ r', r.next (.called .abortReceive) = some r' := by
  cases r with
  | idle => exact ⟨_, rfl⟩
  | filling a n k abort => cases abort <;> exact ⟨_, rfl⟩

theorem outlined_abortReceive :
    Outlined ckUsartProgram ReceivesQuiet Accepted Settled csiUsartAbortReceive
      (Serving Asked) := by
  refine .load (v := fun s => s.rxTotalNum) (u := .setRxCnt) (B := Aborting) (fun _ => rfl)
    (serving_assertion asked_advances _) (fun s hs => ⟨hs, .inr rfl⟩) fun n => ?_
  refine .plain (B := Serving Ending) (fun _ => rfl) (aborting_assertion n _) ?_ ?_
  · rintro s ⟨⟨r, hr, hs⟩, htotal⟩
    refine ⟨r, hr, ?_⟩
    obtain hz | ⟨a, k, abort, heq, hb, hlt, htop, hc⟩ := hs
    · exact .inl hz
    · have hn : n = s.rxTotalNum := (htotal.resolve_left (by simp at hlt; omega)).symm
      refine .inr ⟨a, k, abort, heq, hb, hlt, htop, hn, ?_⟩
      obtain ⟨-, h⟩ | ⟨-, h⟩ := hc
      · exact .inl h
      · exact h
  refine .plain (fun _ => rfl) (serving_assertion ending_advances _) ?_
    (.done (serving_assertion usual_advances _))
  rintro s ⟨r, hr, hs⟩
  obtain hz | ⟨a, k, abort, rfl, hb, hlt, htop, hc, hab⟩ := hs
  · obtain ⟨r', hn⟩ := next_returned r 0
    exact ⟨r', gotSoFar_next hr hn, .inl hz⟩
  · refine ⟨_, gotSoFar_next hr ?_,
      .inr ⟨a, k, .granted, rfl, hb, hlt, htop, .inr ⟨hc, .inr rfl⟩⟩⟩
    rcases hab with rfl | rfl <;> rfl

theorem serving_called {s : Usart} (h : Settled s) :
    Serving Asked (s.emit (.called .abortReceive)) := by
  obtain ⟨r, hr, hz | ⟨a, k, abort, rfl, hb, hlt, htop, hc⟩⟩ := h
  · obtain ⟨r', hn⟩ := next_called r
    exact ⟨r', gotSoFar_next hr hn, .inl hz⟩
  · obtain ⟨hc, rfl | rfl⟩ | ⟨hc, rfl | rfl⟩ := hc
    · exact ⟨_, gotSoFar_next hr rfl, .inr ⟨a, k, _, rfl, hb, hlt, htop, .inl ⟨hc, rfl⟩⟩⟩
    · exact ⟨_, gotSoFar_next hr rfl, .inr ⟨a, k, _, rfl, hb, hlt, htop, .inl ⟨hc, rfl⟩⟩⟩
    · exact ⟨_, gotSoFar_next hr rfl, .inr ⟨a, k, _, rfl, hb, hlt, htop, .inr ⟨hc, .inl rfl⟩⟩⟩
    · exact ⟨_, gotSoFar_next hr rfl, .inr ⟨a, k, _, rfl, hb, hlt, htop, .inr ⟨hc, .inr rfl⟩⟩⟩

theorem rxSilent_called {c : Call} (h : c ≠ .abortReceive) : RxSilent (.called c) := by
  intro r
  cases c with
  | abortReceive => exact absurd rfl h
  | _ =>
    cases r with
    | idle => rfl
    | filling a n k abort => cases abort <;> rfl

theorem outlined_call {s : Usart} {c : Call} (h : c ≠ .abortReceive)
    (hc : ReceivesQuiet ⟨s, []⟩ (.call c)) :
    Outlined ckUsartProgram ReceivesQuiet Accepted Settled (body c) Settled := by
  cases c with
  | abortReceive => exact absurd rfl h
  | usartInit cb => exact outlined_free (by simp [body, csiUsartInitialize, rxFree])
  | usartUninit => exact outlined_free (by simp [body, csiUsartUninitialize, rxFree])
  | send data num =>
    refine outlined_free ?_
    unfold body csiUsartSend
    dsimp only
    split <;> simp [rxFree]
  | abortSend => exact outlined_free (by simp [body, csiUsartAbortSend, rxFree])
  | receive data num =>
    by_cases hd : data = 0
    · refine outlined_free ?_
      unfold body csiUsartReceive
      dsimp only
      rw [if_pos hd]
      simp [rxFree]
    · exact outlined_receive hd hc
  | setInterrupt type flag =>
    refine outlined_free ?_
    unfold body csiUsartSetInterrupt
    dsimp only
    split_ifs <;> simp [rxFree]

theorem receiver_outlines : Outlines ckUsartProgram ReceivesQuiet Accepted Settled (· = reset) := by
  refine ⟨?_, serving_assertion usual_advances [], ?_⟩
  · rintro s rfl
    exact ⟨.idle, rfl, .inl rfl⟩
  intro c s hs hc
  by_cases habort : c = .abortReceive
  · subst habort
    exact ⟨_, serving_called hs, outlined_abortReceive⟩
  · exact ⟨Settled, hs.same (.emit (rxSilent_called habort)), outlined_call habort hc⟩

/-- What came in and is not taken out is in the FIFO. -/
def InOrder (s : Usart) : Prop := taken s.trace ++ s.fifo = arrived s.trace

def Byteless (o : Out) : Prop := taken [o] = [] ∧ arrived [o] = []

theorem taken_append (os ps : List Out) : taken (os ++ ps) = taken os ++ taken ps :=
  List.filterMap_append

theorem arrived_append (os ps : List Out) : arrived (os ++ ps) = arrived os ++ arrived ps :=
  List.filterMap_append

theorem InOrder.emit {s : Usart} {o : Out} (h : InOrder s) (ho : Byteless o) :
    InOrder (s.emit o) := by
  unfold InOrder Usart.emit
  dsimp only
  rw [taken_append, arrived_append, ho.1, ho.2, List.append_nil, List.append_nil]
  exact h

theorem InOrder.signal {s : Usart} (h : InOrder s) (e : UsartEvent) : InOrder (s.signal e) := by
  unfold Usart.signal
  split
  · exact h.emit ⟨rfl, rfl⟩
  · exact h

theorem InOrder.of_eq {s t : Usart} (h : InOrder s) (ht : t.trace = s.trace)
    (hf : t.fifo = s.fifo) : InOrder t := by
  unfold InOrder
  rw [ht, hf]
  exact h

theorem drainLoop_append (timecount : ℕ) (bs : List UInt8) :
    (drainLoop timecount bs).1 ++ (drainLoop timecount bs).2.1 = bs := by
  induction bs generalizing timecount with
  | nil => rfl
  | cons b bs ih =>
    unfold drainLoop
    split
    · rfl
    · exact congrArg (b :: ·) (ih (timecount + 1))

theorem InOrder.drain {s : Usart} (h : InOrder s) : InOrder s.drain.1 := by
  have htaken : ∀ bs : List UInt8, taken (bs.map .drop) = bs := by
    intro bs
    induction bs with
    | nil => rfl
    | cons b bs ih => exact congrArg (b :: ·) ih
  have harrived : ∀ bs : List UInt8, arrived (bs.map .drop) = [] := by
    intro bs
    induction bs with
    | nil => rfl
    | cons b bs ih => exact ih
  unfold InOrder Usart.drain
  dsimp only
  rw [taken_append, arrived_append, htaken, harrived, List.append_nil, List.append_assoc,
    drainLoop_append]
  exact h

theorem InOrder.recvData {s : Usart} {b : UInt8} {bs : List UInt8} (h : InOrder s)
    (hf : s.fifo = b :: bs) : InOrder (intrRecvData b { s with fifo := bs }) := by
  have hstore : InOrder ({ s with fifo := bs }.emit (.store s.rxBuf b)) := by
    unfold InOrder Usart.emit
    dsimp only
    rw [taken_append, arrived_append, List.append_assoc]
    unfold InOrder at h
    rw [hf] at h
    exact h.trans (List.append_nil _).symm
  unfold intrRecvData
  dsimp only
  split_ifs
  · refine InOrder.signal ?_ _
    exact hstore.of_eq rfl rfl
  · exact hstore.of_eq rfl rfl

theorem inOrder_thresholdEmpty {s : Usart} (h : InOrder s) : InOrder (intrThresholdEmpty s) := by
  unfold intrThresholdEmpty
  split_ifs
  · exact h
  · refine InOrder.signal ?_ _
    exact h.of_eq rfl rfl
  · have hsent : InOrder (s.emit (.transmit s.txBuf)) := h.emit ⟨rfl, rfl⟩
    exact hsent.of_eq rfl rfl

theorem inOrder_charTimeout {s : Usart} (h : InOrder s) : InOrder (intrCharTimeout s) := by
  unfold intrCharTimeout
  split
  · exact h
  · split_ifs
    · exact h.recvData ‹_›
    · exact h.emit ⟨rfl, rfl⟩
    · exact h.drain

theorem inOrder_recvLine {s : Usart} (h : InOrder s) (lsrStat : UInt32) :
    InOrder (intrRecvLine lsrStat s) := by
  have hoff : InOrder { s with ier := s.ier &&& ~~~ierThreIntEnable } := h.of_eq rfl rfl
  unfold intrRecvLine
  dsimp only
  split_ifs
  · exact hoff.drain.signal _
  · exact hoff.drain.signal _
  · exact hoff.drain.signal _
  · exact hoff.drain.signal _
  · exact hoff.drain.signal _
  · exact hoff.drain

theorem inOrder_handler {i : Irq} {s t : Usart} (h : InOrder s) (ht : handler i s = some t) :
    InOrder t := by
  cases i with
  | arrive b =>
    obtain rfl := Option.some.inj ht
    unfold InOrder Usart.emit
    dsimp only
    rw [taken_append, arrived_append, ← h, List.append_assoc, List.append_assoc]
    rfl
  | thrEmpty =>
    obtain ⟨-, ht⟩ := Option.ite_none_right_eq_some.mp ht
    obtain rfl := Option.some.inj ht
    exact inOrder_thresholdEmpty h
  | recvLine lsrStat =>
    obtain ⟨-, ht⟩ := Option.ite_none_right_eq_some.mp ht
    obtain rfl := Option.some.inj ht
    exact inOrder_recvLine h lsrStat
  | recvData | charTimeout =>
    obtain ⟨-, ht⟩ := Option.ite_none_right_eq_some.mp ht
    obtain rfl := Option.some.inj ht
    exact inOrder_charTimeout h

theorem inOrder_exec (op : Op) {s : Usart} (h : InOrder s) : InOrder (exec op s).1 := by
  cases op with
  | writeThr a => exact h.emit ⟨rfl, rfl⟩
  | armRxBuf a n =>
    have ha : InOrder (s.emit (.armed a n)) := h.emit ⟨rfl, rfl⟩
    exact ha.of_eq rfl rfl
  | signal e => exact h.signal e
  | ret c code => exact h.emit ⟨rfl, rfl⟩
  | _ => exact h.of_eq rfl rfl

theorem inOrder_next {c d : Port} {e : Action} (h : InOrder c.state)
    (ht : ckUsart.next c e = some d) : InOrder d.state := by
  obtain ⟨s, rest⟩ := c
  cases e with
  | call k =>
    cases rest with
    | nil =>
      obtain rfl := Option.some.inj ht
      exact h.emit ⟨rfl, rfl⟩
    | cons => cases ht
  | tick =>
    cases rest with
    | nil => cases ht
    | cons op ops =>
      obtain rfl := Option.some.inj ht
      exact inOrder_exec op h
  | interrupt i =>
    obtain ⟨t, hi, rfl⟩ := Option.map_eq_some_iff.mp ht
    exact inOrder_handler h hi

/-- The buffers are filled as they should be, with the bytes that come in, in their order and
without a gap but for those that are dropped. -/
theorem receives_conform {es : List Action} {c : Port}
    (hc : StepsMeet ckUsart ReceivesQuiet start es) (hr : ckUsart.run start es = some c) :
    (∃ r, receiver.run .idle c.state.trace = some r) ∧
      taken c.state.trace ++ c.state.fifo = arrived c.state.trace := by
  refine ⟨receiver_outlines.safe (.run (.init ⟨rfl, rfl⟩) hc hr), ?_⟩
  exact StepsMeet.invariant (I := fun c : Port => InOrder c.state)
    (fun _ _ _ h _ ht => inOrder_next h ht) (s := start) rfl hc hr

def receiveTwo : List Action :=
  .call (.usartInit true) :: List.replicate 4 .tick ++
    .call (.receive 0x100 2) :: List.replicate 6 .tick ++
    [.interrupt (.arrive 1), .interrupt .recvData, .interrupt (.arrive 2), .interrupt (.arrive 3),
      .interrupt .charTimeout]

theorem receives_conform_receiveTwo : ∃ c, ckUsart.run start receiveTwo = some c ∧
    (∃ r, receiver.run .idle c.state.trace = some r) ∧
      taken c.state.trace ++ c.state.fifo = arrived c.state.trace := by
  obtain ⟨c, hc⟩ := Option.isSome_iff_exists.mp (by decide : (ckUsart.run start receiveTwo).isSome)
  exact ⟨c, hc, receives_conform (by decide) hc⟩

/-- A byte comes in and its interrupt is taken, `m` times. -/
def bytesIn (b : UInt8) : ℕ → List Action
  | 0 => []
  | m + 1 => .interrupt (.arrive b) :: .interrupt .recvData :: bytesIn b m

theorem byteIn_run {s : Usart} {rest : List Op} (hirq : s.irqEnabled = true)
    (hon : s.ier &&& ierRdaIntEnable ≠ 0) (hf : s.fifo = []) (hs : Stores s) (b : UInt8)
    (es : List Action) :
    ckUsart.run ⟨s, rest⟩ (.interrupt (.arrive b) :: .interrupt .recvData :: es) =
      ckUsart.run ⟨intrRecvData b { s.emit (.arrive b) with fifo := [] }, rest⟩ es := by
  have harrive : handler (.arrive b) s = some { s.emit (.arrive b) with fifo := [b] } := by
    rw [handler, hf]
    rfl
  have htake : handler .recvData { s.emit (.arrive b) with fifo := [b] } =
      some (intrRecvData b { s.emit (.arrive b) with fifo := [] }) := by
    rw [handler, if_pos ⟨hirq, hon, List.cons_ne_nil b []⟩]
    exact congrArg some (intrCharTimeout_stores hs rfl)
  simp only [run_cons, ckUsart, Program.system, Program.next, ckUsartProgram, harrive, htake,
    Option.map_some, Option.bind_some]

theorem store_mem_recvData (b : UInt8) (s : Usart) :
    .store s.rxBuf b ∈ (intrRecvData b s).trace := by
  unfold intrRecvData Usart.signal Usart.emit
  dsimp only
  split_ifs <;> simp

theorem intrRecvData_more {s : Usart} (b : UInt8) (hlt : s.rxCnt + 1 < s.rxTotalNum)
    (htop : s.rxTotalNum < 2 ^ 32) : intrRecvData b s =
      { s.emit (.store s.rxBuf b) with rxCnt := s.rxCnt + 1, rxBuf := s.rxBuf + 1 } := by
  have hcnt : (s.rxCnt + 1) % 2 ^ 32 = s.rxCnt + 1 := Nat.mod_eq_of_lt (hlt.trans htop)
  unfold intrRecvData
  dsimp only
  rw [hcnt]
  exact if_neg (Nat.not_le.mpr hlt)

theorem bytesIn_stores {s : Usart} {rest : List Op} (hirq : s.irqEnabled = true)
    (hon : s.ier &&& ierRdaIntEnable ≠ 0) (hf : s.fifo = []) (hbuf : s.rxBuf ≠ 0) (b : UInt8) {m : ℕ}
    (hm : s.rxCnt + (m + 1) = s.rxTotalNum) (htop : s.rxTotalNum < 2 ^ 32) :
    ∃ d, ckUsart.run ⟨s, rest⟩ (bytesIn b (m + 1)) = some d ∧
      .store (s.rxBuf + m) b ∈ d.state.trace := by
  have hs : Stores s := ⟨by omega, hbuf⟩
  induction m generalizing s with
  | zero =>
    refine ⟨_, byteIn_run hirq hon hf hs b [], ?_⟩
    exact store_mem_recvData b { s.emit (.arrive b) with fifo := [] }
  | succ m ih =>
    rw [bytesIn, byteIn_run hirq hon hf hs b,
      intrRecvData_more (s := { s.emit (.arrive b) with fifo := [] }) b
        (by change s.rxCnt + 1 < s.rxTotalNum; omega) htop]
    obtain ⟨d, hd, hmem⟩ := ih (s := { ({ s.emit (.arrive b) with fifo := [] } : Usart).emit
        (.store s.rxBuf b) with rxCnt := s.rxCnt + 1, rxBuf := s.rxBuf + 1 })
      hirq hon rfl (Nat.succ_ne_zero _) (by change s.rxCnt + 1 + (m + 1) = s.rxTotalNum; omega) htop
      ⟨hs.1, Nat.succ_ne_zero _⟩
    refine ⟨d, hd, ?_⟩
    rw [← Nat.add_right_comm] at hmem
    exact hmem

/-- The first byte comes before the count is reset, and then as many as the buffer holds. -/
def overrun (data num : UInt32) (b : UInt8) : List Action :=
  .call (.receive data num) :: .tick :: .tick :: .interrupt (.arrive b) :: .interrupt .recvData ::
    (List.replicate 4 .tick ++ bytesIn b num.toNat)

theorem ticks_run (u : Usart) (c : Call) (es : List Action) :
    (ckUsart.run ⟨u, [.resetRxCnt, .setRxBusy true, .setLastRxNum 0, .ret c 0]⟩
      (List.replicate 4 .tick)).bind (ckUsart.run · es) =
        ckUsart.run ⟨({ u with rxCnt := 0, rxBusy := true, lastRxNum := 0 } : Usart).emit
          (.returned c 0), []⟩ es := rfl

/-- Every receive of two bytes or more is at risk: from an idle receiver with its interrupt enabled,
a byte during the handover makes the driver write behind the buffer. -/
theorem receive_overruns {s : Usart} (hirq : s.irqEnabled = true)
    (hon : s.ier &&& ierRdaIntEnable ≠ 0) (hf : s.fifo = []) (hcnt : s.rxCnt = 0)
    {data num : UInt32} (hd : data ≠ 0) (hn : 2 ≤ num.toNat) (b : UInt8) :
    ∃ d, ckUsart.run ⟨s, []⟩ (overrun data num b) = some d ∧
      .store (data.toNat + num.toNat) b ∈ d.state.trace := by
  have hbody : csiUsartReceive data num = _ := if_neg hd
  have hdata : data.toNat ≠ 0 := fun h => hd (UInt32.toNat_inj.mp h)
  -- The record when the pointer and the total count are set.
  let t : Usart := { ({ s.emit (.called (.receive data num)) with rxBuf := data.toNat } : Usart).emit
    (.armed data.toNat num.toNat) with rxTotalNum := num.toNat }
  have hset : ckUsart.run ⟨s, []⟩ (overrun data num b) = ckUsart.run ⟨t, [.resetRxCnt,
      .setRxBusy true, .setLastRxNum 0, .ret (.receive data num) 0]⟩ (.interrupt (.arrive b) ::
        .interrupt .recvData :: (List.replicate 4 .tick ++ bytesIn b num.toNat)) := by
    simp only [overrun, run_cons, ckUsart, Program.system, Program.next, ckUsartProgram, body, hbody,
      exec, List.nil_append, Option.bind_some]
    rfl
  have hlt : t.rxCnt + 1 < t.rxTotalNum := by
    change s.rxCnt + 1 < num.toNat
    omega
  rw [hset, byteIn_run (s := t) hirq hon hf ⟨by change num.toNat ≠ 0; omega, hdata⟩ b,
    intrRecvData_more (s := { t.emit (.arrive b) with fifo := [] }) b hlt num.toNat_lt, run_append,
    ticks_run]
  obtain ⟨m, hm⟩ := Nat.exists_eq_add_of_lt (lt_of_lt_of_le Nat.zero_lt_two hn)
  rw [Nat.zero_add] at hm
  have hsum : data.toNat + num.toNat = data.toNat + 1 + m := by omega
  rw [hsum, hm]
  refine bytesIn_stores ?_ ?_ ?_ ?_ b ?_ ?_
  · exact hirq
  · exact hon
  · rfl
  · exact Nat.succ_ne_zero _
  · change 0 + (m + 1) = num.toNat
    omega
  · exact num.toNat_lt

/-- A receiver that is idle after csi_usart_initialize. -/
theorem receive_overruns_started :
    ∃ d, ckUsart.run ⟨{ reset with irqEnabled := true, ier := 5 }, []⟩ (overrun 0x100 3 7) = some d ∧
      .store ((0x100 : UInt32).toNat + (3 : UInt32).toNat) 7 ∈ d.state.trace :=
  receive_overruns rfl (by decide) rfl rfl (by decide) (by decide) 7

end CkUsartRx
