import DeviceQemu.VirtnetOutput
import DeviceQemu.VirtnetTxPartition

/-! LowLevelOutput of the riscv32 driver leaves the pbufs as it found them.
The queue side follows the transmit queue of VirtnetTx step by step, so its partition can be
used. On top of it every reference the driver took is counted, and the padding word hidden at
entry stays hidden until the last step of the call. -/
namespace VirtnetOutputAtomic

open StepSystem RingWindow LinkedWalk Virtmmio VirtnetTxOwnership VirtnetTxSteps VirtnetTxPartition
open VirtnetTx hiding State Event Init system next lowLevelOutput senderStep handlerStep
open VirtnetOutput

variable {l : Lwip} {vnHdr : UInt64} {qsz : UInt16}

@[simp] theorem hide_zero (c : Chain) : c.hide 0 = c := by
  simp [Chain.hide, pbufDropPad]

@[simp] theorem hide_ref (c : Chain) (n : UInt16) : (c.hide n).ref = c.ref := rfl
@[simp] theorem hide_rest (c : Chain) (n : UInt16) : (c.hide n).rest = c.rest := rfl
@[simp] theorem hide_first (c : Chain) (n : UInt16) :
    (c.hide n).first = pbufDropPad n c.first := rfl

theorem dropPad_hides {c : Chain} (h : l.ethPadSize ≤ c.first.len) :
    l.dropPad c = c.hide l.ethPadSize := by
  by_cases hpad : l.ethPadSize = 0
  · rw [Lwip.dropPad, if_pos hpad, hpad, hide_zero]
  · rw [Lwip.dropPad, if_neg hpad, l.hides c _ h]

theorem dropPad_refuses {c : Chain} (h : c.first.len < l.ethPadSize) : l.dropPad c = c := by
  by_cases hpad : l.ethPadSize = 0
  · rw [Lwip.dropPad, if_pos hpad]
  · rw [Lwip.dropPad, if_neg hpad, l.refuses c _ h]

theorem dropPad_rest (l : Lwip) (c : Chain) : (l.dropPad c).rest = c.rest := by
  by_cases h : l.ethPadSize ≤ c.first.len
  · rw [dropPad_hides h, hide_rest]
  · rw [dropPad_refuses (UInt16.not_le.mp h)]

theorem dropPad_clen (l : Lwip) (c : Chain) : (l.dropPad c).clen = c.clen := by
  rw [Chain.clen, dropPad_rest, Chain.clen]

theorem reclaimPad_hide {c : Chain} (h : l.ethPadSize ≤ c.first.len)
    (hgrow : l.ethPadSize = 0 ∨ c.growable = true) : l.reclaimPad (c.hide l.ethPadSize) = c := by
  by_cases hpad : l.ethPadSize = 0
  · rw [Lwip.reclaimPad, if_pos hpad, hpad, hide_zero]
  · rw [Lwip.reclaimPad, if_neg hpad, l.reveals c _ h (hgrow.resolve_left hpad)]

theorem pbufSegments_hide (ptr : UInt32) (c : Chain) (n : UInt16) (h : c.rest.length + 2 < 65536) :
    pbufSegments 0 ⟨ptr, (c.hide n).first, (c.hide n).rest, h⟩ =
      pbufSegments n ⟨ptr, c.first, c.rest, h⟩ := by
  simp [pbufSegments, pbufDropPad]

def TooLong (qsz : UInt16) (c : Chain) : Prop := c.clen + 1 > qsz

instance (qsz : UInt16) (c : Chain) : Decidable (TooLong qsz c) := inferInstanceAs (Decidable (_ > _))

/-- The 16-bit count is right, and the padding word lies in the first pbuf and can come back. -/
structure Sendable (l : Lwip) (c : Chain) : Prop where
  count : c.rest.length + 2 < 65536
  padded : l.ethPadSize ≤ c.first.len
  growable : l.ethPadSize = 0 ∨ c.growable = true

def Unhidden (l : Lwip) (c : Chain) : Prop := l.ethPadSize = 0 ∨ c.first.len < l.ethPadSize

theorem dropPad_unhidden {c : Chain} (h : Unhidden l c) : l.dropPad c = c := by
  rcases h with hzero | hshort
  · rw [Lwip.dropPad, if_pos hzero]
  · exact dropPad_refuses hshort

/-- A chain that is refused must not be touched before, the others must be sendable. -/
def OutputSafe (l : Lwip) (s : State) : Event → Prop
  | .output p =>
    if TooLong s.tx.q.qsz (s.pbufs p) then Unhidden l (s.pbufs p) else Sendable l (s.pbufs p)
  | _ => True

instance (c : Chain) : Decidable (Sendable l c) :=
  decidable_of_iff (c.rest.length + 2 < 65536 ∧ l.ethPadSize ≤ c.first.len ∧
    (l.ethPadSize = 0 ∨ c.growable = true))
    ⟨fun h => ⟨h.1, h.2.1, h.2.2⟩, fun h => ⟨h.count, h.padded, h.growable⟩⟩

instance (c : Chain) : Decidable (Unhidden l c) := inferInstanceAs (Decidable (_ ∨ _))

instance (s : State) : ∀ e, Decidable (OutputSafe l s e)
  | .output p => inferInstanceAs (Decidable (if TooLong s.tx.q.qsz (s.pbufs p) then
      Unhidden l (s.pbufs p) else Sendable l (s.pbufs p)))
  | .sender | .handler | .enter | .fetch | .complete _ | .raise | .usedFlag _ | .edit _ _
  | .ref _ | .unref _ => isTrue trivial

/-- What one step owes: an error leaves the pbufs and the queue alone; publishing offers a chain
of the header and the segments of the packet as it was handed in, without the padding word; the
return leaves payload pointers and lengths as they were. -/
structure StepRight (l : Lwip) (vnHdr : UInt64) (s : State) (e : Event) (t : State) : Prop where
  error : ∀ p, e = .output p → t.call = .idle →
    t.ret = .errIf ∧ t.pbufs = s.pbufs ∧ t.tx = s.tx
  counted : t.call ≠ .lost
  published : ∀ p entry chain head, e = .sender → s.call = .running p entry →
    s.tx.sender = .publish chain head →
    t.tx.q.avail.ring (slot t.tx.q.qsz s.tx.q.avail.index) = head ∧
    t.tx.q.avail.index = s.tx.q.avail.index + 1 ∧
    ∃ h, Carries (riscv32 vnHdr l.ethPadSize) t.tx.q head ⟨p, entry.first, entry.rest, h⟩
  returned : ∀ p entry, e = .sender → s.call = .restoring p entry →
    t.ret = .ok ∧ t.call = .idle ∧ t.pbufs p = { entry with ref := (s.pbufs p).ref }

/-- The packets the driver holds a reference to: being published, published, or used and not
given back to lwIP. -/
def referenced : SenderPc PbufChain → List PbufChain
  | .ring p _ | .publish p _ => [p]
  | _ => []

def holders (vnHdr : UInt64) (s : State) : List PbufChain :=
  handlerBuf s.tx.handler ++ (outstanding s.tx).map (s.tx.bufOf (driver vnHdr)) ++
    referenced s.tx.sender

/-- One reference for each packet on its way, besides lwIP's own. -/
def RefsRight (vnHdr : UInt64) (s : State) : Prop :=
  ∀ p, (s.pbufs p).ref = s.lwipRefs p + (holders vnHdr s).countP fun c => c.ptr == p

theorem queue_follows (l : Lwip) (vnHdr : UInt64) {s t : State} {e : Event}
    (ht : next l vnHdr s e = some t) :
    t.tx = s.tx ∨ ∃ e', VirtnetTx.next (driver vnHdr) s.tx e' = some t.tx := by
  have hqueue : ∀ {e'}, queueStep vnHdr s e' = some t →
      VirtnetTx.next (driver vnHdr) s.tx e' = some t.tx := by
    intro e' h
    obtain ⟨tx, htx, rfl⟩ := Option.map_eq_some_iff.mp h
    exact htx
  cases e with
  | output p =>
    simp only [next, lowLevelOutput] at ht
    split at ht
    · split at ht
      · obtain rfl := Option.some.inj ht
        exact .inl rfl
      · split at ht
        next hcount =>
          obtain ⟨tx, htx, rfl⟩ := Option.map_eq_some_iff.mp ht
          exact .inr ⟨.output ⟨p, _, _, hcount⟩, htx⟩
        · obtain rfl := Option.some.inj ht
          exact .inl rfl
    · cases ht
  | sender =>
    simp only [next, senderStep] at ht
    split at ht
    · obtain ⟨tx, htx, rfl⟩ := Option.map_eq_some_iff.mp ht
      refine .inr ⟨.sender, htx.trans ?_⟩
      split
      all_goals rfl
    · obtain rfl := Option.some.inj ht
      exact .inl rfl
    · cases ht
  | handler =>
    obtain ⟨tx, htx, rfl⟩ := Option.map_eq_some_iff.mp ht
    refine .inr ⟨.handler, htx.trans ?_⟩
    split
    all_goals rfl
  | enter => exact .inr ⟨_, hqueue ht⟩
  | fetch => exact .inr ⟨_, hqueue ht⟩
  | complete i => exact .inr ⟨_, hqueue ht⟩
  | raise => exact .inr ⟨_, hqueue ht⟩
  | usedFlag flag => exact .inr ⟨_, hqueue ht⟩
  | edit p c =>
    simp only [next] at ht
    obtain ⟨-, ht⟩ := Option.ite_none_left_eq_some.mp ht
    obtain rfl := Option.some.inj ht
    exact .inl rfl
  | ref p =>
    obtain rfl := Option.some.inj ht
    exact .inl rfl
  | unref p =>
    simp only [next] at ht
    obtain ⟨-, ht⟩ := Option.ite_none_left_eq_some.mp ht
    obtain rfl := Option.some.inj ht
    exact .inl rfl

theorem queue_simulation (l : Lwip) (vnHdr : UInt64) (qsz : UInt16)
    (C : State → Event → Prop) :
    Simulation (system l vnHdr qsz) C (fun _ => True) (VirtnetTx.system (driver vnHdr) qsz)
      (fun _ _ => True) State.tx := by
  constructor
  · exact fun s h => h.tx
  · intro s e t _ _ ht
    rcases queue_follows l vnHdr ht with heq | ⟨e', he⟩
    · exact ⟨[], trivial, congrArg some heq.symm⟩
    · refine ⟨[e'], stepsMeet_true _ _ _, ?_⟩
      have hstep : (VirtnetTx.system (driver vnHdr) qsz).next s.tx e' = some t.tx := he
      rw [run_cons, hstep]
      rfl

section Queue

variable {β ρ : Type} {d : Driver β ρ} {s t : VirtnetTx.State β ρ}

def unreferenced : SenderPc β → List β
  | .lock p | .take p | .yield p | .unlock p _ _ | .clearTail p _ _ | .fill p _
  | .record p _ _ _ => [p]
  | _ => []

theorem sender_cases (h : VirtnetTx.senderStep d s = some t) :
    t.handed = s.handed ∧ t.freed = s.freed ∧
    ((s.sender = .notify ∧ t.sender = .idle) ∨
      (∃ p head idx tail, s.sender = .record p head idx tail ∧ t.sender = .ring p head) ∨
      (s.sender ≠ .notify ∧ (∀ p head idx tail, s.sender ≠ .record p head idx tail) ∧
        unreferenced t.sender = unreferenced s.sender ∧
        (t.sender = .notify ∨ senderBuf t.sender = senderBuf s.sender))) := by
  cases hpc : s.sender with
  | idle => simp [VirtnetTx.senderStep, hpc] at h
  | lock p =>
    simp only [VirtnetTx.senderStep, hpc] at h
    obtain ⟨-, h⟩ := Option.ite_none_left_eq_some.mp h
    obtain rfl := Option.some.inj h
    simp [unreferenced, senderBuf]
  | take p =>
    simp only [VirtnetTx.senderStep, hpc] at h
    split at h
    all_goals
      obtain rfl := Option.some.inj h
      simp [unreferenced, senderBuf]
  | record p head idx tail =>
    simp only [VirtnetTx.senderStep, hpc] at h
    obtain rfl := Option.some.inj h
    exact ⟨rfl, rfl, .inr (.inl ⟨p, head, idx, tail, rfl, rfl⟩)⟩
  | notify =>
    simp only [VirtnetTx.senderStep, hpc] at h
    obtain rfl := Option.some.inj h
    exact ⟨rfl, rfl, .inl ⟨rfl, rfl⟩⟩
  | yield | unlock | clearTail | fill | ring | publish =>
    simp only [VirtnetTx.senderStep, hpc] at h
    obtain rfl := Option.some.inj h
    simp [unreferenced, senderBuf, VirtnetTx.State.setDesc, VirtnetTx.State.setAvail]

def freeing : HandlerPc β ρ → List β
  | .free nb => [nb]
  | _ => []

theorem handler_frame (h : VirtnetTx.handlerStep d s = some t) :
    t.sender = s.sender ∧ t.handed = s.handed ∧ t.freed = s.freed ++ freeing s.handler := by
  cases hpc : s.handler with
  | off => simp [VirtnetTx.handlerStep, hpc] at h
  | lock head idx early =>
    simp only [VirtnetTx.handlerStep, hpc] at h
    obtain ⟨-, h⟩ := Option.ite_none_left_eq_some.mp h
    obtain rfl := Option.some.inj h
    simp [freeing]
  | splice head idx early =>
    simp only [VirtnetTx.handlerStep, hpc] at h
    obtain rfl := Option.some.inj h
    simp [freeing, spliceEntry, VirtnetTx.State.setDesc]
  | mask | test | read | lookup | unlock | free | advance | unmask =>
    simp only [VirtnetTx.handlerStep, hpc] at h
    obtain rfl := Option.some.inj h
    simp [freeing, VirtnetTx.State.setAvail]

def Outside : VirtnetTx.Event β → Prop
  | .output _ | .sender | .handler => False
  | _ => True

theorem outside_frame {e : VirtnetTx.Event β} (he : Outside e)
    (h : VirtnetTx.next d s e = some t) :
    t.sender = s.sender ∧ t.handed = s.handed ∧ t.freed = s.freed := by
  cases e with
  | output | sender | handler => exact he.elim
  | enter =>
    simp only [VirtnetTx.next] at h
    split at h
    · obtain rfl := Option.some.inj h
      exact ⟨rfl, rfl, rfl⟩
    · cases h
  | fetch =>
    simp only [VirtnetTx.next, deviceFetch] at h
    obtain ⟨-, h⟩ := Option.ite_none_left_eq_some.mp h
    obtain rfl := Option.some.inj h
    exact ⟨rfl, rfl, rfl⟩
  | complete i =>
    simp only [VirtnetTx.next, deviceComplete] at h
    split at h
    · cases h
    · obtain rfl := Option.some.inj h
      exact ⟨rfl, rfl, rfl⟩
  | raise =>
    simp only [VirtnetTx.next] at h
    obtain ⟨-, h⟩ := Option.ite_none_right_eq_some.mp h
    obtain rfl := Option.some.inj h
    exact ⟨rfl, rfl, rfl⟩
  | usedFlag flag =>
    obtain rfl := Option.some.inj h
    exact ⟨rfl, rfl, rfl⟩

end Queue

theorem senderBuf_split (pc : SenderPc PbufChain) :
    senderBuf pc = unreferenced pc ++ referenced pc := by
  cases pc
  all_goals rfl

def refsOf (p : UInt32) (cs : List PbufChain) : ℕ := cs.countP fun c => c.ptr == p

/-- Every packet accepted has been referenced, is about to be, or was given back. -/
def Balanced (s : State) : Prop :=
  ∀ p, (s.pbufs p).ref + refsOf p s.tx.freed + refsOf p (unreferenced s.tx.sender) =
    s.lwipRefs p + refsOf p s.tx.handed

def sent (l : Lwip) (p : UInt32) (entry : Chain) (h : Sendable l entry) : PbufChain :=
  ⟨p, (entry.hide l.ethPadSize).first, entry.rest, h.count⟩

/-- The chain at `p` is `entry` with its padding word hidden. -/
def Hidden (l : Lwip) (s : State) (p : UInt32) (entry : Chain) : Prop :=
  s.pbufs p = { entry.hide l.ethPadSize with ref := (s.pbufs p).ref }

def CallOk (l : Lwip) (s : State) : Prop :=
  match s.call with
  | .idle => s.tx.sender = .idle
  | .running p entry => ∃ h : Sendable l entry, Hidden l s p entry ∧
      (s.tx.sender = .notify ∨ senderBuf s.tx.sender = [sent l p entry h])
  | .restoring p entry => Sendable l entry ∧ Hidden l s p entry ∧ s.tx.sender = .idle
  | .lost => False

structure OutputInv (l : Lwip) (vnHdr : UInt64) (qsz : UInt16) (s : State) : Prop where
  queue : Reachable (VirtnetTx.system (driver vnHdr) qsz) s.tx
  balanced : Balanced s
  call : CallOk l s

theorem Balanced.refsRight (hp : PowTwo qsz) {s : State} (h : Balanced s)
    (hq : Reachable (VirtnetTx.system (driver vnHdr) qsz) s.tx) : RefsRight vnHdr s := by
  have hpart := reachable_partitioned hp (Nat.zero_le _) hq
  intro p
  have hbal := h p
  have hhanded := hpart.handed.countP_eq fun c => c.ptr == p
  rw [hpart.completed, senderBuf_split] at hhanded
  simp only [refsOf, holders, outstanding, List.map_append, List.countP_append] at hbal hhanded ⊢
  omega

theorem refsOf_append (p : UInt32) (cs ds : List PbufChain) :
    refsOf p (cs ++ ds) = refsOf p cs + refsOf p ds := List.countP_append

theorem refsOf_single (p : UInt32) (c : PbufChain) :
    refsOf p [c] = if c.ptr = p then 1 else 0 := by
  by_cases h : c.ptr = p <;> simp [refsOf, h]

theorem Hidden.frame {s t : State} {p : UInt32} {entry : Chain} {r : ℕ} (h : Hidden l s p entry)
    (hp : t.pbufs p = { s.pbufs p with ref := r }) : Hidden l t p entry := by
  have hr : (t.pbufs p).ref = r := by rw [hp]
  have hsame := congrArg (fun c : Chain => { c with ref := r }) h
  rw [Hidden, hr]
  exact hp.trans hsame

theorem CallOk.frame {s t : State} (h : CallOk l s) (hcall : t.call = s.call)
    (hs : t.tx.sender = s.tx.sender)
    (hp : ∀ p, s.call.holds p = true → ∃ r, t.pbufs p = { s.pbufs p with ref := r }) :
    CallOk l t := by
  unfold CallOk at h ⊢
  rw [hcall, hs]
  cases hc : s.call with
  | idle => simpa only [hc] using h
  | running p entry =>
    simp only [hc] at h
    obtain ⟨hsend, hhid, hbuf⟩ := h
    obtain ⟨r, hr⟩ := hp p (by simp [hc, Call.holds])
    exact ⟨hsend, hhid.frame hr, hbuf⟩
  | restoring p entry =>
    simp only [hc] at h
    obtain ⟨hsend, hhid, hidle⟩ := h
    obtain ⟨r, hr⟩ := hp p (by simp [hc, Call.holds])
    exact ⟨hsend, hhid.frame hr, hidle⟩
  | lost => simp only [hc] at h

theorem CallOk.setRef {s t : State} (h : CallOk l s) (hcall : t.call = s.call)
    (hs : t.tx.sender = s.tx.sender) {p : UInt32} {r : ℕ}
    (hp : t.pbufs = Function.update s.pbufs p { s.pbufs p with ref := r }) : CallOk l t := by
  refine h.frame hcall hs fun p' _ => ?_
  by_cases heq : p' = p
  · subst heq
    exact ⟨r, by rw [hp, Function.update_self]⟩
  · exact ⟨(s.pbufs p').ref, by rw [hp, Function.update_of_ne heq]⟩

theorem outside_step {s t : State} {e : VirtnetTx.Event PbufChain} (he : Outside e)
    (hb : Balanced s) (hcall : CallOk l s) (ht : queueStep vnHdr s e = some t) :
    Balanced t ∧ CallOk l t := by
  obtain ⟨tx, htx, rfl⟩ := Option.map_eq_some_iff.mp ht
  obtain ⟨hsender, hhanded, hfreed⟩ := outside_frame he htx
  constructor
  · intro p
    have := hb p
    simp only [hsender, hhanded, hfreed]
    exact this
  · exact hcall.frame rfl hsender fun p _ => ⟨_, rfl⟩

theorem handler_step (hp : PowTwo qsz) {s t : State} (h : OutputInv l vnHdr qsz s)
    (ht : VirtnetOutput.handlerStep vnHdr s = some t) : Balanced t ∧ CallOk l t := by
  obtain ⟨tx, htx, rfl⟩ := Option.map_eq_some_iff.mp ht
  obtain ⟨hsender, hhanded, hfreed⟩ := handler_frame htx
  cases hpc : s.tx.handler with
  | free nb =>
    rw [hpc] at hfreed
    have hrefs := h.balanced.refsRight hp h.queue nb.ptr
    have hheld : 1 ≤ (holders vnHdr s).countP fun c => c.ptr == nb.ptr := by
      simp [holders, hpc, handlerBuf]
    constructor
    · intro p
      have hbal := h.balanced p
      simp only [hsender, hhanded, hfreed, freeing, refsOf_append, refsOf_single]
      by_cases heq : nb.ptr = p
      · subst heq
        simp only [State.pbufFree, State.setPbuf, Function.update_self, if_true]
        omega
      · simp only [State.pbufFree, State.setPbuf, Function.update_of_ne (Ne.symm heq), if_neg heq]
        omega
    · exact h.call.setRef rfl hsender rfl
  | off | mask | test | read | lookup | lock | splice | unlock | advance | unmask =>
    rw [hpc] at hfreed
    constructor
    · intro p
      have hbal := h.balanced p
      simp only [hsender, hhanded, hfreed, freeing, List.append_nil]
      exact hbal
    · exact h.call.frame rfl hsender fun p _ => ⟨_, rfl⟩

theorem edit_step {s t : State} {p : UInt32} {c : Chain} (hb : Balanced s) (hcall : CallOk l s)
    (ht : VirtnetOutput.next l vnHdr s (.edit p c) = some t) : Balanced t ∧ CallOk l t := by
  simp only [VirtnetOutput.next] at ht
  obtain ⟨hheld, ht⟩ := Option.ite_none_left_eq_some.mp ht
  obtain rfl := Option.some.inj ht
  constructor
  · intro p'
    have hbal := hb p'
    by_cases heq : p' = p
    · subst heq
      simpa [State.setPbuf] using hbal
    · simpa [State.setPbuf, Function.update_of_ne heq] using hbal
  · refine hcall.frame rfl rfl fun p' hp' => ?_
    have hne : p' ≠ p := by
      rintro rfl
      exact hheld hp'
    exact ⟨(s.pbufs p').ref, Function.update_of_ne hne ..⟩

theorem ref_step {s : State} (p : UInt32) (hb : Balanced s) :
    Balanced { s.pbufRef p with lwipRefs := Function.update s.lwipRefs p (s.lwipRefs p + 1) } := by
  intro p'
  have hbal := hb p'
  by_cases heq : p' = p
  · subst heq
    simp only [State.pbufRef, State.setPbuf, Function.update_self]
    omega
  · simp only [State.pbufRef, State.setPbuf, Function.update_of_ne heq]
    exact hbal

theorem unref_step {s : State} {p : UInt32} (hb : Balanced s) (hrefs : RefsRight vnHdr s)
    (hpos : s.lwipRefs p ≠ 0) :
    Balanced { s.pbufFree p with
      lwipRefs := Function.update s.lwipRefs p (s.lwipRefs p - 1) } := by
  intro p'
  have hbal := hb p'
  by_cases heq : p' = p
  · subst heq
    have := hrefs p'
    simp only [State.pbufFree, State.setPbuf, Function.update_self]
    omega
  · simp only [State.pbufFree, State.setPbuf, Function.update_of_ne heq]
    exact hbal

theorem mem_senderBuf_record {pc : SenderPc PbufChain} {c c' : PbufChain} {head idx tail : UInt16}
    (hpc : pc = .record c head idx tail) (hbuf : senderBuf pc = [c']) : c = c' := by
  subst hpc
  exact List.singleton_inj.mp hbuf

theorem Hidden.restored {s : State} {p : UInt32} {entry : Chain} (h : Hidden l s p entry)
    (hsend : Sendable l entry) :
    l.reclaimPad (s.pbufs p) = { entry with ref := (s.pbufs p).ref } :=
  (congrArg l.reclaimPad h).trans
    (@reclaimPad_hide l { entry with ref := (s.pbufs p).ref } hsend.padded hsend.growable)

theorem Balanced.queue {s : State} {tx : VirtnetTx.State PbufChain TbufRecord} {call : Call}
    (hb : Balanced s) (hhanded : tx.handed = s.tx.handed) (hfreed : tx.freed = s.tx.freed)
    (hun : unreferenced tx.sender = unreferenced s.tx.sender) :
    Balanced { s with tx, call } := by
  intro p
  have hbal := hb p
  simp only [hhanded, hfreed, hun]
  exact hbal

theorem sender_step {s t : State} (hb : Balanced s) (hcall : CallOk l s)
    (ht : VirtnetOutput.senderStep l vnHdr s = some t) : Balanced t ∧ CallOk l t := by
  unfold VirtnetOutput.senderStep at ht
  cases hc : s.call with
  | idle => simp [hc] at ht
  | lost => simp [hc] at ht
  | restoring p entry =>
    simp only [hc] at ht
    obtain rfl := Option.some.inj ht
    simp only [CallOk, hc] at hcall
    obtain ⟨hsend, hhid, hidle⟩ := hcall
    refine ⟨?_, hidle⟩
    intro p'
    have hbal := hb p'
    by_cases heq : p' = p
    · subst heq
      simp only [State.setPbuf, Function.update_self, hhid.restored hsend]
      exact hbal
    · simp only [State.setPbuf, Function.update_of_ne heq]
      exact hbal
  | running p entry =>
    simp only [hc] at ht
    obtain ⟨tx, htx, ht⟩ := Option.map_eq_some_iff.mp ht
    have hrun := hcall
    simp only [CallOk, hc] at hrun
    obtain ⟨hsend, hhid, hbuf⟩ := hrun
    obtain ⟨hhanded, hfreed, hcases⟩ := sender_cases htx
    rcases hcases with ⟨hfrom, hto⟩ | ⟨c, head, idx, tail, hfrom, hto⟩ | ⟨hne, hnr, hun, hsame⟩
    · rw [hfrom] at ht
      subst ht
      refine ⟨hb.queue hhanded hfreed ?_, hsend, hhid, hto⟩
      rw [hfrom, hto]
      rfl
    · have hc' : c = sent l p entry hsend := by
        rcases hbuf with hnotify | hbuf
        · rw [hfrom] at hnotify
          cases hnotify
        · exact mem_senderBuf_record hfrom hbuf
      rw [hfrom] at ht
      subst ht
      constructor
      · intro p'
        have hbal := hb p'
        rw [hfrom, unreferenced, refsOf_single, hc', sent] at hbal
        simp only [hhanded, hfreed, hto, unreferenced]
        by_cases heq : p = p'
        · subst heq
          rw [if_pos rfl] at hbal
          simp only [State.pbufRef, State.setPbuf, Function.update_self, refsOf, List.countP_nil]
          simp only [refsOf] at hbal
          omega
        · rw [if_neg heq] at hbal
          simp only [State.pbufRef, State.setPbuf, Function.update_of_ne (Ne.symm heq), refsOf,
            List.countP_nil]
          exact hbal
      · have hkept : (s.pbufRef p).pbufs p =
            { s.pbufs p with ref := (s.pbufs p).ref + 1 } := Function.update_self ..
        simp only [CallOk, State.pbufRef, State.setPbuf, hc]
        refine ⟨hsend, hhid.frame hkept, .inr ?_⟩
        rw [hto, hc']
        rfl
    · split at ht
      next hrec => exact absurd hrec (hnr _ _ _ _)
      next hnotify => exact absurd hnotify hne
      · subst ht
        refine ⟨hb.queue hhanded hfreed hun, ?_⟩
        simp only [CallOk]
        refine ⟨hsend, hhid, ?_⟩
        rcases hsame with hto | hto
        · exact .inl hto
        · exact .inr (hto.trans (hbuf.resolve_left hne))

theorem pbufClen_sent (p : UInt32) {c : Chain} (h : Sendable l c) :
    pbufClen (sent l p c h) = c.clen := rfl

theorem queue_accepts {q : VirtnetTx.State PbufChain TbufRecord} {c : PbufChain}
    (hidle : q.sender = .idle) (h : ¬ pbufClen c + 1 > q.q.qsz) :
    VirtnetTx.lowLevelOutput (driver vnHdr) q c =
      some { q with sender := .lock c, handed := q.handed ++ [c] } := by
  have haccept : (driver vnHdr).accepts q.q.qsz c = true := by
    simpa [driver, riscv32] using h
  simp only [VirtnetTx.lowLevelOutput, hidle, haccept, if_true]

theorem output_step {s t : State} {p : UInt32} (hb : Balanced s) (hcall : CallOk l s)
    (hc : OutputSafe l s (.output p))
    (ht : VirtnetOutput.lowLevelOutput l vnHdr s p = some t) :
    (s.call = .idle ∧ t = { s with ret := .errIf }) ∨
    (t.call = .running p (s.pbufs p) ∧ Balanced t ∧ CallOk l t) := by
  unfold VirtnetOutput.lowLevelOutput at ht
  split at ht
  next hidle =>
    simp only [dropPad_clen, dropPad_rest] at ht
    by_cases hlong : TooLong s.tx.q.qsz (s.pbufs p)
    · left
      have hcheck : (s.pbufs p).clen + 1 > s.tx.q.qsz := hlong
      simp only [OutputSafe, if_pos hlong] at hc
      rw [if_pos hcheck, dropPad_unhidden hc] at ht
      obtain rfl := Option.some.inj ht
      simp [State.setPbuf, hidle]
    · right
      have hcheck : ¬ (s.pbufs p).clen + 1 > s.tx.q.qsz := hlong
      simp only [OutputSafe, if_neg hlong] at hc
      rw [if_neg hcheck, dif_pos hc.count] at ht
      simp only [dropPad_hides hc.padded] at ht
      simp only [CallOk, hidle] at hcall
      have hrun := @queue_accepts vnHdr s.tx (sent l p (s.pbufs p) hc) hcall
        (by rw [pbufClen_sent]; exact hcheck)
      rw [sent] at hrun
      rw [hrun] at ht
      obtain rfl := Option.some.inj ht
      refine ⟨rfl, ?_, ?_⟩
      · intro p'
        have hbal := hb p'
        have hnone : refsOf p' [] = 0 := rfl
        rw [hcall] at hbal
        simp only [unreferenced, refsOf_append, hnone] at hbal ⊢
        by_cases heq : p' = p
        · subst heq
          simp only [State.setPbuf, Function.update_self, hide_ref]
          omega
        · simp only [State.setPbuf, Function.update_of_ne heq]
          omega
      · have hhid : Hidden l (s.setPbuf p ((s.pbufs p).hide l.ethPadSize)) p (s.pbufs p) := by
          simp only [Hidden, State.setPbuf, Function.update_self]
        exact ⟨hc, hhid, .inr rfl⟩
  · cases ht

theorem inv_init {s : State} (h : VirtnetOutput.Init qsz s) : OutputInv l vnHdr qsz s := by
  refine ⟨.init h.tx, ?_, ?_⟩
  · intro p
    rw [h.tx.freed, h.tx.handed, h.tx.sender]
    exact h.refs p
  · simp only [CallOk, h.call]
    exact h.tx.sender

theorem inv_step (hp : PowTwo qsz) {s t : State} {e : Event} (h : OutputInv l vnHdr qsz s)
    (hc : OutputSafe l s e) (ht : VirtnetOutput.next l vnHdr s e = some t) :
    OutputInv l vnHdr qsz t := by
  have hqueue : Reachable (VirtnetTx.system (driver vnHdr) qsz) t.tx := by
    rcases queue_follows l vnHdr ht with heq | ⟨e', he⟩
    · rw [heq]
      exact h.queue
    · exact h.queue.step trivial he
  have hrest : Balanced t ∧ CallOk l t := by
    cases e with
    | output p =>
      rcases output_step h.balanced h.call hc ht with ⟨hidle, rfl⟩ | ⟨-, hb, hcall⟩
      · exact ⟨h.balanced, h.call.frame rfl rfl fun p _ => ⟨_, rfl⟩⟩
      · exact ⟨hb, hcall⟩
    | sender => exact sender_step h.balanced h.call ht
    | handler => exact handler_step hp h ht
    | enter | fetch | complete | raise | usedFlag =>
      refine outside_step ?_ h.balanced h.call ht
      trivial
    | edit p c => exact edit_step h.balanced h.call ht
    | ref p =>
      obtain rfl := Option.some.inj ht
      exact ⟨ref_step p h.balanced, h.call.setRef rfl rfl rfl⟩
    | unref p =>
      simp only [VirtnetOutput.next] at ht
      obtain ⟨hpos, ht⟩ := Option.ite_none_left_eq_some.mp ht
      obtain rfl := Option.some.inj ht
      exact ⟨unref_step h.balanced (h.balanced.refsRight hp h.queue) hpos,
        h.call.setRef rfl rfl rfl⟩
  exact ⟨hqueue, hrest.1, hrest.2⟩

theorem reachable_inv (hp : PowTwo qsz) {s : State}
    (h : ReachableUnder (VirtnetOutput.system l vnHdr qsz) (OutputSafe l) s) :
    OutputInv l vnHdr qsz s :=
  h.invariant (fun _ => inv_init) fun _ _ _ hI hc ht => inv_step hp hI hc ht

/-- What is published is the chain of the packet, without the padding word. -/
theorem published_right (hp : PowTwo qsz) {s : State} (h : OutputInv l vnHdr qsz s) {p : UInt32}
    {entry : Chain} {chain : PbufChain} {head : UInt16} (hc : s.call = .running p entry)
    (hpc : s.tx.sender = .publish chain head) :
    s.tx.q.avail.ring (slot s.tx.q.qsz s.tx.q.avail.index) = head ∧
    ∃ hcount, Carries (riscv32 vnHdr l.ethPadSize) s.tx.q head
      ⟨p, entry.first, entry.rest, hcount⟩ := by
  have hcall := h.call
  simp only [CallOk, hc] at hcall
  obtain ⟨hsend, -, hbuf⟩ := hcall
  have hchain : chain = sent l p entry hsend := by
    rw [hpc] at hbuf
    rcases hbuf with hnotify | hbuf
    · cases hnotify
    · exact List.singleton_inj.mp hbuf
  obtain ⟨g, hI⟩ := reachable_invariant hp (Nat.zero_le _) h.queue
  have hring := hI.sender
  rw [hpc] at hring
  obtain ⟨-, hcarries, -⟩ := (reachable_partitioned hp (Nat.zero_le _) h.queue).publish chain head hpc
  refine ⟨hring.2, hsend.count, ?_⟩
  subst hchain
  refine ⟨hcarries.closed, hcarries.length, ?_⟩
  rw [hcarries.spans]
  exact congrArg (List.cons _) (pbufSegments_hide p entry l.ethPadSize hsend.count)

theorem publish_frame {t u : VirtnetTx.State PbufChain TbufRecord} {chain : PbufChain}
    {head : UInt16} (hpc : t.sender = .publish chain head)
    (ht : VirtnetTx.senderStep (driver vnHdr) t = some u) :
    u.q = { t.q with avail := { t.q.avail with index := t.q.avail.index + 1 } } := by
  simp only [VirtnetTx.senderStep, hpc] at ht
  obtain rfl := Option.some.inj ht
  rfl

theorem step_right (hp : PowTwo qsz) {s t : State} {e : Event} (h : OutputInv l vnHdr qsz s)
    (hc : OutputSafe l s e) (ht : VirtnetOutput.next l vnHdr s e = some t) :
    StepRight l vnHdr s e t := by
  constructor
  · rintro p rfl hover
    rcases output_step h.balanced h.call hc ht with ⟨-, rfl⟩ | ⟨hrun, -⟩
    · exact ⟨rfl, rfl, rfl⟩
    · rw [hrun] at hover
      cases hover
  · intro hlost
    have hcall := (inv_step hp h hc ht).call
    simp only [CallOk, hlost] at hcall
  · rintro p entry chain head rfl hrun hpc
    obtain ⟨hring, hcount, hcarries⟩ := published_right hp h hrun hpc
    simp only [VirtnetOutput.next, VirtnetOutput.senderStep, hrun] at ht
    obtain ⟨tx, htx, ht⟩ := Option.map_eq_some_iff.mp ht
    rw [hpc] at ht
    subst ht
    have hq := publish_frame hpc htx
    refine ⟨?_, ?_, hcount, ?_⟩
    · rw [hq]
      exact hring
    · rw [hq]
    · rw [hq]
      exact ⟨hcarries.closed, hcarries.length, hcarries.spans⟩
  · rintro p entry rfl hrest
    have hcall := h.call
    simp only [CallOk, hrest] at hcall
    obtain ⟨hsend, hhid, -⟩ := hcall
    simp only [VirtnetOutput.next, VirtnetOutput.senderStep, hrest] at ht
    obtain rfl := Option.some.inj ht
    refine ⟨rfl, rfl, ?_⟩
    simp only [State.setPbuf, Function.update_self]
    exact hhid.restored hsend

theorem hide_ne {c : Chain} {n : UInt16} (h : n ≠ 0) : c.hide n ≠ c := by
  intro heq
  have hlen := congrArg (fun c : Chain => c.first.len) heq
  simp only [hide_first, pbufDropPad] at hlen
  apply h
  apply UInt16.toNat_inj.mp
  have hnat := congrArg UInt16.toNat hlen
  have hlt := c.first.len.toNat_lt
  have hn := n.toNat_lt
  rw [UInt16.toNat_sub] at hnat
  rw [UInt16.toNat_zero]
  omega

/-- A refused packet is left as it was exactly when there is no padding word to hide, or it
cannot be hidden. -/
theorem refused_restored_iff {s t : State} {p : UInt32} (hidle : s.call = .idle)
    (hlong : TooLong s.tx.q.qsz (s.pbufs p))
    (ht : VirtnetOutput.next l vnHdr s (.output p) = some t) :
    t.call = .idle ∧ t.ret = .errIf ∧ t.tx = s.tx ∧
      (t.pbufs = s.pbufs ↔ Unhidden l (s.pbufs p)) := by
  have hcheck : (s.pbufs p).clen + 1 > s.tx.q.qsz := hlong
  simp only [VirtnetOutput.next, VirtnetOutput.lowLevelOutput, hidle, dropPad_clen,
    if_pos hcheck] at ht
  obtain rfl := Option.some.inj ht
  refine ⟨hidle, rfl, rfl, ?_⟩
  constructor
  · intro hsame
    by_contra hnot
    obtain ⟨hpad, hlen⟩ := not_or.mp hnot
    have hchain := congrFun hsame p
    simp only [State.setPbuf, Function.update_self] at hchain
    rw [dropPad_hides (UInt16.not_lt.mp hlen)] at hchain
    exact hide_ne hpad hchain
  · intro hunhidden
    rw [dropPad_unhidden hunhidden]
    simp [State.setPbuf]

/-- In a run whose calls are all right, every call is atomic and faithful, and the driver holds
one reference to each packet from before it is published until it is given back. -/
theorem output_atomic (hp : PowTwo qsz) {s : State}
    (h : ReachableUnder (VirtnetOutput.system l vnHdr qsz) (OutputSafe l) s) :
    RefsRight vnHdr s ∧
    ∀ e t, OutputSafe l s e → VirtnetOutput.next l vnHdr s e = some t →
      StepRight l vnHdr s e t := by
  have hI := reachable_inv hp h
  exact ⟨hI.balanced.refsRight hp hI.queue, fun e t hc ht => step_right hp hI hc ht⟩

def Chain.reveal (c : Chain) (n : UInt16) : Chain :=
  { c with first := ⟨c.first.payload - n.toUInt32, c.first.len + n⟩, totLen := c.totLen + n }

/-- `pbuf_header` of pbufs that have room in front of them if they are of a growable type. -/
def header (c : Chain) (inc : ℤ) : Chain :=
  let n := UInt16.ofNat inc.natAbs
  if inc < 0 then if n ≤ c.first.len then c.hide n else c
  else if inc = 0 ∨ c.growable = true then Chain.reveal c n
  else c

theorem reveal_hide (c : Chain) (n : UInt16) : Chain.reveal (c.hide n) n = c := by
  simp [Chain.reveal, Chain.hide, pbufDropPad]

theorem reveal_zero (c : Chain) : Chain.reveal c 0 = c := by
  simp [Chain.reveal]

def padding (ethPadSize : UInt16) : Lwip where
  ethPadSize
  pbufHeader := header
  hides := by
    intro c n h
    by_cases hn : n = 0
    · subst hn
      simp [header, reveal_zero]
    · have hpos : 0 < n.toNat := Nat.pos_of_ne_zero fun h0 => hn (UInt16.toNat_inj.mp h0)
      simp [header, h, hpos]
  refuses := by
    intro c n h
    have hlt := UInt16.lt_iff_toNat_lt.mp h
    have hpos : 0 < n.toNat := by omega
    simp [header, hpos, UInt16.not_le.mpr h]
  reveals := by
    intro c n _ hgrow
    have hnot : ¬ (n.toNat : ℤ) < 0 := by omega
    have hgrow' : (c.hide n).growable = true := hgrow
    simp [header, hnot, hgrow', reveal_hide]

/-- lwIP has one reference to the one chain there is. -/
def start (c : Chain) : State where
  tx := zeroed 32
  pbufs := fun _ => { c with ref := 1 }
  call := .idle
  ret := .ok
  lwipRefs := fun _ => 1

theorem init_start (c : Chain) : VirtnetOutput.Init 32 (start c) :=
  ⟨init_zeroed 32, rfl, fun _ => rfl⟩

def threePbufChain : Chain := ⟨⟨100, 60⟩, [⟨200, 40⟩, ⟨300, 20⟩], 120, 1, true⟩

/-- From LowLevelOutput to the step that publishes the packet. -/
def untilPublish : List Event := .output 7 :: List.replicate 7 .sender

theorem untilPublish_safe :
    StepsMeet (VirtnetOutput.system (padding 2) 4096 32) (OutputSafe (padding 2))
      (start threePbufChain) untilPublish := by
  decide +kernel

theorem output_atomic_threePbufs :
    ∃ s, (VirtnetOutput.system (padding 2) 4096 32).run (start threePbufChain) untilPublish = some s ∧
      RefsRight 4096 s ∧ ∀ e t, OutputSafe (padding 2) s e →
        VirtnetOutput.next (padding 2) 4096 s e = some t → StepRight (padding 2) 4096 s e t := by
  have hrun : ((VirtnetOutput.system (padding 2) 4096 32).run (start threePbufChain)
      untilPublish).isSome = true := by decide +kernel
  obtain ⟨s, hs⟩ := Option.isSome_iff_exists.mp hrun
  exact ⟨s, hs, output_atomic powTwo_32
    (ReachableUnder.run (.init (init_start threePbufChain)) untilPublish_safe hs)⟩

def longChain : Chain := ⟨⟨100, 60⟩, List.replicate 31 ⟨200, 40⟩, 1300, 1, true⟩

/-- A chain of 32 pbufs is refused with its payload moved past the padding word. -/
theorem refused_moved :
    ∃ t, VirtnetOutput.Init 32 (start longChain) ∧
      VirtnetOutput.next (padding 2) 4096 (start longChain) (.output 7) = some t ∧
      t.call = .idle ∧ t.ret = .errIf ∧ (t.pbufs 7).first = ⟨102, 58⟩ ∧
      ¬ StepRight (padding 2) 4096 (start longChain) (.output 7) t := by
  have hlong : TooLong (start longChain).tx.q.qsz ((start longChain).pbufs 7) := by decide +kernel
  have hstep : ∃ t, VirtnetOutput.next (padding 2) 4096 (start longChain) (.output 7) = some t := by
    apply Option.isSome_iff_exists.mp
    decide +kernel
  obtain ⟨t, ht⟩ := hstep
  obtain ⟨hidle, hret, -, hrestored⟩ := refused_restored_iff rfl hlong ht
  have hmoved : (VirtnetOutput.next (padding 2) 4096 (start longChain) (.output 7)).map
      (fun t => (t.pbufs 7).first) = some ⟨102, 58⟩ := by decide +kernel
  rw [ht] at hmoved
  refine ⟨t, init_start longChain, ht, hidle, hret, Option.some.inj hmoved, ?_⟩
  intro hright
  have hunhidden := hrestored.mp (hright.error 7 rfl hidle).2.1
  revert hunhidden
  decide +kernel

end VirtnetOutputAtomic
