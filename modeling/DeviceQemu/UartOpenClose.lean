import DeviceQemu.StepSystem
import DeviceQemu.Uart

/-! Opening and closing the UART.
Hosts open and close the port, each close matching an open that succeeded, and read and configure it
in between. A failed Init leaves the port opening, where the next Init finds nothing to do. -/
namespace UartOpenClose

open ResourceLedger StepSystem Uart

variable {α : Type}

inductive Event (α : Type) where
  | init (a : Answers)
  | deinit
  | read (size : ℕ)
  | setBaud (baudRate : UInt32)
  | setAttribute (attr : α)
  | setTransMode (mode : UartTransMode)
  deriving DecidableEq, Repr

/-- `opens` counts the successful opens that were not closed; `live` are the blocks allocated and not
freed. -/
structure State (α : Type) where
  udd : UartDriverData α
  opens : ℕ
  live : Multiset Addr

/-- As Hi35xxAttach leaves the driver data. -/
structure Init (s : State α) : Prop where
  state : s.udd.state = .notOpened
  count : s.udd.count = 0
  rxTransfer : s.udd.rxTransfer = none
  running : s.udd.port.running = false
  opens : s.opens = 0
  live : s.live = 0

def call (clk : UInt32) (udd : UartDriverData α) : Event α → Called α
  | .init a => hi35xxInit udd a
  | .deinit => hi35xxDeinit udd
  | .read _ => ⟨.success, udd, []⟩
  | .setBaud baudRate =>
    ⟨(hi35xxSetBaud clk udd baudRate).1, (hi35xxSetBaud clk udd baudRate).2, []⟩
  | .setAttribute attr => ⟨(hi35xxSetAttribute clk udd attr).1, (hi35xxSetAttribute clk udd attr).2, []⟩
  | .setTransMode mode => ⟨(hi35xxSetTransMode udd mode).1, (hi35xxSetTransMode udd mode).2, []⟩

def opensAfter (opens : ℕ) : Event α → HdfStatus → ℕ
  | .init _, .success => opens + 1
  | .deinit, _ => opens - 1
  | _, _ => opens

/-- A close matches an open, and the allocator gives no block that is in use. -/
def Possible (s : State α) : Event α → Prop
  | .init a => ∀ transfer ∈ a.calloc, transfer ∉ s.live
  | .deinit => 0 < s.opens
  | _ => True

instance (s : State α) : (e : Event α) → Decidable (Possible s e)
  | .init a => inferInstanceAs (Decidable (∀ transfer ∈ a.calloc, transfer ∉ s.live))
  | .deinit => inferInstanceAs (Decidable (0 < s.opens))
  | .read _ | .setBaud _ | .setAttribute _ | .setTransMode _ => isTrue trivial

def after (clk : UInt32) (s : State α) (e : Event α) : State α :=
  let r := call clk s.udd e
  ⟨r.udd, opensAfter s.opens e r.ret, ResourceLedger.after s.live r.ops⟩

def system (α : Type) (clk : UInt32) : System (State α) (Event α) where
  Init := Init
  next s e := if Possible s e then some (after clk s e) else none

structure Sound (s : State α) : Prop where
  useable : s.udd.state = .useable → s.udd.port.running = true ∧
    ∃ transfer, s.udd.rxTransfer = some transfer ∧ transfer ∈ s.live
  count : s.udd.count.toInt = s.opens
  detach : hi35xxDetach s.udd = true ↔ s.opens = 0
  closed : s.opens = 0 → s.live = 0

/-- A failed Init changes neither state nor count; a block is freed that is allocated, by the last
close, and by no other. -/
structure Right (clk : UInt32) (s : State α) (e : Event α) : Prop where
  sound : Sound (after clk s e)
  failed : ∀ a, e = .init a → (call clk s.udd e).ret ≠ .success →
    (call clk s.udd e).udd.state = s.udd.state ∧ (call clk s.udd e).udd.count = s.udd.count
  freed : e = .deinit → ∀ transfer, .release transfer ∈ (call clk s.udd e).ops ↔
    s.opens = 1 ∧ transfer ∈ s.live
  ledger : ResourceLedger.Sound ∅ s.live (call clk s.udd e).ops

/-- The first open gets its buffer and is started up; the count does not overflow. -/
def Opens (s : State α) : Event α → Prop
  | .init a => (s.udd.state = .notOpened → a.calloc ≠ none ∧ a.startUp = true) ∧
      s.udd.count.toInt < 2 ^ 31 - 1
  | _ => True

instance (s : State α) : (e : Event α) → Decidable (Opens s e)
  | .init _ => inferInstanceAs (Decidable ((_ → _ ∧ _) ∧ _))
  | .deinit | .read _ | .setBaud _ | .setAttribute _ | .setTransMode _ => isTrue trivial

inductive Shape (s : State α) : Prop where
  | closed (state : s.udd.state = .notOpened) (count : s.udd.count = 0)
      (rxTransfer : s.udd.rxTransfer = none) (opens : s.opens = 0) (live : s.live = 0)
  | opened (transfer : Addr) (state : s.udd.state = .useable) (count : s.udd.count.toInt = s.opens)
      (rxTransfer : s.udd.rxTransfer = some transfer) (running : s.udd.port.running = true)
      (opens : 0 < s.opens) (live : s.live = {transfer})

theorem init_shape {s : State α} (h : Init s) : Shape s :=
  .closed h.state h.count h.rxTransfer h.opens h.live

theorem Shape.sound {s : State α} (h : Shape s) : Sound s := by
  cases h with
  | closed state count rxTransfer opens live =>
    refine ⟨fun h => ?_, ?_, iff_of_true (decide_eq_true state) opens, fun _ => live⟩
    · rw [state] at h
      cases h
    · rw [count, opens]
      rfl
  | opened transfer state count rxTransfer running opens live =>
    refine ⟨fun _ => ⟨running, transfer, rxTransfer, ?_⟩, count, iff_of_false ?_ opens.ne', fun h => ?_⟩
    · rw [live]
      exact Multiset.mem_singleton_self transfer
    · simp [hi35xxDetach, state]
    · exact absurd h opens.ne'

theorem toInt_succ {count : Int32} (h : count.toInt < 2 ^ 31 - 1) :
    (count + 1).toInt = count.toInt + 1 := by
  have hle := count.le_toInt
  rw [Int32.toInt_add, Int32.toInt_one]
  exact Int.bmod_eq_of_le (by omega) (by omega)

theorem toInt_succ_overflow {count : Int32} (h : ¬ count.toInt < 2 ^ 31 - 1) :
    (count + 1).toInt < 0 := by
  have hlt := count.toInt_lt
  have heq : count.toInt + 1 = 2 ^ 31 := by omega
  rw [Int32.toInt_add, Int32.toInt_one, heq]
  decide

theorem toInt_pred {count : Int32} (h : 0 < count.toInt) :
    (count - 1).toInt = count.toInt - 1 := by
  have hlt := count.toInt_lt
  rw [Int32.toInt_sub, Int32.toInt_one]
  exact Int.bmod_eq_of_le (by omega) (by omega)

section Step

variable {clk : UInt32} {s t : State α}

/-- What holds of a step: it is right exactly when it opens as it should, and then keeps the shape. -/
structure Spec (clk : UInt32) (s : State α) (e : Event α) : Prop where
  iff : Right clk s e ↔ Opens s e
  shape : Opens s e → Shape (after clk s e)

theorem call_init (a : Answers) : call clk s.udd (.init a) = hi35xxInit s.udd a := rfl

theorem init_fails_spec {a : Answers} (hclosed : s.udd.state = .notOpened)
    (hfail : ¬ (a.calloc ≠ none ∧ a.startUp = true)) : Spec clk s (.init a) := by
  have hnot : ¬ Opens s (.init a) := fun h => hfail (h.1 hclosed)
  refine ⟨iff_of_false (fun hright => ?_) hnot, fun h => absurd h hnot⟩
  have hcall : (call clk s.udd (.init a)).ret ≠ .success ∧
      (call clk s.udd (.init a)).udd.state = .opening := by
    rw [call_init, hi35xxInit, if_pos hclosed]
    cases hcalloc : a.calloc with
    | none => simp
    | some transfer =>
      have hstart : ¬ a.startUp = true := fun h => hfail ⟨by simp [hcalloc], h⟩
      simp [hstart]
  have hkept := (hright.failed a rfl hcall.1).1
  rw [hcall.2, hclosed] at hkept
  cases hkept

theorem init_first_spec {transfer : Addr} (hs : Shape s) (hclosed : s.udd.state = .notOpened) :
    Spec clk s (.init ⟨some transfer, true⟩) := by
  cases hs with
  | opened _ state =>
    rw [hclosed] at state
    cases state
  | closed _ count rxTransfer opens live =>
    have hopens : Opens s (.init ⟨some transfer, true⟩) := by
      refine ⟨fun _ => ⟨Option.some_ne_none transfer, rfl⟩, ?_⟩
      rw [count]
      decide
    have hcall : call clk s.udd (.init ⟨some transfer, true⟩) = ⟨.success, { s.udd with
        rxTransfer := some transfer, state := .useable, count := s.udd.count + 1,
        port := { s.udd.port with running := true } }, [.acquire transfer]⟩ := if_pos hclosed
    have hshape : Shape (after clk s (.init ⟨some transfer, true⟩)) := by
      simp only [after, hcall, opensAfter, opens, live]
      refine .opened transfer rfl ?_ rfl rfl (Nat.succ_pos 0) rfl
      rw [count]
      rfl
    refine ⟨iff_of_true ⟨hshape.sound, fun _ _ h => ?_, nofun, ?_⟩ hopens, fun _ => hshape⟩
    · rw [hcall] at h
      exact absurd rfl h
    · rw [hcall]
      exact ⟨trivial, trivial⟩

theorem init_again_spec {a : Answers} (hs : Shape s) (hopen : s.udd.state ≠ .notOpened) :
    Spec clk s (.init a) := by
  cases hs with
  | closed state => exact absurd state hopen
  | opened transfer state count rxTransfer running opens live =>
    have hcall : call clk s.udd (.init a)
        = ⟨.success, { s.udd with state := .useable, count := s.udd.count + 1 }, []⟩ := if_neg hopen
    have hopens : Opens s (.init a) ↔ s.udd.count.toInt < 2 ^ 31 - 1 :=
      ⟨fun h => h.2, fun h => ⟨fun h => absurd h hopen, h⟩⟩
    have hshape : s.udd.count.toInt < 2 ^ 31 - 1 → Shape (after clk s (.init a)) := by
      intro hlt
      simp only [after, hcall, opensAfter, live]
      refine .opened transfer rfl ?_ rxTransfer running (Nat.succ_pos _) rfl
      rw [toInt_succ hlt, count, Nat.cast_succ]
    refine ⟨Iff.trans ⟨fun hright => ?_, fun hlt => ?_⟩ hopens.symm, fun h => hshape (hopens.mp h)⟩
    · by_contra hfull
      have hcount := hright.sound.count
      have hneg := toInt_succ_overflow hfull
      simp only [after, hcall, opensAfter] at hcount
      omega
    · refine ⟨(hshape hlt).sound, fun _ _ h => ?_, nofun, ?_⟩
      · rw [hcall] at h
        exact absurd rfl h
      · rw [hcall]
        trivial

theorem deinit_last_spec {transfer : Addr} (count : s.udd.count = 1) (rxTransfer : s.udd.rxTransfer = some transfer)
    (opens : s.opens = 1) (live : s.live = {transfer}) : Spec clk s .deinit := by
  have hcall : call clk s.udd .deinit = ⟨.success, { s.udd with
      count := s.udd.count - 1, rxTransfer := none, state := .notOpened,
      port := { s.udd.port with running := false } }, [.release transfer]⟩ := by
    have hzero : ¬ s.udd.count - 1 ≠ 0 := by
      rw [count]
      decide
    simp only [call, hi35xxDeinit, if_neg hzero, rxTransfer]
  have hshape : Shape (after clk s .deinit) := by
    simp only [after, hcall, opensAfter, opens, live]
    refine .closed rfl ?_ rfl rfl (Multiset.erase_singleton transfer)
    rw [count]
    rfl
  refine ⟨iff_of_true ⟨hshape.sound, nofun, fun _ other => ?_, ?_⟩ trivial, fun _ => hshape⟩
  · rw [hcall, opens, live]
    simp
  · rw [hcall, live]
    exact ⟨Multiset.mem_singleton_self transfer, trivial⟩

theorem deinit_other_spec {transfer : Addr} (state : s.udd.state = .useable)
    (count : s.udd.count.toInt = s.opens) (rxTransfer : s.udd.rxTransfer = some transfer)
    (running : s.udd.port.running = true) (opens : 1 < s.opens) (live : s.live = {transfer}) :
    Spec clk s .deinit := by
  have hpos : 0 < s.udd.count.toInt := by omega
  have hpred := toInt_pred hpos
  have hcall : call clk s.udd .deinit = ⟨.success, { s.udd with count := s.udd.count - 1 }, []⟩ := by
    refine if_pos fun hzero => ?_
    rw [hzero] at hpred
    have hone : (0 : Int32).toInt = 0 := rfl
    omega
  have hshape : Shape (after clk s .deinit) := by
    simp only [after, hcall, opensAfter, live]
    refine .opened transfer state ?_ rxTransfer running (Nat.sub_pos_of_lt opens) rfl
    dsimp only
    omega
  refine ⟨iff_of_true ⟨hshape.sound, nofun, fun _ other => ?_, ?_⟩ trivial, fun _ => hshape⟩
  · rw [hcall]
    simp only [List.not_mem_nil, false_iff, not_and]
    omega
  · rw [hcall]
    trivial

theorem deinit_spec (hs : Shape s) (hp : 0 < s.opens) : Spec clk s .deinit := by
  cases hs with
  | closed _ _ _ opens => exact absurd opens hp.ne'
  | opened transfer state count rxTransfer running opens live =>
    by_cases hlast : s.opens = 1
    · refine deinit_last_spec ?_ rxTransfer hlast live
      rw [hlast] at count
      exact Int32.toInt_inj.mp count
    · exact deinit_other_spec state count rxTransfer running (by omega) live

/-- A call that leaves what opening and closing depend on. -/
structure Quiet (clk : UInt32) (s : State α) (e : Event α) : Prop where
  state : (call clk s.udd e).udd.state = s.udd.state
  count : (call clk s.udd e).udd.count = s.udd.count
  rxTransfer : (call clk s.udd e).udd.rxTransfer = s.udd.rxTransfer
  running : (call clk s.udd e).udd.port.running = s.udd.port.running
  ops : (call clk s.udd e).ops = []
  opens : ∀ ret, opensAfter s.opens e ret = s.opens

theorem quiet_spec {e : Event α} (hs : Shape s) (h : Quiet clk s e) (hinit : ∀ a, e ≠ .init a)
    (hdeinit : e ≠ .deinit) (hopens : Opens s e) : Spec clk s e := by
  have hshape : Shape (after clk s e) := by
    have hlive : (after clk s e).live = s.live := by
      simp only [after, h.ops, ResourceLedger.after]
    cases hs with
    | closed state count rxTransfer opens live =>
      exact .closed (h.state.trans state) (h.count.trans count) (h.rxTransfer.trans rxTransfer)
        ((h.opens _).trans opens) (hlive.trans live)
    | opened transfer state count rxTransfer running opens live =>
      refine .opened transfer (h.state.trans state) ?_ (h.rxTransfer.trans rxTransfer)
        (h.running.trans running) ?_ (hlive.trans live)
      · exact (congrArg Int32.toInt h.count).trans (count.trans (congrArg _ (h.opens _).symm))
      · exact opens.trans_eq (h.opens _).symm
  refine ⟨iff_of_true ⟨hshape.sound, fun a ha => absurd ha (hinit a), fun hd => absurd hd hdeinit, ?_⟩
    hopens, fun _ => hshape⟩
  rw [h.ops]
  trivial

theorem configBaudrate_running (udd : UartDriverData α) :
    (pl011ConfigBaudrate clk udd).running = udd.port.running := by
  unfold pl011ConfigBaudrate
  dsimp only
  split <;> rfl

theorem setBaud_quiet (baudRate : UInt32) : Quiet clk s (.setBaud baudRate) := by
  have hconfig := @configBaudrate_running α clk { s.udd with baudrate := baudRate }
  refine ⟨?_, ?_, ?_, ?_, rfl, fun _ => rfl⟩ <;> simp only [call, hi35xxSetBaud, pl011Config] <;>
    split_ifs <;> simp [hconfig]

theorem setAttribute_quiet (attr : α) : Quiet clk s (.setAttribute attr) := by
  have hconfig := @configBaudrate_running α clk { s.udd with attr }
  refine ⟨?_, ?_, ?_, ?_, rfl, fun _ => rfl⟩ <;>
    simp only [call, hi35xxSetAttribute, pl011Config] <;> split_ifs <;> simp [hconfig]

theorem setTransMode_quiet (mode : UartTransMode) : Quiet clk s (.setTransMode mode) := by
  refine ⟨?_, ?_, ?_, ?_, rfl, fun _ => rfl⟩ <;> simp only [call, hi35xxSetTransMode] <;>
    split_ifs <;> cases mode <;> rfl

theorem spec (hs : Shape s) {e : Event α} (hp : Possible s e) : Spec clk s e := by
  cases e with
  | init a =>
    by_cases hclosed : s.udd.state = .notOpened
    · by_cases hopens : a.calloc ≠ none ∧ a.startUp = true
      · obtain ⟨calloc, startUp⟩ := a
        obtain ⟨transfer, rfl⟩ := Option.ne_none_iff_exists'.mp hopens.1
        obtain rfl : startUp = true := hopens.2
        exact init_first_spec hs hclosed
      · exact init_fails_spec hclosed hopens
    · exact init_again_spec hs hclosed
  | deinit => exact deinit_spec hs hp
  | read size =>
    exact quiet_spec hs ⟨rfl, rfl, rfl, rfl, rfl, fun _ => rfl⟩ nofun nofun trivial
  | setBaud baudRate => exact quiet_spec hs (setBaud_quiet baudRate) nofun nofun trivial
  | setAttribute attr => exact quiet_spec hs (setAttribute_quiet attr) nofun nofun trivial
  | setTransMode mode => exact quiet_spec hs (setTransMode_quiet mode) nofun nofun trivial

end Step

theorem next_cases {clk : UInt32} {s t : State α} {e : Event α}
    (ht : (system α clk).next s e = some t) : Possible s e ∧ t = after clk s e := by
  obtain ⟨hp, ht⟩ := Option.ite_none_right_eq_some.mp ht
  exact ⟨hp, (Option.some.inj ht).symm⟩

/-- The runs on which the port is as it should be at each step. -/
theorem openClose_iff (clk : UInt32) {s : State α} (h : Init s) (es : List (Event α)) :
    StepsMeet (system α clk) (Right clk) s es ↔ StepsMeet (system α clk) Opens s es := by
  apply stepsMeet_iff (I := Shape) _ _ (init_shape h)
  · intro s e t hs hopens ht
    obtain ⟨hp, rfl⟩ := next_cases ht
    exact (spec hs hp).shape hopens
  · intro s e t hs ht
    obtain ⟨hp, -⟩ := next_cases ht
    exact (spec hs hp).iff

def attached : State Unit := ⟨⟨115200, (), none, 0, .notOpened, true, ⟨0, 0, false⟩⟩, 0, 0⟩

theorem init_attached : Init attached := ⟨rfl, rfl, rfl, rfl, rfl, rfl⟩

theorem openClose_nested : StepsMeet (system Unit 24000000) (Right 24000000) attached
    [.init ⟨some 0x1000, true⟩, .init ⟨none, false⟩, .read 16, .deinit, .deinit] :=
  (openClose_iff 24000000 init_attached _).mpr (by decide)

/-- StartUp fails; the next open succeeds, and leaves no buffer to read from. -/
theorem reopened_without_buffer :
    ((system Unit 24000000).run attached [.init ⟨some 0x1000, false⟩, .init ⟨some 0x2000, true⟩]).map
      (fun s => (s.udd.state, s.udd.rxTransfer, hi35xxRead s.udd 16))
        = some (.useable, none, .nullPointer) ∧
    ¬ StepsMeet (system Unit 24000000) (Right 24000000) attached [.init ⟨some 0x1000, false⟩] := by
  refine ⟨by decide, fun h => ?_⟩
  obtain ⟨hright, -⟩ := h _ rfl
  have hkept := (hright.failed _ rfl (by decide)).1
  exact absurd hkept (by decide)

end UartOpenClose
