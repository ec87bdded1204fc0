import DeviceQemu.Lan9118Tx
import Mathlib.Logic.Function.Basic

/-! The MAC registers of the LAN9118.
The driver reaches the MAC's registers through a command and a data register. The chip takes its time
over a command and shows it as busy meanwhile, and the driver polls for that. -/
namespace Lan9118Csr

open Lan9118Tx (Lan9118Error)

def regWriteTimeOutMs : ℕ := 50
def macCsrCmdAddressMask : UInt32 := 0x0F
def macCsrCmdRwIndex : UInt32 := 30
def macCsrCmdBusyIndex : UInt32 := 31

def setBit (word index : UInt32) : UInt32 := word ||| (1 : UInt32) <<< index
def clrBit (word index : UInt32) : UInt32 := word &&& ~~~((1 : UInt32) <<< index)

/-- GET_BIT converts to bool: it gives 0 or 1. -/
def getBit (word index : UInt32) : UInt32 := if word &&& (1 : UInt32) <<< index ≠ 0 then 1 else 0

/-- lan9118_mac_reg_offsets_t -/
inductive MacReg where
  | cr | addrh | addrl | hashh | hashl | miiAcc | miiData | flow | vlan1 | vlan2 | wuff | wucsr
  deriving DecidableEq, Repr

def MacReg.offset : MacReg → UInt32
  | .cr => 0x1 | .addrh => 0x2 | .addrl => 0x3 | .hashh => 0x4 | .hashl => 0x5 | .miiAcc => 0x6
  | .miiData => 0x7 | .flow => 0x8 | .vlan1 => 0x9 | .vlan2 => 0xA | .wuff => 0xB | .wucsr => 0xC

/-- The registers by offset, mac_csr_data, the command that was written last, and while it is busy, how
many more reads of mac_csr_cmd will show that. -/
structure Chip where
  regs : UInt32 → UInt32
  data : UInt32
  cmd : UInt32
  busy : Bool
  left : ℕ

def Chip.complete (c : Chip) : Chip :=
  let address := c.cmd &&& macCsrCmdAddressMask
  if getBit c.cmd macCsrCmdRwIndex ≠ 0 then { c with data := c.regs address, busy := false }
  else { c with regs := Function.update c.regs address c.data, busy := false }

def Chip.pollCmd (c : Chip) : UInt32 × Chip :=
  if c.busy then
    if c.left = 0 then (clrBit c.cmd macCsrCmdBusyIndex, c.complete)
    else (c.cmd, { c with left := c.left - 1 })
  else (clrBit c.cmd macCsrCmdBusyIndex, c)

/-- Time in which mac_csr_cmd could have been read `n` times. -/
def Chip.elapse (n : ℕ) (c : Chip) : Chip := { c with left := c.left - n }

/-- A write of mac_csr_cmd that starts a command. -/
def Chip.start (maccmd : UInt32) (delay : ℕ) (c : Chip) : Chip :=
  { c with cmd := maccmd, busy := true, left := delay }

/-- The do-while loop over `time_out`; whether it ran out. -/
def waitLoop (goesOn : UInt32 → Bool) : ℕ → Chip → Bool × Chip
  | 0, c => (true, c)
  | timeOut + 1, c =>
    if timeOut = 0 then (true, c)
    else if goesOn c.pollCmd.1 then waitLoop goesOn timeOut c.pollCmd.2
    else (false, c.pollCmd.2)

abbrev Answer := Lan9118Error × Option UInt32

/-- lan9118_mac_regread, where the chip needs `delay` reads of mac_csr_cmd for the command. -/
def macRegread (regoffset : MacReg) (delay : ℕ) (c : Chip) : Answer × Chip :=
  let checked := c.pollCmd
  if getBit checked.1 macCsrCmdBusyIndex = 0 then
    let maccmd := regoffset.offset &&& macCsrCmdAddressMask
    let maccmd := setBit (setBit maccmd macCsrCmdRwIndex) macCsrCmdBusyIndex
    let waited := waitLoop (fun w => getBit w macCsrCmdBusyIndex ≠ 0) regWriteTimeOutMs
      (checked.2.start maccmd delay)
    if waited.1 then ((.timeout, none), waited.2) else ((.none, some waited.2.data), waited.2)
  else ((.busy, none), checked.2)

/-- lan9118_mac_regwrite; its loop tests the command AND the busy bit as 0 or 1. -/
def macRegwrite (regoffset : MacReg) (data : UInt32) (delay : ℕ) (c : Chip) : Answer × Chip :=
  let checked := c.pollCmd
  if getBit checked.1 macCsrCmdBusyIndex = 0 then
    let maccmd := regoffset.offset &&& macCsrCmdAddressMask
    let maccmd := setBit (clrBit maccmd macCsrCmdRwIndex) macCsrCmdBusyIndex
    let waited := waitLoop (fun w => w &&& getBit w macCsrCmdBusyIndex ≠ 0) regWriteTimeOutMs
      ({ checked.2 with data := data }.start maccmd delay)
    if waited.1 then ((.timeout, none), waited.2) else ((.none, none), waited.2)
  else ((.busy, none), checked.2)

inductive Op where
  | read (regoffset : MacReg)
  | write (regoffset : MacReg) (data : UInt32)
  deriving DecidableEq, Repr

/-- A call, the time since the one before, and how long the chip takes over its command. -/
structure Access where
  op : Op
  gap : ℕ
  delay : ℕ
  deriving DecidableEq, Repr

def access (a : Access) (c : Chip) : Answer × Chip :=
  match a.op with
  | .read regoffset => macRegread regoffset a.delay (c.elapse a.gap)
  | .write regoffset data => macRegwrite regoffset data a.delay (c.elapse a.gap)

def accesses : Chip → List Access → List Answer
  | _, [] => []
  | c, a :: as => (access a c).1 :: accesses (access a c).2 as

def Op.answer (regs : UInt32 → UInt32) : Op → Answer
  | .read r => (.none, some (regs r.offset))
  | .write _ _ => (.none, none)

def Op.effect (regs : UInt32 → UInt32) : Op → UInt32 → UInt32
  | .read _ => regs
  | .write r v => Function.update regs r.offset v

def ideal : (UInt32 → UInt32) → List Op → List Answer
  | _, [] => []
  | regs, op :: ops => op.answer regs :: ideal (op.effect regs) ops

def Op.waits : Op → Bool
  | .read _ => true
  | .write r _ => r.offset &&& 1 ≠ 0

/-- The command is done in the time the driver waits for it or, where it does not wait, when the next
call looks. -/
def Timely : List Access → Prop
  | [] => True
  | a :: as =>
    (if a.op.waits then a.delay ≤ 48 else ∀ b ∈ as.head?, a.delay ≤ 1 + b.gap) ∧ Timely as

instance Timely.decidable : ∀ as : List Access, Decidable (Timely as)
  | [] => isTrue trivial
  | a :: as =>
    have := Timely.decidable as
    inferInstanceAs (Decidable
      ((if a.op.waits then a.delay ≤ 48 else ∀ b ∈ as.head?, a.delay ≤ 1 + b.gap) ∧ Timely as))

def Chip.effective (c : Chip) : UInt32 → UInt32 := if c.busy then c.complete.regs else c.regs

theorem waitLoop_busy (goesOn : UInt32 → Bool) {c : Chip} (hb : c.busy = true)
    (hon : goesOn c.cmd = true) (hoff : goesOn (clrBit c.cmd macCsrCmdBusyIndex) = false) (t : ℕ) :
    waitLoop goesOn (t + 1) c =
      if c.left < t then (false, { c with left := 0 }.complete)
      else (true, { c with left := c.left - t }) := by
  induction t generalizing c with
  | zero => rfl
  | succ t ih =>
    rw [waitLoop, if_neg (Nat.succ_ne_zero t)]
    by_cases hl : c.left = 0
    · have hpoll : c.pollCmd = (clrBit c.cmd macCsrCmdBusyIndex, c.complete) := by
        rw [Chip.pollCmd, if_pos hb, if_pos hl]
      have hc : { c with left := 0 } = c := by rw [← hl]
      rw [hpoll, hoff, if_neg Bool.false_ne_true, if_pos (by omega), hc]
    · have hpoll : c.pollCmd = (c.cmd, { c with left := c.left - 1 }) := by
        rw [Chip.pollCmd, if_pos hb, if_neg hl]
      rw [hpoll, hon, if_pos rfl, ih (c := { c with left := c.left - 1 }) hb hon hoff]
      by_cases hlt : c.left < t + 1
      · rw [if_pos (by dsimp only; omega), if_pos hlt]
      · rw [if_neg (by dsimp only; omega), if_neg hlt]
        dsimp only
        rw [Nat.sub_sub, Nat.add_comm 1 t]

theorem waitLoop_once (goesOn : UInt32 → Bool) {c : Chip} (h : goesOn c.pollCmd.1 = false) (t : ℕ) :
    waitLoop goesOn (t + 2) c = (false, c.pollCmd.2) := by
  rw [waitLoop, if_neg (Nat.succ_ne_zero t), h, if_neg Bool.false_ne_true]

theorem getBit_clrBit (w i : UInt32) : getBit (clrBit w i) i = 0 := by
  have hzero : clrBit w i &&& (1 : UInt32) <<< i = 0 := by
    rw [clrBit, UInt32.and_assoc, UInt32.not_and_self, UInt32.and_zero]
  rw [getBit, if_neg (not_not.mpr hzero)]

def readCmd (r : MacReg) : UInt32 :=
  setBit (setBit (r.offset &&& macCsrCmdAddressMask) macCsrCmdRwIndex) macCsrCmdBusyIndex

def writeCmd (r : MacReg) : UInt32 :=
  setBit (clrBit (r.offset &&& macCsrCmdAddressMask) macCsrCmdRwIndex) macCsrCmdBusyIndex

theorem readCmd_bits (r : MacReg) : getBit (readCmd r) macCsrCmdBusyIndex = 1 ∧
    getBit (readCmd r) macCsrCmdRwIndex = 1 ∧ readCmd r &&& macCsrCmdAddressMask = r.offset := by
  cases r <;> decide

theorem writeCmd_bits (r : MacReg) : getBit (writeCmd r) macCsrCmdBusyIndex = 1 ∧
    getBit (writeCmd r) macCsrCmdRwIndex = 0 ∧ writeCmd r &&& macCsrCmdAddressMask = r.offset := by
  cases r <;> decide

theorem writeCmd_and (r : MacReg) : writeCmd r &&& 1 = r.offset &&& 1 := by
  cases r <;> decide

theorem complete_readCmd {c : Chip} {r : MacReg} (h : c.cmd = readCmd r) :
    c.complete = { c with data := c.regs r.offset, busy := false } := by
  obtain ⟨-, hrw, haddress⟩ := readCmd_bits r
  rw [Chip.complete, h, hrw, haddress, if_pos (by decide)]

theorem complete_writeCmd {c : Chip} {r : MacReg} (h : c.cmd = writeCmd r) :
    c.complete = { c with regs := Function.update c.regs r.offset c.data, busy := false } := by
  obtain ⟨-, hrw, haddress⟩ := writeCmd_bits r
  rw [Chip.complete, h, hrw, haddress, if_neg (by decide)]

def Calm (c : Chip) : Prop := c.busy = true → ∃ r, c.cmd = writeCmd r

theorem poll_ready {c : Chip} (h : c.busy = true → c.left = 0) :
    getBit c.pollCmd.1 macCsrCmdBusyIndex = 0 ∧ c.pollCmd.2.busy = false ∧
      c.pollCmd.2.regs = c.effective := by
  unfold Chip.pollCmd Chip.effective
  by_cases hb : c.busy = true
  · rw [if_pos hb, if_pos (h hb), if_pos hb]
    refine ⟨getBit_clrBit _ _, ?_, rfl⟩
    unfold Chip.complete
    split <;> rfl
  · rw [if_neg hb, if_neg hb]
    exact ⟨getBit_clrBit _ _, by simpa using hb, rfl⟩

theorem poll_early {c : Chip} (hc : Calm c) (hb : c.busy = true) (hl : c.left ≠ 0) :
    getBit c.pollCmd.1 macCsrCmdBusyIndex = 1 := by
  obtain ⟨r, hr⟩ := hc hb
  rw [Chip.pollCmd, if_pos hb, if_neg hl, hr]
  exact (writeCmd_bits r).1

theorem macRegread_waited {c : Chip} (h : getBit c.pollCmd.1 macCsrCmdBusyIndex = 0) {r : MacReg}
    {delay : ℕ} {waited : Bool × Chip}
    (hw : waitLoop (fun w => getBit w macCsrCmdBusyIndex ≠ 0) regWriteTimeOutMs
      (c.pollCmd.2.start (readCmd r) delay) = waited) :
    macRegread r delay c = if waited.1 then ((.timeout, none), waited.2)
      else ((.none, some waited.2.data), waited.2) := by
  subst hw
  unfold macRegread
  exact if_pos h

theorem macRegwrite_waited {c : Chip} (h : getBit c.pollCmd.1 macCsrCmdBusyIndex = 0) {r : MacReg}
    {v : UInt32} {delay : ℕ} {waited : Bool × Chip}
    (hw : waitLoop (fun w => w &&& getBit w macCsrCmdBusyIndex ≠ 0) regWriteTimeOutMs
      ({ c.pollCmd.2 with data := v }.start (writeCmd r) delay) = waited) :
    macRegwrite r v delay c =
      if waited.1 then ((.timeout, none), waited.2) else ((.none, none), waited.2) := by
  subst hw
  unfold macRegwrite
  exact if_pos h

theorem macRegread_ready {c : Chip} (h : c.busy = true → c.left = 0) (r : MacReg) (delay : ℕ) :
    (delay ≤ 48 → (macRegread r delay c).1 = (.none, some (c.effective r.offset)) ∧
        (macRegread r delay c).2.busy = false ∧ (macRegread r delay c).2.regs = c.effective) ∧
      (¬ delay ≤ 48 → (macRegread r delay c).1 = (.timeout, none)) := by
  obtain ⟨hidle, -, hregs⟩ := poll_ready h
  have hwait := waitLoop_busy (fun w => getBit w macCsrCmdBusyIndex ≠ 0)
    (c := c.pollCmd.2.start (readCmd r) delay) rfl
    (by simp [Chip.start, (readCmd_bits r).1]) (by simp [getBit_clrBit]) 49
  constructor
  · intro hd
    have hlt : (c.pollCmd.2.start (readCmd r) delay).left < 49 := Nat.lt_succ_of_le hd
    rw [if_pos hlt, complete_readCmd rfl] at hwait
    rw [macRegread_waited hidle hwait, if_neg Bool.false_ne_true, ← hregs]
    exact ⟨rfl, rfl, rfl⟩
  · intro hd
    have hlt : ¬ (c.pollCmd.2.start (readCmd r) delay).left < 49 :=
      fun hlt => hd (Nat.lt_succ_iff.mp hlt)
    rw [if_neg hlt] at hwait
    rw [macRegread_waited hidle hwait, if_pos rfl]

theorem macRegwrite_waits {c : Chip} (h : c.busy = true → c.left = 0) {r : MacReg} (v : UInt32)
    (delay : ℕ) (hr : r.offset &&& 1 ≠ 0) :
    (delay ≤ 48 → (macRegwrite r v delay c).1 = (.none, none) ∧
        (macRegwrite r v delay c).2.busy = false ∧
        (macRegwrite r v delay c).2.regs = Function.update c.effective r.offset v) ∧
      (¬ delay ≤ 48 → (macRegwrite r v delay c).1 = (.timeout, none)) := by
  obtain ⟨hidle, -, hregs⟩ := poll_ready h
  have hwait := waitLoop_busy (fun w => w &&& getBit w macCsrCmdBusyIndex ≠ 0)
    (c := { c.pollCmd.2 with data := v }.start (writeCmd r) delay) rfl
    (by simpa [Chip.start, (writeCmd_bits r).1, writeCmd_and] using hr)
    (by simp [getBit_clrBit]) 49
  constructor
  · intro hd
    have hlt : ({ c.pollCmd.2 with data := v }.start (writeCmd r) delay).left < 49 :=
      Nat.lt_succ_of_le hd
    rw [if_pos hlt, complete_writeCmd rfl] at hwait
    rw [macRegwrite_waited hidle hwait, if_neg Bool.false_ne_true, ← hregs]
    exact ⟨rfl, rfl, rfl⟩
  · intro hd
    have hlt : ¬ ({ c.pollCmd.2 with data := v }.start (writeCmd r) delay).left < 49 :=
      fun hlt => hd (Nat.lt_succ_iff.mp hlt)
    rw [if_neg hlt] at hwait
    rw [macRegwrite_waited hidle hwait, if_pos rfl]

/-- A write that the driver does not wait for is left to the chip after one look. -/
theorem macRegwrite_leaves {c : Chip} (h : c.busy = true → c.left = 0) {r : MacReg} (v : UInt32)
    (delay : ℕ) (hr : r.offset &&& 1 = 0) :
    (macRegwrite r v delay c).1 = (.none, none) ∧ Calm (macRegwrite r v delay c).2 ∧
      (macRegwrite r v delay c).2.effective = Function.update c.effective r.offset v ∧
      ((macRegwrite r v delay c).2.busy = true ↔ delay ≠ 0) ∧
      (delay ≠ 0 → (macRegwrite r v delay c).2.left = delay - 1) := by
  obtain ⟨hidle, -, hregs⟩ := poll_ready h
  have hoff : writeCmd r &&& getBit (writeCmd r) macCsrCmdBusyIndex = 0 := by
    rw [(writeCmd_bits r).1, writeCmd_and, hr]
  have hdone : clrBit (writeCmd r) macCsrCmdBusyIndex &&&
      getBit (clrBit (writeCmd r) macCsrCmdBusyIndex) macCsrCmdBusyIndex = 0 := by
    rw [getBit_clrBit, UInt32.and_zero]
  by_cases hd : delay = 0
  · have hpoll : ({ c.pollCmd.2 with data := v }.start (writeCmd r) delay).pollCmd =
        (clrBit (writeCmd r) macCsrCmdBusyIndex,
          ({ c.pollCmd.2 with data := v }.start (writeCmd r) delay).complete) := if_pos hd
    have hwait := waitLoop_once (fun w => w &&& getBit w macCsrCmdBusyIndex ≠ 0)
      (c := { c.pollCmd.2 with data := v }.start (writeCmd r) delay) (by rw [hpoll]; simpa using hdone) 48
    rw [hpoll, complete_writeCmd rfl] at hwait
    rw [macRegwrite_waited hidle hwait, if_neg Bool.false_ne_true, ← hregs]
    refine ⟨rfl, ?_, rfl, ⟨fun hb => Bool.noConfusion hb, fun hne => absurd hd hne⟩,
      fun hne => absurd hd hne⟩
    intro hb
    cases hb
  · have hpoll : ({ c.pollCmd.2 with data := v }.start (writeCmd r) delay).pollCmd =
        (writeCmd r, { c.pollCmd.2 with data := v }.start (writeCmd r) (delay - 1)) := if_neg hd
    have hwait := waitLoop_once (fun w => w &&& getBit w macCsrCmdBusyIndex ≠ 0)
      (c := { c.pollCmd.2 with data := v }.start (writeCmd r) delay) (by rw [hpoll]; simpa using hoff) 48
    rw [hpoll] at hwait
    rw [macRegwrite_waited hidle hwait, if_neg Bool.false_ne_true, ← hregs]
    have heffective := complete_writeCmd
      (c := { c.pollCmd.2 with data := v }.start (writeCmd r) (delay - 1)) rfl
    refine ⟨rfl, ?_, congrArg Chip.regs heffective, ⟨fun _ => hd, fun _ => rfl⟩, fun _ => rfl⟩
    intro _
    exact ⟨r, rfl⟩

def DoneFor (c : Chip) (as : List Access) : Prop := ∀ a ∈ as.head?, c.busy = true → c.left ≤ a.gap

theorem doneFor_of_idle {c : Chip} (h : c.busy = false) (as : List Access) : DoneFor c as := by
  intro a _ hb
  rw [h] at hb
  cases hb

theorem calm_of_idle {c : Chip} (h : c.busy = false) : Calm c := by
  intro hb
  rw [h] at hb
  cases hb

theorem effective_of_idle {c : Chip} (h : c.busy = false) : c.effective = c.regs := by
  rw [Chip.effective, h, if_neg Bool.false_ne_true]

theorem effective_elapse (n : ℕ) (c : Chip) : (c.elapse n).effective = c.effective := by
  unfold Chip.effective Chip.elapse Chip.complete
  dsimp only
  split
  · split <;> rfl
  · rfl

theorem doneFor_cons {c : Chip} {a : Access} {as : List Access} :
    DoneFor c (a :: as) ↔ (c.busy = true → c.left ≤ a.gap) := by
  refine ⟨fun h => h a rfl, fun h b hb => ?_⟩
  obtain rfl : a = b := Option.some.inj hb
  exact h

theorem access_late {c : Chip} {a : Access} (h : c.busy = true → c.left ≤ a.gap)
    (hw : a.op.waits = true) (hd : ¬ a.delay ≤ 48) : (access a c).1 = (.timeout, none) := by
  obtain ⟨op, gap, delay⟩ := a
  have hready : (c.elapse gap).busy = true → (c.elapse gap).left = 0 :=
    fun hb => Nat.sub_eq_zero_of_le (h hb)
  cases op with
  | read r => exact (macRegread_ready hready r delay).2 hd
  | write r v => exact (macRegwrite_waits hready v delay (of_decide_eq_true hw)).2 hd

theorem access_timely {c : Chip} {a : Access} (h : c.busy = true → c.left ≤ a.gap)
    (ht : a.op.waits = true → a.delay ≤ 48) :
    (access a c).1 = a.op.answer c.effective ∧
      (access a c).2.effective = a.op.effect c.effective ∧ Calm (access a c).2 ∧
      ∀ gap, ((access a c).2.busy = true → (access a c).2.left ≤ gap) ↔
        (a.op.waits = false → a.delay ≤ 1 + gap) := by
  obtain ⟨op, g, delay⟩ := a
  have hready : (c.elapse g).busy = true → (c.elapse g).left = 0 :=
    fun hb => Nat.sub_eq_zero_of_le (h hb)
  have hidle : ∀ d : Chip, d.busy = false → Calm d ∧ d.effective = d.regs :=
    fun d hd => ⟨calm_of_idle hd, effective_of_idle hd⟩
  cases op with
  | read r =>
    obtain ⟨hanswer, hbusy, hregs⟩ := (macRegread_ready hready r delay).1 (ht rfl)
    obtain ⟨hcalm, heffective⟩ := hidle _ hbusy
    rw [effective_elapse] at hanswer hregs
    refine ⟨hanswer, heffective.trans hregs, hcalm, fun gap => ⟨fun _ hw => Bool.noConfusion hw, fun _ hb => ?_⟩⟩
    exact Bool.noConfusion (hbusy.symm.trans hb)
  | write r v =>
    by_cases hr : r.offset &&& 1 = 0
    · obtain ⟨hanswer, hcalm, heffective, hbusy, hleft⟩ := macRegwrite_leaves hready v delay hr
      rw [effective_elapse] at heffective
      have hw : Op.waits (.write r v) = false := decide_eq_false (not_not.mpr hr)
      refine ⟨hanswer, heffective, hcalm, fun gap => ?_⟩
      by_cases hd : delay = 0
      · refine ⟨fun _ _ => hd ▸ Nat.zero_le _, fun _ hb => absurd hd (hbusy.mp hb)⟩
      · refine ⟨fun hl _ => ?_, fun hl _ => ?_⟩
        · have hsub := hl (hbusy.mpr hd)
          change (macRegwrite r v delay (c.elapse g)).2.left ≤ gap at hsub
          rw [hleft hd] at hsub
          change delay ≤ 1 + gap
          omega
        · have hsub : delay ≤ 1 + gap := hl hw
          change (macRegwrite r v delay (c.elapse g)).2.left ≤ gap
          rw [hleft hd]
          omega
    · have hw : Op.waits (.write r v) = true := decide_eq_true hr
      obtain ⟨hanswer, hbusy, hregs⟩ := (macRegwrite_waits hready v delay hr).1 (ht hw)
      obtain ⟨hcalm, heffective⟩ := hidle _ hbusy
      rw [effective_elapse] at hregs
      refine ⟨hanswer, heffective.trans hregs, hcalm, fun gap => ⟨fun _ hno => ?_, fun _ hb => ?_⟩⟩
      · exact Bool.noConfusion (hw.symm.trans hno)
      · exact Bool.noConfusion (hbusy.symm.trans hb)

theorem access_early {c : Chip} (hc : Calm c) {a : Access}
    (h : ¬ (c.busy = true → c.left ≤ a.gap)) : (access a c).1 = (.busy, none) := by
  obtain ⟨op, gap, delay⟩ := a
  obtain ⟨hb, hl⟩ := Classical.not_imp.mp h
  have hearly : getBit (c.elapse gap).pollCmd.1 macCsrCmdBusyIndex = 1 :=
    poll_early hc hb (Nat.sub_ne_zero_of_lt (Nat.lt_of_not_le hl))
  have hne : ¬ getBit (c.elapse gap).pollCmd.1 macCsrCmdBusyIndex = 0 := by
    rw [hearly]
    decide
  cases op with
  | read r =>
    change (macRegread r delay (c.elapse gap)).1 = _
    unfold macRegread
    rw [if_neg hne]
  | write r v =>
    change (macRegwrite r v delay (c.elapse gap)).1 = _
    unfold macRegwrite
    rw [if_neg hne]

theorem answer_ok (op : Op) (regs : UInt32 → UInt32) : (op.answer regs).1 = .none := by
  cases op <;> rfl

theorem accesses_ideal_iff_of_calm {c : Chip} (hc : Calm c) (as : List Access) :
    accesses c as = ideal c.effective (as.map Access.op) ↔ DoneFor c as ∧ Timely as := by
  induction as generalizing c with
  | nil =>
    refine ⟨fun _ => ⟨?_, trivial⟩, fun _ => rfl⟩
    intro a ha
    cases ha
  | cons a as ih =>
    rw [doneFor_cons, List.map_cons, accesses, ideal, List.cons_eq_cons, Timely]
    have hrefused : ∀ e, e ≠ Lan9118Error.none → (access a c).1 = (e, none) →
        (access a c).1 ≠ a.op.answer c.effective := by
      intro e he ha heq
      rw [ha] at heq
      exact he ((congrArg Prod.fst heq).trans (answer_ok a.op c.effective))
    by_cases hdone : c.busy = true → c.left ≤ a.gap
    · by_cases ht : a.op.waits = true → a.delay ≤ 48
      · obtain ⟨hanswer, heffect, hcalm, hleft⟩ := access_timely hdone ht
        have hrest : DoneFor (access a c).2 as ↔
            if a.op.waits then a.delay ≤ 48 else ∀ b ∈ as.head?, a.delay ≤ 1 + b.gap := by
          refine (forall₂_congr fun (b : Access) _ => hleft b.gap).trans ?_
          cases hw : a.op.waits with
          | true => simpa using ht hw
          | false => simp
        rw [← heffect, ih hcalm, hrest]
        exact ⟨fun h => ⟨hdone, h.2⟩, fun h => ⟨hanswer, h.2⟩⟩
      · obtain ⟨hw, hd⟩ := Classical.not_imp.mp ht
        refine ⟨fun h => absurd h.1 (hrefused .timeout (by decide) (access_late hdone hw hd)), fun h => ?_⟩
        rw [if_pos hw] at h
        exact absurd h.2.1 hd
    · exact ⟨fun h => absurd h.1 (hrefused .busy (by decide) (access_early hc hdone)),
        fun h => absurd h.1 hdone⟩

/-- The registers behind the chip are the ones of which the driver's calls tell, whatever is called,
exactly if the calls are timely: the driver does not wait for writes to registers at even offsets. -/
theorem accesses_ideal_iff {c : Chip} (h : c.busy = false) (as : List Access) :
    accesses c as = ideal c.regs (as.map Access.op) ↔ Timely as := by
  rw [← effective_of_idle h, accesses_ideal_iff_of_calm (calm_of_idle h)]
  exact and_iff_right (doneFor_of_idle h as)

/-- A write to MII_ACC that takes three looks, read back at once. -/
theorem accesses_ideal_iff_miiAcc : accesses ⟨fun _ => 0, 0, 0, false, 0⟩
      [⟨.write .miiAcc 0x0841, 0, 2⟩, ⟨.read .miiAcc, 0, 0⟩] =
        ideal (fun _ => 0) [.write .miiAcc 0x0841, .read .miiAcc] ↔
    Timely [⟨.write .miiAcc 0x0841, 0, 2⟩, ⟨.read .miiAcc, 0, 0⟩] :=
  accesses_ideal_iff (c := ⟨fun _ => 0, 0, 0, false, 0⟩) rfl _

end Lan9118Csr
