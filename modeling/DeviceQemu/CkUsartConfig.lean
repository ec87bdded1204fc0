import Mathlib.Data.UInt
import Mathlib.Tactic.IntervalCases

/-! The frame format of the C-SKY serial port.
csi_usart_config writes the divisor of the baud rate and edits the line control register field by
field, after the port is idle each time. `usr` has what the reads of USR say, one after the other. -/
namespace CkUsartConfig

def uartBusyTimeout : ℕ := 1000000
def lcrSetDlab : BitVec 32 := 0x80
def lcrParityEnable : BitVec 32 := 0x08
def lcrParityEven : BitVec 32 := 0x10
def lcrParityOdd : BitVec 32 := 0xef
def lcrWordSize5 : BitVec 32 := 0xfc
def lcrWordSize6 : BitVec 32 := 0x01
def lcrWordSize7 : BitVec 32 := 0x02
def lcrWordSize8 : BitVec 32 := 0x03
def lcrStopBit1 : BitVec 32 := 0xfb
def lcrStopBit2 : BitVec 32 := 0x04

def errUsart (errno : UInt32) : UInt32 := 0x81020000 ||| errno

def drvErrorTimeout : UInt32 := 0x82
def usartErrorMode : UInt32 := 0x86
def usartErrorDataBits : UInt32 := 0x88
def usartErrorParity : UInt32 := 0x89
def usartErrorStopBits : UInt32 := 0x8a

inductive UsartMode where
  | asynchronous
  | synchronousMaster
  | synchronousSlave
  | singleWire
  | singleIrda
  | singleSmartCard
  deriving DecidableEq, Repr

inductive UsartParity where
  | none
  | even
  | odd
  | one
  | zero
  deriving DecidableEq, Repr

inductive UsartStopBits where
  | one
  | two
  | oneAndHalf
  | half
  deriving DecidableEq, Repr

inductive UsartDataBits where
  | five
  | six
  | seven
  | eight
  | nine
  deriving DecidableEq, Repr

/-- The registers, and the number of the next read of USR. -/
structure Regs where
  lcr : BitVec 32
  dll : UInt32
  dlh : UInt32
  poll : ℕ
  deriving DecidableEq

/-- WAIT_USART_IDLE with `n` counts left; the number of the read after it, if it ends in time. -/
def waitUsartIdle (usr : ℕ → Bool) : ℕ → ℕ → Option ℕ
  | 0, _ => none
  | n + 1, t => if usr t then waitUsartIdle usr n (t + 1) else some (t + 1)

/-- The return code and the registers: a step waits, and then changes them or refuses. -/
def afterIdle (usr : ℕ → Bool) (r : Regs) (step : Regs → UInt32 × Regs) : UInt32 × Regs :=
  match waitUsartIdle usr uartBusyTimeout r.poll with
  | none => (errUsart drvErrorTimeout, { r with poll := r.poll + uartBusyTimeout + 1 })
  | some t => step { r with poll := t }

/-- The divisor of csi_usart_config_baudrate, in tenths and then rounded. -/
def divisor (sysFreq baud : UInt32) : UInt32 :=
  let tenths := (sysFreq * 10 / baud) >>> 4
  if 5 ≤ tenths % 10 then tenths / 10 + 1 else tenths / 10

def csiUsartConfigBaudrate (usr : ℕ → Bool) (sysFreq baud : UInt32) (r : Regs) : UInt32 × Regs :=
  afterIdle usr r fun r =>
    let d := divisor sysFreq baud
    (0, { r with
      lcr := (r.lcr ||| lcrSetDlab) &&& ~~~lcrSetDlab
      dll := d &&& 0xff, dlh := (d >>> 8) &&& 0xff })

def csiUsartConfigMode (mode : UsartMode) (r : Regs) : UInt32 × Regs :=
  if mode = .asynchronous then (0, r) else (errUsart usartErrorMode, r)

def csiUsartConfigParity (usr : ℕ → Bool) (parity : UsartParity) (r : Regs) : UInt32 × Regs :=
  afterIdle usr r fun r =>
    match parity with
    | .none => (0, { r with lcr := r.lcr &&& ~~~lcrParityEnable })
    | .odd => (0, { r with lcr := (r.lcr ||| lcrParityEnable) &&& lcrParityOdd })
    | .even => (0, { r with lcr := (r.lcr ||| lcrParityEnable) ||| lcrParityEven })
    | .one | .zero => (errUsart usartErrorParity, r)

def csiUsartConfigStopbits (usr : ℕ → Bool) (stopbit : UsartStopBits) (r : Regs) : UInt32 × Regs :=
  afterIdle usr r fun r =>
    match stopbit with
    | .one => (0, { r with lcr := r.lcr &&& lcrStopBit1 })
    | .two => (0, { r with lcr := r.lcr ||| lcrStopBit2 })
    | .oneAndHalf | .half => (errUsart usartErrorStopBits, r)

def csiUsartConfigDatabits (usr : ℕ → Bool) (databits : UsartDataBits) (r : Regs) : UInt32 × Regs :=
  afterIdle usr r fun r =>
    match databits with
    | .five => (0, { r with lcr := r.lcr &&& lcrWordSize5 })
    | .six => (0, { r with lcr := (r.lcr &&& 0xfd) ||| lcrWordSize6 })
    | .seven => (0, { r with lcr := (r.lcr &&& 0xfe) ||| lcrWordSize7 })
    | .eight => (0, { r with lcr := r.lcr ||| lcrWordSize8 })
    | .nine => (errUsart usartErrorDataBits, r)

/-- `if (ret < 0) return ret`, with the code as an unsigned number. -/
def andThen (ret : UInt32 × Regs) (step : Regs → UInt32 × Regs) : UInt32 × Regs :=
  if 0x80000000 ≤ ret.1 then ret else step ret.2

structure Format where
  baud : UInt32
  mode : UsartMode
  parity : UsartParity
  stopbits : UsartStopBits
  bits : UsartDataBits
  deriving DecidableEq

def csiUsartConfig (usr : ℕ → Bool) (sysFreq : UInt32) (f : Format) (r : Regs) : UInt32 × Regs :=
  andThen (andThen (andThen (andThen (csiUsartConfigBaudrate usr sysFreq f.baud r)
    (csiUsartConfigMode f.mode)) (csiUsartConfigParity usr f.parity))
    (csiUsartConfigStopbits usr f.stopbits)) (csiUsartConfigDatabits usr f.bits)

structure Supported (f : Format) : Prop where
  mode : f.mode = .asynchronous
  parity : f.parity = .none ∨ f.parity = .even ∨ f.parity = .odd
  stopbits : f.stopbits = .one ∨ f.stopbits = .two
  bits : f.bits ≠ .nine

def Format.sparesHigh (f : Format) : Bool :=
  decide (f.parity ≠ .odd ∧ f.stopbits = .two ∧ f.bits = .eight)

/-- The line control register has the format in its bits, with access to the other registers. What
is no part of the format (bits 5 and 6, and 4 without parity) is as in `before`; above the low byte
the masks clear what was there. -/
structure Formatted (f : Format) (before lcr : BitVec 32) : Prop where
  word : (lcr.getLsbD 1, lcr.getLsbD 0) = (decide (f.bits = .seven ∨ f.bits = .eight),
    decide (f.bits = .six ∨ f.bits = .eight))
  stop : lcr.getLsbD 2 = decide (f.stopbits = .two)
  parity : lcr.getLsbD 3 = decide (f.parity ≠ .none)
  even : lcr.getLsbD 4 = if f.parity = .none then before.getLsbD 4 else decide (f.parity = .even)
  dlab : lcr.getLsbD 7 = false
  others : lcr.getLsbD 5 = before.getLsbD 5 ∧ lcr.getLsbD 6 = before.getLsbD 6
  high : ∀ i, 8 ≤ i → lcr.getLsbD i = (before.getLsbD i && f.sparesHigh)

def nearest (sysFreq baud : UInt32) : ℕ := (sysFreq.toNat + 8 * baud.toNat) / (16 * baud.toNat)

/-- The latches are two bytes that hold the divisor. -/
structure Divides (sysFreq baud : UInt32) (r : Regs) : Prop where
  dll : r.dll.toNat < 256
  dlh : r.dlh.toNat < 256
  divisor : r.dlh.toNat * 256 + r.dll.toNat = nearest sysFreq baud

/-- The port becomes idle in time `n` times one after the other. -/
def idleTimes (usr : ℕ → Bool) : ℕ → ℕ → Option ℕ
  | 0, t => some t
  | n + 1, t => (waitUsartIdle usr uartBusyTimeout t).bind (idleTimes usr n)

theorem round_tenths {n d : ℕ} (hd : 0 < d) :
    (if 5 ≤ n * 10 / d / 16 % 10 then n * 10 / d / 16 / 10 + 1 else n * 10 / d / 16 / 10) =
      (n + 8 * d) / (16 * d) := by
  have hround : ∀ q : ℕ, (if 5 ≤ q % 10 then q / 10 + 1 else q / 10) = (q + 5) / 10 := by
    intro q
    split <;> omega
  have hpos : 0 < 16 * d := Nat.mul_pos (by decide) hd
  rw [hround, Nat.div_div_eq_div_mul, Nat.mul_comm d 16]
  calc (n * 10 / (16 * d) + 5) / 10
      = (n * 10 + 5 * (16 * d)) / (16 * d) / 10 := by rw [Nat.add_mul_div_right _ _ hpos]
    _ = (n + 8 * d) * 10 / (16 * d * 10) := by
      rw [Nat.div_div_eq_div_mul]
      congr 1
      omega
    _ = (n + 8 * d) / (16 * d) := Nat.mul_div_mul_right _ _ (by decide)

theorem divisor_toNat {sysFreq baud : UInt32} (hf : sysFreq.toNat * 10 < 2 ^ 31)
    (hb : 0 < baud.toNat) :
    (divisor sysFreq baud).toNat = nearest sysFreq baud := by
  have hmul : (sysFreq * 10).toNat = sysFreq.toNat * 10 := by
    rw [UInt32.toNat_mul]
    exact Nat.mod_eq_of_lt (hf.trans (by decide))
  have htenths : ((sysFreq * 10 / baud) >>> 4).toNat = sysFreq.toNat * 10 / baud.toNat / 16 := by
    rw [UInt32.toNat_shiftRight, UInt32.toNat_div, hmul]
    exact Nat.shiftRight_eq_div_pow _ 4
  have hlt : sysFreq.toNat * 10 / baud.toNat / 16 < 2 ^ 31 :=
    lt_of_le_of_lt ((Nat.div_le_self _ _).trans (Nat.div_le_self _ _)) hf
  rw [nearest, ← round_tenths hb, ← htenths]
  rw [← htenths] at hlt
  unfold divisor
  dsimp only
  generalize (sysFreq * 10 / baud) >>> 4 = q at *
  have hdec : 5 ≤ q % 10 ↔ 5 ≤ q.toNat % 10 := by
    rw [UInt32.le_iff_toNat_le, UInt32.toNat_mod]
    rfl
  by_cases h : 5 ≤ q % 10
  · rw [if_pos h, if_pos (hdec.mp h), UInt32.toNat_add, UInt32.toNat_div]
    exact Nat.mod_eq_of_lt (by change q.toNat / 10 + 1 < 2 ^ 32; omega)
  · rw [if_neg h, if_neg fun hn => h (hdec.mpr hn), UInt32.toNat_div]
    rfl

theorem divides_latch_iff {sysFreq baud : UInt32} (hf : sysFreq.toNat * 10 < 2 ^ 31)
    (hb : 0 < baud.toNat) {r : Regs} (hdll : r.dll = divisor sysFreq baud &&& 0xff)
    (hdlh : r.dlh = (divisor sysFreq baud >>> 8) &&& 0xff) :
    Divides sysFreq baud r ↔ nearest sysFreq baud < 65536 := by
  have hlow : ∀ v : UInt32, (v &&& 0xff).toNat = v.toNat % 256 := by
    intro v
    rw [UInt32.toNat_and]
    exact Nat.and_two_pow_sub_one_eq_mod _ 8
  have hdll' : r.dll.toNat = nearest sysFreq baud % 256 := by
    rw [hdll, hlow, divisor_toNat hf hb]
  have hdlh' : r.dlh.toNat = nearest sysFreq baud / 256 % 256 := by
    rw [hdlh, hlow, UInt32.toNat_shiftRight, divisor_toNat hf hb]
    exact congrArg (· % 256) (Nat.shiftRight_eq_div_pow _ 8)
  constructor
  · rintro ⟨hlt, hlt', hdiv⟩
    omega
  · intro hlt
    constructor <;> omega

def Returns (ret : UInt32 × Regs) : Prop := ret.1 = 0 ∨ 0x80000000 ≤ ret.1

theorem andThen_eq_iff {ret : UInt32 × Regs} {step : Regs → UInt32 × Regs} (hr : Returns ret)
    {r : Regs} : andThen ret step = (0, r) ↔ ∃ q, ret = (0, q) ∧ step q = (0, r) := by
  constructor
  · intro h
    unfold andThen at h
    split_ifs at h with herr
    · rw [h] at herr
      exact absurd herr (by decide : ¬ (0x80000000 : UInt32) ≤ 0)
    · exact ⟨ret.2, Prod.ext (hr.resolve_right herr) rfl, h⟩
  · rintro ⟨q, rfl, h⟩
    exact (if_neg (by decide : ¬ (0x80000000 : UInt32) ≤ 0)).trans h

theorem andThen_returns {ret : UInt32 × Regs} {step : Regs → UInt32 × Regs} (hr : Returns ret)
    (hs : ∀ q, Returns (step q)) : Returns (andThen ret step) := by
  unfold andThen
  split_ifs
  · exact hr
  · exact hs ret.2

theorem afterIdle_returns (usr : ℕ → Bool) (r : Regs) {step : Regs → UInt32 × Regs}
    (hs : ∀ q, Returns (step q)) : Returns (afterIdle usr r step) := by
  unfold afterIdle
  split
  · have herr : 0x80000000 ≤ errUsart drvErrorTimeout := by decide
    exact .inr herr
  · exact hs _

theorem afterIdle_eq_iff {usr : ℕ → Bool} {r q : Regs} {step : Regs → UInt32 × Regs} :
    afterIdle usr r step = (0, q) ↔
      ∃ t, waitUsartIdle usr uartBusyTimeout r.poll = some t ∧ step { r with poll := t } = (0, q) := by
  unfold afterIdle
  split
  · rename_i h
    have herr : errUsart drvErrorTimeout ≠ 0 := by decide
    simp [h, herr]
  · rename_i t h
    simp [h]

/-- What a step does to the line control register, if it supports what it is asked for. -/
def edited (edit : Option (BitVec 32 → BitVec 32)) (err : UInt32) (r : Regs) : UInt32 × Regs :=
  match edit with
  | none => (err, r)
  | some f => (0, { r with lcr := f r.lcr })

theorem edited_returns (edit : Option (BitVec 32 → BitVec 32)) {err : UInt32}
    (herr : 0x80000000 ≤ err) (r : Regs) : Returns (edited edit err r) := by
  cases edit with
  | none => exact .inr herr
  | some f => exact .inl rfl

theorem edited_eq_iff {edit : Option (BitVec 32 → BitVec 32)} {err : UInt32} (herr : err ≠ 0)
    {r q : Regs} : edited edit err r = (0, q) ↔ ∃ f, edit = some f ∧ q = { r with lcr := f r.lcr } := by
  cases edit with
  | none => simp [edited, herr]
  | some f => simp [edited, eq_comm]

def parityEdit : UsartParity → Option (BitVec 32 → BitVec 32)
  | .none => some fun lcr => lcr &&& ~~~lcrParityEnable
  | .odd => some fun lcr => (lcr ||| lcrParityEnable) &&& lcrParityOdd
  | .even => some fun lcr => (lcr ||| lcrParityEnable) ||| lcrParityEven
  | .one | .zero => none

def stopEdit : UsartStopBits → Option (BitVec 32 → BitVec 32)
  | .one => some fun lcr => lcr &&& lcrStopBit1
  | .two => some fun lcr => lcr ||| lcrStopBit2
  | .oneAndHalf | .half => none

def dataEdit : UsartDataBits → Option (BitVec 32 → BitVec 32)
  | .five => some fun lcr => lcr &&& lcrWordSize5
  | .six => some fun lcr => (lcr &&& 0xfd) ||| lcrWordSize6
  | .seven => some fun lcr => (lcr &&& 0xfe) ||| lcrWordSize7
  | .eight => some fun lcr => lcr ||| lcrWordSize8
  | .nine => none

theorem configParity_eq (usr : ℕ → Bool) (p : UsartParity) (r : Regs) :
    csiUsartConfigParity usr p r =
      afterIdle usr r (edited (parityEdit p) (errUsart usartErrorParity)) := by
  cases p <;> rfl

theorem configStopbits_eq (usr : ℕ → Bool) (b : UsartStopBits) (r : Regs) :
    csiUsartConfigStopbits usr b r =
      afterIdle usr r (edited (stopEdit b) (errUsart usartErrorStopBits)) := by
  cases b <;> rfl

theorem configDatabits_eq (usr : ℕ → Bool) (b : UsartDataBits) (r : Regs) :
    csiUsartConfigDatabits usr b r =
      afterIdle usr r (edited (dataEdit b) (errUsart usartErrorDataBits)) := by
  cases b <;> rfl

theorem edit_eq_iff {usr : ℕ → Bool} {edit : Option (BitVec 32 → BitVec 32)} {err : UInt32}
    (herr : err ≠ 0) {r q : Regs} : afterIdle usr r (edited edit err) = (0, q) ↔
      ∃ t f, waitUsartIdle usr uartBusyTimeout r.poll = some t ∧ edit = some f ∧
        q = { r with poll := t, lcr := f r.lcr } := by
  rw [afterIdle_eq_iff]
  constructor
  · rintro ⟨t, ht, hq⟩
    obtain ⟨f, hf, rfl⟩ := (edited_eq_iff herr).mp hq
    exact ⟨t, f, ht, hf, rfl⟩
  · rintro ⟨t, f, ht, hf, rfl⟩
    exact ⟨t, ht, (edited_eq_iff herr).mpr ⟨f, hf, rfl⟩⟩

def latched (sysFreq baud : UInt32) (r : Regs) (t : ℕ) : Regs :=
  { lcr := (r.lcr ||| lcrSetDlab) &&& ~~~lcrSetDlab, dll := divisor sysFreq baud &&& 0xff
    dlh := (divisor sysFreq baud >>> 8) &&& 0xff, poll := t }

theorem baudrate_eq_iff {usr : ℕ → Bool} {sysFreq baud : UInt32} {r q : Regs} :
    csiUsartConfigBaudrate usr sysFreq baud r = (0, q) ↔
      ∃ t, waitUsartIdle usr uartBusyTimeout r.poll = some t ∧ q = latched sysFreq baud r t := by
  rw [csiUsartConfigBaudrate, afterIdle_eq_iff]
  simp [latched, eq_comm]

theorem mode_eq_iff {mode : UsartMode} {r q : Regs} :
    csiUsartConfigMode mode r = (0, q) ↔ mode = .asynchronous ∧ q = r := by
  unfold csiUsartConfigMode
  split_ifs with h
  · simp [h, eq_comm]
  · have herr : errUsart usartErrorMode ≠ 0 := by decide
    simp [h, herr]

theorem config_eq_iff {usr : ℕ → Bool} {sysFreq : UInt32} {f : Format} {r q : Regs} :
    csiUsartConfig usr sysFreq f r = (0, q) ↔
      ∃ t₁ t₂ t₃ t₄ p s d, f.mode = .asynchronous ∧
        waitUsartIdle usr uartBusyTimeout r.poll = some t₁ ∧
        waitUsartIdle usr uartBusyTimeout t₁ = some t₂ ∧
        waitUsartIdle usr uartBusyTimeout t₂ = some t₃ ∧
        waitUsartIdle usr uartBusyTimeout t₃ = some t₄ ∧
        parityEdit f.parity = some p ∧ stopEdit f.stopbits = some s ∧ dataEdit f.bits = some d ∧
        q = { latched sysFreq f.baud r t₄ with
          lcr := d (s (p (latched sysFreq f.baud r t₁).lcr)) } := by
  have hb : Returns (csiUsartConfigBaudrate usr sysFreq f.baud r) :=
    afterIdle_returns usr r fun _ => .inl rfl
  have hm : ∀ q, Returns (csiUsartConfigMode f.mode q) := by
    intro q
    unfold csiUsartConfigMode
    have herr : 0x80000000 ≤ errUsart usartErrorMode := by decide
    split_ifs
    · exact .inl rfl
    · exact .inr herr
  have hp : ∀ q, Returns (csiUsartConfigParity usr f.parity q) := fun q => by
    rw [configParity_eq]
    exact afterIdle_returns usr q (edited_returns _ (by decide))
  have hs : ∀ q, Returns (csiUsartConfigStopbits usr f.stopbits q) := fun q => by
    rw [configStopbits_eq]
    exact afterIdle_returns usr q (edited_returns _ (by decide))
  have hbm := andThen_returns hb hm
  have hbmp := andThen_returns hbm hp
  have hbmps := andThen_returns hbmp hs
  rw [csiUsartConfig, andThen_eq_iff hbmps]
  simp only [andThen_eq_iff hbmp, andThen_eq_iff hbm, andThen_eq_iff hb, baudrate_eq_iff, mode_eq_iff,
    configParity_eq, configStopbits_eq, configDatabits_eq,
    edit_eq_iff (by decide : errUsart usartErrorParity ≠ 0),
    edit_eq_iff (by decide : errUsart usartErrorStopBits ≠ 0),
    edit_eq_iff (by decide : errUsart usartErrorDataBits ≠ 0)]
  constructor
  · rintro ⟨_, ⟨_, ⟨_, ⟨_, ⟨t₁, h₁, rfl⟩, hmode, rfl⟩, t₂, p, h₂, hp, rfl⟩, t₃, s, h₃, hs, rfl⟩,
      t₄, d, h₄, hd, rfl⟩
    exact ⟨t₁, t₂, t₃, t₄, p, s, d, hmode, h₁, h₂, h₃, h₄, hp, hs, hd, rfl⟩
  · rintro ⟨t₁, t₂, t₃, t₄, p, s, d, hmode, h₁, h₂, h₃, h₄, hp, hs, hd, rfl⟩
    exact ⟨_, ⟨_, ⟨_, ⟨_, ⟨t₁, h₁, rfl⟩, hmode, rfl⟩, t₂, p, h₂, hp, rfl⟩, t₃, s, h₃, hs, rfl⟩,
      t₄, d, h₄, hd, rfl⟩

def Spared (bits : List ℕ) (lcr lcr' : BitVec 32) : Prop :=
  ∀ i < 8, i ∉ bits → lcr'.getLsbD i = lcr.getLsbD i

def Masked (keep : Bool) (lcr lcr' : BitVec 32) : Prop :=
  ∀ i, 8 ≤ i → lcr'.getLsbD i = (lcr.getLsbD i && keep)

theorem byte_high {mask : BitVec 32} (h : mask.toNat < 2 ^ 8) {i : ℕ} (hi : 8 ≤ i) :
    mask.getLsbD i = false :=
  Nat.testBit_lt_two_pow (h.trans_le (Nat.pow_le_pow_right (by decide) hi))

theorem or_masked {mask : BitVec 32} (h : mask.toNat < 2 ^ 8) (lcr : BitVec 32) :
    Masked true lcr (lcr ||| mask) := by
  intro i hi
  rw [BitVec.getLsbD_or, byte_high h hi, Bool.or_false, Bool.and_true]

theorem and_masked {mask : BitVec 32} (h : mask.toNat < 2 ^ 8) (lcr : BitVec 32) :
    Masked false lcr (lcr &&& mask) := by
  intro i hi
  rw [BitVec.getLsbD_and, byte_high h hi, Bool.and_false]

theorem andNot_masked {mask : BitVec 32} (h : mask.toNat < 2 ^ 8) (lcr : BitVec 32) :
    Masked true lcr (lcr &&& ~~~mask) := by
  intro i hi
  rw [BitVec.getLsbD_and, BitVec.getLsbD_not, byte_high h hi, Bool.and_true]
  by_cases hlt : i < 32
  · simp [hlt]
  · simp [hlt, BitVec.getLsbD_of_ge lcr i (Nat.le_of_not_lt hlt)]

theorem Masked.trans {keep keep' : Bool} {lcr lcr' lcr'' : BitVec 32} (h : Masked keep lcr lcr')
    (h' : Masked keep' lcr' lcr'') : Masked (keep && keep') lcr lcr'' := by
  intro i hi
  rw [h' i hi, h i hi, Bool.and_assoc]

theorem dlab_spared (lcr : BitVec 32) :
    ((lcr ||| lcrSetDlab) &&& ~~~lcrSetDlab).getLsbD 7 = false ∧
      Spared [7] lcr ((lcr ||| lcrSetDlab) &&& ~~~lcrSetDlab) ∧
      Masked true lcr ((lcr ||| lcrSetDlab) &&& ~~~lcrSetDlab) := by
  refine ⟨by simp [lcrSetDlab], fun i hi hb => ?_, ?_⟩
  · interval_cases i <;> simp_all [lcrSetDlab]
  · exact (or_masked (by decide) lcr).trans (andNot_masked (by decide) _)

theorem parity_spared {p : UsartParity} {f : BitVec 32 → BitVec 32} (h : parityEdit p = some f)
    (lcr : BitVec 32) : (f lcr).getLsbD 3 = decide (p ≠ .none) ∧
      (f lcr).getLsbD 4 = (if p = .none then lcr.getLsbD 4 else decide (p = .even)) ∧
      Spared [3, 4] lcr (f lcr) ∧ Masked (decide (p ≠ .odd)) lcr (f lcr) := by
  cases p with
  | one | zero => cases h
  | none =>
    obtain rfl := Option.some.inj h
    refine ⟨by simp [lcrParityEnable], by simp [lcrParityEnable], fun i hi hb => ?_, ?_⟩
    · interval_cases i <;> simp_all [lcrParityEnable]
    · exact andNot_masked (by decide) lcr
  | even =>
    obtain rfl := Option.some.inj h
    refine ⟨by simp [lcrParityEnable], by simp [lcrParityEven], fun i hi hb => ?_, ?_⟩
    · interval_cases i <;> simp_all [lcrParityEnable, lcrParityEven]
    · exact (or_masked (by decide) lcr).trans (or_masked (by decide) _)
  | odd =>
    obtain rfl := Option.some.inj h
    refine ⟨by simp [lcrParityEnable, lcrParityOdd], by simp [lcrParityOdd], fun i hi hb => ?_, ?_⟩
    · interval_cases i <;> simp_all [lcrParityEnable, lcrParityOdd]
    · exact (or_masked (by decide) lcr).trans (and_masked (by decide) _)

theorem stop_spared {b : UsartStopBits} {f : BitVec 32 → BitVec 32} (h : stopEdit b = some f)
    (lcr : BitVec 32) : (f lcr).getLsbD 2 = decide (b = .two) ∧ Spared [2] lcr (f lcr) ∧
      Masked (decide (b = .two)) lcr (f lcr) := by
  cases b with
  | oneAndHalf | half => cases h
  | one =>
    obtain rfl := Option.some.inj h
    refine ⟨by simp [lcrStopBit1], fun i hi hb => ?_, and_masked (by decide) lcr⟩
    interval_cases i <;> simp_all [lcrStopBit1]
  | two =>
    obtain rfl := Option.some.inj h
    refine ⟨by simp [lcrStopBit2], fun i hi hb => ?_, or_masked (by decide) lcr⟩
    interval_cases i <;> simp_all [lcrStopBit2]

theorem data_masked {b : UsartDataBits} {f : BitVec 32 → BitVec 32} (h : dataEdit b = some f)
    (lcr : BitVec 32) : Masked (decide (b = .eight)) lcr (f lcr) := by
  cases b with
  | nine => cases h
  | five =>
    obtain rfl := Option.some.inj h
    exact and_masked (by decide) lcr
  | six | seven =>
    obtain rfl := Option.some.inj h
    exact (and_masked (by decide) lcr).trans (or_masked (by decide) _)
  | eight =>
    obtain rfl := Option.some.inj h
    exact or_masked (by decide) lcr

theorem data_spared {b : UsartDataBits} {f : BitVec 32 → BitVec 32} (h : dataEdit b = some f)
    (lcr : BitVec 32) : ((f lcr).getLsbD 1, (f lcr).getLsbD 0) =
      (decide (b = .seven ∨ b = .eight), decide (b = .six ∨ b = .eight)) ∧
        Spared [0, 1] lcr (f lcr) := by
  cases b with
  | nine => cases h
  | five | six | seven | eight =>
    obtain rfl := Option.some.inj h
    refine ⟨?_, fun i hi hb => ?_⟩
    · simp [lcrWordSize5, lcrWordSize6, lcrWordSize7, lcrWordSize8]
    · interval_cases i <;> simp_all [lcrWordSize5, lcrWordSize6, lcrWordSize7, lcrWordSize8]

theorem edits_formatted {f : Format} {p s d : BitVec 32 → BitVec 32} (hp : parityEdit f.parity = some p)
    (hs : stopEdit f.stopbits = some s) (hd : dataEdit f.bits = some d) (lcr : BitVec 32) :
    Formatted f lcr (d (s (p ((lcr ||| lcrSetDlab) &&& ~~~lcrSetDlab)))) := by
  obtain ⟨hdlab, hbase, hbaseMask⟩ := dlab_spared lcr
  generalize (lcr ||| lcrSetDlab) &&& ~~~lcrSetDlab = base at hdlab hbase hbaseMask
  obtain ⟨hparity, heven, hpar, hparMask⟩ := parity_spared hp base
  obtain ⟨hstop, hst, hstMask⟩ := stop_spared hs (p base)
  obtain ⟨hword, hdat⟩ := data_spared hd (s (p base))
  -- A bit that no later edit touches is as the earlier one left it.
  have hafter : ∀ i < 8, 1 < i → (d (s (p base))).getLsbD i = (s (p base)).getLsbD i :=
    fun i hi hb => hdat i hi (by simp; omega)
  have hafter₂ : ∀ i < 8, 2 < i → (d (s (p base))).getLsbD i = (p base).getLsbD i :=
    fun i hi hb => (hafter i hi (by omega)).trans (hst i hi (by simp; omega))
  have hafter₄ : ∀ i < 8, 4 < i → (d (s (p base))).getLsbD i = base.getLsbD i :=
    fun i hi hb => (hafter₂ i hi (by omega)).trans (hpar i hi (by simp; omega))
  refine ⟨hword, ?_, ?_, ?_, ?_, ?_, ?_⟩
  · exact (hafter 2 (by decide) (by decide)).trans hstop
  · exact (hafter₂ 3 (by decide) (by decide)).trans hparity
  · rw [hafter₂ 4 (by decide) (by decide), heven, hbase 4 (by decide) (by decide)]
  · exact (hafter₄ 7 (by decide) (by decide)).trans hdlab
  · exact ⟨(hafter₄ 5 (by decide) (by decide)).trans (hbase 5 (by decide) (by decide)),
      (hafter₄ 6 (by decide) (by decide)).trans (hbase 6 (by decide) (by decide))⟩
  · intro i hi
    have hall := ((hbaseMask.trans hparMask).trans hstMask).trans (data_masked hd (s (p base)))
    rw [hall i hi, Format.sparesHigh, Bool.true_and, Bool.and_assoc, Bool.decide_and,
      Bool.decide_and]

theorem supported_iff {f : Format} : Supported f ↔ f.mode = .asynchronous ∧
    (parityEdit f.parity).isSome ∧ (stopEdit f.stopbits).isSome ∧ (dataEdit f.bits).isSome := by
  obtain ⟨baud, mode, parity, stopbits, bits⟩ := f
  constructor
  · rintro ⟨hm, hp, hs, hb⟩
    refine ⟨hm, ?_, ?_, ?_⟩
    · rcases hp with h | h | h <;> (subst h; rfl)
    · rcases hs with h | h <;> (subst h; rfl)
    · cases bits <;> first | rfl | exact absurd rfl hb
  · rintro ⟨hm, hp, hs, hb⟩
    refine ⟨hm, ?_, ?_, ?_⟩
    · cases parity <;> simp_all [parityEdit]
    · cases stopbits <;> simp_all [stopEdit]
    · cases bits <;> simp_all [dataEdit]

theorem idleTimes_isSome {usr : ℕ → Bool} {t : ℕ} :
    (idleTimes usr 4 t).isSome ↔ ∃ t₁ t₂ t₃ t₄,
      waitUsartIdle usr uartBusyTimeout t = some t₁ ∧
      waitUsartIdle usr uartBusyTimeout t₁ = some t₂ ∧
      waitUsartIdle usr uartBusyTimeout t₂ = some t₃ ∧
      waitUsartIdle usr uartBusyTimeout t₃ = some t₄ := by
  rw [Option.isSome_iff_exists]
  simp only [idleTimes, Option.bind_eq_some_iff]
  constructor
  · rintro ⟨_, t₁, h₁, t₂, h₂, t₃, h₃, t₄, h₄, -⟩
    exact ⟨t₁, t₂, t₃, t₄, h₁, h₂, h₃, h₄⟩
  · rintro ⟨t₁, t₂, t₃, t₄, h₁, h₂, h₃, h₄⟩
    exact ⟨t₄, t₁, h₁, t₂, h₂, t₃, h₃, t₄, h₄, rfl⟩

/-- The call succeeds exactly if the port can be set to the format and becomes idle four times in
time. Then the registers say the format, whatever was in them before, and the divisor if it has at
most 16 bits, which is not checked. -/
theorem config_programs {sysFreq : UInt32} {f : Format} (hf : sysFreq.toNat * 10 < 2 ^ 31)
    (hb : 0 < f.baud.toNat) (usr : ℕ → Bool) (r : Regs) :
    ((csiUsartConfig usr sysFreq f r).1 = 0 ↔ Supported f ∧ (idleTimes usr 4 r.poll).isSome) ∧
      ((csiUsartConfig usr sysFreq f r).1 = 0 →
        Formatted f r.lcr (csiUsartConfig usr sysFreq f r).2.lcr ∧
          (Divides sysFreq f.baud (csiUsartConfig usr sysFreq f r).2 ↔
            nearest sysFreq f.baud < 65536)) := by
  have hzero : (csiUsartConfig usr sysFreq f r).1 = 0 ↔
      ∃ q, csiUsartConfig usr sysFreq f r = (0, q) :=
    ⟨fun h => ⟨_, Prod.ext h rfl⟩, fun ⟨q, h⟩ => congrArg Prod.fst h⟩
  refine ⟨?_, ?_⟩
  · rw [hzero, supported_iff, idleTimes_isSome]
    simp only [config_eq_iff, Option.isSome_iff_exists]
    constructor
    · rintro ⟨q, t₁, t₂, t₃, t₄, p, s, d, hm, h₁, h₂, h₃, h₄, hp, hs, hd, -⟩
      exact ⟨⟨hm, ⟨p, hp⟩, ⟨s, hs⟩, ⟨d, hd⟩⟩, t₁, t₂, t₃, t₄, h₁, h₂, h₃, h₄⟩
    · rintro ⟨⟨hm, ⟨p, hp⟩, ⟨s, hs⟩, ⟨d, hd⟩⟩, t₁, t₂, t₃, t₄, h₁, h₂, h₃, h₄⟩
      exact ⟨_, t₁, t₂, t₃, t₄, p, s, d, hm, h₁, h₂, h₃, h₄, hp, hs, hd, rfl⟩
  · rw [hzero]
    rintro ⟨q, hq⟩
    obtain ⟨t₁, t₂, t₃, t₄, p, s, d, -, -, -, -, -, hp, hs, hd, rfl⟩ := config_eq_iff.mp hq
    rw [hq]
    exact ⟨edits_formatted hp hs hd r.lcr, divides_latch_iff hf hb rfl rfl⟩

/-- 115200 baud from 40 MHz, 8 data bits, one stop bit and no parity. -/
theorem config_programs_console :
    (csiUsartConfig (fun _ => false) 40000000 ⟨115200, .asynchronous, .none, .one, .eight⟩
      ⟨0x1f, 0, 0, 0⟩).1 = 0 ∧
      Formatted ⟨115200, .asynchronous, .none, .one, .eight⟩ 0x1f
        (csiUsartConfig (fun _ => false) 40000000 ⟨115200, .asynchronous, .none, .one, .eight⟩
          ⟨0x1f, 0, 0, 0⟩).2.lcr ∧
      Divides 40000000 115200
        (csiUsartConfig (fun _ => false) 40000000 ⟨115200, .asynchronous, .none, .one, .eight⟩
          ⟨0x1f, 0, 0, 0⟩).2 := by
  have h := @config_programs 40000000 ⟨115200, .asynchronous, .none, .one, .eight⟩ (by decide)
    (by decide) (fun _ => false) ⟨0x1f, 0, 0, 0⟩
  have hok := h.1.mpr ⟨⟨rfl, .inl rfl, .inl rfl, UsartDataBits.noConfusion⟩, rfl⟩
  exact ⟨hok, (h.2 hok).1, (h.2 hok).2.mpr (by decide)⟩

end CkUsartConfig
