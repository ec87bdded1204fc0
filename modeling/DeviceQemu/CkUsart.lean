import DeviceQemu.PreemptedCode
import Mathlib.Data.UInt

/-! The C-SKY serial port.
The calls of ck_usart.c statement by statement: an assignment, or the load and the store of a
read-modify-write, is one operation, and ck_usart_irqhandler may run between two of them. What the
driver does to the outside is recorded in the order in which it happens. -/
namespace CkUsart

open StepSystem PreemptedCode

def uartBusyTimeout : ℕ := 1000000
def ierRdaIntEnable : UInt32 := 0x01
def ierThreIntEnable : UInt32 := 0x02
def iirRecvLineEnable : UInt32 := 0x04
def dwLsrBi : UInt32 := 0x10
def dwLsrFe : UInt32 := 0x08
def dwLsrPe : UInt32 := 0x04
def dwLsrOe : UInt32 := 0x02
def errUsartParameter : UInt32 := 0x81020000 ||| 0x84

inductive UsartEvent where
  | sendComplete
  | receiveComplete
  | rxOverflow
  | rxTimeout
  | rxBreak
  | rxFramingError
  | rxParityError
  | received
  deriving DecidableEq, Repr

inductive UsartIntrType where
  | write
  | read
  deriving DecidableEq, Repr

/-- The calls that touch the transfer state or the interrupts; `cb` is whether there is a callback. -/
inductive Call where
  | usartInit (cb : Bool)
  | usartUninit
  | send (data num : UInt32)
  | abortSend
  | receive (data num : UInt32)
  | abortReceive
  | setInterrupt (type : UsartIntrType) (flag : ℤ)
  deriving DecidableEq, Repr

/-- `transmit a` writes the byte at the address `a` to THR, `armed` puts the buffer of
csi_usart_receive in place, and `drop` reads RBR and forgets the byte. -/
inductive Out where
  | called (c : Call)
  | returned (c : Call) (code : UInt32)
  | arrive (b : UInt8)
  | transmit (a : ℕ)
  | armed (a num : ℕ)
  | store (a : ℕ) (b : UInt8)
  | drop (b : UInt8)
  | event (e : UsartEvent)
  deriving DecidableEq, Repr

/-- ck_usart_priv_t with the registers; a buffer is an address, 0 for NULL. -/
structure Usart where
  irqEnabled : Bool
  cbEvent : Bool
  rxTotalNum : ℕ
  txTotalNum : ℕ
  rxBuf : ℕ
  txBuf : ℕ
  rxCnt : ℕ
  txCnt : ℕ
  txBusy : Bool
  rxBusy : Bool
  lastTxNum : ℕ
  lastRxNum : ℕ
  ier : UInt32
  fifo : List UInt8
  trace : List Out
  deriving DecidableEq, Repr

def Usart.emit (s : Usart) (o : Out) : Usart := { s with trace := s.trace ++ [o] }

/-- `cb_event(idx, ..)` if there is a callback. -/
def Usart.signal (s : Usart) (e : UsartEvent) : Usart := if s.cbEvent then s.emit (.event e) else s

inductive Op where
  | setIrqEnabled (b : Bool)
  | setCbEvent (b : Bool)
  | setTxBuf (a : ℕ)
  | setTxTotalNum (n : ℕ)
  | setTxCnt (n : ℕ)
  | setTxBusy (b : Bool)
  | setLastTxNum (n : ℕ)
  | lastTxNumFromTotal
  | txCntFromTotal
  | thresholdEmpty
  | thresholdCompare
  | loadTxByte
  | writeThr (a : ℕ)
  | incTxCnt
  | incTxBuf
  | armRxBuf (a num : ℕ)
  | setRxTotalNum (n : ℕ)
  | resetRxCnt
  | setRxCnt (n : ℕ)
  | rxCntFromTotal
  | setRxBusy (b : Bool)
  | setLastRxNum (n : ℕ)
  | setIer (v : UInt32)
  | orIer (m : UInt32)
  | andIer (m : UInt32)
  | signal (e : UsartEvent)
  | ret (c : Call) (code : UInt32)
  deriving DecidableEq, Repr

/-- The branch of ck_usart_intr_threshold_empty in which all is sent. -/
def sendDone : List Op :=
  [.andIer (~~~ierThreIntEnable), .lastTxNumFromTotal, .setTxCnt 0, .setTxBusy false, .setTxBuf 0,
    .setTxTotalNum 0, .signal .sendComplete]

def sendByte : List Op := [.loadTxByte, .incTxCnt, .incTxBuf]

def exec : Op → Usart → Usart × List Op
  | .setIrqEnabled b, s => ({ s with irqEnabled := b }, [])
  | .setCbEvent b, s => ({ s with cbEvent := b }, [])
  | .setTxBuf a, s => ({ s with txBuf := a }, [])
  | .setTxTotalNum n, s => ({ s with txTotalNum := n }, [])
  | .setTxCnt n, s => ({ s with txCnt := n }, [])
  | .setTxBusy b, s => ({ s with txBusy := b }, [])
  | .setLastTxNum n, s => ({ s with lastTxNum := n }, [])
  | .lastTxNumFromTotal, s => (s, [.setLastTxNum s.txTotalNum])
  | .txCntFromTotal, s => (s, [.setTxCnt s.txTotalNum])
  | .thresholdEmpty, s => (s, if s.txTotalNum = 0 then [] else [.thresholdCompare])
  | .thresholdCompare, s => (s, if s.txTotalNum ≤ s.txCnt then sendDone else sendByte)
  | .loadTxByte, s => (s, [.writeThr s.txBuf])
  | .writeThr a, s => (s.emit (.transmit a), [])
  | .incTxCnt, s => (s, [.setTxCnt ((s.txCnt + 1) % 2 ^ 32)])
  | .incTxBuf, s => (s, [.setTxBuf (s.txBuf + 1)])
  | .armRxBuf a n, s => ({ s with rxBuf := a }.emit (.armed a n), [])
  | .setRxTotalNum n, s => ({ s with rxTotalNum := n }, [])
  | .resetRxCnt, s => ({ s with rxCnt := 0 }, [])
  | .setRxCnt n, s => ({ s with rxCnt := n }, [])
  | .rxCntFromTotal, s => (s, [.setRxCnt s.rxTotalNum])
  | .setRxBusy b, s => ({ s with rxBusy := b }, [])
  | .setLastRxNum n, s => ({ s with lastRxNum := n }, [])
  | .setIer v, s => ({ s with ier := v }, [])
  | .orIer m, s => (s, [.setIer (s.ier ||| m)])
  | .andIer m, s => (s, [.setIer (s.ier &&& m)])
  | .signal e, s => (s.signal e, [])
  | .ret c code, s => (s.emit (.returned c code), [])

def csiUsartInitialize (cb : Bool) : List Op :=
  [.setCbEvent cb, .setIer (ierRdaIntEnable ||| iirRecvLineEnable), .setIrqEnabled true,
    .ret (.usartInit cb) 0]

def csiUsartUninitialize : List Op :=
  [.setIrqEnabled false, .setCbEvent false, .ret .usartUninit 0]

def csiUsartSend (data num : UInt32) : List Op :=
  if data = 0 ∨ num = 0 then [.ret (.send data num) errUsartParameter]
  else
    [.setTxBuf data.toNat, .setTxTotalNum num.toNat, .setTxCnt 0, .setTxBusy true, .setLastTxNum 0,
      .thresholdEmpty, .orIer ierThreIntEnable, .ret (.send data num) 0]

def csiUsartAbortSend : List Op :=
  [.andIer (~~~ierThreIntEnable), .txCntFromTotal, .setTxCnt 0, .setTxBusy false, .setTxBuf 0,
    .setTxTotalNum 0, .ret .abortSend 0]

def csiUsartReceive (data num : UInt32) : List Op :=
  if data = 0 then [.ret (.receive data num) errUsartParameter]
  else
    [.armRxBuf data.toNat num.toNat, .setRxTotalNum num.toNat, .resetRxCnt, .setRxBusy true,
      .setLastRxNum 0, .ret (.receive data num) 0]

def csiUsartAbortReceive : List Op := [.rxCntFromTotal, .ret .abortReceive 0]

def intrMask : UsartIntrType → UInt32
  | .write => ierThreIntEnable
  | .read => ierRdaIntEnable

def csiUsartSetInterrupt (type : UsartIntrType) (flag : ℤ) : List Op :=
  if flag = 0 then [.andIer (~~~intrMask type), .ret (.setInterrupt type flag) 0]
  else if flag = 1 then [.orIer (intrMask type), .ret (.setInterrupt type flag) 0]
  else [.ret (.setInterrupt type flag) errUsartParameter]

def body : Call → List Op
  | .usartInit cb => csiUsartInitialize cb
  | .usartUninit => csiUsartUninitialize
  | .send data num => csiUsartSend data num
  | .abortSend => csiUsartAbortSend
  | .receive data num => csiUsartReceive data num
  | .abortReceive => csiUsartAbortReceive
  | .setInterrupt type flag => csiUsartSetInterrupt type flag

/-- The loop that empties the receive FIFO: what it drops, what it leaves, and whether it has
counted to the timeout. -/
def drainLoop : ℕ → List UInt8 → List UInt8 × List UInt8 × Bool
  | _, [] => ([], [], false)
  | timecount, b :: bs =>
    if uartBusyTimeout ≤ timecount + 1 then ([b], bs, true)
    else
      let rest := drainLoop (timecount + 1) bs
      (b :: rest.1, rest.2)

def Usart.drain (s : Usart) : Usart × Bool :=
  let d := drainLoop 0 s.fifo
  ({ s with fifo := d.2.1, trace := s.trace ++ d.1.map .drop }, d.2.2)

/-- ck_usart_intr_recv_data, with `data` from RBR. -/
def intrRecvData (data : UInt8) (s : Usart) : Usart :=
  let s := { s.emit (.store s.rxBuf data) with rxCnt := (s.rxCnt + 1) % 2 ^ 32, rxBuf := s.rxBuf + 1 }
  if s.rxTotalNum ≤ s.rxCnt then
    { s with
      lastRxNum := s.rxTotalNum, rxCnt := 0, rxBuf := 0, rxBusy := false
      rxTotalNum := 0 }.signal .receiveComplete
  else s

/-- ck_usart_intr_char_timeout. Without a callback nobody is told of a timeout of the loop. -/
def intrCharTimeout (s : Usart) : Usart :=
  match s.fifo with
  | [] => s
  | b :: bs =>
    if s.rxTotalNum ≠ 0 ∧ s.rxBuf ≠ 0 then intrRecvData b { s with fifo := bs }
    else if s.cbEvent then s.emit (.event .received)
    else s.drain.1

/-- ck_usart_intr_recv_line, where LSR reads `lsrStat`. -/
def intrRecvLine (lsrStat : UInt32) (s : Usart) : Usart :=
  let d := { s with ier := s.ier &&& ~~~ierThreIntEnable }.drain
  if d.2 then d.1.signal .rxTimeout
  else if lsrStat &&& dwLsrBi ≠ 0 then d.1.signal .rxBreak
  else if lsrStat &&& dwLsrFe ≠ 0 then d.1.signal .rxFramingError
  else if lsrStat &&& dwLsrPe ≠ 0 then d.1.signal .rxParityError
  else if lsrStat &&& dwLsrOe ≠ 0 then d.1.signal .rxOverflow
  else d.1

/-- A byte that arrives, and what IIR tells ck_usart_irqhandler. -/
inductive Irq where
  | arrive (b : UInt8)
  | thrEmpty
  | recvData
  | recvLine (lsrStat : UInt32)
  | charTimeout
  deriving DecidableEq, Repr

/-- The handler of the transmitter; it executes the operations of csi_usart_send. -/
def intrThresholdEmpty (s : Usart) : Usart :=
  if s.txTotalNum = 0 then s
  else if s.txTotalNum ≤ s.txCnt then
    { s with
      ier := s.ier &&& ~~~ierThreIntEnable, lastTxNum := s.txTotalNum, txCnt := 0
      txBusy := false, txBuf := 0, txTotalNum := 0 }.signal .sendComplete
  else
    { s.emit (.transmit s.txBuf) with
      txCnt := (s.txCnt + 1) % 2 ^ 32, txBuf := s.txBuf + 1 }

/-- An interrupt is taken if it is enabled, and one for data if the FIFO has some. -/
def handler : Irq → Usart → Option Usart
  | .arrive b, s => some { s.emit (.arrive b) with fifo := s.fifo ++ [b] }
  | .thrEmpty, s =>
    if s.irqEnabled ∧ s.ier &&& ierThreIntEnable ≠ 0 then some (intrThresholdEmpty s) else none
  | .recvData, s | .charTimeout, s =>
    if s.irqEnabled ∧ s.ier &&& ierRdaIntEnable ≠ 0 ∧ s.fifo ≠ [] then some (intrCharTimeout s)
    else none
  | .recvLine lsrStat, s =>
    if s.irqEnabled ∧ s.ier &&& iirRecvLineEnable ≠ 0 then some (intrRecvLine lsrStat s) else none

def ckUsartProgram : Program Usart Op Call Irq where
  exec := exec
  enter c s := s.emit (.called c)
  body := body
  handler := handler

/-- The static record is zero, and so is IER after reset. -/
def reset : Usart :=
  ⟨false, false, 0, 0, 0, 0, 0, 0, false, false, 0, 0, 0, [], []⟩

abbrev Port := Config Usart Op

abbrev Action := Act Call Irq

def start : Port := ⟨reset, []⟩

def ckUsart : System Port Action := ckUsartProgram.system (· = reset)

/-- Run without an interrupt, the operations do what the handler does. -/
theorem execAll_thresholdEmpty (s : Usart) :
    ckUsartProgram.execAll 11 [.thresholdEmpty] s = intrThresholdEmpty s := by
  by_cases h : s.txTotalNum = 0
  · simp [Program.execAll, ckUsartProgram, exec, intrThresholdEmpty, h]
  · by_cases hc : s.txTotalNum ≤ s.txCnt
    · simp [Program.execAll, ckUsartProgram, exec, intrThresholdEmpty, sendDone, h, hc]
    · simp [Program.execAll, ckUsartProgram, exec, intrThresholdEmpty, sendByte, Usart.emit, h, hc]

end CkUsart
