import DeviceQemu.ResourceLedger
import Mathlib.Data.UInt

/-! The UART host.
The host methods of the UART driver over the operations of the PL011. The port exists as long as the
driver data does, and of its registers those are kept that are read below. -/
namespace Uart

open ResourceLedger

variable {α : Type}

abbrev Addr := ℕ

inductive HdfStatus where
  | success
  | failure
  | errMallocFail
  deriving DecidableEq, Repr

inductive UartState where
  | notOpened
  | opening
  | useable
  | suspended
  deriving DecidableEq, Repr

inductive UartTransMode where
  | rdBlock
  | rdNonblock
  | other
  deriving DecidableEq, Repr

/-- `running` is whether the port was started up and not shut down since. -/
structure UartPl011Port where
  ibrd : UInt32
  fbrd : UInt32
  running : Bool
  deriving DecidableEq, Repr

/-- `attr` is only copied; `rxTransfer` is a pointer. -/
structure UartDriverData (α : Type) where
  baudrate : UInt32
  attr : α
  rxTransfer : Option Addr
  count : Int32
  state : UartState
  rdBlock : Bool
  port : UartPl011Port
  deriving DecidableEq, Repr

def configMaxBaudrate : UInt32 := 921600
def ibrdCoefficients : UInt32 := 16
def fbrdCoefficients : UInt32 := 8

/-- `clk` is CONFIG_UART_CLK_INPUT. A baud rate that is refused leaves the registers. -/
def pl011ConfigBaudrate (clk : UInt32) (udd : UartDriverData α) : UartPl011Port :=
  let tmp := ibrdCoefficients.toUInt64 * udd.baudrate.toUInt64
  if tmp = 0 ∨ tmp > 0xFFFFFFFF then udd.port
  else
    let value := ibrdCoefficients * udd.baudrate
    let divider := clk / value
    let remainder := clk % value
    let value := fbrdCoefficients * remainder / udd.baudrate
    let fraction := (value >>> 1) + (value &&& 1)
    { udd.port with ibrd := divider, fbrd := fraction }

def pl011Config (clk : UInt32) (udd : UartDriverData α) : UartDriverData α :=
  { udd with port := pl011ConfigBaudrate clk udd }

def hi35xxSetBaud (clk : UInt32) (udd : UartDriverData α) (baudRate : UInt32) :
    HdfStatus × UartDriverData α :=
  if udd.state ≠ .useable then (.failure, udd)
  else if baudRate > 0 ∧ baudRate ≤ configMaxBaudrate then
    (.success, pl011Config clk { udd with baudrate := baudRate })
  else (.failure, udd)

def hi35xxSetAttribute (clk : UInt32) (udd : UartDriverData α) (attr : α) :
    HdfStatus × UartDriverData α :=
  if udd.state ≠ .useable then (.failure, udd)
  else (.success, pl011Config clk { udd with attr })

def hi35xxSetTransMode (udd : UartDriverData α) (mode : UartTransMode) :
    HdfStatus × UartDriverData α :=
  if udd.state ≠ .useable then (.failure, udd)
  else
    match mode with
    | .rdBlock => (.success, { udd with rdBlock := true })
    | .rdNonblock => (.success, { udd with rdBlock := false })
    | .other => (.success, udd)

/-- What OsalMemCalloc returns, and whether StartUp succeeds. -/
structure Answers where
  calloc : Option Addr
  startUp : Bool
  deriving DecidableEq, Repr

/-- What a call returns and leaves, and the blocks it allocates and frees. -/
structure Called (α : Type) where
  ret : HdfStatus
  udd : UartDriverData α
  ops : List (Op Addr)

def hi35xxInit (udd : UartDriverData α) (a : Answers) : Called α :=
  if udd.state = .notOpened then
    match a.calloc with
    | none => ⟨.errMallocFail, { udd with state := .opening, rxTransfer := none }, []⟩
    | some transfer =>
      if a.startUp then
        ⟨.success, { udd with
          rxTransfer := some transfer, state := .useable, count := udd.count + 1,
          port := { udd.port with running := true } }, [.acquire transfer]⟩
      else
        ⟨.failure, { udd with state := .opening, rxTransfer := none },
          [.acquire transfer, .release transfer]⟩
  else ⟨.success, { udd with state := .useable, count := udd.count + 1 }, []⟩

def hi35xxDeinit (udd : UartDriverData α) : Called α :=
  if udd.count - 1 ≠ 0 then ⟨.success, { udd with count := udd.count - 1 }, []⟩
  else
    ⟨.success, { udd with
      count := udd.count - 1, rxTransfer := none, state := .notOpened,
      port := { udd.port with running := false } },
      match udd.rxTransfer with
      | none => []
      | some transfer => [.release transfer]⟩

/-- What Hi35xxRead does to the transfer buffer; Pl011Read checks the pointer that
PL011UartRxBufEmpty has followed. -/
inductive ReadAccess where
  | refused
  | nullPointer
  | invalidParam
  | ring (transfer : Addr)
  deriving DecidableEq, Repr

def hi35xxRead (udd : UartDriverData α) (size : ℕ) : ReadAccess :=
  if udd.state ≠ .useable then .refused
  else
    match udd.rxTransfer with
    | none => if udd.rdBlock then .nullPointer else .invalidParam
    | some transfer => if size = 0 ∧ !udd.rdBlock then .invalidParam else .ring transfer

/-- Whether Hi35xxDetach goes on to free the driver data. -/
def hi35xxDetach (udd : UartDriverData α) : Bool := udd.state = .notOpened

end Uart
