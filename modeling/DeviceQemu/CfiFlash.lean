import DeviceQemu.NorFlash
import Mathlib.Data.Option.Basic

/-! CFI flash driver of riscv32_virt. -/
namespace CfiFlash

open NorFlash

def cfiflashMaxNum : ℕ := 2
def cfiflashCapacity : UInt32 := 32 * 1024 * 1024
def cfiflashSecSize : ℕ := 512
def cfiflashSecSizeBits : UInt32 := 9
def cfiflashSectors : ℕ := cfiflashCapacity.toNat / cfiflashSecSize
def cfiflashEraseblkSize : UInt32 := 128 * 1024 * 2
def cfiflashEraseblkWords : UInt32 := cfiflashEraseblkSize / 4
def cfiflashEraseblkWordmask : UInt32 := ~~~(cfiflashEraseblkWords - 1)
def cfiflashPageSize : UInt32 := 2048 * 2
def cfiflashPageWords : UInt32 := cfiflashPageSize / 4
def cfiflashPageWordsMask : UInt32 := cfiflashPageWords - 1

def cfiflashCmdErase : UInt32 := 0x20
def cfiflashCmdClearStatus : UInt32 := 0x50
def cfiflashCmdReadStatus : UInt32 := 0x70
def cfiflashCmdConfirm : UInt32 := 0xD0
def cfiflashCmdBufwrite : UInt32 := 0xE8
def cfiflashStatusReadyMask : UInt32 := 0x80

/-- The part the driver expects: 128 erase blocks of 256K, pages of 4096 bytes. -/
def geometry : Geometry where
  words := 8388608
  pageWords := 1024
  blockWords := 65536
  page_pos := by decide
  block_pos := by decide
  page_dvd_block := by decide
  block_dvd_words := by decide

inductive FlashDresult where
  | ok
  | error
  deriving DecidableEq

/-- The driver's table of base addresses and the chips that answer there. -/
structure Board where
  cfiDrvBase : ℕ → UInt32
  chips : UInt32 → Chip

def Board.setChip (b : Board) (base : UInt32) (p : Chip) : Board :=
  { b with chips := Function.update b.chips base p }

@[simp] theorem Board.chips_setChip (b : Board) (base : UInt32) (p : Chip) :
    (b.setChip base p).chips base = p := Function.update_self ..

def getCfiDrvPriv (b : Board) (pdrv : UInt32) : Option UInt32 :=
  let ret := if pdrv.toNat < cfiflashMaxNum then b.cfiDrvBase pdrv.toNat else 0
  if ret = 0 then none else some ret

def cfiFlashSec2Bytes (sector : UInt32) : UInt32 := sector <<< cfiflashSecSizeBits

def cfiFlashPageWordOffset (wordOffset : UInt32) : UInt32 := wordOffset &&& cfiflashPageWordsMask

def cfiFlashEraseBlkWordAddr (wordOffset : UInt32) : UInt32 :=
  wordOffset &&& cfiflashEraseblkWordmask

def b2w (bytes : UInt32) : UInt32 := bytes >>> 2

def store (p : Chip) (wordOffset v : UInt32) : Chip := p.write geometry wordOffset.toNat v

def load (p : Chip) (wordOffset : UInt32) : UInt32 × Chip := p.read geometry wordOffset.toNat

def cfiFlashIsReady (wordOffset : UInt32) (p : Chip) : UInt32 × Chip :=
  let r := load (store p wordOffset cfiflashCmdReadStatus) wordOffset
  (r.1 &&& cfiflashStatusReadyMask, r.2)

/-- `while (!CfiFlashIsReady(blkAddr, p)) { }` -/
def waitReady (blkAddr : UInt32) : ℕ → Chip → Option Chip
  | 0, _ => none
  | fuel + 1, p =>
    let r := cfiFlashIsReady blkAddr p
    if r.1 = 0 then waitReady blkAddr fuel r.2 else some r.2

/-- The inner loop of `CfiFlashWriteBuf`; it cannot read past the caller's buffer. -/
def programData : ℕ → UInt32 → List UInt32 → Chip → Option (UInt32 × List UInt32 × Chip)
  | 0, wordOffset, buffer, p => some (wordOffset, buffer, p)
  | _ + 1, _, [], _ => none
  | n + 1, wordOffset, w :: buffer, p => programData n (wordOffset + 1) buffer (store p wordOffset w)

/-- The outer loop of `CfiFlashWriteBuf`, `poll` bounding each wait inside it. -/
def writeLoop (poll : ℕ) : ℕ → UInt32 → List UInt32 → UInt32 → UInt32 → Chip → Option Chip
  | 0, _, _, _, _, _ => none
  | fuel + 1, wordOffset, buffer, words, wordCount, p =>
    if words = 0 then some p
    else
      let blkAddr := cfiFlashEraseBlkWordAddr wordOffset
      let p := store p blkAddr cfiflashCmdBufwrite
      let p := store p blkAddr (wordCount - 1)
      (programData wordCount.toNat wordOffset buffer p).bind fun (wordOffset, buffer, p) =>
        (waitReady blkAddr poll (store p blkAddr cfiflashCmdConfirm)).bind fun p =>
          let words := words - wordCount
          let wordCount := if words ≥ cfiflashPageWords then cfiflashPageWords else words
          writeLoop poll fuel wordOffset buffer words wordCount p

def cfiFlashWriteBuf (fuel : ℕ) (wordOffset : UInt32) (buffer : List UInt32) (words : UInt32)
    (p : Chip) : Option Chip :=
  let i := cfiflashPageWords - cfiFlashPageWordOffset wordOffset
  let wordCount := if i > words then words else i
  (writeLoop fuel fuel wordOffset buffer words wordCount p).map fun p =>
    store p 0 cfiflashCmdClearStatus

def readLoop : ℕ → UInt32 → Chip → List UInt32 × Chip
  | 0, _, p => ([], p)
  | n + 1, wordOffset, p =>
    let r := load p wordOffset
    let rest := readLoop n (wordOffset + 1) r.2
    (r.1 :: rest.1, rest.2)

def cfiFlashRead (b : Board) (pdrv offset nbytes : UInt32) : FlashDresult × List UInt32 × Board :=
  if offset + nbytes > cfiflashCapacity then (.error, [], b)
  else
    match getCfiDrvPriv b pdrv with
    | none => (.error, [], b)
    | some base =>
      let r := readLoop (b2w nbytes).toNat (b2w offset) (b.chips base)
      (.ok, r.1, b.setChip base r.2)

def cfiFlashWrite (fuel : ℕ) (b : Board) (pdrv : UInt32) (buffer : List UInt32)
    (offset nbytes : UInt32) : Option (FlashDresult × Board) :=
  if offset + nbytes > cfiflashCapacity then some (.error, b)
  else
    match getCfiDrvPriv b pdrv with
    | none => some (.error, b)
    | some base =>
      (cfiFlashWriteBuf fuel (b2w offset) buffer (b2w nbytes) (b.chips base)).map fun p =>
        (.ok, b.setChip base p)

def cfiFlashErase (fuel : ℕ) (b : Board) (pdrv offset : UInt32) : Option (FlashDresult × Board) :=
  if offset > cfiflashCapacity then some (.error, b)
  else
    match getCfiDrvPriv b pdrv with
    | none => some (.error, b)
    | some base =>
      let blkAddr := cfiFlashEraseBlkWordAddr (b2w offset)
      let p := store (b.chips base) blkAddr cfiflashCmdErase
      (waitReady blkAddr fuel (store p blkAddr cfiflashCmdConfirm)).map fun p =>
        (.ok, b.setChip base (store p 0 cfiflashCmdClearStatus))

def disckRead (b : Board) (pdrv : UInt8) (startSector nSectors : UInt32) :
    FlashDresult × List UInt32 × Board :=
  let bytes := cfiFlashSec2Bytes nSectors
  let byteOffset := cfiFlashSec2Bytes startSector
  cfiFlashRead b pdrv.toUInt32 byteOffset bytes

def diskWrite (fuel : ℕ) (b : Board) (pdrv : UInt8) (buffer : List UInt32)
    (startSector nSectors : UInt32) : Option (FlashDresult × Board) :=
  let bytes := cfiFlashSec2Bytes nSectors
  let byteOffset := cfiFlashSec2Bytes startSector
  cfiFlashWrite fuel b pdrv.toUInt32 buffer byteOffset bytes

/-- `CfiFlashErase` called for each offset of a list, all of them successful. -/
def eraseAll (fuel : ℕ) (pdrv : UInt32) : List UInt32 → Board → Option Board
  | [], b => some b
  | offset :: offsets, b =>
    (cfiFlashErase fuel b pdrv offset).bind fun (r, b) =>
      if r = .ok then eraseAll fuel pdrv offsets b else none

end CfiFlash
