import DeviceQemu.SyncRequest
import DeviceQemu.VirtmmioNegotiate

/-! The MMC card that virtblock plays.
VirtMmcDoRequest answers the commands of the MMC core: registers are filled bit field by bit field,
and transfers are handed on to VirtblkIO. -/
namespace VirtMmc

open Virtmmio (VirtqDesc)
open SyncRequest (Answer BlkIO virtioBlkTIn mmcSecSize)

def virtioBlkTOut : UInt32 := 1
def virtioBlkSOk : UInt8 := 0
def mmcSecShift : UInt64 := 9
def capacity2G : UInt64 := 0x80000000 / 512
def readBlLen : UInt32 := 11
def cSizeMult : UInt32 := 7
def u32Bits : ℕ := 32
def cidLen : ℕ := 4

/-- What the driver takes from the MMC headers of HDF: the values of the registers, each with the
width of its field, and the offsets in EXT_CSD. -/
structure Mmc where
  cardBusyStatus : UInt32
  readyForData : UInt32
  stateReady : UInt32
  csdStructureVer12 : UInt32
  csdSpecVer4 : UInt32
  cccBasic : UInt32
  cccBlockRead : UInt32
  cccBlockWrite : UInt32
  dataRead : UInt32
  extCsdRelWrSecC : ℕ
  extCsdSecCnt : ℕ
  extCsdCardType : ℕ
  extCsdStructure : ℕ
  extCsdRev : ℕ
  extCsdBusWidth : ℕ
  cardType26 : UInt8
  cardType52 : UInt8
  extCsdStructureVer12 : UInt8
  extCsdRev13 : UInt8
  extCsdBusWidth1 : UInt8
  busy_mode : cardBusyStatus.toNat.testBit 30 = false
  structure_lt : csdStructureVer12.toNat < 2 ^ 2
  spec_lt : csdSpecVer4.toNat < 2 ^ 4
  ccc_lt : (cccBasic ||| cccBlockRead ||| cccBlockWrite).toNat < 2 ^ 12
  secCnt_apart : ∀ o ∈ [extCsdCardType, extCsdStructure, extCsdRev, 191, 189, extCsdBusWidth],
    o < extCsdSecCnt ∨ extCsdSecCnt + 4 ≤ o

def Mmc.ccc (mmc : Mmc) : UInt32 := mmc.cccBasic ||| mmc.cccBlockRead ||| mmc.cccBlockWrite

def Mmc.ocrLe2G (mmc : Mmc) : UInt32 := 0x00FF8080 ||| mmc.cardBusyStatus

def Mmc.ocrGt2G (mmc : Mmc) : UInt32 := 0x40FF8080 ||| mmc.cardBusyStatus

/-- struct Virtblk, at the address `addr`, with the descriptors of its queue. -/
structure Virtblk where
  addr : UInt32
  conf : VirtmmioNegotiate.Virtblk
  io : SyncRequest.Virtblk
  desc : UInt16 → VirtqDesc

abbrev Resp := ℕ → UInt32

def fillCidCsdBits (resp : Resp) (start bits : ℕ) (value : UInt32) : Resp :=
  let index := cidLen - 1 - start / u32Bits
  let lsb := start % u32Bits
  let resp := Function.update resp index (resp index ||| value <<< UInt32.ofNat lsb)
  if lsb + bits > u32Bits then
    Function.update resp (index - 1) (resp (index - 1) ||| value >>> UInt32.ofNat (u32Bits - lsb))
  else resp

def mmcCidCbxSbit : ℕ := 112
def mmcCidCbxWidth : ℕ := 2
def mmcCidPnmSbyte : ℕ := 3
def mmcCidPsnSbyte : ℕ := 10

/-- `b[i] = v` on the little-endian words of the response. -/
def setByte (resp : Resp) (i : ℕ) (v : UInt8) : Resp :=
  let shift := UInt32.ofNat (8 * (i % 4))
  Function.update resp (i / 4)
    (resp (i / 4) &&& ~~~((0xFF : UInt32) <<< shift) ||| v.toUInt32 <<< shift)

def setBytes (resp : Resp) (i : ℕ) : List UInt8 → Resp
  | [] => resp
  | v :: vs => setBytes (setByte resp i v) (i + 1) vs

/-- The first MMC_CID_PNM_BYTES of VIRTMMIO_BLK_NAME. -/
def virtmmioBlkName : List UInt8 := [0x76, 0x69, 0x72, 0x74, 0x62, 0x6c]

def bytesOf (v : UInt32) : List UInt8 :=
  [v.toUInt8, (v >>> 8).toUInt8, (v >>> 16).toUInt8, (v >>> 24).toUInt8]

def virtMmcFillRespCid (resp : Resp) (blk : Virtblk) : Resp :=
  let resp := fillCidCsdBits resp mmcCidCbxSbit mmcCidCbxWidth 1
  let resp := setBytes resp mmcCidPnmSbyte virtmmioBlkName
  setBytes resp mmcCidPsnSbyte (bytesOf blk.addr)

def mmcCsdStructSbit : ℕ := 126
def mmcCsdStructWidth : ℕ := 2
def mmcCsdVersSbit : ℕ := 122
def mmcCsdVersWidth : ℕ := 4
def mmcCsdCccSbit : ℕ := 84
def mmcCsdCccWidth : ℕ := 12
def mmcCsdRblenSbit : ℕ := 80
def mmcCsdRblenWidth : ℕ := 4
def mmcCsdRbpartSbit : ℕ := 79
def mmcCsdWbmisalignSbit : ℕ := 78
def mmcCsdRbmisalignSbit : ℕ := 77
def mmcCsdDsrimpSbit : ℕ := 76
def mmcCsdCsizeSbit : ℕ := 62
def mmcCsdCsizeWidth : ℕ := 12
def mmcCsdCsizeVal : UInt32 := 0xFFF
def mmcCsdCsizemulSbit : ℕ := 47
def mmcCsdCsizemulWidth : ℕ := 3
def mmcCsdEgrpsizeSbit : ℕ := 42
def mmcCsdEgrpsizeWidth : ℕ := 5
def mmcCsdEgrpsizeVal : UInt32 := 31
def mmcCsdEgrpmultSbit : ℕ := 37
def mmcCsdEgrpmultWidth : ℕ := 5
def mmcCsdEgrpmultVal : UInt32 := 15
def mmcCsdWblenSbit : ℕ := 22
def mmcCsdWblenWidth : ℕ := 4
def mmcCsdWbpartSbit : ℕ := 21
def mmcCsdFformgrpSbit : ℕ := 15
def mmcCsdFformatSbit : ℕ := 10
def mmcCsdFformatWidth : ℕ := 2

/-- `__builtin_clz`, for a value that is not 0. -/
def builtinClz (x : UInt32) : UInt32 := 31 - x.log2

/-- The last value written as C_SIZE when the card is not above 2 GiB. -/
def cSize (capacity : UInt64) : UInt32 :=
  (capacity * mmcSecSize.toUInt64 / (1 <<< readBlLen.toUInt64) /
    (1 <<< (cSizeMult + 2).toUInt64) - 1).toUInt32

def virtMmcFillRespCsd (mmc : Mmc) (resp : Resp) (blk : Virtblk) : Resp :=
  let resp := fillCidCsdBits resp mmcCsdStructSbit mmcCsdStructWidth mmc.csdStructureVer12
  let resp := fillCidCsdBits resp mmcCsdVersSbit mmcCsdVersWidth mmc.csdSpecVer4
  let resp := fillCidCsdBits resp mmcCsdCccSbit mmcCsdCccWidth mmc.ccc
  let resp := fillCidCsdBits resp mmcCsdRbpartSbit 1 0
  let resp := fillCidCsdBits resp mmcCsdWbmisalignSbit 1 0
  let resp := fillCidCsdBits resp mmcCsdRbmisalignSbit 1 0
  let resp := fillCidCsdBits resp mmcCsdDsrimpSbit 1 0
  let resp :=
    if blk.conf.capacity > capacity2G then
      let e := UInt32.ofNat u32Bits - builtinClz blk.conf.blkSize - 1
      let resp := fillCidCsdBits resp mmcCsdRblenSbit mmcCsdRblenWidth e
      let resp := fillCidCsdBits resp mmcCsdWblenSbit mmcCsdWblenWidth e
      fillCidCsdBits resp mmcCsdCsizeSbit mmcCsdCsizeWidth mmcCsdCsizeVal
    else
      let resp := fillCidCsdBits resp mmcCsdRblenSbit mmcCsdRblenWidth readBlLen
      let resp := fillCidCsdBits resp mmcCsdWblenSbit mmcCsdWblenWidth readBlLen
      fillCidCsdBits resp mmcCsdCsizeSbit mmcCsdCsizeWidth (cSize blk.conf.capacity)
  let resp := fillCidCsdBits resp mmcCsdCsizemulSbit mmcCsdCsizemulWidth cSizeMult
  let resp := fillCidCsdBits resp mmcCsdEgrpsizeSbit mmcCsdEgrpsizeWidth mmcCsdEgrpsizeVal
  let resp := fillCidCsdBits resp mmcCsdEgrpmultSbit mmcCsdEgrpmultWidth mmcCsdEgrpmultVal
  let resp := fillCidCsdBits resp mmcCsdWbpartSbit 1 0
  let resp := fillCidCsdBits resp mmcCsdFformgrpSbit 1 0
  fillCidCsdBits resp mmcCsdFformatSbit mmcCsdFformatWidth 0

def emmcExtCsdCmdSetRev : ℕ := 189
def emmcExtCsdCmdSet : ℕ := 191
def emmcExtCsdAccSize : ℕ := 225
def emmcExtCsdSCmdSet : ℕ := 504

def setU32 (b : ℕ → UInt8) (o : ℕ) (v : UInt32) : ℕ → UInt8 := fun i =>
  if o ≤ i ∧ i < o + 4 then (v >>> UInt32.ofNat (8 * (i - o))).toUInt8 else b i

def virtMmcFillDataExtCsd (mmc : Mmc) (b : ℕ → UInt8) (blk : Virtblk) : ℕ → UInt8 :=
  let secs := (blk.conf.blkSize / mmcSecSize).toUInt8
  let b := Function.update b emmcExtCsdSCmdSet 0
  let b := Function.update b emmcExtCsdAccSize secs
  let b := Function.update b mmc.extCsdRelWrSecC secs
  let b := setU32 b mmc.extCsdSecCnt blk.conf.capacity.toUInt32
  let b := Function.update b mmc.extCsdCardType (mmc.cardType26 ||| mmc.cardType52)
  let b := Function.update b mmc.extCsdStructure mmc.extCsdStructureVer12
  let b := Function.update b mmc.extCsdRev mmc.extCsdRev13
  let b := Function.update b emmcExtCsdCmdSet 0
  let b := Function.update b emmcExtCsdCmdSetRev 0
  Function.update b mmc.extCsdBusWidth mmc.extCsdBusWidth1

inductive HdfStatus where
  | success
  | errIo
  | errNotSupport
  deriving DecidableEq, Repr

structure MmcData where
  dataFlags : UInt32
  blockNum : UInt32
  dataBuffer : UInt64
  returnError : HdfStatus
  deriving DecidableEq, Repr

structure MmcCmd where
  cmdCode : UInt32
  argument : UInt32
  resp : Resp
  data : MmcData
  returnError : HdfStatus

/-- What comes back while VirtblkIO waits: the result of DmaEventWait, and what the device made of
the request. -/
structure Completion where
  event : UInt32
  answer : Answer
  deriving DecidableEq, Repr

/-- Where the request header and the status byte of the card lie. -/
structure Addrs where
  req : UInt64
  resp : UInt64
  deriving DecidableEq, Repr

def virtblkIo (at_ : Addrs) (c : Completion) (blk : Virtblk) (r : BlkIO) : UInt8 × Virtblk :=
  let d := SyncRequest.virtblk at_.req at_.resp
  let (desc, io) := d.fill r blk.desc blk.io
  let io := d.store c.answer io
  let blk := { blk with desc, io }
  (if c.event ≠ 1 then d.failed else d.result (fun _ => default) io, blk)

/-- The request that VirtMmcIO hands to VirtblkIO. -/
def blkRequest (mmc : Mmc) (blockAddr : Bool) (cmd : MmcCmd) : BlkIO where
  cmd := if cmd.data.dataFlags = mmc.dataRead then virtioBlkTIn else virtioBlkTOut
  startSector :=
    if blockAddr then cmd.argument.toUInt64 else cmd.argument.toUInt64 >>> mmcSecShift
  buf := cmd.data.dataBuffer
  sectors := cmd.data.blockNum

/-- The request VirtblkIO is called with is returned beside the command and the card. -/
def virtMmcIo (mmc : Mmc) (at_ : Addrs) (c : Completion) (blockAddr : Bool) (blk : Virtblk)
    (cmd : MmcCmd) : HdfStatus × BlkIO × MmcCmd × Virtblk :=
  let r := blkRequest mmc blockAddr cmd
  let (ret, blk) := virtblkIo at_ c blk r
  let returnError := if ret = virtioBlkSOk then HdfStatus.success else .errIo
  (.success, r, { cmd with data := { cmd.data with returnError } }, blk)

inductive Command where
  | goIdleState
  | sendOpCond
  | allSendCid
  | sendCid
  | sendExtCsd
  | setRelativeAddr
  | switch
  | selectCard
  | sendStatus
  | sendCsd
  | transfer
  | unsupported
  deriving DecidableEq, Repr

def command (cmdCode : UInt32) : Command :=
  if cmdCode = 0 then .goIdleState
  else if cmdCode = 1 then .sendOpCond
  else if cmdCode = 2 then .allSendCid
  else if cmdCode = 10 then .sendCid
  else if cmdCode = 8 then .sendExtCsd
  else if cmdCode = 3 then .setRelativeAddr
  else if cmdCode = 6 then .switch
  else if cmdCode = 7 then .selectCard
  else if cmdCode = 13 then .sendStatus
  else if cmdCode = 9 then .sendCsd
  else if cmdCode = 17 ∨ cmdCode = 18 ∨ cmdCode = 24 ∨ cmdCode = 25 then .transfer
  else .unsupported

def mmcRespStateBit : UInt32 := 9

def virtMmcFillRespR1 (mmc : Mmc) (cmd : MmcCmd) : MmcCmd :=
  let resp := Function.update cmd.resp 0
    (mmc.readyForData ||| (mmc.stateReady <<< mmcRespStateBit))
  { cmd with resp := Function.update resp 1 cmd.cmdCode }

/-- What a command leaves: the command, the data buffer, the card, and the transfer it made. -/
structure Outcome where
  ret : HdfStatus
  cmd : MmcCmd
  buffer : ℕ → UInt8
  blk : Virtblk
  io : Option BlkIO

/-- The controller, its `priv` and the command are present; `buffer` is what `dataBuffer` points
to. -/
def virtMmcDoRequest (mmc : Mmc) (at_ : Addrs) (c : Completion) (blockAddr : Bool) (blk : Virtblk)
    (buffer : ℕ → UInt8) (cmd : MmcCmd) : Outcome :=
  let cmd := { cmd with returnError := HdfStatus.success }
  match command cmd.cmdCode with
  | .goIdleState => ⟨.success, cmd, buffer, blk, none⟩
  | .sendOpCond =>
    let ocr := if blk.conf.capacity > capacity2G then mmc.ocrGt2G else mmc.ocrLe2G
    ⟨.success, { cmd with resp := Function.update cmd.resp 0 ocr }, buffer, blk, none⟩
  | .allSendCid | .sendCid =>
    ⟨.success, { cmd with resp := virtMmcFillRespCid cmd.resp blk }, buffer, blk, none⟩
  | .sendExtCsd =>
    let cmd := { cmd with data := { cmd.data with returnError := HdfStatus.success } }
    ⟨.success, virtMmcFillRespR1 mmc cmd, virtMmcFillDataExtCsd mmc buffer blk, blk, none⟩
  | .setRelativeAddr | .switch | .selectCard | .sendStatus =>
    ⟨.success, virtMmcFillRespR1 mmc cmd, buffer, blk, none⟩
  | .sendCsd =>
    ⟨.success, { cmd with resp := virtMmcFillRespCsd mmc cmd.resp blk }, buffer, blk, none⟩
  | .transfer =>
    let (ret, r, cmd, blk) := virtMmcIo mmc at_ c blockAddr blk cmd
    ⟨ret, cmd, buffer, blk, some r⟩
  | .unsupported =>
    ⟨.errNotSupport, { cmd with returnError := .errNotSupport }, buffer, blk, none⟩

end VirtMmc
