import DeviceQemu.SyncRequest
import DeviceQemu.Virtgpu
import DeviceQemu.VirtnetTx

/-! Initialisation of the LiteOS-A virtio drivers.
A driver keeps its record and its rings in one block of DMA memory, which LOS_DmaMemAlloc hands
out as it is. Each function yields what it did to resources and to the device, in order, and
how it ended. -/
namespace VirtioInit

open RingWindow Virtmmio

def virtmmioMagic : UInt32 := 0x74726976
def virtmmioVersion : UInt32 := 2
def virtmmioDeviceIdNet : UInt32 := 1
def virtmmioDeviceIdBlk : UInt32 := 2
def virtmmioDeviceIdGpu : UInt32 := 16
def virtmmioDeviceIdInput : UInt32 := 18
def virtmmioBaseAddr : UInt32 := 0x0A000000
def virtmmioBaseSize : UInt32 := 0x200
def virtmmioBaseIrq : UInt32 := 16
def numVirtioTransports : ℕ := 32

/-- `_IRQ_MASK`; the bits above it tell that the interrupt is registered. -/
def irqMask : UInt32 := 0xFF

/-- What the drivers take from the kernel headers. Interrupt numbers fit below the mask. -/
structure Kernel where
  ioDeviceAddr : UInt32 → UInt32
  irqSpiBase : UInt32
  irq_le : irqSpiBase.toNat + 47 ≤ 0xFF

/-- The GIC numbers its shared peripheral interrupts from 32. -/
def gic : Kernel := ⟨id, 32, by decide⟩

inductive Resource where
  | dma
  | irq (num : UInt32)
  | hidInfo
  | inputDevice
  | workQueue
  | timer
  | frameBuffer (addr : UInt32) (pages : ℕ)
  | spinlock
  | netDevice
  | eapol
  | mmcCntlr
  deriving DecidableEq, Repr

inductive Action where
  | acquire (r : Resource)
  | release (r : Resource)
  | reset
  | queueReady (queue : ℕ)
  | driverOk
  | failed
  | notify (queue : ℕ)
  deriving DecidableEq, Repr

/-- `fault` is an access through a null pointer. -/
inductive Outcome (α : Type) where
  | done (a : α)
  | failed
  | fault

structure Result (α : Type) where
  actions : List Action
  outcome : Outcome α

def preceded {α : Type} (actions : List Action) (r : Result α) : Result α :=
  { r with actions := actions ++ r.actions }

@[simp] theorem preceded_actions {α : Type} (as : List Action) (r : Result α) :
    (preceded as r).actions = as ++ r.actions := rfl

@[simp] theorem preceded_outcome {α : Type} (as : List Action) (r : Result α) :
    (preceded as r).outcome = r.outcome := rfl

@[simp] theorem preceded_preceded {α : Type} (as bs : List Action) (r : Result α) :
    preceded as (preceded bs r) = preceded (as ++ bs) r := by simp [preceded]

def Action.acquires : Action → List Resource
  | .acquire r => [r]
  | _ => []

def Action.releases : Action → List Resource
  | .release r => [r]
  | _ => []

def acquired (as : List Action) : List Resource := as.flatMap Action.acquires

def released (as : List Action) : List Resource := as.flatMap Action.releases

structure Transport where
  magicValue : UInt32
  version : UInt32
  deviceId : UInt32
  deriving DecidableEq, Repr

/-- `vq` holds the two queues with the memory their rings will occupy. -/
structure VirtmmioDev where
  base : UInt32
  irq : UInt32
  vq : ℕ → Virtq

def zeroQueue : Virtq := ⟨0, 0, fun _ => ⟨0, 0, 0, 0⟩, ⟨0, 0, fun _ => 0⟩, ⟨0, 0, fun _ => ⟨0, 0⟩⟩⟩

def zeroDev : VirtmmioDev := ⟨0, 0, fun _ => zeroQueue⟩

/-- What the transports and the device answer. `negotiate` is whether the driver's feature
functions and the device agree on the features. -/
structure Bus where
  transports : ℕ → Transport
  negotiate : Bool
  queueNumMax : ℕ → UInt32

def Transport.matches (t : Transport) (devId : UInt32) : Bool :=
  t.magicValue == virtmmioMagic && t.version == virtmmioVersion && t.deviceId == devId

/-- The loop of VirtmmioDiscover, with the transports from `n - 1` down to 0 still to try. -/
def virtmmioDiscover (k : Kernel) (bus : Bus) (devId : UInt32) (dev : VirtmmioDev) :
    ℕ → Option VirtmmioDev
  | 0 => none
  | i + 1 =>
    if (bus.transports i).matches devId then
      some { dev with
        base := k.ioDeviceAddr virtmmioBaseAddr + virtmmioBaseSize * UInt32.ofNat i
        irq := k.irqSpiBase + virtmmioBaseIrq + UInt32.ofNat i }
    else virtmmioDiscover k bus devId dev i

/-- The loop of VirtmmioConfigQueue from queue `i` on; false when the device refuses a queue. -/
def virtmmioConfigQueue (bus : Bus) (i : ℕ) (dev : VirtmmioDev) :
    List UInt16 → List Action × VirtmmioDev × Bool
  | [] => ([], dev, true)
  | qsz :: rest =>
    let dev := { dev with vq := Function.update dev.vq i { dev.vq i with qsz } }
    if bus.queueNumMax i < qsz.toUInt32 then ([], dev, false)
    else
      let (actions, dev, ok) := virtmmioConfigQueue bus (i + 1) dev rest
      (.queueReady i :: actions, dev, ok)

inductive BringUp where
  | absent
  | refused (dev : VirtmmioDev)
  | ready (dev : VirtmmioDev)

/-- VirtmmioDiscover, VirtmmioInitBegin, VirtmmioNegotiate and VirtmmioConfigQueue, which every
driver calls in this order. -/
def bringUp (k : Kernel) (bus : Bus) (devId : UInt32) (qsz : List UInt16) (dev : VirtmmioDev) :
    List Action × BringUp :=
  match virtmmioDiscover k bus devId dev numVirtioTransports with
  | none => ([], .absent)
  | some dev =>
    if bus.negotiate then
      match virtmmioConfigQueue bus 0 dev qsz with
      | (actions, dev, true) => (.reset :: actions, .ready dev)
      | (actions, dev, false) => (.reset :: actions, .refused dev)
    else ([.reset], .refused dev)

def VirtmmioDev.setRegistered (dev : VirtmmioDev) : VirtmmioDev :=
  { dev with irq := dev.irq ||| ~~~irqMask }

def unregisterIrq (dev : VirtmmioDev) : List Action :=
  if dev.irq &&& ~~~irqMask != 0 then [.release (.irq (dev.irq &&& irqMask))] else []

def VirtmmioDev.setQueue (dev : VirtmmioDev) (i : ℕ) (q : Virtq) : VirtmmioDev :=
  { dev with vq := Function.update dev.vq i q }

/-- The first `n` iterations of the loop in PopulateEventQ and PopulateRxBuffer. -/
def populate (addr : UInt16 → UInt64) (len : UInt32) (q : Virtq) : ℕ → Virtq
  | 0 => q
  | n + 1 =>
    let q := populate addr len q n
    let i := UInt16.ofNat n
    { q with
      desc := Function.update q.desc i
        { q.desc i with pAddr := addr i, len, flag := virtqDescFWrite }
      avail := { q.avail with ring := Function.update q.avail.ring i i } }

def virtqEventQsz : UInt16 := 8
def virtqStatusQsz : UInt16 := 1
def virtinEventSize : UInt32 := 8

structure Virtin where
  dev : VirtmmioDev
  realWorkQueue : UInt32

/-- `inputDev` is what HidRegisterHdfInputDev returns, `realWorkQueue` what HdfWorkQueueInit
makes of that field, and `ev` the DMA addresses of the event buffers. -/
structure VirtinEnv extends Bus where
  dmaMemAlloc : Bool
  registerIrq : Bool
  hidInfo : Bool
  inputDev : UInt32
  workQueueInit : Bool
  realWorkQueue : UInt32 → UInt32
  ev : UInt16 → UInt64

def virtinDeInit (m : Virtin) : List Action := unregisterIrq m.dev ++ [.release .dma]

def virtinInitDev (k : Kernel) (env : VirtinEnv) (m : Virtin) : Result Virtin :=
  if env.dmaMemAlloc then
    let (actions, up) := bringUp k env.toBus virtmmioDeviceIdInput
      [virtqEventQsz, virtqStatusQsz] m.dev
    preceded (.acquire .dma :: actions) <|
      match up with
      | .absent => ⟨virtinDeInit m, .failed⟩
      | .refused dev => ⟨.failed :: virtinDeInit { m with dev }, .failed⟩
      | .ready dev =>
        if env.registerIrq then
          ⟨[.acquire (.irq dev.irq)], .done { m with dev := dev.setRegistered }⟩
        else ⟨.failed :: virtinDeInit { m with dev }, .failed⟩
  else ⟨[], .failed⟩

def hdfVirtinRelease (g : UInt32) (m : Virtin) : List Action :=
  (if m.realWorkQueue != 0 then [.release .workQueue] else []) ++
  (if g != 0 then [.release .inputDevice] else []) ++
  virtinDeInit m

/-- HdfVirtinInitHid: whether it succeeds, and g_virtInputDev afterwards. -/
def hdfVirtinInitHid (env : VirtinEnv) (g : UInt32) : List Action × UInt32 × Bool :=
  if env.hidInfo then
    (.acquire .hidInfo :: (if env.inputDev != 0 then [.acquire .inputDevice] else []) ++
      [.release .hidInfo], env.inputDev, env.inputDev != 0)
  else ([], g, false)

def populateEventQ (env : VirtinEnv) (m : Virtin) : Virtin :=
  let q := populate env.ev virtinEventSize (m.dev.vq 0) virtqEventQsz.toNat
  let q := { q with avail := { q.avail with index := q.avail.index + q.qsz } }
  { m with dev := m.dev.setQueue 0 q }

/-- HdfVirtinInit. HDF calls the driver's Release when it fails after VirtinInitDev. -/
def hdfVirtinInit (k : Kernel) (env : VirtinEnv) (g : UInt32) (m : Virtin) : Result Virtin :=
  let r := virtinInitDev k env m
  match r.outcome with
  | .done m =>
    let (hid, g, ok) := hdfVirtinInitHid env g
    preceded (r.actions ++ hid) <|
      if ok then
        let m := { m with realWorkQueue := env.realWorkQueue m.realWorkQueue }
        if env.workQueueInit then
          ⟨[.acquire .workQueue, .notify 0, .driverOk], .done (populateEventQ env m)⟩
        else ⟨hdfVirtinRelease g m, .failed⟩
      else ⟨hdfVirtinRelease g m, .failed⟩
  | _ => r

def virtqCursorQsz : UInt16 := 2
def pixelBytes : UInt32 := 4
def pageSize : UInt32 := 4096

structure Virtgpu where
  dev : VirtmmioDev
  realTimer : UInt32
  width : UInt32
  height : UInt32
  fb : UInt32

/-- `realTimer` is what OsalTimerCreate makes of the timer's field. -/
structure VirtgpuEnv extends Bus where
  dmaMemAlloc : Bool
  timerCreate : Bool
  realTimer : UInt32 → UInt32

def fbPages (gpu : Virtgpu) : ℕ :=
  ((gpu.width * gpu.height * pixelBytes + pageSize - 1) / pageSize).toNat

/-- VirtgpuDeInit; `g` is g_virtGpu, through which the size of the frame buffer is read. -/
def virtgpuDeInit (g : Option Virtgpu) (gpu : Virtgpu) : Result Unit :=
  let timer := if gpu.realTimer != 0 then [.release .timer] else []
  if gpu.fb != 0 then
    match g with
    | none => ⟨timer, .fault⟩
    | some g => ⟨timer ++ [.release (.frameBuffer gpu.fb (fbPages g)), .release .dma], .done ()⟩
  else ⟨timer ++ [.release .dma], .done ()⟩

def Result.thenFail {α : Type} (r : Result Unit) : Result α :=
  ⟨r.actions, match r.outcome with | .fault => .fault | _ => .failed⟩

def hintNoInterrupt (q : Virtq) : Virtq :=
  { q with avail := { q.avail with flag := virtqAvailFNoInterrupt } }

def virtgpuInitDev (k : Kernel) (env : VirtgpuEnv) (g : Option Virtgpu) (m : Virtgpu) :
    Result Virtgpu :=
  if env.dmaMemAlloc then
    let (actions, up) := bringUp k env.toBus virtmmioDeviceIdGpu
      [Virtgpu.virtqControlQsz, virtqCursorQsz] m.dev
    preceded (.acquire .dma :: actions) <|
      match up with
      | .absent => (virtgpuDeInit g m).thenFail
      | .refused dev => preceded [.failed] (virtgpuDeInit g { m with dev }).thenFail
      | .ready dev =>
        let m := { m with dev, realTimer := env.realTimer m.realTimer }
        if env.timerCreate then
          let dev := dev.setQueue 0 (hintNoInterrupt (dev.vq 0))
          let dev := dev.setQueue 1 (hintNoInterrupt (dev.vq 1))
          ⟨[.acquire .timer, .driverOk], .done { m with dev }⟩
        else preceded [.failed] (virtgpuDeInit g m).thenFail
  else ⟨[], .failed⟩

structure Virtblk where
  dev : VirtmmioDev

/-- `req` and `resp` are the DMA addresses of these members of the record. -/
structure VirtblkEnv extends Bus where
  dmaMemAlloc : Bool
  eventInit : Bool
  registerIrq : Bool
  req : UInt64
  resp : UInt64

def virtblkDeInit (m : Virtblk) : List Action := unregisterIrq m.dev ++ [.release .dma]

def populateRequestQ (env : VirtblkEnv) (desc : UInt16 → VirtqDesc) : UInt16 → VirtqDesc :=
  let desc := Function.update desc 0 ⟨env.req, SyncRequest.virtblkReqSize, virtqDescFNext, 1⟩
  let desc := Function.update desc 1 { desc 1 with next := 2 }
  Function.update desc 2 { desc 2 with pAddr := env.resp, len := 1, flag := virtqDescFWrite }

/-- VirtblkInitDev clears the whole block before it uses any of it. -/
def virtblkInitDev (k : Kernel) (env : VirtblkEnv) (_ : Virtblk) : Result Virtblk :=
  if env.dmaMemAlloc then
    let m : Virtblk := ⟨zeroDev⟩
    let (actions, up) := bringUp k env.toBus virtmmioDeviceIdBlk [SyncRequest.virtblkRequestQsz]
      m.dev
    preceded (.acquire .dma :: actions) <|
      match up with
      | .absent => ⟨virtblkDeInit m, .failed⟩
      | .refused dev => ⟨.failed :: virtblkDeInit ⟨dev⟩, .failed⟩
      | .ready dev =>
        if env.eventInit && env.registerIrq then
          let q := dev.vq 0
          let q := { q with desc := populateRequestQ env q.desc }
          ⟨[.acquire (.irq dev.irq), .driverOk], .done ⟨dev.setRegistered.setQueue 0 q⟩⟩
        else ⟨.failed :: virtblkDeInit ⟨dev⟩, .failed⟩
  else ⟨[], .failed⟩

/-- What HdfVirtblkBind does beyond VirtblkInitDev can fail in these steps. -/
structure VirtblkBindEnv extends VirtblkEnv where
  cntlrAlloc : Bool
  mmcCntlrParse : Bool
  mmcCntlrAdd : Bool

def hdfVirtblkRelease (m : Virtblk) : List Action := virtblkDeInit m ++ [.release .mmcCntlr]

def hdfVirtblkBind (k : Kernel) (env : VirtblkBindEnv) (m : Virtblk) : Result Virtblk :=
  if env.cntlrAlloc then
    let r := virtblkInitDev k env.toVirtblkEnv m
    preceded (.acquire .mmcCntlr :: r.actions) <|
      match r.outcome with
      | .done m =>
        if env.mmcCntlrParse && env.mmcCntlrAdd then ⟨[], .done m⟩
        else ⟨hdfVirtblkRelease m, .failed⟩
      | _ => ⟨[.release .mmcCntlr], .failed⟩
  else ⟨[], .failed⟩

def virtqRxQsz : UInt16 := 16
def virtqTxQsz : UInt16 := 32
def perRxbufSize : UInt32 := VirtnetTx.virtnetHdrSize + 1514

structure VirtNetif where
  dev : VirtmmioDev
  tFreeHdr : UInt16
  tFreeNum : UInt16

/-- `rbuf` are the DMA addresses of the receive buffers. -/
structure VirtnetEnv extends Bus where
  dmaMemAlloc : Bool
  spinInit : Bool
  registerIrq : Bool
  netDeviceAdd : Bool
  createEapolData : Bool
  setStatus : Bool
  setAddr : Bool
  rbuf : UInt16 → UInt64

def initTxFreelist (nic : VirtNetif) : VirtNetif :=
  let q := nic.dev.vq 1
  let q := { q with desc := VirtnetTx.initTxFreelist q.desc (q.qsz.toNat - 1) }
  { dev := nic.dev.setQueue 1 q, tFreeHdr := 0, tFreeNum := q.qsz }

def populateRxBuffer (env : VirtnetEnv) (nic : VirtNetif) : VirtNetif :=
  let q := nic.dev.vq 0
  { nic with dev := nic.dev.setQueue 0 (populate env.rbuf perRxbufSize q q.qsz.toNat) }

/-- VirtnetInit; nothing is released when it fails. -/
def virtnetInit (k : Kernel) (env : VirtnetEnv) (_ : VirtNetif) : Result VirtNetif :=
  if env.dmaMemAlloc then
    let nic : VirtNetif := ⟨zeroDev, 0, 0⟩
    let (actions, up) := bringUp k env.toBus virtmmioDeviceIdNet [virtqRxQsz, virtqTxQsz] nic.dev
    preceded (.acquire .dma :: actions) <|
      match up with
      | .absent => ⟨[], .failed⟩
      | .refused _ => ⟨[.failed], .failed⟩
      | .ready dev =>
        let nic := initTxFreelist (populateRxBuffer env { nic with dev })
        if env.spinInit then
          if env.registerIrq then
            ⟨[.acquire .spinlock, .acquire (.irq dev.irq), .driverOk],
              .done { nic with dev := nic.dev.setRegistered }⟩
          else ⟨[.acquire .spinlock, .failed], .failed⟩
        else ⟨[.failed], .failed⟩
  else ⟨[], .failed⟩

def virtnetDeInit (nic : VirtNetif) : List Action := unregisterIrq nic.dev ++ [.release .dma]

def publishRx (nic : VirtNetif) : VirtNetif :=
  let q := nic.dev.vq 0
  let q := { q with avail := { q.avail with index := q.qsz } }
  { nic with dev := nic.dev.setQueue 0 q }

def virtNetDeviceInit (k : Kernel) (env : VirtnetEnv) (m : VirtNetif) : Result VirtNetif :=
  let r := virtnetInit k env m
  match r.outcome with
  | .done nic =>
    preceded r.actions <|
      if env.netDeviceAdd then
        if env.createEapolData then
          let actions := [.acquire .netDevice, .acquire .eapol, .notify 0]
          if env.setStatus && env.setAddr then ⟨actions, .done (publishRx nic)⟩
          else ⟨actions, .failed⟩
        else ⟨.acquire .netDevice :: virtnetDeInit nic, .failed⟩
      else ⟨virtnetDeInit nic, .failed⟩
  | _ => r

end VirtioInit
