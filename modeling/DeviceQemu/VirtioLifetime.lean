import DeviceQemu.VirtioInitMemory
import DeviceQemu.VirtioTraffic
import DeviceQemu.VirtgpuRefresh

/-! DMA memory and the devices that reach it.
The calls of the virtnet, virtblk and virtgpu drivers as scripts over the memory that the
device shares, with the traffic of each device in between. No clean-up resets the device, so
it is safe exactly where the device was not started or was reset since. -/
namespace VirtioLifetime

open StepSystem RingWindow Virtmmio DmaLifetime VirtioInit VirtioInitMemory VirtioTraffic

variable {τ β : Type}

/-- What an action does to the shared memory. `onTake` and `onFree` are the assignments to the
driver's pointer that go with the allocation and the free. -/
def opsOf (onTake onFree : List (Op τ β)) (fresh : Option τ) : Action → List (Op τ β)
  | .acquire .dma => .take :: onTake
  | .release .dma => .free :: onFree
  | .reset => [.reset]
  | .queueReady _ => [.point]
  | .driverOk => (fresh.map .start).toList
  | _ => []

/-- How a call closes: `onBind` when it succeeded. -/
def ending {α : Type} (allocated : Bool) (onBind : List (Op τ β)) : Outcome α → List (Op τ β)
  | .done _ => onBind
  | .failed => if allocated then [.finish] else []
  | .fault => [.halt]

def doneWith {α : Type} (f : α → τ) : Outcome α → Option τ
  | .done a => some (f a)
  | _ => none

theorem setup_admits {ι ε : Type} {d : Driver ι τ ε β} {as : List Action} (h : Setup as)
    {ops : Action → List (Op τ β)} (hreset : ops .reset = [.reset])
    (hready : ∀ i, ops (.queueReady i) = [.point]) {rest : List (Op τ β)}
    (hrest : Admits d .ready rest) : Admits d .taken (as.flatMap ops ++ rest) := by
  obtain ⟨queues, rfl⟩ := h
  have hqueues : Admits d .ready ((queues.map Action.queueReady).flatMap ops ++ rest) := by
    induction queues with
    | nil => exact hrest
    | cons i queues ih =>
      rw [List.map_cons, List.flatMap_cons, hready]
      exact ⟨by simp, .ready, rfl, ih⟩
  rw [List.flatMap_cons, hreset]
  exact ⟨by simp, .ready, rfl, hqueues⟩

/-- The transmit side as VirtnetInit leaves it. -/
def txOf (nic : VirtNetif) : VirtnetTx.State VirtnetTx.NetBuf VirtnetTx.NetBuf where
  q := nic.dev.vq 1
  tFreeHdr := nic.tFreeHdr
  tFreeNum := nic.tFreeNum
  tbufRec := fun _ => ⟨0, 0, 0⟩
  transLock := false
  sender := .idle
  handler := .off
  dev := ⟨0, [], false⟩
  doorbell := 0
  handed := []
  completed := []
  freed := []

structure VirtnetCall where
  env : VirtnetEnv
  nic : VirtNetif
  vnHdr : UInt64

/-- VirtNetDeviceInit; VirtnetInit stores the block in the NetDevice as soon as it has it. -/
def virtnetScript (k : Kernel) (c : VirtnetCall) : List (Op VirtnetRun (UInt64 × UInt32)) :=
  let fresh := doneWith (fun nic => ⟨c.vnHdr, txOf nic⟩) (virtnetInit k c.env c.nic).outcome
  let r := virtNetDeviceInit k c.env c.nic
  r.actions.flatMap (opsOf [.keep] [.drop] fresh) ++ ending c.env.dmaMemAlloc [.bind] r.outcome

/-- `release` is VirtNetDeviceDeInit. -/
def virtnetDriver (k : Kernel) :
    Driver VirtnetCall VirtnetRun (VirtnetTx.Event VirtnetTx.NetBuf) (UInt64 × UInt32) where
  toTraffic := virtnet
  script := virtnetScript k
  release := [.free, .drop, .finish]

/-- VirtnetInit gets as far as DRIVER_OK. -/
def virtnetStarts (env : VirtnetEnv) : Bool :=
  env.dmaMemAlloc && found env.toBus virtmmioDeviceIdNet &&
    accepted env.toBus [virtqRxQsz, virtqTxQsz] && env.spinInit && env.registerIrq

def VirtnetClean (c : VirtnetCall) : Prop :=
  virtnetStarts c.env = true →
    c.env.netDeviceAdd = true ∧ c.env.createEapolData = true ∧ c.env.setStatus = true ∧
      c.env.setAddr = true

/-- VirtnetDeInit frees what the script of the release does. -/
theorem virtnetDeInit_ops (k : Kernel) (nic : VirtNetif) (fresh : Option VirtnetRun) :
    (virtnetDeInit nic).flatMap (opsOf [.keep] [.drop] fresh) ++ [.finish] =
      (virtnetDriver k).release := by
  by_cases hirq : nic.dev.irq &&& ~~~irqMask = 0
  · simp [virtnetDeInit, unregisterIrq_clear hirq, opsOf, virtnetDriver]
  · simp [virtnetDeInit, unregisterIrq_set hirq, opsOf, virtnetDriver]

theorem txOf_init {env : VirtnetEnv} {dev : VirtmmioDev}
    (hvq : dev.vq = sized zeroDev.vq 0 [virtqRxQsz, virtqTxQsz]) :
    VirtnetTx.Init 32 (txOf (registered (configured env dev))) := by
  have h1 : dev.vq 1 = { zeroQueue with qsz := virtqTxQsz } := by rw [hvq]; rfl
  have htx : (txOf (registered (configured env dev))).q =
      { dev.vq 1 with
        desc := VirtnetTx.initTxFreelist (dev.vq 1).desc ((dev.vq 1).qsz.toNat - 1) } := rfl
  have hnum : (txOf (registered (configured env dev))).tFreeNum = (dev.vq 1).qsz := rfl
  rw [h1] at htx hnum
  constructor
  case size | last | availIndex | availFlag | usedIndex => rw [htx]; rfl
  case desc => exact ⟨zeroQueue.desc, by rw [htx]; rfl⟩
  case tFreeNum => rw [hnum]; rfl
  all_goals rfl

theorem virtnet_script (k : Kernel) (c : VirtnetCall) (hc : VirtnetClean c) :
    Admits (virtnetDriver k) .idle (virtnetScript k c) := by
  by_cases halloc : c.env.dmaMemAlloc = true
  swap
  · simp [virtnetScript, virtNetDeviceInit, virtnetInit, halloc, ending, Admits]
  have hfail : ∀ {as}, Setup as → virtnetScript k c =
      .take :: .keep :: (as.flatMap (opsOf [.keep] [.drop] none) ++ [.finish]) →
      Admits (virtnetDriver k) .idle (virtnetScript k c) := by
    intro as hset hscript
    rw [hscript]
    exact ⟨by simp, .taken, rfl, by simp, .taken, rfl, setup_admits hset rfl (fun _ => rfl)
      ⟨by simp, .idle, rfl, .inl rfl⟩⟩
  rcases bringUp_spec k c.env.toBus virtmmioDeviceIdNet [virtqRxQsz, virtqTxQsz] zeroDev with
    ⟨hf, hup⟩ | ⟨hf, as, dev, hset, hirq, ⟨ha, hup⟩ | ⟨ha, hup, hvq⟩⟩
  · have hscript : virtnetScript k c = [.take, .keep, .finish] := by
      simp [virtnetScript, virtNetDeviceInit, virtnetInit, halloc, hup, ending, opsOf]
    rw [hscript]
    exact ⟨by simp, .taken, rfl, by simp, .taken, rfl, by simp, .idle, rfl, .inl rfl⟩
  · refine hfail hset ?_
    simp [virtnetScript, virtNetDeviceInit, virtnetInit, halloc, hup, ending, opsOf, doneWith]
  by_cases hspin : c.env.spinInit = true
  swap
  · refine hfail hset ?_
    simp [virtnetScript, virtNetDeviceInit, virtnetInit, halloc, hup, hspin, ending, opsOf,
      doneWith]
  by_cases hreg : c.env.registerIrq = true
  swap
  · refine hfail hset ?_
    simp [virtnetScript, virtNetDeviceInit, virtnetInit, halloc, hup, hspin, hreg, ending, opsOf,
      doneWith]
  obtain ⟨hadd, heapol, hstatus, haddr⟩ :=
    hc (by simp [virtnetStarts, halloc, hf, ha, hspin, hreg])
  have hscript : virtnetScript k c =
      .take :: .keep :: (as.flatMap (opsOf [.keep] [.drop]
          (some ⟨c.vnHdr, txOf (registered (configured c.env dev))⟩)) ++
        [.start ⟨c.vnHdr, txOf (registered (configured c.env dev))⟩, .bind]) := by
    simp [virtnetScript, virtNetDeviceInit, virtnetInit, halloc, hup, hspin, hreg, hadd, heapol,
      hstatus, haddr, ending, opsOf, doneWith, configured, registered]
  rw [hscript]
  refine ⟨by simp, .taken, rfl, by simp, .taken, rfl, setup_admits hset rfl (fun _ => rfl)
    ⟨fun t ht => ?_, .running, rfl, by simp, .bound, rfl, .inr rfl⟩⟩
  obtain rfl : _ = t := by injection ht
  exact txOf_init hvq

theorem virtnet_driver_lawful (k : Kernel) : (virtnetDriver k).Lawful VirtnetClean where
  traffic := virtnet_lawful
  script := virtnet_script k
  release := ⟨by simp, .idle, rfl, by simp, .idle, rfl, by simp, .idle, rfl, .inl rfl⟩

/-- The request queue as VirtblkInitDev leaves it. -/
def ioOf (m : VirtioInit.Virtblk) :
    SyncRequest.State SyncRequest.BlkIO SyncRequest.Virtblk SyncRequest.BlkView UInt8 where
  q := m.dev.vq 0
  mem := ⟨⟨0, 0, 0⟩, 0⟩
  event := false
  isr := false
  pc := .idle
  irq := .idle
  dev := ⟨0, none, false⟩
  doorbell := 0
  issued := []
  answered := []
  returned := []

structure VirtblkCall where
  env : VirtblkBindEnv
  blk : VirtioInit.Virtblk

def virtblkScript (k : Kernel) (c : VirtblkCall) : List (Op VirtblkRun SyncRequest.Span) :=
  let fresh := doneWith (fun m => ⟨c.env.req, c.env.resp, ioOf m⟩)
    (virtblkInitDev k c.env.toVirtblkEnv c.blk).outcome
  let r := hdfVirtblkBind k c.env c.blk
  r.actions.flatMap (opsOf [] [] fresh) ++
    ending (c.env.cntlrAlloc && c.env.dmaMemAlloc) [.keep, .bind] r.outcome

def virtblkDriver (k : Kernel) :
    Driver VirtblkCall VirtblkRun (SyncRequest.Event SyncRequest.BlkIO) SyncRequest.Span where
  toTraffic := virtblk
  script := virtblkScript k
  release := [.free, .drop, .finish]

/-- VirtblkInitDev gets as far as DRIVER_OK. -/
def virtblkStarts (env : VirtblkBindEnv) : Bool :=
  env.cntlrAlloc && env.dmaMemAlloc && found env.toBus virtmmioDeviceIdBlk &&
    accepted env.toBus [SyncRequest.virtblkRequestQsz] && env.eventInit && env.registerIrq

/-- HdfVirtblkRelease frees what the script of the release does. -/
theorem hdfVirtblkRelease_ops (k : Kernel) (m : VirtioInit.Virtblk) (fresh : Option VirtblkRun) :
    (hdfVirtblkRelease m).flatMap (opsOf [] [.drop] fresh) ++ [.finish] =
      (virtblkDriver k).release := by
  by_cases hirq : m.dev.irq &&& ~~~irqMask = 0
  · simp [hdfVirtblkRelease, virtblkDeInit, unregisterIrq_clear hirq, opsOf, virtblkDriver]
  · simp [hdfVirtblkRelease, virtblkDeInit, unregisterIrq_set hirq, opsOf, virtblkDriver]

def VirtblkClean (c : VirtblkCall) : Prop :=
  virtblkStarts c.env = true → c.env.mmcCntlrParse = true ∧ c.env.mmcCntlrAdd = true

theorem ioOf_init {env : VirtblkEnv} {m : VirtioInit.Virtblk} (h : VirtblkReady env m) :
    SyncRequest.Init (SyncRequest.virtblk env.req env.resp) (ioOf m) := by
  constructor
  case size => exact h.request.size
  case last => exact h.request.last
  case populated => exact h.desc
  case availFlag => exact h.request.flag
  case availIndex => exact h.request.index
  case usedIndex => exact h.request.used
  all_goals rfl

theorem virtblk_script (k : Kernel) (c : VirtblkCall) (hc : VirtblkClean c) :
    Admits (virtblkDriver k) .idle (virtblkScript k c) := by
  by_cases hcntlr : c.env.cntlrAlloc = true
  swap
  · simp [virtblkScript, hdfVirtblkBind, hcntlr, ending, Admits]
  by_cases halloc : c.env.dmaMemAlloc = true
  swap
  · simp [virtblkScript, hdfVirtblkBind, virtblkInitDev, hcntlr, halloc, ending, opsOf, Admits]
  have hzero : unregisterIrq zeroDev = [] := rfl
  have hfail : ∀ {as}, Setup as → virtblkScript k c =
      .take :: (as.flatMap (opsOf [] [] none) ++ [.free, .finish]) →
      Admits (virtblkDriver k) .idle (virtblkScript k c) := by
    intro as hset hscript
    rw [hscript]
    exact ⟨by simp, .taken, rfl, setup_admits hset rfl (fun _ => rfl)
      ⟨by simp, .idle, rfl, by simp, .idle, rfl, .inl rfl⟩⟩
  rcases bringUp_spec k c.env.toBus virtmmioDeviceIdBlk [SyncRequest.virtblkRequestQsz] zeroDev with
    ⟨hf, hup⟩ | ⟨hf, as, dev, hset, hirq, ⟨ha, hup⟩ | ⟨ha, hup, hvq⟩⟩
  · have hscript : virtblkScript k c = [.take, .free, .finish] := by
      simp [virtblkScript, hdfVirtblkBind, virtblkInitDev, hcntlr, halloc, hup, virtblkDeInit,
        hzero, ending, opsOf]
    rw [hscript]
    exact ⟨by simp, .taken, rfl, by simp, .idle, rfl, by simp, .idle, rfl, .inl rfl⟩
  · refine hfail hset ?_
    have hclear := unregisterIrq_clear (and_not_irqMask hirq)
    simp [virtblkScript, hdfVirtblkBind, virtblkInitDev, hcntlr, halloc, hup, virtblkDeInit,
      hclear, ending, opsOf, doneWith]
  by_cases hready : (c.env.eventInit && c.env.registerIrq) = true
  swap
  · refine hfail hset ?_
    have hclear := unregisterIrq_clear (and_not_irqMask hirq)
    simp [virtblkScript, hdfVirtblkBind, virtblkInitDev, hcntlr, halloc, hup, hready,
      virtblkDeInit, hclear, ending, opsOf, doneWith]
  obtain ⟨hevent, hreg⟩ := Bool.and_eq_true_iff.mp hready
  obtain ⟨hparse, hadd⟩ :=
    hc (by simp [virtblkStarts, hcntlr, halloc, hf, ha, hevent, hreg])
  obtain ⟨m, hinit⟩ : ∃ m, virtblkInitDev k c.env.toVirtblkEnv c.blk =
      ⟨.acquire .dma :: (as ++ [.acquire (.irq dev.irq), .driverOk]), .done m⟩ :=
    ⟨_, by simp [virtblkInitDev, halloc, hup, hready, preceded]; rfl⟩
  have hsound := virtblk_sound k c.env.toVirtblkEnv c.blk
  rw [hinit] at hsound
  have hscript : virtblkScript k c =
      .take :: (as.flatMap (opsOf [] [] (some ⟨c.env.req, c.env.resp, ioOf m⟩)) ++
        [.start ⟨c.env.req, c.env.resp, ioOf m⟩, .keep, .bind]) := by
    simp [virtblkScript, hdfVirtblkBind, hinit, hcntlr, hparse, hadd, ending, opsOf, doneWith]
  rw [hscript]
  refine ⟨by simp, .taken, rfl, setup_admits hset rfl (fun _ => rfl) ⟨fun t ht => ?_, .running,
    rfl, by simp, .running, rfl, by simp, .bound, rfl, .inr rfl⟩⟩
  obtain rfl : _ = t := by injection ht
  exact ioOf_init hsound

theorem virtblk_driver_lawful (k : Kernel) : (virtblkDriver k).Lawful VirtblkClean where
  traffic := virtblk_lawful
  script := virtblk_script k
  release := ⟨by simp, .idle, rfl, by simp, .idle, rfl, by simp, .idle, rfl, .inl rfl⟩

/-- The control queue as VirtgpuInitDev leaves it, with the first command of fb_register next. -/
def ctlOf (edid : Bool) (m : VirtioInit.Virtgpu) : Virtgpu.State where
  q := m.dev.vq 0
  notified := 0
  resp := ⟨0, 0⟩
  pc := .request .getDisplayInfo (Virtgpu.initCmds edid).tail

/-- `stray` is the memory at the address that the frame buffer pointer of the block holds
before it is ever set. -/
structure VirtgpuCall where
  env : VirtgpuEnv
  g_virtGpu : Option VirtioInit.Virtgpu
  gpu : VirtioInit.Virtgpu
  mem : Virtgpu.Memory
  edid : Bool
  fbAlloc : Bool
  fbRegister : Bool
  timerStart : Bool
  stray : Mem (UInt64 × UInt32)

/-- What fb_register and VirtgpuBeginNormDisplay go on with. -/
def displayOf (c : VirtgpuCall) (m : VirtioInit.Virtgpu) : VirtgpuRun where
  mem := c.mem
  ctl := ctlOf c.edid m
  cursor := m.dev.vq 1
  fbAlloc := c.fbAlloc
  fbRegister := c.fbRegister
  timerStart := c.timerStart
  fb := false
  attached := false

def withFrameBuffer (onFrameBuffer : List (Op τ β)) (ops : Action → List (Op τ β)) :
    Action → List (Op τ β)
  | .release (.frameBuffer _ _) => onFrameBuffer
  | a => ops a

/-- HdfVirtgpuInit: VirtgpuInitDev, then fb_register and VirtgpuBeginNormDisplay, which send
their commands through the device. -/
def virtgpuScript (k : Kernel) (c : VirtgpuCall) : List (Op VirtgpuRun (UInt64 × UInt32)) :=
  let r := virtgpuInitDev k c.env c.g_virtGpu c.gpu
  let fresh := doneWith (displayOf c) r.outcome
  r.actions.flatMap (withFrameBuffer [.stray c.stray] (opsOf [] [] fresh)) ++
    ending c.env.dmaMemAlloc [.keep, .await, .bind] r.outcome

/-- `release` is HdfVirtgpuRelease, which HDF also calls when HdfVirtgpuInit fails. -/
def virtgpuDriver (k : Kernel) :
    Driver VirtgpuCall VirtgpuRun Virtgpu.Event (UInt64 × UInt32) where
  toTraffic := virtgpu
  script := virtgpuScript k
  release := [.freeBacking, .free, .drop, .finish]

/-- VirtgpuInitDev gets as far as DRIVER_OK. -/
def virtgpuStarts (env : VirtgpuEnv) : Bool :=
  found env.toBus virtmmioDeviceIdGpu &&
    accepted env.toBus [Virtgpu.virtqControlQsz, virtqCursorQsz] && env.timerCreate

/-- The block holds no stale counters when it is put to use, and no stale frame buffer when
VirtgpuInitDev fails. -/
def VirtgpuClean (c : VirtgpuCall) : Prop :=
  c.env.dmaMemAlloc = true →
    if virtgpuStarts c.env = true then
      CountersZero (c.gpu.dev.vq 0) ∧ CountersZero (c.gpu.dev.vq 1)
    else c.gpu.fb = 0

theorem displayOf_fresh {c : VirtgpuCall} {m : VirtioInit.Virtgpu} (h : VirtgpuReady m) :
    virtgpu.Fresh (displayOf c m) := by
  obtain ⟨hcontrol, hcursor⟩ := h
  exact ⟨⟨c.edid, hcontrol.size, hcontrol.last, hcontrol.index, hcontrol.used, rfl, rfl⟩,
    hcursor.index⟩

theorem virtgpuDeInit_ops (onFrameBuffer : List (Op τ β)) (fresh : Option τ)
    (g : Option VirtioInit.Virtgpu) {m : VirtioInit.Virtgpu} (h : m.fb = 0) :
    (virtgpuDeInit g m).actions.flatMap (withFrameBuffer onFrameBuffer (opsOf [] [] fresh)) =
        [.free] ∧
      (virtgpuDeInit g m).outcome = .done () := by
  by_cases ht : m.realTimer = 0 <;> simp [virtgpuDeInit, h, ht, withFrameBuffer, opsOf]

/-- Once the frame buffer is there, VirtgpuDeInit frees what the script of the release does. -/
theorem hdfVirtgpuRelease_ops (k : Kernel) (g : VirtioInit.Virtgpu) {m : VirtioInit.Virtgpu}
    (h : m.fb ≠ 0) :
    (virtgpuDeInit (some g) m).actions.flatMap
        (withFrameBuffer [.freeBacking] (opsOf [] [.drop] none)) ++ [.finish] =
      (virtgpuDriver k).release := by
  by_cases ht : m.realTimer = 0 <;>
    simp [virtgpuDeInit, h, ht, withFrameBuffer, opsOf, virtgpuDriver]

theorem virtgpu_script (k : Kernel) (c : VirtgpuCall) (hc : VirtgpuClean c) :
    Admits (virtgpuDriver k) .idle (virtgpuScript k c) := by
  by_cases halloc : c.env.dmaMemAlloc = true
  swap
  · simp [virtgpuScript, virtgpuInitDev, halloc, ending, Admits]
  have hclean := hc halloc
  have hfail : ∀ {as}, Setup as → virtgpuScript k c =
      .take :: (as.flatMap (withFrameBuffer [.stray c.stray] (opsOf [] [] none)) ++ [.free, .finish]) →
      Admits (virtgpuDriver k) .idle (virtgpuScript k c) := by
    intro as hset hscript
    rw [hscript]
    exact ⟨by simp, .taken, rfl, setup_admits hset rfl (fun _ => rfl)
      ⟨by simp, .idle, rfl, by simp, .idle, rfl, .inl rfl⟩⟩
  rcases bringUp_spec k c.env.toBus virtmmioDeviceIdGpu [Virtgpu.virtqControlQsz, virtqCursorQsz]
    c.gpu.dev with ⟨hf, hup⟩ | ⟨hf, as, dev, hset, hirq, ⟨ha, hup⟩ | ⟨ha, hup, hvq⟩⟩
  · have hfb : c.gpu.fb = 0 := by simpa [virtgpuStarts, hf] using hclean
    obtain ⟨hops, hout⟩ :=
      virtgpuDeInit_ops [.stray c.stray] (none : Option VirtgpuRun) c.g_virtGpu hfb
    have hscript : virtgpuScript k c = [.take, .free, .finish] := by
      simp [virtgpuScript, virtgpuInitDev, halloc, hup, Result.thenFail, hops, hout, ending,
        withFrameBuffer, opsOf, doneWith]
    rw [hscript]
    exact ⟨by simp, .taken, rfl, by simp, .idle, rfl, by simp, .idle, rfl, .inl rfl⟩
  · have hfb : c.gpu.fb = 0 := by simpa [virtgpuStarts, ha] using hclean
    obtain ⟨hops, hout⟩ := @virtgpuDeInit_ops VirtgpuRun (UInt64 × UInt32) [.stray c.stray] none c.g_virtGpu { c.gpu with dev } hfb
    refine hfail hset ?_
    simp [virtgpuScript, virtgpuInitDev, halloc, hup, Result.thenFail, hops, hout, ending,
      withFrameBuffer, opsOf, doneWith]
  by_cases htimer : c.env.timerCreate = true
  swap
  · have hfb : c.gpu.fb = 0 := by simpa [virtgpuStarts, htimer] using hclean
    obtain ⟨hops, hout⟩ := @virtgpuDeInit_ops VirtgpuRun (UInt64 × UInt32) [.stray c.stray] none c.g_virtGpu
      { c.gpu with dev, realTimer := c.env.realTimer c.gpu.realTimer } hfb
    refine hfail hset ?_
    simp [virtgpuScript, virtgpuInitDev, halloc, hup, htimer, Result.thenFail, hops, hout, ending,
      withFrameBuffer, opsOf, doneWith]
  have hzero : CountersZero (c.gpu.dev.vq 0) ∧ CountersZero (c.gpu.dev.vq 1) := by
    simpa [virtgpuStarts, hf, ha, htimer] using hclean
  obtain ⟨m, hinit⟩ : ∃ m, virtgpuInitDev k c.env c.g_virtGpu c.gpu =
      ⟨.acquire .dma :: (as ++ [.acquire .timer, .driverOk]), .done m⟩ :=
    ⟨_, by simp [virtgpuInitDev, halloc, hup, htimer, preceded]; rfl⟩
  have hready : VirtgpuReady m := by
    have hsound := (virtgpu_sound_iff k c.env c.g_virtGpu c.gpu).mpr
      (by simpa [VirtgpuUnaffected, halloc, hf, ha, htimer] using hzero)
    rw [hinit] at hsound
    exact hsound
  have hscript : virtgpuScript k c =
      .take :: (as.flatMap (withFrameBuffer [.stray c.stray] (opsOf [] []
          (some (displayOf c m)))) ++
        [.start (displayOf c m), .keep, .await, .bind]) := by
    simp [virtgpuScript, hinit, ending, withFrameBuffer, opsOf, doneWith]
  rw [hscript]
  refine ⟨by simp, .taken, rfl, setup_admits hset rfl (fun _ => rfl) ⟨fun t ht => ?_, .running, rfl,
    by simp, .running, rfl, by simp, .running, rfl, by simp, .bound, rfl, .inr rfl⟩⟩
  obtain rfl : _ = t := by injection ht
  exact displayOf_fresh hready

theorem virtgpu_driver_lawful (k : Kernel) : (virtgpuDriver k).Lawful VirtgpuClean where
  traffic := virtgpu_lawful
  script := virtgpu_script k
  release := ⟨by simp, .idle, rfl, by simp, .idle, rfl, by simp, .idle, rfl, by simp, .idle, rfl,
    .inl rfl⟩

/-- In a run where no initialisation fails after DRIVER_OK, none takes over stale counters or a
stale frame buffer, and no started device is released, what the device can reach is always
memory that is neither freed nor left by a failed or undone initialisation. -/
theorem dma_outlives_device (k : Kernel) :
    (∀ es, OrderlyRun (virtnetDriver k) VirtnetClean es → SafeRun (virtnetDriver k) es) ∧
    (∀ es, OrderlyRun (virtblkDriver k) VirtblkClean es → SafeRun (virtblkDriver k) es) ∧
    (∀ es, OrderlyRun (virtgpuDriver k) VirtgpuClean es → SafeRun (virtgpuDriver k) es) := by
  refine ⟨fun es h => ?_, fun es h => ?_, fun es h => ?_⟩
  · exact orderly_safe (virtnet_driver_lawful k) h
  · exact orderly_safe (virtblk_driver_lawful k) h
  · exact orderly_safe (virtgpu_driver_lawful k) h

instance : DecidablePred VirtnetClean := fun c =>
  inferInstanceAs (Decidable (virtnetStarts c.env = true → _))

instance : DecidablePred VirtblkClean := fun c =>
  inferInstanceAs (Decidable (virtblkStarts c.env = true → _))

instance (q : Virtq) : Decidable (CountersZero q) :=
  decidable_of_iff (q.last = 0 ∧ q.avail.index = 0 ∧ q.used.index = 0)
    ⟨fun h => ⟨h.1, h.2.1, h.2.2⟩, fun h => ⟨h.last, h.avail, h.used⟩⟩

instance : DecidablePred VirtgpuClean := fun c =>
  inferInstanceAs (Decidable (c.env.dmaMemAlloc = true → _))

def willing (deviceId : UInt32) : Bus where
  transports i := if i = 3 then ⟨virtmmioMagic, virtmmioVersion, deviceId⟩ else ⟨0, 0, 0⟩
  negotiate := true
  queueNumMax _ := 1024

def virtnetCall : VirtnetCall where
  env := {
    willing virtmmioDeviceIdNet with
    dmaMemAlloc := true
    spinInit := true
    registerIrq := true
    netDeviceAdd := true
    createEapolData := true
    setStatus := true
    setAddr := true
    rbuf := fun i => 0x5000 + 1526 * i.toUInt64 }
  nic := ⟨zeroDev, 0, 0⟩
  vnHdr := 0x4000

def steps {ι ε : Type} (n : ℕ) : List (Event ι ε) := List.replicate n .step

/-- An initialisation whose interrupt cannot be registered, its release, a second one that
succeeds, and a packet that the device is reading. -/
def virtnetRun : List (Event VirtnetCall (VirtnetTx.Event VirtnetTx.NetBuf)) :=
  .init { virtnetCall with env := { virtnetCall.env with registerIrq := false } } :: steps 6 ++
    .deinit :: steps 3 ++ .init virtnetCall :: steps 7 ++
    ((VirtnetTxPartition.sendOne ⟨1, 2, 3⟩).take 11).map .traffic

def virtblkCall : VirtblkCall where
  env := {
    willing virtmmioDeviceIdBlk with
    dmaMemAlloc := true
    eventInit := true
    registerIrq := true
    req := 0x6000
    resp := 0x6010
    cntlrAlloc := true
    mmcCntlrParse := true
    mmcCntlrAdd := true }
  blk := ⟨zeroDev⟩

/-- A device that refuses the features, one that is started, and a request that it has fetched. -/
def virtblkRun : List (Event VirtblkCall (SyncRequest.Event SyncRequest.BlkIO)) :=
  .init { virtblkCall with env := { virtblkCall.env with negotiate := false } } :: steps 4 ++
    .init virtblkCall :: steps 6 ++
    (SyncRequestCompletion.issue SyncRequestCompletion.readSector ++
      [SyncRequest.Event.fetch]).map .traffic

def virtgpuCall : VirtgpuCall where
  env := {
    willing virtmmioDeviceIdGpu with
    dmaMemAlloc := true
    timerCreate := true
    realTimer := fun _ => 1 }
  g_virtGpu := none
  gpu := ⟨zeroDev, 0, 0, 0, 0⟩
  mem := ⟨fun _ => 4096, 8192, fun _ => 12288, 16384, 20480, 24576, 0⟩
  edid := false
  fbAlloc := true
  fbRegister := true
  timerStart := true
  stray := .block 0

/-- A timer that cannot be created, then all commands of HdfVirtgpuInit and one refresh. -/
def virtgpuRun : List (Event VirtgpuCall Virtgpu.Event) :=
  .init { virtgpuCall with env := { virtgpuCall.env with timerCreate := false } } :: steps 6 ++
    .init virtgpuCall :: steps 6 ++ (VirtgpuRefresh.initRun false).map .traffic ++ steps 2 ++
    VirtgpuRefresh.fullFrame.map .traffic

theorem dma_outlives_device_runs :
    (((system (virtnetDriver gic)).run initial virtnetRun).any State.started = true ∧
      SafeRun (virtnetDriver gic) virtnetRun) ∧
    (((system (virtblkDriver gic)).run initial virtblkRun).any State.started = true ∧
      SafeRun (virtblkDriver gic) virtblkRun) ∧
    (((system (virtgpuDriver gic)).run initial virtgpuRun).any State.started = true ∧
      SafeRun (virtgpuDriver gic) virtgpuRun) := by
  refine ⟨⟨by decide +kernel, ?_⟩, ⟨by decide +kernel, ?_⟩, ⟨by decide +kernel, ?_⟩⟩
  · exact (dma_outlives_device gic).1 _ (by decide +kernel)
  · exact (dma_outlives_device gic).2.1 _ (by decide +kernel)
  · exact (dma_outlives_device gic).2.2 _ (by decide +kernel)

/-- VirtNetDeviceDeInit after a successful VirtNetDeviceInit. -/
def virtnetUndone : List (Event VirtnetCall (VirtnetTx.Event VirtnetTx.NetBuf)) :=
  .init virtnetCall :: steps 7 ++ .deinit :: steps 1

theorem rings_freed_under_device :
    ∃ s, Reachable (system (virtnetDriver gic)) s ∧ ¬ Safe (virtnetDriver gic) s := by
  obtain ⟨s, hs, hp⟩ := @exists_reachable _ _ (system (virtnetDriver gic)) initial rfl
    virtnetUndone (fun s => decide (s.started = true ∧ s.rings = some 1 ∧ .block 1 ∈ s.freed))
    (by decide +kernel)
  obtain ⟨hstarted, hrings, hfreed⟩ := of_decide_eq_true hp
  refine ⟨s, hs, fun hsafe => ?_⟩
  exact (hsafe (.block 1) ⟨hstarted, hrings⟩).1 hfreed

end VirtioLifetime
