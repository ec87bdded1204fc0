import DeviceQemu.DisplayGralloc
import DeviceQemu.PlaneLayout
import DeviceQemu.ResourceLedger

/-! AllocMem of display_gralloc.
AllocMem on the LiteOS-A board, which takes shared memory or MMZ memory, and on riscv32, where
malloc is all there is. Every call below it may fail. The kernel may allocate more than it is
asked for, never less. -/
namespace DisplayGrallocAlloc

open PlaneLayout ResourceLedger
open DisplayGralloc (Ptr sizeInvalid nextKey invalidShmid)

def bitsPerByte : UInt32 := 8

inductive PixelFormat where
  | rgbx8888
  | rgba8888
  | bgrx8888
  | bgra8888
  | rgb888
  | bgr565
  | rgba5551
  | rgb565
  | bgrx4444
  | bgra4444
  | rgba4444
  | rgbx4444
  | bgrx5551
  | bgra5551
  | ycbcr420SP
  | ycrcb420SP
  | ycbcr420P
  | ycrcb420P
  | other (code : UInt32)
  deriving DecidableEq, Repr

def fmtInfos : List (FormatInfo PixelFormat) :=
  [⟨.rgbx8888, 32, none⟩, ⟨.rgba8888, 32, none⟩, ⟨.bgrx8888, 32, none⟩, ⟨.bgra8888, 32, none⟩,
    ⟨.rgb888, 24, none⟩, ⟨.bgr565, 16, none⟩, ⟨.rgba5551, 16, none⟩, ⟨.rgb565, 16, none⟩,
    ⟨.bgrx4444, 16, none⟩, ⟨.bgra4444, 16, none⟩, ⟨.rgba4444, 16, none⟩, ⟨.rgbx4444, 16, none⟩,
    ⟨.bgrx5551, 16, none⟩, ⟨.bgra5551, 16, none⟩,
    ⟨.ycbcr420SP, 8, some yuv420SPLayout⟩, ⟨.ycrcb420SP, 8, some yuv420SPLayout⟩,
    ⟨.ycbcr420P, 8, some yuv420PLayout⟩, ⟨.ycrcb420P, 8, some yuv420PLayout⟩]

def getFormatInfo (format : PixelFormat) : Option (FormatInfo PixelFormat) :=
  fmtInfos.find? fun f => f.format = format

def adjustStrideFromFormat (format : PixelFormat) (width : UInt32) : UInt32 :=
  adjust (getFormatInfo format) width

structure AllocInfo where
  width : UInt32
  height : UInt32
  usage : UInt64
  format : PixelFormat
  deriving DecidableEq, Repr

/-- PriBufferHandle; an address 0 is NULL. -/
structure PriBufferHandle where
  fd : Int32
  width : Int32
  stride : Int32
  height : Int32
  size : Int32
  usage : UInt64
  format : PixelFormat
  reserveFds : UInt32
  reserveInts : UInt32
  virAddr : Ptr
  phyAddr : UInt64
  shmid : ℤ
  deriving DecidableEq, Repr

/-- The usages of display_type.h, single bits of a mask, and the sizes of the two handles. -/
structure Kernel where
  hbmUseMemShare : UInt64
  hbmUseMemDma : UInt64
  hbmUseMemMmz : UInt64
  hbmUseMemMmzCache : UInt64
  distinct : [hbmUseMemShare, hbmUseMemDma, hbmUseMemMmz, hbmUseMemMmzCache].Nodup
  sizeofPriBufferHandle : UInt32
  sizeofBufferHandle : UInt32

def zeroHandle : PriBufferHandle := ⟨0, 0, 0, 0, 0, 0, .other 0, 0, 0, 0, 0, 0⟩

/-- Signed overflow of `h * stride` wraps here; C leaves it undefined. -/
def initBufferHandle (k : Kernel) (buffer : PriBufferHandle) (info : AllocInfo) :
    Option PriBufferHandle :=
  let h := (alignUp info.height heightAlign).toInt32
  match getFormatInfo info.format with
  | none => none
  | some fmtInfo =>
    let stride := (alignUp (adjustStrideFromFormat info.format info.width) widthAlign *
      fmtInfo.bitsPerPixel / bitsPerByte).toInt32
    some { buffer with
      width := info.width.toInt32
      stride
      height := info.height.toInt32
      size := h * stride
      usage := info.usage
      fd := -1
      shmid := invalidShmid
      format := info.format
      reserveInts := (k.sizeofPriBufferHandle - k.sizeofBufferHandle - buffer.reserveFds * 4) / 4 }

inductive Ret where
  | success
  | failure
  | nullPtr
  | notSupport
  deriving DecidableEq, Repr

inductive Kind where
  | shm
  | mmzCache
  | mmzNocache
  | heap
  deriving DecidableEq, Repr

/-- `mapping` is memory of `len` bytes that the caller can reach at `addr`. -/
inductive Resource where
  | handle (p : Ptr)
  | segment (shmid : ℤ)
  | mapping (kind : Kind) (addr : Ptr) (len : ℕ)
  | device
  deriving DecidableEq, Repr

/-- An answer of shmget with IPC_CREAT and IPC_EXCL. -/
inductive Shmget where
  | exists
  | error
  | segment (shmid : ℤ)
  deriving DecidableEq, Repr

/-- What the callers and the system answer, in a call that shmget has answered `shmget` so far.
`slack` is how much more than the request is allocated. `mmz` is the address that the ioctl maps,
if it succeeds, and `paddr` what it leaves in the request. `garbage` is on the stack where
bufferHdl will be. -/
structure Answers where
  buffer : Bool
  info : Bool
  calloc : Ptr
  garbage : Ptr
  shmget : List Shmget
  shmat : Option Ptr
  shmctl : Bool
  openMmz : Bool
  mmz : Option Ptr
  paddr : UInt64
  malloc : Ptr
  slack : ℕ

/-- The int32 size as the size_t of malloc, shmget and the MMZ ioctl. -/
def PriBufferHandle.bytes (hdl : PriBufferHandle) : ℕ := hdl.size.toUInt32.toNat

/-- What a memory type does, what it returns and the handle afterwards. -/
structure Outcome where
  ops : List (Op Resource)
  ret : Ret
  hdl : PriBufferHandle

/-- The while loop of AllocShm; `none` while every key is taken. -/
def shmLoop (key : ℕ) : List Shmget → Option (ℕ × Option ℤ)
  | [] => none
  | .exists :: rest => shmLoop (nextKey key) rest
  | .error :: _ => some (key, none)
  | .segment shmid :: _ => some (key, some shmid)

def attachShm (a : Answers) (key : ℕ) (buffer : PriBufferHandle) : Option ℤ → ℕ × Outcome
  | none => (key, ⟨[], .failure, buffer⟩)
  | some shmid =>
    match a.shmat with
    | none =>
      let rmid := if a.shmctl then [Op.release (.segment shmid)] else []
      (key, ⟨.acquire (.segment shmid) :: rmid, .failure, buffer⟩)
    | some pBase =>
      (nextKey key,
        ⟨[.acquire (.segment shmid), .acquire (.mapping .shm pBase (buffer.bytes + a.slack))],
          .success, { buffer with virAddr := pBase, fd := Int32.ofNat key, shmid }⟩)

def allocShm (a : Answers) (key : ℕ) (buffer : PriBufferHandle) : Option (ℕ × Outcome) :=
  (shmLoop key a.shmget).map fun (key, shmid) => attachShm a key buffer shmid

structure MmzMemory where
  vaddr : Ptr
  paddr : UInt64

/-- The two allocating commands. The result of SendCmd is only printed by its callers. -/
def sendCmd (a : Answers) (kind : Kind) (size : ℕ) : List (Op Resource) × MmzMemory :=
  if a.openMmz then
    match a.mmz with
    | none => ([.acquire .device, .release .device], ⟨0, a.paddr⟩)
    | some vaddr =>
      ([.acquire .device, .acquire (.mapping kind vaddr (size + a.slack)), .release .device],
        ⟨vaddr, a.paddr⟩)
  else ([], ⟨0, 0⟩)

def allocMmz (k : Kernel) (a : Answers) (buffer : PriBufferHandle) : Outcome :=
  let allocated (kind : Kind) : Outcome :=
    let (ops, mmz) := sendCmd a kind buffer.bytes
    ⟨ops, .success, { buffer with phyAddr := mmz.paddr, virAddr := mmz.vaddr }⟩
  if buffer.usage = k.hbmUseMemMmzCache then allocated .mmzCache
  else if buffer.usage = k.hbmUseMemMmz then allocated .mmzNocache
  else ⟨[], .notSupport, buffer⟩

/-- The choice by usage on the LiteOS-A board. -/
def allocByUsage (k : Kernel) (a : Answers) (key : ℕ) (buffer : PriBufferHandle) :
    Option (ℕ × Outcome) :=
  if buffer.usage = k.hbmUseMemShare then allocShm a key buffer
  else if buffer.usage = k.hbmUseMemDma ∨ buffer.usage = k.hbmUseMemMmz then
    some (key, allocMmz k a buffer)
  else some (key, ⟨[], .notSupport, buffer⟩)

def allocByMalloc (a : Answers) (key : ℕ) (buffer : PriBufferHandle) : Option (ℕ × Outcome) :=
  if a.malloc = 0 then some (key, ⟨[], .failure, buffer⟩)
  else some (key, ⟨[.acquire (.mapping .heap a.malloc (buffer.bytes + a.slack))], .success,
    { buffer with virAddr := a.malloc }⟩)

/-- What AllocMem leaves in `*buffer`. -/
inductive Out where
  | untouched
  | null
  | handle (p : Ptr) (hdl : PriBufferHandle)
  deriving DecidableEq, Repr

structure Result where
  ops : List (Op Resource)
  /-- The pointer passed to free had no value yet. -/
  freedUninit : Bool
  ret : Ret
  out : Out

/-- The variable bufferHdl, which a goto may leave without a value. -/
structure Variable where
  addr : Ptr
  init : Bool

def exit (ops : List (Op Resource)) (ret : Ret) (bufferHdl : Variable) (hdl : PriBufferHandle) :
    Result :=
  if ret ≠ .success ∧ bufferHdl.addr ≠ 0 then
    ⟨ops ++ [.release (.handle bufferHdl.addr)], !bufferHdl.init, ret, .null⟩
  else ⟨ops, false, ret, if bufferHdl.addr = 0 then .null else .handle bufferHdl.addr hdl⟩

/-- AllocMem over the allocation `alloc` of a board, and the key after it. In DISPLAY_CHK_RETURN
the goto to OUT comes before the return, so `ret` is what it was. -/
def allocMem (k : Kernel) (alloc : ℕ → PriBufferHandle → Option (ℕ × Outcome)) (a : Answers) (key : ℕ)
    (info : AllocInfo) : Option (ℕ × Result) :=
  if !a.buffer || !a.info || a.calloc = 0 then some (key, ⟨[], false, .nullPtr, .untouched⟩)
  else
    let ops := [Op.acquire (.handle a.calloc)]
    match initBufferHandle k zeroHandle info with
    | none => some (key, exit ops .failure ⟨a.garbage, false⟩ zeroHandle)
    | some hdl =>
      let bufferHdl : Variable := ⟨a.calloc, true⟩
      if sizeInvalid hdl.size.toInt then some (key, exit ops .success bufferHdl hdl)
      else (alloc key hdl).map fun (key, o) => (key, exit (ops ++ o.ops) o.ret bufferHdl o.hdl)

namespace LiteosA

def allocMem (k : Kernel) (a : Answers) (key : ℕ) (info : AllocInfo) : Option (ℕ × Result) :=
  DisplayGrallocAlloc.allocMem k (allocByUsage k a) a key info

end LiteosA

namespace Riscv32

def allocMem (k : Kernel) (a : Answers) (key : ℕ) (info : AllocInfo) : Option (ℕ × Result) :=
  DisplayGrallocAlloc.allocMem k (allocByMalloc a) a key info

end Riscv32

def left (r : Result) : Multiset Resource := after 0 r.ops

/-- `*buffer` points to a live handle whose address maps enough memory of a requested kind. -/
def Serves (requested : Kind → Prop) (r : Result) : Prop :=
  ∃ p hdl, r.out = .handle p hdl ∧ .handle p ∈ left r ∧
    ∃ kind, ∃ len : ℕ, requested kind ∧ .mapping kind hdl.virAddr len ∈ left r ∧ hdl.size.toInt ≤ len

structure Contract (requested : Kind → Prop) (r : Result) : Prop where
  success_iff : r.ret = .success ↔ Serves requested r
  failed_out : r.ret ≠ .success → r.out = .untouched ∨ r.out = .null
  failed_left : r.ret ≠ .success → left r = 0
  init : r.freedUninit = false

/-- The memory that a usage of the LiteOS-A board asks for. -/
def LiteosA.requested (k : Kernel) (usage : UInt64) : Kind → Prop
  | .shm => usage = k.hbmUseMemShare
  | .mmzCache => usage = k.hbmUseMemMmzCache
  | .mmzNocache => usage = k.hbmUseMemMmz
  | .heap => False

def Riscv32.requested (kind : Kind) : Prop := kind = .heap

def Answers.called (a : Answers) : Prop := a.buffer = true ∧ a.info = true ∧ a.calloc ≠ 0

def stride32 (f : FormatInfo PixelFormat) (width : UInt32) : UInt32 :=
  alignUp (adjust (some f) width) widthAlign * f.bitsPerPixel / bitsPerByte

def size32 (f : FormatInfo PixelFormat) (width height : UInt32) : Int32 :=
  (alignUp height heightAlign).toInt32 * (stride32 f width).toInt32

/-- The format is in the table, and the size that 32 bits give for it passes the test. -/
def AllocInfo.Valid (info : AllocInfo) : Prop :=
  ∃ f, getFormatInfo info.format = some f ∧
    sizeInvalid (size32 f info.width info.height).toInt = false

/-- The first answer of shmget that is not EEXIST. -/
def Answers.answered (a : Answers) : Option Shmget := a.shmget.find? fun x => x ≠ .exists

def Answers.ShmCleans (a : Answers) : Prop :=
  (∃ shmid, a.answered = some (.segment shmid)) → a.shmat = none → a.shmctl = true

def Answers.MmzMaps (a : Answers) : Prop := a.openMmz = true ∧ a.mmz ≠ none

theorem Answers.called.args {a : Answers} (h : a.called) :
    ¬ (!a.buffer || !a.info || decide (a.calloc = 0)) = true := by simp [h.1, h.2.1, h.2.2]

theorem allocMem_of_not_called {k : Kernel} {alloc : ℕ → PriBufferHandle → Option (ℕ × Outcome)}
    {a : Answers} (h : ¬ a.called) (key : ℕ) (info : AllocInfo) :
    allocMem k alloc a key info = some (key, ⟨[], false, .nullPtr, .untouched⟩) := by
  have hargs : (!a.buffer || !a.info || decide (a.calloc = 0)) = true := by
    by_contra hne
    simp only [Bool.not_eq_true, Bool.or_eq_false_iff, Bool.not_eq_false', decide_eq_false_iff_not]
      at hne
    exact h ⟨hne.1.1, hne.1.2, hne.2⟩
  rw [allocMem, if_pos hargs]

theorem initBufferHandle_eq_none {k : Kernel} {buffer : PriBufferHandle} {info : AllocInfo} :
    initBufferHandle k buffer info = none ↔ getFormatInfo info.format = none := by
  unfold initBufferHandle
  cases getFormatInfo info.format <;> simp

/-- What the other functions read of a handle that InitBufferHandle filled in. -/
theorem initBufferHandle_some {k : Kernel} {buffer hdl : PriBufferHandle} {info : AllocInfo}
    (h : initBufferHandle k buffer info = some hdl) : ∃ f, getFormatInfo info.format = some f ∧
      hdl.stride = (stride32 f info.width).toInt32 ∧ hdl.size = size32 f info.width info.height ∧
      hdl.usage = info.usage := by
  unfold initBufferHandle adjustStrideFromFormat at h
  cases hf : getFormatInfo info.format with
  | none =>
    rw [hf] at h
    cases h
  | some f =>
    rw [hf] at h
    cases h
    exact ⟨f, rfl, rfl, rfl, rfl⟩

theorem initBufferHandle_valid {k : Kernel} {hdl : PriBufferHandle} {info : AllocInfo}
    (h : initBufferHandle k zeroHandle info = some hdl) :
    sizeInvalid hdl.size.toInt = false ↔ info.Valid := by
  obtain ⟨f, hf, -, hsize, -⟩ := initBufferHandle_some h
  rw [hsize]
  constructor
  · exact fun hvalid => ⟨f, hf, hvalid⟩
  · rintro ⟨f', hf', hvalid⟩
    rw [hf] at hf'
    cases hf'
    exact hvalid

theorem exit_success (ops : List (Op Resource)) {v : Variable} (h : v.addr ≠ 0)
    (hdl : PriBufferHandle) : exit ops .success v hdl = ⟨ops, false, .success, .handle v.addr hdl⟩ := by
  simp [exit, h]

theorem exit_failed (ops : List (Op Resource)) {ret : Ret} {v : Variable} (h : v.addr ≠ 0)
    (hret : ret ≠ .success) (hdl : PriBufferHandle) :
    exit ops ret v hdl = ⟨ops ++ [.release (.handle v.addr)], !v.init, ret, .null⟩ := by
  simp [exit, h, hret]

/-- What a backend owes AllocMem for the handle `hdl`. -/
structure Outcome.Proper (requested : Kind → Prop) (o : Outcome) : Prop where
  success : o.ret = .success → ∃ kind, ∃ len : ℕ, requested kind ∧
    .mapping kind o.hdl.virAddr len ∈ after 0 o.ops ∧ o.hdl.size.toInt ≤ len
  failed : o.ret ≠ .success → after 0 o.ops = 0

def Outcome.SparesHandles (o : Outcome) : Prop := ∀ p, .release (.handle p) ∉ o.ops

theorem contract_iff_proper {requested : Kind → Prop} {o : Outcome} (ho : o.SparesHandles) {p : Ptr}
    (hp : p ≠ 0) : Contract requested (exit ([.acquire (.handle p)] ++ o.ops) o.ret ⟨p, true⟩ o.hdl) ↔
      o.Proper requested := by
  have hleft : after 0 ([.acquire (.handle p)] ++ o.ops) = .handle p ::ₘ after 0 o.ops :=
    after_cons (ho p) 0
  by_cases hret : o.ret = .success
  · rw [hret, exit_success _ hp]
    constructor
    · intro h
      refine ⟨fun _ => ?_, fun hne => absurd hret hne⟩
      obtain ⟨q, hdl, hout, -, kind, len, hkind, hmem, hle⟩ := h.success_iff.mp rfl
      obtain ⟨rfl, rfl⟩ := Out.handle.inj hout
      rw [left, hleft] at hmem
      exact ⟨kind, len, hkind, (Multiset.mem_cons.mp hmem).resolve_left nofun, hle⟩
    · intro h
      obtain ⟨kind, len, hkind, hmem, hle⟩ := h.success hret
      have hserves : Serves requested ⟨[.acquire (.handle p)] ++ o.ops, false, .success,
          .handle p o.hdl⟩ := by
        refine ⟨p, o.hdl, rfl, ?_, kind, len, hkind, ?_, hle⟩
        · rw [left, hleft]
          exact Multiset.mem_cons_self _ _
        · rw [left, hleft]
          exact Multiset.mem_cons_of_mem hmem
      exact ⟨iff_of_true rfl hserves, fun hne => absurd rfl hne, fun hne => absurd rfl hne, rfl⟩
  · rw [exit_failed _ hp hret]
    have hfreed : left ⟨[.acquire (.handle p)] ++ o.ops ++ [.release (.handle p)], !true, o.ret,
        .null⟩ = after 0 o.ops := by
      rw [left, after_append, hleft]
      exact Multiset.erase_cons_head _ _
    constructor
    · intro h
      refine ⟨fun hs => absurd hs hret, fun _ => ?_⟩
      rw [← hfreed]
      exact h.failed_left hret
    · intro h
      refine ⟨iff_of_false hret ?_, fun _ => Or.inr rfl, fun _ => ?_, rfl⟩
      · rintro ⟨q, hdl, hout, -⟩
        cases hout
      · rw [hfreed]
        exact h.failed hret

theorem PriBufferHandle.size_le_bytes (hdl : PriBufferHandle) (slack : ℕ) :
    hdl.size.toInt ≤ (hdl.bytes + slack : ℕ) := by
  have hbits : hdl.size.toInt = hdl.size.toUInt32.toBitVec.toInt := rfl
  have hnat : hdl.size.toUInt32.toBitVec.toNat = hdl.bytes := rfl
  rw [hbits, BitVec.toInt_eq_toNat_cond]
  split <;> omega

theorem Outcome.Proper.of_mapped {requested : Kind → Prop} {o : Outcome} (kind : Kind) (slack : ℕ)
    (hret : o.ret = .success) (hkind : requested kind)
    (hmem : .mapping kind o.hdl.virAddr (o.hdl.bytes + slack) ∈ after 0 o.ops) : o.Proper requested :=
  ⟨fun _ => ⟨kind, _, hkind, hmem, o.hdl.size_le_bytes slack⟩, fun hne => absurd hret hne⟩

theorem Outcome.Proper.of_failed {requested : Kind → Prop} {o : Outcome} (hret : o.ret ≠ .success)
    (hleft : after 0 o.ops = 0) : o.Proper requested := ⟨fun h => absurd h hret, fun _ => hleft⟩

theorem attachShm_proper_iff {requested : Kind → Prop} (hshm : requested .shm) {a : Answers}
    {key : ℕ} {hdl : PriBufferHandle} {id : Option ℤ} :
    (attachShm a key hdl id).2.Proper requested ↔ (id ≠ none → a.shmat = none → a.shmctl = true) := by
  cases id with
  | none => exact iff_of_true (.of_failed (by simp [attachShm]) rfl) fun h => absurd rfl h
  | some shmid =>
    cases hshmat : a.shmat with
    | some pBase =>
      refine iff_of_true ?_ fun _ h => absurd h (Option.some_ne_none _)
      refine .of_mapped .shm a.slack (by simp [attachShm, hshmat]) hshm ?_
      simp [attachShm, hshmat, after, Op.after, PriBufferHandle.bytes]
    | none =>
      have hret : (attachShm a key hdl (some shmid)).2.ret ≠ .success := by simp [attachShm, hshmat]
      cases hctl : a.shmctl with
      | true =>
        refine iff_of_true (.of_failed hret ?_) fun _ _ => rfl
        simp [attachShm, hshmat, hctl, after, Op.after]
      | false =>
        refine iff_of_false (fun h => ?_) fun h =>
          Bool.false_ne_true (h (Option.some_ne_none _) rfl)
        have hleft := h.failed hret
        simp [attachShm, hshmat, hctl, after, Op.after] at hleft

theorem shmLoop_answered {answers : List Shmget} {key : ℕ} :
    (shmLoop key answers).map Prod.snd = (answers.find? fun x => x ≠ .exists).map fun
      | .segment shmid => some shmid
      | _ => none := by
  induction answers generalizing key with
  | nil => rfl
  | cons x rest ih => cases x <;> simp [shmLoop, ih]

theorem allocShm_proper_iff {requested : Kind → Prop} (hshm : requested .shm) {a : Answers} {key : ℕ}
    {hdl : PriBufferHandle} : (∀ r ∈ allocShm a key hdl, r.2.Proper requested) ↔ a.ShmCleans := by
  have hanswered := @shmLoop_answered a.shmget key
  unfold Answers.ShmCleans Answers.answered allocShm
  cases hloop : shmLoop key a.shmget with
  | none =>
    rw [hloop] at hanswered
    have hnone := Option.map_eq_none_iff.mp hanswered.symm
    rw [hnone]
    exact iff_of_true nofun nofun
  | some got =>
    rw [hloop] at hanswered
    obtain ⟨x, hx, hid⟩ := Option.map_eq_some_iff.mp hanswered.symm
    rw [hx]
    simp only [Option.map_some, Option.mem_def, Option.some.injEq, forall_eq']
    rw [attachShm_proper_iff hshm, ← hid]
    cases x <;> simp

theorem allocMmz_eq {k : Kernel} {a : Answers} {hdl : PriBufferHandle}
    (husage : hdl.usage = k.hbmUseMemMmz) : allocMmz k a hdl =
      ⟨(sendCmd a .mmzNocache hdl.bytes).1, .success,
        { hdl with phyAddr := (sendCmd a .mmzNocache hdl.bytes).2.paddr
                   virAddr := (sendCmd a .mmzNocache hdl.bytes).2.vaddr }⟩ := by
  have hne : hdl.usage ≠ k.hbmUseMemMmzCache := by
    have hd := k.distinct
    rw [husage]
    simp only [List.nodup_cons, List.mem_cons, List.not_mem_nil, or_false, not_or] at hd
    exact hd.2.2.1
  rw [allocMmz, if_neg hne, if_pos husage]

theorem allocMmz_proper_iff {k : Kernel} {a : Answers} {hdl : PriBufferHandle}
    (husage : hdl.usage = k.hbmUseMemMmz) :
    (allocMmz k a hdl).Proper (LiteosA.requested k hdl.usage) ↔ a.MmzMaps := by
  unfold Answers.MmzMaps
  rw [allocMmz_eq husage]
  cases hopen : a.openMmz with
  | false =>
    refine iff_of_false (fun h => ?_) (by simp)
    obtain ⟨kind, len, -, hmem, -⟩ := h.success rfl
    simp [sendCmd, hopen, after] at hmem
  | true =>
    cases hmmz : a.mmz with
    | none =>
      refine iff_of_false (fun h => ?_) (by simp)
      obtain ⟨kind, len, -, hmem, -⟩ := h.success rfl
      simp [sendCmd, hopen, hmmz, after, Op.after] at hmem
    | some vaddr =>
      refine iff_of_true ?_ ⟨rfl, Option.some_ne_none _⟩
      refine .of_mapped .mmzNocache a.slack rfl husage ?_
      simp [sendCmd, hopen, hmmz, after, Op.after, PriBufferHandle.bytes]

theorem allocShm_spares {a : Answers} {key : ℕ} {hdl : PriBufferHandle} :
    ∀ r ∈ allocShm a key hdl, r.2.SparesHandles := by
  intro r hr p
  obtain ⟨⟨key', id⟩, -, rfl⟩ := Option.map_eq_some_iff.mp hr
  cases id with
  | none => simp [attachShm]
  | some shmid => cases hshmat : a.shmat <;> cases hctl : a.shmctl <;> simp [attachShm, hshmat, hctl]

theorem allocMmz_spares (k : Kernel) (a : Answers) (hdl : PriBufferHandle) :
    (allocMmz k a hdl).SparesHandles := by
  intro p
  cases hopen : a.openMmz <;> cases hmmz : a.mmz <;> simp only [allocMmz, sendCmd, hopen, hmmz] <;>
    split_ifs <;> simp

theorem allocByUsage_spares {k : Kernel} {a : Answers} {key : ℕ} {hdl : PriBufferHandle} :
    ∀ r ∈ allocByUsage k a key hdl, r.2.SparesHandles := by
  unfold allocByUsage
  split_ifs
  · exact allocShm_spares
  · rintro r ⟨⟩
    exact allocMmz_spares k a hdl
  · rintro r ⟨⟩
    exact fun p => List.not_mem_nil

theorem Kernel.mmz_ne_share (k : Kernel) : k.hbmUseMemMmz ≠ k.hbmUseMemShare := by
  have hd := k.distinct
  simp only [List.nodup_cons, List.mem_cons, List.not_mem_nil, or_false, not_or] at hd
  exact fun h => hd.1.2.1 h.symm

theorem allocByUsage_mmz {k : Kernel} {a : Answers} {key : ℕ} {hdl : PriBufferHandle}
    (h : hdl.usage = k.hbmUseMemMmz) : allocByUsage k a key hdl = some (key, allocMmz k a hdl) := by
  have hshare : hdl.usage ≠ k.hbmUseMemShare := h ▸ k.mmz_ne_share
  rw [allocByUsage, if_neg hshare, if_pos (Or.inr h)]

theorem allocByUsage_other {k : Kernel} {a : Answers} {key : ℕ} {hdl : PriBufferHandle}
    (hshare : hdl.usage ≠ k.hbmUseMemShare) (hmmz : hdl.usage ≠ k.hbmUseMemMmz) :
    allocByUsage k a key hdl = some (key, ⟨[], .notSupport, hdl⟩) := by
  rw [allocByUsage, if_neg hshare]
  by_cases hdma : hdl.usage = k.hbmUseMemDma
  · have hd := k.distinct
    simp only [List.nodup_cons, List.mem_cons, List.not_mem_nil, or_false, not_or] at hd
    have hcache : hdl.usage ≠ k.hbmUseMemMmzCache := fun h => hd.2.1.2 (hdma.symm.trans h)
    rw [if_pos (Or.inl hdma), allocMmz, if_neg hcache, if_neg hmmz]
  · rw [if_neg (not_or.mpr ⟨hdma, hmmz⟩)]

theorem allocByUsage_proper_iff {k : Kernel} {a : Answers} {key : ℕ} {hdl : PriBufferHandle} :
    (∀ r ∈ allocByUsage k a key hdl, r.2.Proper (LiteosA.requested k hdl.usage)) ↔
      (hdl.usage = k.hbmUseMemShare → a.ShmCleans) ∧ (hdl.usage = k.hbmUseMemMmz → a.MmzMaps) := by
  by_cases hshare : hdl.usage = k.hbmUseMemShare
  · have hmmz : hdl.usage ≠ k.hbmUseMemMmz := fun h => k.mmz_ne_share (h.symm.trans hshare)
    rw [allocByUsage, if_pos hshare, allocShm_proper_iff hshare]
    exact ⟨fun h => ⟨fun _ => h, fun h' => absurd h' hmmz⟩, fun h => h.1 hshare⟩
  · by_cases hmmz : hdl.usage = k.hbmUseMemMmz
    · rw [allocByUsage_mmz hmmz]
      simp only [Option.mem_def, Option.some.injEq, forall_eq']
      rw [allocMmz_proper_iff hmmz]
      exact ⟨fun h => ⟨fun h' => absurd h' hshare, fun _ => h⟩, fun h => h.2 hmmz⟩
    · refine iff_of_true ?_ ⟨fun h => absurd h hshare, fun h => absurd h hmmz⟩
      rw [allocByUsage_other hshare hmmz]
      rintro r ⟨⟩
      exact .of_failed nofun rfl

theorem allocByMalloc_spares {a : Answers} {key : ℕ} {hdl : PriBufferHandle} :
    ∀ r ∈ allocByMalloc a key hdl, r.2.SparesHandles := by
  unfold allocByMalloc
  split_ifs
  · rintro r ⟨⟩
    exact fun p => List.not_mem_nil
  · rintro r ⟨⟩
    intro p
    simp

theorem allocByMalloc_proper {a : Answers} {key : ℕ} {hdl : PriBufferHandle} :
    ∀ r ∈ allocByMalloc a key hdl, r.2.Proper Riscv32.requested := by
  unfold allocByMalloc
  split_ifs
  · rintro r ⟨⟩
    exact .of_failed nofun rfl
  · rintro r ⟨⟩
    refine .of_mapped .heap a.slack rfl rfl ?_
    simp [after, Op.after, PriBufferHandle.bytes]

theorem exit_unknown {requested : Kind → Prop} {p garbage : Ptr} (hdl : PriBufferHandle) :
    ¬ Contract requested (exit [.acquire (.handle p)] .failure ⟨garbage, false⟩ hdl) := by
  intro h
  by_cases hg : garbage = 0
  · have hleft := h.failed_left (by simp [exit, hg])
    simp [exit, hg, left, after, Op.after] at hleft
  · have hinit := h.init
    simp [exit, hg] at hinit

theorem not_contract_of_left {requested : Kind → Prop} {r : Result} {p : Ptr} (hret : r.ret = .success)
    (hleft : left r = {.handle p}) : ¬ Contract requested r := by
  intro h
  obtain ⟨q, hdl, -, -, kind, len, -, hmem, -⟩ := h.success_iff.mp hret
  rw [hleft, Multiset.mem_singleton] at hmem
  cases hmem

theorem exit_sizeInvalid {requested : Kind → Prop} {p : Ptr} (hp : p ≠ 0) (hdl : PriBufferHandle) :
    ¬ Contract requested (exit [.acquire (.handle p)] .success ⟨p, true⟩ hdl) := by
  rw [exit_success _ hp]
  exact not_contract_of_left rfl rfl

theorem contract_untouched (requested : Kind → Prop) :
    Contract requested ⟨[], false, .nullPtr, .untouched⟩ := by
  refine ⟨iff_of_false nofun ?_, fun _ => Or.inl rfl, fun _ => rfl, rfl⟩
  rintro ⟨p, hdl, hout, -⟩
  cases hout

theorem allocMem_contract_iff {requested : Kind → Prop} {k : Kernel}
    {alloc : ℕ → PriBufferHandle → Option (ℕ × Outcome)} {a : Answers} {key : ℕ} {info : AllocInfo}
    {Backs : Prop} (hspares : ∀ hdl, ∀ r ∈ alloc key hdl, r.2.SparesHandles)
    (hbacks : ∀ hdl, hdl.usage = info.usage →
      ((∀ r ∈ alloc key hdl, r.2.Proper requested) ↔ Backs)) :
    (∀ r ∈ allocMem k alloc a key info, Contract requested r.2) ↔
      (a.called → info.Valid ∧ Backs) := by
  by_cases hcalled : a.called
  · have hcalloc := hcalled.2.2
    rw [allocMem, if_neg hcalled.args]
    refine Iff.trans ?_ (forall_prop_of_true hcalled).symm
    cases hinit : initBufferHandle k zeroHandle info with
    | none =>
      refine iff_of_false (fun h => exit_unknown zeroHandle (h _ rfl)) ?_
      rintro ⟨⟨f, hf, -⟩, -⟩
      rw [initBufferHandle_eq_none.mp hinit] at hf
      cases hf
    | some hdl =>
      dsimp only
      have hvalid := initBufferHandle_valid hinit
      have husage : hdl.usage = info.usage := by
        obtain ⟨-, -, -, -, husage⟩ := initBufferHandle_some hinit
        exact husage
      cases hsize : sizeInvalid hdl.size.toInt with
      | true =>
        refine iff_of_false (fun h => exit_sizeInvalid hcalloc hdl (h _ rfl)) fun h => ?_
        rw [hvalid.mpr h.1] at hsize
        cases hsize
      | false =>
        rw [← hbacks hdl husage]
        constructor
        · intro h
          refine ⟨hvalid.mp hsize, fun r hr => ?_⟩
          apply (contract_iff_proper (hspares hdl r hr) hcalloc).mp
          exact h _ (Option.mem_map_of_mem _ hr)
        · rintro ⟨-, hproper⟩ r hr
          obtain ⟨o, ho, rfl⟩ := Option.map_eq_some_iff.mp hr
          exact (contract_iff_proper (hspares hdl o ho) hcalloc).mpr (hproper o ho)
  · refine iff_of_true ?_ fun h => absurd h hcalled
    rw [allocMem_of_not_called hcalled]
    rintro r ⟨⟩
    exact contract_untouched requested

/-- The contract of both AllocMem, on every request and whatever the calls below answer. -/
theorem alloc_contract_iff (k : Kernel) (a : Answers) (key : ℕ) (info : AllocInfo) :
    ((∀ r ∈ LiteosA.allocMem k a key info, Contract (LiteosA.requested k info.usage) r.2) ↔
      (a.called → info.Valid ∧ (info.usage = k.hbmUseMemShare → a.ShmCleans) ∧
        (info.usage = k.hbmUseMemMmz → a.MmzMaps))) ∧
    ((∀ r ∈ Riscv32.allocMem k a key info, Contract Riscv32.requested r.2) ↔
      (a.called → info.Valid)) := by
  constructor
  · apply allocMem_contract_iff
    · exact fun hdl => allocByUsage_spares
    · intro hdl husage
      rw [← husage]
      exact allocByUsage_proper_iff
  · have h : (∀ r ∈ Riscv32.allocMem k a key info, Contract Riscv32.requested r.2) ↔
        (a.called → info.Valid ∧ True) := by
      apply allocMem_contract_iff
      · exact fun hdl => allocByMalloc_spares
      · exact fun hdl _ => iff_of_true allocByMalloc_proper trivial
    rwa [and_true] at h

def board : Kernel := ⟨16, 8, 4, 32, by decide, 72, 64⟩

def willing : Answers where
  buffer := true
  info := true
  calloc := 0x1000
  garbage := 0
  shmget := [.segment 7]
  shmat := some 0x20000000
  shmctl := true
  openMmz := true
  mmz := some 0x20000000
  paddr := 0x48000000
  malloc := 0x20000000
  slack := 0

/-- Nothing fails, but 0x4000 rows of 0x10000 bytes are too many: the call succeeds without memory. -/
theorem too_large_accepted : ∃ r, LiteosA.allocMem board willing 1 ⟨0x4000, 0x4000, 16, .rgba8888⟩ =
      some (1, r) ∧ r.ret = .success ∧ left r = {.handle 0x1000} ∧
    ¬ Contract (LiteosA.requested board 16) r := by
  refine ⟨_, rfl, by decide, by decide, ?_⟩
  exact not_contract_of_left (p := 0x1000) (by decide) (by decide)

end DisplayGrallocAlloc
