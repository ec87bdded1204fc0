import DeviceQemu.HiGbm
import DeviceQemu.ResourceLedger
import Mathlib.Data.Finset.Empty
import Mathlib.Data.Int.Notation

/-! Allocating a buffer of the GBM backend.
GbmAllocMem creates a buffer object, takes a file descriptor for it, and leaves the descriptor as all
that is left of it in a buffer handle. A ledger records what is acquired and released on the way, the
lock included. -/
namespace GbmAllocMem

open HiGbm ResourceLedger

abbrev Addr := ℕ

inductive PixelFormat where
  | rgbx8888
  | rgba8888
  | rgb888
  | bgr565
  | bgrx4444
  | bgra4444
  | rgba4444
  | rgbx4444
  | bgrx5551
  | bgra5551
  | bgrx8888
  | bgra8888
  | ycbcr420sp
  | ycrcb420sp
  | ycbcr420p
  | ycrcb420p
  | ycbcr422sp
  | ycrcb422sp
  | ycbcr422p
  | ycrcb422p
  | other (code : Int32)
  deriving DecidableEq, Repr

def convertTable : List (DrmFormat × PixelFormat) :=
  [(.xrgb8888, .rgbx8888), (.xrgb8888, .rgba8888), (.rgb888, .rgb888), (.rgb565, .bgr565),
    (.bgrx4444, .bgrx4444), (.bgra4444, .bgra4444), (.rgba4444, .rgba4444), (.rgbx4444, .rgbx4444),
    (.bgrx5551, .bgrx5551), (.bgra5551, .bgra5551), (.xrgb8888, .bgrx8888), (.xrgb8888, .bgra8888),
    (.nv12, .ycbcr420sp), (.nv21, .ycrcb420sp), (.yuv420, .ycbcr420p), (.yvu420, .ycrcb420p),
    (.nv16, .ycbcr422sp), (.nv61, .ycrcb422sp), (.yuv422, .ycbcr422p), (.yvu422, .ycrcb422p)]

/-- The last entry of the table counts; none is INVALID_PIXEL_FMT. -/
def convertFormatToDrm (fmtIn : PixelFormat) : Option DrmFormat :=
  convertTable.foldl (fun fmtOut entry => if entry.2 = fmtIn then some entry.1 else fmtOut) none

inductive Resource where
  | lock
  | bo (addr : Addr)
  | gem (handle : UInt32)
  | fd (n : Int32)
  | priBuffer (addr : Addr)
  deriving DecidableEq, Repr

structure AllocInfo where
  width : UInt32
  height : UInt32
  usage : UInt64
  format : PixelFormat
  deriving DecidableEq, Repr

structure BufferHandle where
  fd : Int32
  reserveFds : List Int32
  width : UInt32
  stride : UInt32
  height : UInt32
  size : UInt32
  usage : UInt64
  format : PixelFormat
  virAddr : Option Addr
  deriving DecidableEq, Repr

inductive Status where
  | success
  | failure
  | notSupport
  | noMemory
  | badFd
  deriving DecidableEq, Repr

/-- What the system answers: calloc of the bo, DRM_IOCTL_MODE_DESTROY_DUMB, drmPrimeHandleToFD, malloc
and memset_s of the handle. -/
structure Answers where
  calloc : Option Addr
  destroyDumb : Bool
  primeFd : Option Int32
  malloc : Option Addr
  memset : Bool
  deriving DecidableEq, Repr

def boCreate (k : Kernel) (calloc : Option Addr) (gbm : ℕ) (width height : UInt32)
    (format : DrmFormat) : Option (Addr × GbmBo) × List (Op Resource) :=
  match getFormatInfo format with
  | none => (none, [])
  | some f =>
    match calloc with
    | none => (none, [])
    | some a =>
      match k.createDumb (request format f width height) with
      | none => (none, [.acquire (.bo a)])
      | some dumb =>
        (some (a, initGbmBo ⟨gbm, width, height, format, 0, 0, 0⟩ dumb),
          [.acquire (.bo a), .acquire (.gem dumb.handle)])

def boDestroy (destroyDumb : Bool) (a : Addr) (bo : GbmBo) : List (Op Resource) :=
  if destroyDumb then [.release (.gem bo.handle), .release (.bo a)] else []

def boGetFd (primeFd : Option Int32) : Int32 := primeFd.getD (-1)

def initBufferHandle (bo : GbmBo) (fd : Int32) (info : AllocInfo) : BufferHandle where
  fd := fd
  reserveFds := []
  width := bo.width
  stride := bo.stride
  height := bo.height
  size := bo.size
  usage := info.usage
  format := info.format
  virAddr := none

structure Called where
  ret : Status
  buffer : Option (Addr × BufferHandle)
  ops : List (Op Resource)

/-- From hdi_gbm_bo_get_fd on, with the bo at `a`. -/
def fillHandle (r : Answers) (info : AllocInfo) (a : Addr) (bo : GbmBo) : Called :=
  let fd := boGetFd r.primeFd
  if fd < 0 then ⟨.badFd, none, boDestroy r.destroyDumb a bo⟩
  else
    match r.malloc with
    | none =>
      ⟨.failure, none, .acquire (.fd fd) :: .release (.fd fd) :: boDestroy r.destroyDumb a bo⟩
    | some p =>
      if r.memset then
        ⟨.success, some (p, initBufferHandle bo fd info),
          .acquire (.fd fd) :: .acquire (.priBuffer p) :: boDestroy r.destroyDumb a bo⟩
      else
        ⟨.failure, none, .acquire (.fd fd) :: .acquire (.priBuffer p) :: .release (.fd fd) ::
          (boDestroy r.destroyDumb a bo ++ [.release (.priBuffer p)])⟩

/-- The part under the lock, for a manager whose device is `gbm`. -/
def allocLocked (k : Kernel) (gbm : ℕ) (r : Answers) (info : AllocInfo) (drmFmt : DrmFormat) :
    Called :=
  match boCreate k r.calloc gbm info.width info.height drmFmt with
  | (none, ops) => ⟨.noMemory, none, ops⟩
  | (some (a, bo), ops) => { fillHandle r info a bo with ops := ops ++ (fillHandle r info a bo).ops }

def gbmAllocMem (k : Kernel) (gbm : ℕ) (r : Answers) (info : Option AllocInfo) (buffer : Bool) :
    Called :=
  match info with
  | none => ⟨.failure, none, []⟩
  | some info =>
    if buffer = false then ⟨.failure, none, []⟩
    else
      match convertFormatToDrm info.format with
      | none => ⟨.notSupport, none, []⟩
      | some drmFmt =>
        { allocLocked k gbm r info drmFmt with
          ops := .acquire .lock :: ((allocLocked k gbm r info drmFmt).ops ++ [.release .lock]) }

/-- The bo is the one of hdi_gbm_bo_create. -/
theorem boCreate_fst (k : Kernel) (calloc : Option Addr) (gbm : ℕ) (width height : UInt32)
    (format : DrmFormat) :
    (boCreate k calloc gbm width height format).1.map Prod.snd =
      (hdiGbmBoCreate k calloc.isSome gbm width height format).map Prod.fst := by
  rw [boCreate, hdiGbmBoCreate]
  cases getFormatInfo format with
  | none => rfl
  | some f =>
    cases calloc with
    | none => rfl
    | some a =>
      dsimp only
      cases k.createDumb (request format f width height) <;> rfl

/-- What a call may leave behind: the descriptor and the memory of the handle that it returns. -/
def owned (c : Called) : Multiset Resource :=
  match c.buffer with
  | none => 0
  | some (p, handle) => {.fd handle.fd, .priBuffer p}

/-- A call returns a handle exactly when it succeeds; it releases only what it has acquired, and
all of it but what the handle owns. -/
structure Clean (c : Called) : Prop where
  ret : c.ret = .success ↔ c.buffer ≠ none
  sound : Sound ∅ 0 c.ops
  left : after 0 c.ops = owned c

def Releasable (k : Kernel) (r : Answers) (info : Option AllocInfo) (buffer : Bool) : Prop :=
  ∀ i fmt f, info = some i → buffer = true → convertFormatToDrm i.format = some fmt →
    getFormatInfo fmt = some f → r.calloc ≠ none →
    k.createDumb (request fmt f i.width i.height) ≠ none ∧ r.destroyDumb = true

section Paths

variable {k : Kernel} {gbm : ℕ} {r : Answers} {info : AllocInfo}

theorem boDestroy_leaves (a : Addr) (bo : GbmBo) :
    Leaves ∅ {.gem bo.handle, .bo a} (boDestroy true a bo) 0 :=
  (Leaves.nil ∅ 0).release.release

theorem fillHandle_leaves (hdestroy : r.destroyDumb = true) (a : Addr) (bo : GbmBo) :
    Leaves ∅ {.gem bo.handle, .bo a} (fillHandle r info a bo).ops (owned (fillHandle r info a bo)) := by
  have hbo := boDestroy_leaves a bo
  simp only [fillHandle, hdestroy]
  generalize boGetFd r.primeFd = fd
  by_cases hfd : fd < 0
  · simp only [if_pos hfd]
    exact hbo
  · simp only [if_neg hfd]
    cases r.malloc with
    | none => exact hbo.release.acquire
    | some p =>
      dsimp only
      split_ifs
      · have hframe := hbo.frame {.priBuffer p, .fd fd}
        have hlive : {.gem bo.handle, .bo a} + {.priBuffer p, .fd fd} =
            (.priBuffer p ::ₘ .fd fd ::ₘ {.gem bo.handle, .bo a} : Multiset Resource) :=
          Multiset.add_comm _ _
        have howned : ({.priBuffer p, .fd fd} : Multiset Resource) = {.fd fd, .priBuffer p} :=
          Multiset.cons_swap _ _ 0
        rw [Multiset.zero_add, hlive, howned] at hframe
        exact hframe.acquire.acquire
      · have hframe := (hbo.frame {.priBuffer p}).append (Leaves.nil ∅ 0).release
        have hlive : {.gem bo.handle, .bo a} + {.priBuffer p} =
            (.priBuffer p ::ₘ {.gem bo.handle, .bo a} : Multiset Resource) := Multiset.add_comm _ _
        rw [hlive] at hframe
        have hfd := @Leaves.release _ _ ∅ _ _ _ (.fd fd) hframe
        rw [Multiset.cons_swap] at hfd
        exact hfd.acquire.acquire

theorem fillHandle_ret (a : Addr) (bo : GbmBo) :
    (fillHandle r info a bo).ret = .success ↔ (fillHandle r info a bo).buffer ≠ none := by
  simp only [fillHandle]
  by_cases hfd : boGetFd r.primeFd < 0
  · simp [hfd]
  · simp only [if_neg hfd]
    cases r.malloc with
    | none => simp
    | some p =>
      dsimp only
      split_ifs <;> simp

theorem not_clean {c : Called} {a : Addr} (ha : .acquire (.bo a) ∈ c.ops)
    (hr : .release (.bo a) ∉ c.ops) : ¬ Clean c := by
  intro hclean
  have hmem := mem_after hclean.sound ha hr
  rw [hclean.left, owned] at hmem
  cases hbuffer : c.buffer with
  | none =>
    rw [hbuffer] at hmem
    exact Multiset.notMem_zero _ hmem
  | some buffer =>
    rw [hbuffer] at hmem
    simp at hmem

theorem boCreate_cases (k : Kernel) (calloc : Option Addr) (gbm : ℕ) (width height : UInt32)
    (format : DrmFormat) :
    ((getFormatInfo format = none ∨ calloc = none) ∧
        boCreate k calloc gbm width height format = (none, [])) ∨
      ∃ f a, getFormatInfo format = some f ∧ calloc = some a ∧
        ((k.createDumb (request format f width height) = none ∧
            boCreate k calloc gbm width height format = (none, [.acquire (.bo a)])) ∨
          ∃ dumb bo, k.createDumb (request format f width height) = some dumb ∧
            bo.handle = dumb.handle ∧ boCreate k calloc gbm width height format =
              (some (a, bo), [.acquire (.bo a), .acquire (.gem bo.handle)])) := by
  rw [boCreate]
  cases hf : getFormatInfo format with
  | none => exact Or.inl ⟨Or.inl rfl, rfl⟩
  | some f =>
    cases calloc with
    | none => exact Or.inl ⟨Or.inr rfl, rfl⟩
    | some a =>
      refine Or.inr ⟨f, a, rfl, rfl, ?_⟩
      cases hdumb : k.createDumb (request format f width height) with
      | none => exact Or.inl ⟨rfl, by simp only [hdumb]⟩
      | some dumb => exact Or.inr ⟨dumb, _, rfl, rfl, by simp only [hdumb]; rfl⟩

def LockedReleasable (k : Kernel) (r : Answers) (info : AllocInfo) (drmFmt : DrmFormat) : Prop :=
  ∀ f, getFormatInfo drmFmt = some f → r.calloc ≠ none →
    k.createDumb (request drmFmt f info.width info.height) ≠ none ∧ r.destroyDumb = true

theorem allocLocked_clean {drmFmt : DrmFormat} (h : LockedReleasable k r info drmFmt) :
    Clean (allocLocked k gbm r info drmFmt) := by
  rcases boCreate_cases k r.calloc gbm info.width info.height drmFmt with
    ⟨-, hcreate⟩ | ⟨f, a, hf, hcalloc, ⟨hdumb, -⟩ | ⟨dumb, bo, -, -, hcreate⟩⟩
  · rw [allocLocked, hcreate]
    exact ⟨by simp, trivial, rfl⟩
  · exact absurd hdumb (h f hf (by simp [hcalloc])).1
  · have hdestroy : r.destroyDumb = true := (h f hf (by simp [hcalloc])).2
    have hbo : Leaves ∅ 0 [.acquire (Resource.bo a), .acquire (.gem bo.handle)]
        {.gem bo.handle, .bo a} :=
      (Leaves.nil ∅ _).acquire.acquire
    have hleaves := hbo.append (@fillHandle_leaves r info hdestroy a bo)
    rw [allocLocked, hcreate]
    exact ⟨fillHandle_ret a bo, hleaves.1, hleaves.2⟩

theorem allocLocked_kept {drmFmt : DrmFormat} (h : ¬ LockedReleasable k r info drmFmt) :
    ∃ a, .acquire (.bo a) ∈ (allocLocked k gbm r info drmFmt).ops ∧
      .release (.bo a) ∉ (allocLocked k gbm r info drmFmt).ops := by
  rw [LockedReleasable] at h
  push Not at h
  obtain ⟨f', hf', hcalloc', hnot⟩ := h
  rcases boCreate_cases k r.calloc gbm info.width info.height drmFmt with
    ⟨hnone, -⟩ | ⟨f, a, hf, -, ⟨-, hcreate⟩ | ⟨dumb, bo, hdumb, -, hcreate⟩⟩
  · rcases hnone with hf | hcalloc
    · rw [hf] at hf'
      cases hf'
    · exact absurd hcalloc hcalloc'
  · refine ⟨a, ?_⟩
    rw [allocLocked, hcreate]
    simp
  · obtain rfl : f = f' := Option.some.inj (hf.symm.trans hf')
    have hdestroy : r.destroyDumb = false := by
      rw [Bool.eq_false_iff]
      apply hnot
      rw [hdumb]
      exact Option.some_ne_none dumb
    have hkept : .release (.bo a) ∉ (fillHandle r info a bo).ops := by
      simp only [fillHandle, boDestroy, hdestroy, Bool.false_eq_true, if_false]
      by_cases hfd : boGetFd r.primeFd < 0
      · simp [hfd]
      · simp only [if_neg hfd]
        cases r.malloc with
        | none => simp
        | some p => cases r.memset <;> simp
    refine ⟨a, ?_⟩
    rw [allocLocked, hcreate]
    simp [hkept]

end Paths

/-- Nothing leaks exactly when the dumb buffer is created and destroyed. -/
theorem gbmAllocMem_clean_iff (k : Kernel) (gbm : ℕ) (r : Answers) (info : Option AllocInfo)
    (buffer : Bool) : Clean (gbmAllocMem k gbm r info buffer) ↔ Releasable k r info buffer := by
  have hnothing : ∀ ret, ret ≠ .success → Clean ⟨ret, none, []⟩ :=
    fun ret hret => ⟨by simp [hret], trivial, rfl⟩
  cases info with
  | none =>
    exact iff_of_true (hnothing .failure (by decide)) fun i fmt f hi => by cases hi
  | some info =>
    cases buffer with
    | false => exact iff_of_true (hnothing .failure (by decide)) fun i fmt f _ hb => by cases hb
    | true =>
      rw [gbmAllocMem]
      cases hfmt : convertFormatToDrm info.format with
      | none =>
        refine iff_of_true (hnothing .notSupport (by decide)) fun i fmt f hi _ hconvert => ?_
        cases hi
        rw [hfmt] at hconvert
        cases hconvert
      | some drmFmt =>
        have hlocked : Releasable k r (some info) true ↔ LockedReleasable k r info drmFmt := by
          constructor
          · exact fun h f hf => h info drmFmt f rfl rfl hfmt hf
          · intro h i fmt f hi _ hconvert hf
            cases hi
            obtain rfl : drmFmt = fmt := Option.some.inj (hfmt.symm.trans hconvert)
            exact h f hf
        rw [hlocked]
        constructor
        · intro hclean
          by_contra hnot
          obtain ⟨a, ha, hr⟩ := @allocLocked_kept k gbm r info drmFmt hnot
          apply not_clean _ _ hclean
          · exact a
          · exact List.mem_cons_of_mem _ (List.mem_append_left _ ha)
          · simp [hr]
        · intro h
          obtain ⟨hret, hsound, hleft⟩ := @allocLocked_clean k gbm r info drmFmt h
          have hbracket := Leaves.bracket ⟨hsound, hleft⟩ .lock
          exact ⟨hret, hbracket.1, hbracket.2⟩

def refusing : Kernel where
  createDumb _ := none
  pitch _ _ h := by cases h
  size _ _ h := by cases h

def answers : Answers where
  calloc := some 0x1000
  destroyDumb := true
  primeFd := some 7
  malloc := some 0x2000
  memset := true

/-- The bo at 0x1000 is lost. -/
theorem gbmAllocMem_refused :
    (gbmAllocMem refusing 3 answers (some ⟨64, 64, 0, .rgba8888⟩) true).ret = .noMemory ∧
    (gbmAllocMem refusing 3 answers (some ⟨64, 64, 0, .rgba8888⟩) true).ops =
      [.acquire .lock, .acquire (.bo 0x1000), .release .lock] ∧
    ¬ Clean (gbmAllocMem refusing 3 answers (some ⟨64, 64, 0, .rgba8888⟩) true) := by
  refine ⟨by decide, by decide, fun h => ?_⟩
  have hleft := h.left
  exact absurd hleft (by decide)

end GbmAllocMem
