import DeviceQemu.RetryLoop
import Mathlib.Data.Int.Notation
import Mathlib.Data.UInt

/-! Synchronising the cache of a DMA buffer.
GbmInvalidateCache and GbmFlushCache make the sync ioctl through DmaBufferSync, which is to try again
when it was interrupted. ioctl itself returns 0 or -1, and leaves the error in errno. -/
namespace DmaBufferSync

open RetryLoop

def eagain : ℤ := 11
def eintr : ℤ := 4

inductive Answer where
  | done
  | failed (errno : ℤ)
  deriving DecidableEq, Repr

def Answer.ret : Answer → ℤ
  | .done => 0
  | .failed _ => -1

inductive Status where
  | success
  | invalidParam
  | deviceBusy
  deriving DecidableEq, Repr

structure BufferHandle where
  fd : ℤ
  usage : UInt64
  deriving DecidableEq, Repr

structure Masks where
  hbmUseCpuWrite : UInt64
  hbmUseCpuRead : UInt64
  dmaBufSyncWrite : UInt64
  dmaBufSyncRead : UInt64
  dmaBufSyncStart : UInt64
  dmaBufSyncEnd : UInt64
  deriving DecidableEq, Repr

/-- The size of dma_buf_sync, which is one field. -/
def sizeofSyncPrm : ℕ := 8

def memsetS (destMax count : ℕ) : Bool := 0 < destMax ∧ destMax ≤ 2147483647 ∧ count ≤ destMax

def flags (m : Masks) (handle : BufferHandle) (start : Bool) : UInt64 :=
  let write := if handle.usage &&& m.hbmUseCpuWrite ≠ 0 then m.dmaBufSyncWrite else 0
  let read := if handle.usage &&& m.hbmUseCpuRead ≠ 0 then m.dmaBufSyncRead else 0
  write ||| read ||| if start then m.dmaBufSyncStart else m.dmaBufSyncEnd

/-- The ioctls that were made, all with the same file and flags, and what is returned. -/
structure Run where
  ioctls : ℕ
  fd : ℤ
  flags : UInt64
  status : Status
  deriving DecidableEq, Repr

/-- The condition of the loop beside the budget: it looks for the errors in the result. -/
def again (a : Answer) : Bool := a.ret ≠ -eagain ∧ a.ret ≠ -eintr

def dmaBufferSync (m : Masks) (budget : ℕ) (handle : BufferHandle) (start : Bool)
    (answers : ℕ → Answer) : Run :=
  if memsetS sizeofSyncPrm sizeofSyncPrm then
    let k := last again answers budget
    { ioctls := k + 1
      fd := handle.fd
      flags := flags m handle start
      status := if (answers k).ret < 0 then .deviceBusy else .success }
  else ⟨0, handle.fd, 0, .invalidParam⟩

def retry : ℕ := 6

def gbmInvalidateCache (m : Masks) (buffer : BufferHandle) (answers : ℕ → Answer) : Run :=
  dmaBufferSync m retry buffer true answers

def gbmFlushCache (m : Masks) (buffer : BufferHandle) (answers : ℕ → Answer) : Run :=
  dmaBufferSync m retry buffer false answers

def Transient : Answer → Prop
  | .done => False
  | .failed errno => errno = eagain ∨ errno = eintr

instance : DecidablePred Transient
  | .done => isFalse not_false
  | .failed _ => inferInstanceAs (Decidable (_ ∨ _))

/-- `k` is the last attempt. None before it was a success, and it decides what is reported. -/
structure Right (budget : ℕ) (answers : ℕ → Answer) (r : Run) (k : ℕ) : Prop where
  ioctls : r.ioctls = k + 1
  first : ∀ i < k, answers i ≠ .done
  retries : StopsAt (fun a => decide (Transient a)) answers budget k
  success : r.status = .success ↔ answers k = .done
  failure : r.status = .deviceBusy ↔ answers k ≠ .done

theorem not_transient_done : ¬ Transient .done := not_false

/-- No result of an ioctl is one of the errors, so that the loop goes on whatever it is. -/
theorem again_true (a : Answer) : again a = true := by
  cases a <;> rfl

theorem last_again (answers : ℕ → Answer) (budget : ℕ) : last again answers budget = budget := by
  have hstops : StopsAt again answers budget budget :=
    stopsAt_budget_iff.mpr fun i _ => again_true (answers i)
  exact (last_stops again answers budget).unique hstops

variable {m : Masks} {budget : ℕ} {handle : BufferHandle} {start : Bool} {answers : ℕ → Answer}

theorem dmaBufferSync_eq : dmaBufferSync m budget handle start answers =
    ⟨budget + 1, handle.fd, flags m handle start,
      if (answers budget).ret < 0 then .deviceBusy else .success⟩ := by
  rw [dmaBufferSync, if_pos (by decide), last_again]

theorem Right.last_eq {k : ℕ}
    (h : Right budget answers (dmaBufferSync m budget handle start answers) k) : budget = k := by
  have hioctls := h.ioctls
  rw [dmaBufferSync_eq] at hioctls
  exact Nat.succ.inj hioctls

/-- Seven ioctls are made for every invalidation and every flush. -/
theorem gbm_ioctls (m : Masks) (buffer : BufferHandle) (answers : ℕ → Answer) :
    (gbmInvalidateCache m buffer answers).ioctls = 7 ∧
      (gbmFlushCache m buffer answers).ioctls = 7 := by
  rw [gbmInvalidateCache, gbmFlushCache, dmaBufferSync_eq, dmaBufferSync_eq]
  exact ⟨rfl, rfl⟩

theorem dmaBufferSync_status (m : Masks) (budget : ℕ) (handle : BufferHandle) (start : Bool)
    (answers : ℕ → Answer) :
    ((dmaBufferSync m budget handle start answers).status = .success ↔ answers budget = .done) ∧
      ((dmaBufferSync m budget handle start answers).status = .deviceBusy ↔
        answers budget ≠ .done) := by
  rw [dmaBufferSync_eq]
  cases answers budget with
  | done => simp [Answer.ret]
  | failed errno => simp [Answer.ret]

/-- The sync is right exactly when every attempt but the last that the budget allows fails with
EAGAIN or EINTR. -/
theorem sync_right_iff (m : Masks) (budget : ℕ) (handle : BufferHandle) (start : Bool)
    (answers : ℕ → Answer) :
    (∃ k, Right budget answers (dmaBufferSync m budget handle start answers) k) ↔
      ∀ i < budget, Transient (answers i) := by
  constructor
  · rintro ⟨k, hright⟩ i hi
    obtain rfl := hright.last_eq
    exact of_decide_eq_true (hright.retries.retries i hi)
  · intro htransient
    obtain ⟨hsuccess, hfailure⟩ := dmaBufferSync_status m budget handle start answers
    refine ⟨budget, ?_, ?_, ?_, hsuccess, hfailure⟩
    · rw [dmaBufferSync_eq]
    · intro i hi hdone
      exact not_transient_done (hdone ▸ htransient i hi)
    · exact stopsAt_budget_iff.mpr fun i hi => decide_eq_true (htransient i hi)

/-- The ioctl succeeds at once and is made six times more. -/
theorem sync_repeated :
    ¬ ∀ m budget handle start answers,
      ∃ k, Right budget answers (dmaBufferSync m budget handle start answers) k := by
  intro hall
  obtain ⟨k, hright⟩ := hall ⟨2, 1, 2, 1, 0, 4⟩ retry ⟨3, 3⟩ true fun _ => .done
  obtain rfl := hright.last_eq
  exact hright.first 0 (by decide) rfl

end DmaBufferSync
