import Mathlib.Data.List.Nodup
import DeviceQemu.RingWindow
import DeviceQemu.LinkedWalk

/-! Split virtqueues of the virtio-mmio transport.
The queue memory shared with the device, as virtmmio.h declares it. Array bounds are not
part of the type: that every index stays below the queue size is a result, not a premise. -/
namespace Virtmmio

open RingWindow LinkedWalk

def virtqDescFNext : UInt16 := 1
def virtqDescFWrite : UInt16 := 2
def virtqAvailFNoInterrupt : UInt16 := 1
def virtqUsedFNoNotify : UInt16 := 1

structure VirtqDesc where
  pAddr : UInt64
  len : UInt32
  flag : UInt16
  next : UInt16
  deriving DecidableEq, Repr, Inhabited

structure VirtqAvail where
  flag : UInt16
  index : UInt16
  ring : UInt16 → UInt16

structure VirtqUsedElem where
  id : UInt32
  len : UInt32
  deriving DecidableEq, Repr, Inhabited

structure VirtqUsed where
  flag : UInt16
  index : UInt16
  ring : UInt16 → VirtqUsedElem

structure Virtq where
  qsz : UInt16
  last : UInt16
  desc : UInt16 → VirtqDesc
  avail : VirtqAvail
  used : VirtqUsed

def VirtqDesc.hasNext (d : VirtqDesc) : Bool := d.flag &&& virtqDescFNext != 0

def VirtqDesc.clearNext (d : VirtqDesc) : VirtqDesc :=
  { d with flag := d.flag &&& ~~~virtqDescFNext }

@[simp] theorem hasNext_clearNext (d : VirtqDesc) : d.clearNext.hasNext = false := by
  have h : d.flag &&& ~~~virtqDescFNext &&& virtqDescFNext = 0 := by
    rw [UInt16.and_assoc]
    simp [virtqDescFNext]
  simp [VirtqDesc.hasNext, VirtqDesc.clearNext, h]

@[simp] theorem next_clearNext (d : VirtqDesc) : d.clearNext.next = d.next := rfl

/-- Chain heads published to the device after counter `seen`. -/
def Virtq.availFrom (q : Virtq) (seen : UInt16) : List UInt16 :=
  window q.qsz q.avail.ring seen q.avail.index

/-- Used elements the device appended after counter `seen`. -/
def Virtq.usedFrom (q : Virtq) (seen : UInt16) : List VirtqUsedElem :=
  window q.qsz q.used.ring seen q.used.index

/-- The descriptor chain the device reads from `head`: it stops at the first descriptor
without NEXT, and never reads more than `qsz` of them. -/
def Virtq.chainOf (q : Virtq) (head : UInt16) : List UInt16 :=
  chain (fun i => (q.desc i).hasNext) (fun i => (q.desc i).next) head q.qsz.toNat

/-- The descriptor indices of a queue of size `qsz`. -/
def indices (qsz : UInt16) : List UInt16 := (List.range qsz.toNat).map UInt16.ofNat

theorem nodup_indices (qsz : UInt16) : (indices qsz).Nodup := by
  refine List.Nodup.map_on (fun i hi j hj h => ?_) List.nodup_range
  have := qsz.toNat_lt
  have h := congrArg UInt16.toNat h
  simp only [UInt16.toNat_ofNat', List.mem_range] at h hi hj
  omega

@[simp] theorem length_indices (qsz : UInt16) : (indices qsz).length = qsz.toNat := by
  simp [indices]

end Virtmmio
