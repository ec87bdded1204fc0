import DeviceQemu.SharedSegments
import DeviceQemu.StepSystem
import Mathlib.Data.List.Range
import Mathlib.Logic.Function.Basic

/-! Buffers in shared memory.
AllocMem, FreeMem, Mmap and Unmap of display_gralloc on buffers of usage HBM_USE_MEM_SHARE. A
handle names its memory by the key of a System V segment. Calls are steps; the kernel chooses
identifiers and addresses. -/
namespace DisplayGralloc

open StepSystem SharedSegments

abbrev Ptr := ℕ
abbrev Process := ℕ

def maxMallocSize : ℤ := 0x10000000
def shmMaxKey : ℕ := 10000
def shmStartKey : ℕ := 1
def invalidShmid : ℤ := -1

/-- The PriBufferHandle of a process; `fd` is the key. `buffer` is the serial number of the segment
that AllocShm created for it. -/
structure BufferHandle where
  process : Process
  size : ℤ
  fd : ℕ
  virAddr : Option ℕ
  shmid : ℤ
  buffer : ℕ
  deriving DecidableEq, Repr

/-- `key` is the static of AllocShm in each process, `attached` are the addresses at which a
process has segments, and `live` the buffers between their AllocMem and their FreeMem. -/
structure State where
  key : Process → ℕ
  segs : List (Segment ℕ)
  serial : ℕ
  attached : List (Process × ℕ)
  handle : Ptr → Option BufferHandle
  live : List ℕ

def initial : State := ⟨fun _ => shmStartKey, [], 0, [], fun _ => none, []⟩

def sizeInvalid (size : ℤ) : Bool := maxMallocSize < size || size = 0

/-- The keys in the order in which AllocShm tries them. -/
def keysFrom (key : ℕ) : List ℕ :=
  List.range' key (shmMaxKey - key) ++ List.range' shmStartKey (key - shmStartKey)

def freeKey (segs : List (Segment ℕ)) (key : ℕ) : Option ℕ := (keysFrom key).find? fun k => Free segs k

def nextKey (key : ℕ) : ℕ := if shmMaxKey ≤ key + 1 then shmStartKey else key + 1

/-- AllocShm in process `p`: `shmget` is the identifier of the new segment, or another error than
EEXIST, and `shmat` the address. While every key is taken it does not return. -/
def allocShm (s : State) (p : Process) (size : ℤ) (shmget : Option ℤ) (shmat : Option ℕ) :
    Option (State × Option (ℕ × ℤ × ℕ)) :=
  match freeKey s.segs (s.key p), shmget, shmat with
  | none, _, _ => none
  | some key, none, _ => some ({ s with key := Function.update s.key p key }, none)
  | some key, some shmid, none =>
    if shmid < 0 ∨ shmid ∈ s.segs.map Segment.id then none
    else some ({ s with
      key := Function.update s.key p key
      segs := remove (⟨shmid, key, size, s.serial⟩ :: s.segs) shmid
      serial := s.serial + 1 }, none)
  | some key, some shmid, some addr =>
    if shmid < 0 ∨ shmid ∈ s.segs.map Segment.id ∨ (p, addr) ∈ s.attached then none
    else some ({ s with
      key := Function.update s.key p (nextKey key)
      segs := ⟨shmid, key, size, s.serial⟩ :: s.segs
      serial := s.serial + 1
      attached := (p, addr) :: s.attached }, some (key, shmid, addr))

/-- `size` is what InitBufferHandle computes, `ptr` where calloc puts the handle. -/
def allocMem (s : State) (p : Process) (ptr : Ptr) (size : ℤ) (shmget : Option ℤ) (shmat : Option ℕ) :
    Option State :=
  if (s.handle ptr).isSome then none
  else if sizeInvalid size then some s
  else (allocShm s p size shmget shmat).map fun (t, allocated) =>
    match allocated with
    | none => t
    | some (key, shmid, addr) =>
      { t with
        handle := Function.update s.handle ptr (some ⟨p, size, key, some addr, shmid, s.serial⟩)
        live := s.serial :: s.live }

/-- The segment that FreeMem removes. -/
def freeRemoves (h : BufferHandle) : Option ℤ :=
  if sizeInvalid h.size ∨ h.virAddr = none then none else some h.shmid

def removeSome (segs : List (Segment ℕ)) (id : Option ℤ) : List (Segment ℕ) :=
  match id with
  | none => segs
  | some id => remove segs id

def detach (s : State) (h : BufferHandle) : List (Process × ℕ) :=
  match h.virAddr with
  | none => s.attached
  | some addr => s.attached.filter fun a => a ≠ (h.process, addr)

/-- A failure of shmdt is only logged. -/
def freeMem (s : State) (ptr : Ptr) : Option State :=
  (s.handle ptr).map fun h =>
    { s with
      segs := removeSome s.segs (freeRemoves h)
      attached := if sizeInvalid h.size then s.attached else detach s h
      live := s.live.filter fun n => n ≠ h.buffer }

/-- A handle is sent to another process with its integers, the identifier among them. -/
def send (s : State) (ptr ptr' : Ptr) (p' : Process) : Option State :=
  if (s.handle ptr').isSome then none
  else (s.handle ptr).map fun h =>
    { s with handle := Function.update s.handle ptr' (some { h with process := p', virAddr := none }) }

/-- Mmap; the caller keeps the address in the handle, where Unmap looks for it. -/
def mmap (s : State) (ptr : Ptr) (shmat : Option ℕ) : Option State :=
  (s.handle ptr).bind fun h =>
    if sizeInvalid h.size then some s
    else
      match SharedSegments.get s.segs h.fd h.size, shmat with
      | none, _ => some s
      | some _, none => some s
      | some seg, some addr =>
        if (h.process, addr) ∈ s.attached then none
        else
          let mapped := { h with shmid := seg.id, virAddr := some addr }
          some { s with
            attached := (h.process, addr) :: s.attached
            handle := Function.update s.handle ptr (some mapped) }

def detaches (s : State) (h : BufferHandle) : Bool :=
  match h.virAddr with
  | none => false
  | some addr => !sizeInvalid h.size && (h.process, addr) ∈ s.attached

/-- The segment that UnmapShm removes. -/
def unmapRemoves (s : State) (h : BufferHandle) : Option ℤ :=
  if detaches s h ∧ h.shmid ≠ invalidShmid then some h.shmid else none

def unmap (s : State) (ptr : Ptr) : Option State :=
  (s.handle ptr).map fun h =>
    { s with
      segs := removeSome s.segs (unmapRemoves s h)
      attached := if detaches s h then detach s h else s.attached }

inductive Event where
  | alloc (p : Process) (ptr : Ptr) (size : ℤ) (shmget : Option ℤ) (shmat : Option ℕ)
  | free (ptr : Ptr)
  | send (ptr ptr' : Ptr) (p' : Process)
  | mmap (ptr : Ptr) (shmat : Option ℕ)
  | unmap (ptr : Ptr)
  deriving DecidableEq, Repr

def next (s : State) : Event → Option State
  | .alloc p ptr size shmget shmat => allocMem s p ptr size shmget shmat
  | .free ptr => freeMem s ptr
  | .send ptr ptr' p' => send s ptr ptr' p'
  | .mmap ptr shmat => mmap s ptr shmat
  | .unmap ptr => unmap s ptr

def system : System State Event where
  Init s := s = initial
  next := next

/-- Mmap on any handle of a live buffer finds the segment that AllocShm created for it. -/
def MapsOwn (s : State) : Prop := ∀ ptr h, s.handle ptr = some h → h.buffer ∈ s.live →
  ∃ seg, SharedSegments.get s.segs h.fd h.size = some seg ∧ seg.serial = h.buffer

def KeysDiffer (s : State) : Prop := ∀ ptr h ptr' h', s.handle ptr = some h → s.handle ptr' = some h' →
  h.buffer ∈ s.live → h'.buffer ∈ s.live → h.fd = h'.fd → h.buffer = h'.buffer

def Spares (segs : List (Segment ℕ)) (live : List ℕ) (id : Option ℤ) : Prop :=
  ∀ seg ∈ segs, some seg.id = id → seg.serial ∉ live

instance (segs : List (Segment ℕ)) (live : List ℕ) (id : Option ℤ) :
    Decidable (Spares segs live id) := by
  unfold Spares
  infer_instance

/-- Unmap removes no segment of a live buffer, and FreeMem none but its own. -/
def SparesLive (s : State) : Event → Prop
  | .free ptr => ∀ h ∈ s.handle ptr,
      Spares s.segs (s.live.filter fun n => n ≠ h.buffer) (freeRemoves h)
  | .unmap ptr => ∀ h ∈ s.handle ptr, Spares s.segs s.live (unmapRemoves s h)
  | _ => True

structure Inv (s : State) : Prop where
  proper : Proper s.segs s.serial
  below : ∀ ptr h, s.handle ptr = some h → h.buffer < s.serial
  owned : ∀ n ∈ s.live, ∃ ptr h, s.handle ptr = some h ∧ h.buffer = n
  own : ∀ ptr h, s.handle ptr = some h → h.buffer ∈ s.live →
    ∃ seg ∈ s.segs, seg.serial = h.buffer ∧ seg.key = h.fd ∧ seg.size = h.size

theorem initial_inv : Inv initial := by
  refine ⟨proper_nil, ?_, ?_, ?_⟩ <;> simp [initial]

theorem Inv.mapsOwn {s : State} (h : Inv s) : MapsOwn s := by
  intro ptr hdl hptr hlive
  obtain ⟨seg, hmem, hserial, hkey, hsize⟩ := h.own ptr hdl hptr hlive
  exact ⟨seg, (get_eq_some h.proper).mpr ⟨hmem, hkey, hsize.ge⟩, hserial⟩

theorem Inv.keysDiffer {s : State} (h : Inv s) : KeysDiffer s := by
  intro ptr hdl ptr' hdl' hptr hptr' hlive hlive' heq
  obtain ⟨seg, hmem, hserial, hkey, -⟩ := h.own ptr hdl hptr hlive
  obtain ⟨seg', hmem', hserial', hkey', -⟩ := h.own ptr' hdl' hptr' hlive'
  have hseg := h.proper.keys seg hmem seg' hmem' (hkey.trans (heq.trans hkey'.symm))
  rw [← hserial, ← hserial', hseg]

theorem mem_removeSome {segs : List (Segment ℕ)} {id : Option ℤ} {seg : Segment ℕ} :
    seg ∈ removeSome segs id ↔ seg ∈ segs ∧ some seg.id ≠ id := by
  cases id with
  | none => simp [removeSome]
  | some id => simp [removeSome, mem_remove]

theorem removeSome_proper {segs : List (Segment ℕ)} {n : ℕ} (h : Proper segs n) (id : Option ℤ) :
    Proper (removeSome segs id) n := by
  cases id with
  | none => exact h
  | some id => exact h.remove id

/-- What a call does that creates no segment: handles may be copied and their identifiers change,
buffers may end, and a segment may go. -/
structure Keeps (s t : State) (id : Option ℤ) : Prop where
  segs : t.segs = removeSome s.segs id
  serial : t.serial = s.serial
  live : ∀ n ∈ t.live, n ∈ s.live
  back : ∀ ptr h, t.handle ptr = some h → ∃ ptr' h', s.handle ptr' = some h' ∧
    h'.buffer = h.buffer ∧ h'.fd = h.fd ∧ h'.size = h.size
  forth : ∀ ptr h, s.handle ptr = some h → ∃ ptr' h', t.handle ptr' = some h' ∧ h'.buffer = h.buffer

theorem Keeps.inv {s t : State} {id : Option ℤ} (hkeeps : Keeps s t id) (h : Inv s)
    (hspares : Spares s.segs t.live id) : Inv t := by
  refine ⟨?_, ?_, ?_, ?_⟩
  · rw [hkeeps.segs, hkeeps.serial]
    exact removeSome_proper h.proper id
  · intro ptr hdl hptr
    obtain ⟨ptr', hdl', hptr', hbuffer, -⟩ := hkeeps.back ptr hdl hptr
    rw [hkeeps.serial, ← hbuffer]
    exact h.below ptr' hdl' hptr'
  · intro n hn
    obtain ⟨ptr, hdl, hptr, rfl⟩ := h.owned n (hkeeps.live n hn)
    exact hkeeps.forth ptr hdl hptr
  · intro ptr hdl hptr hlive
    obtain ⟨ptr', hdl', hptr', hbuffer, hfd, hsize⟩ := hkeeps.back ptr hdl hptr
    obtain ⟨seg, hmem, hserial, hkey, hseg⟩ :=
      h.own ptr' hdl' hptr' (hbuffer ▸ hkeeps.live _ hlive)
    refine ⟨seg, ?_, hserial.trans hbuffer, hkey.trans hfd, hseg.trans hsize⟩
    rw [hkeeps.segs, mem_removeSome]
    refine ⟨hmem, fun hid => hspares seg hmem hid ?_⟩
    rw [hserial, hbuffer]
    exact hlive

/-- When the segment of a live buffer goes, Mmap on its handle fails or maps another one. -/
theorem Keeps.breach {s t : State} {id : Option ℤ} (hkeeps : Keeps s t id) (h : Inv s)
    (hspares : ¬ Spares s.segs t.live id) : ¬ MapsOwn t := by
  intro hmaps
  obtain ⟨seg, hmem, hid, hlive⟩ : ∃ seg ∈ s.segs, some seg.id = id ∧ seg.serial ∈ t.live := by
    simpa [Spares] using hspares
  obtain ⟨ptr, hdl, hptr, hbuffer⟩ := h.owned _ (hkeeps.live _ hlive)
  obtain ⟨ptr', hdl', hptr', hbuffer'⟩ := hkeeps.forth ptr hdl hptr
  have hserial : hdl'.buffer = seg.serial := hbuffer'.trans hbuffer
  obtain ⟨seg', hget, hserial'⟩ := hmaps ptr' hdl' hptr' (hserial ▸ hlive)
  have hproper : Proper t.segs t.serial := by
    rw [hkeeps.segs, hkeeps.serial]
    exact removeSome_proper h.proper id
  have hmem' := ((get_eq_some hproper).mp hget).1
  rw [hkeeps.segs, mem_removeSome] at hmem'
  obtain rfl := h.proper.serials seg' hmem'.1 seg hmem (hserial'.trans hserial)
  exact hmem'.2 hid

theorem freeMem_keeps {s t : State} {ptr : Ptr} (ht : freeMem s ptr = some t) :
    ∃ h, s.handle ptr = some h ∧ Keeps s t (freeRemoves h) ∧
      t.live = s.live.filter fun n => n ≠ h.buffer := by
  obtain ⟨h, hptr, rfl⟩ := Option.map_eq_some_iff.mp ht
  refine ⟨h, hptr, ⟨rfl, rfl, fun n hn => (List.mem_filter.mp hn).1, ?_, ?_⟩, rfl⟩
  · exact fun ptr' h' hptr' => ⟨ptr', h', hptr', rfl, rfl, rfl⟩
  · exact fun ptr' h' hptr' => ⟨ptr', h', hptr', rfl⟩

theorem unmap_keeps {s t : State} {ptr : Ptr} (ht : unmap s ptr = some t) :
    ∃ h, s.handle ptr = some h ∧ Keeps s t (unmapRemoves s h) ∧ t.live = s.live := by
  obtain ⟨h, hptr, rfl⟩ := Option.map_eq_some_iff.mp ht
  refine ⟨h, hptr, ⟨rfl, rfl, fun n hn => hn, ?_, ?_⟩, rfl⟩
  · exact fun ptr' h' hptr' => ⟨ptr', h', hptr', rfl, rfl, rfl⟩
  · exact fun ptr' h' hptr' => ⟨ptr', h', hptr', rfl⟩

theorem keeps_of_update {s t : State} {ptr ptr' : Ptr} {h k : BufferHandle}
    (hptr : s.handle ptr = some h) (hsegs : t.segs = s.segs) (hserial : t.serial = s.serial)
    (hlive : t.live = s.live) (hhandle : t.handle = Function.update s.handle ptr' (some k))
    (hsame : k.buffer = h.buffer ∧ k.fd = h.fd ∧ k.size = h.size)
    (hold : ∀ h' ∈ s.handle ptr', k.buffer = h'.buffer) : Keeps s t none := by
  refine ⟨hsegs, hserial, fun n hn => hlive ▸ hn, ?_, ?_⟩
  · intro q m hq
    by_cases heq : q = ptr'
    · rw [hhandle, heq, Function.update_self] at hq
      cases hq
      exact ⟨ptr, h, hptr, hsame.1.symm, hsame.2.1.symm, hsame.2.2.symm⟩
    · rw [hhandle, Function.update_of_ne heq] at hq
      exact ⟨q, m, hq, rfl, rfl, rfl⟩
  · intro q m hq
    by_cases heq : q = ptr'
    · subst heq
      exact ⟨q, k, by rw [hhandle, Function.update_self], hold m hq⟩
    · exact ⟨q, m, by rw [hhandle, Function.update_of_ne heq, hq], rfl⟩

theorem send_keeps {s t : State} {ptr ptr' : Ptr} {p' : Process} (ht : send s ptr ptr' p' = some t) :
    Keeps s t none := by
  unfold send at ht
  split_ifs at ht with hfree
  obtain ⟨h, hptr, rfl⟩ := Option.map_eq_some_iff.mp ht
  refine keeps_of_update hptr rfl rfl rfl rfl ⟨rfl, rfl, rfl⟩ fun h' hptr' => ?_
  exact absurd (Option.isSome_of_mem hptr') hfree

theorem mmap_keeps {s t : State} {ptr : Ptr} {shmat : Option ℕ} (ht : mmap s ptr shmat = some t) :
    Keeps s t none := by
  have hidle : Keeps s s none := by
    refine ⟨rfl, rfl, fun n hn => hn, ?_, ?_⟩
    · exact fun q k hq => ⟨q, k, hq, rfl, rfl, rfl⟩
    · exact fun q k hq => ⟨q, k, hq, rfl⟩
  obtain ⟨h, hptr, ht⟩ := Option.bind_eq_some_iff.mp ht
  split_ifs at ht with hsize
  · exact Option.some.inj ht ▸ hidle
  · split at ht
    · exact Option.some.inj ht ▸ hidle
    · exact Option.some.inj ht ▸ hidle
    · split_ifs at ht
      obtain rfl := Option.some.inj ht
      refine keeps_of_update hptr rfl rfl rfl rfl ⟨rfl, rfl, rfl⟩ fun h' hptr' => ?_
      rw [Option.some.inj (hptr.symm.trans hptr')]

theorem freeKey_free {segs : List (Segment ℕ)} {start key : ℕ} (h : freeKey segs start = some key) :
    Free segs key := by
  have hfree := List.find?_some h
  exact of_decide_eq_true hfree

theorem Inv.create {s t : State} {ptr : Ptr} {h : BufferHandle} (hinv : Inv s) (seg : Segment ℕ)
    (hptr : s.handle ptr = none) (hfree : Free s.segs seg.key) (hserial : seg.serial = s.serial)
    (hsame : h.buffer = s.serial ∧ h.fd = seg.key ∧ h.size = seg.size) (hsegs : t.segs = seg :: s.segs)
    (hnext : t.serial = s.serial + 1) (hhandle : t.handle = Function.update s.handle ptr (some h))
    (hlive : t.live = s.serial :: s.live) : Inv t := by
  have hcases : ∀ q k, t.handle q = some k → k = h ∨ (s.handle q = some k ∧ k.buffer < s.serial) := by
    intro q k hq
    by_cases heq : q = ptr
    · rw [hhandle, heq, Function.update_self] at hq
      exact Or.inl (Option.some.inj hq).symm
    · rw [hhandle, Function.update_of_ne heq] at hq
      exact Or.inr ⟨hq, hinv.below q k hq⟩
  refine ⟨?_, ?_, ?_, ?_⟩
  · rw [hsegs, hnext]
    exact hinv.proper.create hfree hserial
  · intro q k hq
    rw [hnext]
    rcases hcases q k hq with rfl | ⟨-, hlt⟩
    · exact Nat.lt_succ_of_le hsame.1.le
    · exact hlt.trans (Nat.lt_succ_self _)
  · intro n hn
    rw [hlive] at hn
    rcases List.mem_cons.mp hn with rfl | hn
    · exact ⟨ptr, h, by rw [hhandle, Function.update_self], hsame.1⟩
    · obtain ⟨q, k, hq, hk⟩ := hinv.owned n hn
      have hne : q ≠ ptr := by
        rintro rfl
        exact absurd (hptr.symm.trans hq) (by simp)
      exact ⟨q, k, by rw [hhandle, Function.update_of_ne hne, hq], hk⟩
  · intro q k hq hk
    rw [hsegs]
    rcases hcases q k hq with rfl | ⟨hold, hlt⟩
    · exact ⟨seg, List.mem_cons_self, hserial.trans hsame.1.symm, hsame.2.1.symm, hsame.2.2.symm⟩
    · rw [hlive] at hk
      have hlive' := (List.mem_cons.mp hk).resolve_left hlt.ne
      obtain ⟨seg', hmem, hown⟩ := hinv.own q k hold hlive'
      exact ⟨seg', List.mem_cons_of_mem _ hmem, hown⟩

theorem allocMem_inv {s t : State} {p : Process} {ptr : Ptr} {size : ℤ} {shmget : Option ℤ}
    {shmat : Option ℕ} (h : Inv s) (ht : allocMem s p ptr size shmget shmat = some t) : Inv t := by
  unfold allocMem at ht
  split_ifs at ht with hptr hsize
  · exact Option.some.inj ht ▸ h
  · obtain ⟨⟨u, allocated⟩, hshm, hresult⟩ := Option.map_eq_some_iff.mp ht
    unfold allocShm at hshm
    split at hshm
    · cases hshm
    · cases hshm
      cases hresult
      exact ⟨h.proper, h.below, h.owned, h.own⟩
    · rename_i key shmid hkey
      split_ifs at hshm with hid
      cases hshm
      cases hresult
      have hsegs := remove_create (s := ⟨shmid, key, size, s.serial⟩) (not_or.mp hid).2
      refine ⟨?_, fun q k hq => (h.below q k hq).trans (Nat.lt_succ_self _), h.owned, ?_⟩
      · exact hsegs.symm ▸ h.proper.mono (Nat.le_succ _)
      · intro q k hq hk
        exact hsegs.symm ▸ h.own q k hq hk
    · rename_i key shmid addr hkey
      split_ifs at hshm with hid
      cases hshm
      cases hresult
      exact h.create ⟨shmid, key, size, s.serial⟩ (by simpa using hptr) (freeKey_free hkey)
        rfl ⟨rfl, rfl, rfl⟩ rfl rfl rfl rfl

theorem next_inv {s t : State} {e : Event} (h : Inv s) (hc : SparesLive s e) (ht : next s e = some t) :
    Inv t := by
  cases e with
  | alloc p ptr size shmget shmat => exact allocMem_inv h ht
  | free ptr =>
    obtain ⟨hdl, hptr, hkeeps, hlive⟩ := freeMem_keeps ht
    exact hkeeps.inv h (hlive ▸ hc hdl hptr)
  | send ptr ptr' p' => exact (send_keeps ht).inv h fun seg _ hid => nomatch hid
  | mmap ptr shmat => exact (mmap_keeps ht).inv h fun seg _ hid => nomatch hid
  | unmap ptr =>
    obtain ⟨hdl, hptr, hkeeps, hlive⟩ := unmap_keeps ht
    exact hkeeps.inv h (hlive ▸ hc hdl hptr)

theorem next_breach {s t : State} {e : Event} (h : Inv s) (hc : ¬ SparesLive s e)
    (ht : next s e = some t) : ¬ MapsOwn t := by
  cases e with
  | free ptr =>
    obtain ⟨hdl, hptr, hkeeps, hlive⟩ := freeMem_keeps ht
    refine hkeeps.breach h fun hspares => hc fun hdl' hptr' => ?_
    obtain rfl : hdl = hdl' := Option.some.inj (hptr.symm.trans hptr')
    exact hlive ▸ hspares
  | unmap ptr =>
    obtain ⟨hdl, hptr, hkeeps, hlive⟩ := unmap_keeps ht
    refine hkeeps.breach h fun hspares => hc fun hdl' hptr' => ?_
    obtain rfl : hdl = hdl' := Option.some.inj (hptr.symm.trans hptr')
    exact hlive ▸ hspares
  | _ => exact absurd trivial hc

/-- The handles of live buffers name their own memory as long as nobody removes it. -/
theorem maps_own_iff (es : List Event) :
    StatesMeet system (fun s => MapsOwn s ∧ KeysDiffer s) initial es ↔
      StepsMeet system SparesLive initial es := by
  refine statesMeet_iff_stepsMeet (I := Inv) ?_ ?_ ?_ initial_inv es
  · exact fun s h => ⟨h.mapsOwn, h.keysDiffer⟩
  · exact fun s e t => next_inv
  · exact fun s e t h hc ht hgood => next_breach h hc ht hgood.1

/-- A consumer maps a buffer and unmaps it again; then another process allocates. -/
def unmapped : List Event :=
  [.alloc 0 0 4096 (some 7) (some 0x1000), .send 0 1 1, .mmap 1 (some 0x2000), .unmap 1,
    .alloc 2 2 4096 (some 8) (some 0x3000)]

/-- The key of the first buffer, which lives, names the segment of the second. -/
theorem unmap_removes : ∃ s, Reachable system s ∧ ¬ MapsOwn s := by
  have hrun : ((system.run initial unmapped).map fun s => decide
      (s.handle 0 = some ⟨0, 4096, 1, some 0x1000, 7, 0⟩ ∧ 0 ∈ s.live ∧
        SharedSegments.get s.segs 1 4096 = some ⟨8, 1, 4096, 1⟩)) = some true := by
    decide +kernel
  obtain ⟨s, hs, htest⟩ := exists_reachable (S := system) rfl hrun
  obtain ⟨hhandle, hlive, hget⟩ := of_decide_eq_true htest
  refine ⟨s, hs, fun hmaps => ?_⟩
  obtain ⟨seg, hown, hserial⟩ := hmaps 0 _ hhandle hlive
  rw [hget] at hown
  cases hown
  cases hserial

end DisplayGralloc
