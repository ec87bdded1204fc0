import DeviceQemu.GbmAllocMem
import DeviceQemu.StepSystem

/-! Mapping a buffer of the GBM backend.
GbmMmap maps the buffer of a handle and keeps the address in it, GbmUnmap and GbmFreeMem go by that
address. -/
namespace GbmMmap

open GbmAllocMem (Addr BufferHandle)
open ResourceLedger StepSystem

inductive Resource where
  | mapping (addr : Addr)
  | fd (n : Int32)
  | handle
  deriving DecidableEq, Repr

def mapFailed : Addr := 2 ^ 64 - 1

inductive Status where
  | success
  | failure
  | invalidParam
  deriving DecidableEq, Repr

structure Called (β : Type) where
  ret : β
  buffer : BufferHandle
  ops : List (Op Resource)

/-- `mmap` is the address from mmap, if it is called and does not fail. -/
def gbmMmap (buffer : BufferHandle) (mmap : Option Addr) : Called (Option Addr) :=
  match buffer.virAddr with
  | some virAddr => ⟨some virAddr, buffer, []⟩
  | none =>
    match mmap with
    | some virAddr =>
      ⟨some virAddr, { buffer with virAddr := some virAddr }, [.acquire (.mapping virAddr)]⟩
    | none => ⟨some mapFailed, { buffer with virAddr := some mapFailed }, []⟩

/-- munmap removes a mapping that is there and fails for an address where there is none. -/
def gbmUnmap (buffer : BufferHandle) (live : Multiset Resource) : Called Status :=
  match buffer.virAddr with
  | none => ⟨.invalidParam, buffer, []⟩
  | some virAddr =>
    if .mapping virAddr ∈ live then
      ⟨.success, { buffer with virAddr := none }, [.release (.mapping virAddr)]⟩
    else ⟨.failure, buffer, []⟩

/-- The descriptors that CloseBufferHandle closes. -/
def closable (buffer : BufferHandle) : List Int32 :=
  (buffer.fd :: buffer.reserveFds).filter fun fd => 0 ≤ fd

def closeBufferHandle (buffer : BufferHandle) : List (Op Resource) :=
  (closable buffer).map fun fd => .release (.fd fd)

/-- A failure of GbmUnmap is only logged. -/
def gbmFreeMem (buffer : BufferHandle) (live : Multiset Resource) : List (Op Resource) :=
  (if buffer.virAddr ≠ none then (gbmUnmap buffer live).ops else []) ++
    (closeBufferHandle buffer ++ [.release .handle])

inductive Event where
  | mmap (mmap : Option Addr)
  | unmap
  | freeMem
  deriving DecidableEq, Repr

/-- There is no handle after GbmFreeMem. -/
structure State where
  buffer : Option BufferHandle
  live : Multiset Resource
  deriving DecidableEq

def ops (buffer : BufferHandle) (live : Multiset Resource) : Event → List (Op Resource)
  | .mmap mmap => (gbmMmap buffer mmap).ops
  | .unmap => (gbmUnmap buffer live).ops
  | .freeMem => gbmFreeMem buffer live

def handleAfter (buffer : BufferHandle) (live : Multiset Resource) : Event → Option BufferHandle
  | .mmap mmap => some (gbmMmap buffer mmap).buffer
  | .unmap => some (gbmUnmap buffer live).buffer
  | .freeMem => none

def after (buffer : BufferHandle) (live : Multiset Resource) (e : Event) : State :=
  ⟨handleAfter buffer live e, ResourceLedger.after live (ops buffer live e)⟩

def owned (buffer : BufferHandle) : Multiset Resource :=
  .handle ::ₘ Multiset.ofList ((closable buffer).map Resource.fd)

/-- mmap does not return MAP_FAILED for an address. -/
def Possible : Event → Prop
  | .mmap mmap => mmap ≠ some mapFailed
  | _ => True

instance : (e : Event) → Decidable (Possible e)
  | .mmap mmap => inferInstanceAs (Decidable (mmap ≠ some mapFailed))
  | .unmap | .freeMem => isTrue trivial

def system : System State Event where
  Init s := ∃ buffer, buffer.virAddr = none ∧ s = ⟨some buffer, owned buffer⟩
  next s e := if Possible e then s.buffer.map fun buffer => after buffer s.live e else none

def State.virAddr (s : State) : Option Addr := s.buffer.bind BufferHandle.virAddr

/-- The mapping at virAddr is there, once, and no other. -/
def Exact (s : State) : Prop :=
  ∀ a, s.live.count (.mapping a) = if s.virAddr = some a then 1 else 0

/-- A failed map returns null and leaves the handle unmapped, a repeated one returns the address that
is there; the other two calls unmap what is mapped. -/
def RightCall (buffer : BufferHandle) (live : Multiset Resource) (e : Event) : Prop :=
  match e with
  | .mmap mmap =>
    (buffer.virAddr = none → mmap = none →
      (gbmMmap buffer mmap).ret = none ∧ (gbmMmap buffer mmap).buffer.virAddr = none) ∧
    ∀ a, buffer.virAddr = some a → gbmMmap buffer mmap = ⟨some a, buffer, []⟩
  | .unmap | .freeMem => ∀ a, .release (.mapping a) ∈ ops buffer live e ↔ buffer.virAddr = some a

structure Right (s : State) (e : Event) : Prop where
  exact : ∀ buffer, s.buffer = some buffer → Exact (after buffer s.live e)
  call : ∀ buffer, s.buffer = some buffer → RightCall buffer s.live e
  sound : ∀ buffer, s.buffer = some buffer → Sound ∅ s.live (ops buffer s.live e)

def Maps (s : State) : Event → Prop
  | .mmap mmap => s.virAddr = none → mmap ≠ none
  | _ => True

instance (s : State) : (e : Event) → Decidable (Maps s e)
  | .mmap mmap => inferInstanceAs (Decidable (s.virAddr = none → mmap ≠ none))
  | .unmap | .freeMem => isTrue trivial

/-- The handle has its descriptors, with or without a mapping at virAddr; or all is gone. -/
inductive Shape : State → Prop where
  | unmapped (buffer : BufferHandle) (virAddr : buffer.virAddr = none) :
      Shape ⟨some buffer, owned buffer⟩
  | mapped (buffer : BufferHandle) (a : Addr) (virAddr : buffer.virAddr = some a) :
      Shape ⟨some buffer, .mapping a ::ₘ owned buffer⟩
  | freed : Shape ⟨none, 0⟩

theorem count_owned (buffer : BufferHandle) (a : Addr) : (owned buffer).count (.mapping a) = 0 := by
  apply Multiset.count_eq_zero.mpr
  simp [owned]

theorem Shape.exact {s : State} (h : Shape s) : Exact s := by
  intro a
  cases h with
  | unmapped buffer virAddr => simp [State.virAddr, virAddr, count_owned]
  | mapped buffer a' virAddr =>
    simp only [State.virAddr, virAddr, Option.bind_some, Multiset.count_cons, count_owned,
      Resource.mapping.injEq, Option.some.injEq, eq_comm]
    omega
  | freed => rfl

theorem release_all (fds : List Int32) :
    Leaves ∅ (Multiset.ofList (fds.map Resource.fd)) (fds.map fun fd => .release (.fd fd)) 0 := by
  induction fds with
  | nil => exact Leaves.nil ∅ 0
  | cons fd fds ih => exact ih.release

theorem close_leaves (buffer : BufferHandle) :
    Leaves ∅ (owned buffer) (closeBufferHandle buffer ++ [.release .handle]) 0 := by
  have hfds := ((release_all (closable buffer)).frame {Resource.handle})
  rw [Multiset.zero_add, Multiset.add_comm, Multiset.singleton_add] at hfds
  exact hfds.append (Leaves.nil ∅ 0).release

section Step

variable {buffer : BufferHandle} {live : Multiset Resource}

/-- What holds of a call: it is right exactly when it maps as it should, and then keeps the shape. -/
structure Spec (buffer : BufferHandle) (live : Multiset Resource) (e : Event) : Prop where
  iff : Right ⟨some buffer, live⟩ e ↔ Maps ⟨some buffer, live⟩ e
  shape : Maps ⟨some buffer, live⟩ e → Shape (after buffer live e)

theorem right_spec {e : Event} {left : Multiset Resource} {handle : Option BufferHandle}
    (hshape : Shape ⟨handle, left⟩) (hhandle : handleAfter buffer live e = handle)
    (hleaves : Leaves ∅ live (ops buffer live e) left) (hcall : RightCall buffer live e)
    (hmaps : Maps ⟨some buffer, live⟩ e) : Spec buffer live e := by
  have hafter : after buffer live e = ⟨handle, left⟩ := by rw [after, hhandle, hleaves.2]
  refine ⟨iff_of_true ⟨?_, ?_, ?_⟩ hmaps, fun _ => hafter ▸ hshape⟩
  · rintro _ ⟨⟩
    rw [hafter]
    exact hshape.exact
  · rintro _ ⟨⟩
    exact hcall
  · rintro _ ⟨⟩
    exact hleaves.1

theorem mmap_mapped_spec {a : Addr} (virAddr : buffer.virAddr = some a) (mmap : Option Addr) :
    Spec buffer (.mapping a ::ₘ owned buffer) (.mmap mmap) := by
  have hcall : gbmMmap buffer mmap = ⟨some a, buffer, []⟩ := by simp only [gbmMmap, virAddr]
  refine right_spec (.mapped buffer a virAddr) ?_ ?_ ⟨fun h => ?_, fun a' h => ?_⟩ fun h => ?_
  · rw [handleAfter, hcall]
  · rw [ops, hcall]
    exact Leaves.nil ∅ _
  · rw [virAddr] at h
    cases h
  · obtain rfl : a = a' := Option.some.inj (virAddr.symm.trans h)
    exact hcall
  · rw [State.virAddr, Option.bind_some, virAddr] at h
    cases h

theorem mmap_unmapped_spec (virAddr : buffer.virAddr = none) (mmap : Option Addr) :
    Spec buffer (owned buffer) (.mmap mmap) := by
  cases mmap with
  | none =>
    -- MAP_FAILED is kept and returned as if it were an address
    have hnot : ¬ Maps ⟨some buffer, owned buffer⟩ (.mmap none) := fun h => h virAddr rfl
    refine ⟨iff_of_false (fun hright => ?_) hnot, fun h => absurd h hnot⟩
    have hret := ((hright.call buffer rfl).1 virAddr rfl).1
    simp only [gbmMmap, virAddr] at hret
    cases hret
  | some a =>
    have hcall : gbmMmap buffer (some a) =
        ⟨some a, { buffer with virAddr := some a }, [.acquire (.mapping a)]⟩ := by
      simp only [gbmMmap, virAddr]
    refine right_spec (.mapped { buffer with virAddr := some a } a rfl) ?_ ?_
      ⟨fun _ h => ?_, fun a' h => ?_⟩ fun _ => Option.some_ne_none a
    · rw [handleAfter, hcall]
    · rw [ops, hcall]
      exact (Leaves.nil ∅ _).acquire
    · cases h
    · rw [virAddr] at h
      cases h

theorem gbmUnmap_mapped {a : Addr} (virAddr : buffer.virAddr = some a) :
    gbmUnmap buffer (.mapping a ::ₘ owned buffer) =
      ⟨.success, { buffer with virAddr := none }, [.release (.mapping a)]⟩ := by
  simp only [gbmUnmap, virAddr, if_pos (Multiset.mem_cons_self _ _)]

theorem unmap_mapped_spec {a : Addr} (virAddr : buffer.virAddr = some a) :
    Spec buffer (.mapping a ::ₘ owned buffer) .unmap := by
  have hcall := gbmUnmap_mapped virAddr
  refine right_spec (.unmapped { buffer with virAddr := none } rfl) ?_ ?_ ?_ trivial
  · rw [handleAfter, hcall]
  · rw [ops, hcall]
    exact (Leaves.nil ∅ _).release
  · intro a'
    rw [ops, hcall, virAddr]
    simp [eq_comm]

theorem unmap_unmapped_spec (virAddr : buffer.virAddr = none) :
    Spec buffer (owned buffer) .unmap := by
  have hcall : gbmUnmap buffer (owned buffer) = ⟨.invalidParam, buffer, []⟩ := by
    simp only [gbmUnmap, virAddr]
  refine right_spec (.unmapped buffer virAddr) ?_ ?_ ?_ trivial
  · rw [handleAfter, hcall]
  · rw [ops, hcall]
    exact Leaves.nil ∅ _
  · intro a
    rw [ops, hcall, virAddr]
    simp

theorem release_not_mem_close (a : Addr) :
    .release (.mapping a) ∉ closeBufferHandle buffer ++ [.release .handle] := by
  simp [closeBufferHandle]

theorem freeMem_mapped_spec {a : Addr} (virAddr : buffer.virAddr = some a) :
    Spec buffer (.mapping a ::ₘ owned buffer) .freeMem := by
  have hops : ops buffer (.mapping a ::ₘ owned buffer) .freeMem =
      .release (.mapping a) :: (closeBufferHandle buffer ++ [.release .handle]) := by
    rw [ops, gbmFreeMem, gbmUnmap_mapped virAddr, virAddr, if_pos (Option.some_ne_none a)]
    rfl
  refine right_spec .freed rfl ?_ ?_ trivial
  · rw [hops]
    exact (close_leaves buffer).release
  · intro a'
    rw [hops, List.mem_cons, or_iff_left (release_not_mem_close a'), virAddr]
    simp [eq_comm]

theorem freeMem_unmapped_spec (virAddr : buffer.virAddr = none) :
    Spec buffer (owned buffer) .freeMem := by
  have hops : ops buffer (owned buffer) .freeMem = closeBufferHandle buffer ++ [.release .handle] := by
    rw [ops, gbmFreeMem, virAddr, if_neg fun h => h rfl, List.nil_append]
  refine right_spec .freed rfl ?_ ?_ trivial
  · rw [hops]
    exact close_leaves buffer
  · intro a
    rw [hops, virAddr]
    exact iff_of_false (release_not_mem_close a) (Option.some_ne_none a).symm

theorem spec (hs : Shape ⟨some buffer, live⟩) (e : Event) : Spec buffer live e := by
  cases hs with
  | unmapped _ virAddr =>
    cases e with
    | mmap mmap => exact mmap_unmapped_spec virAddr mmap
    | unmap => exact unmap_unmapped_spec virAddr
    | freeMem => exact freeMem_unmapped_spec virAddr
  | mapped _ a virAddr =>
    cases e with
    | mmap mmap => exact mmap_mapped_spec virAddr mmap
    | unmap => exact unmap_mapped_spec virAddr
    | freeMem => exact freeMem_mapped_spec virAddr

end Step

theorem next_cases {s t : State} {e : Event} (ht : system.next s e = some t) :
    ∃ buffer, s.buffer = some buffer ∧ t = after buffer s.live e := by
  obtain ⟨-, ht⟩ := Option.ite_none_right_eq_some.mp ht
  obtain ⟨buffer, hbuffer, rfl⟩ := Option.map_eq_some_iff.mp ht
  exact ⟨buffer, hbuffer, rfl⟩

theorem init_shape {s : State} (h : system.Init s) : Shape s := by
  obtain ⟨buffer, virAddr, rfl⟩ := h
  exact .unmapped buffer virAddr

/-- The runs in which virAddr tells the truth are those in which mmap does not fail. -/
theorem mapping_iff {s : State} (h : system.Init s) (es : List Event) :
    StepsMeet system Right s es ↔ StepsMeet system Maps s es := by
  apply stepsMeet_iff (I := Shape) _ _ (init_shape h)
  · rintro ⟨handle, live⟩ e t hs hmaps ht
    obtain ⟨buffer, rfl, rfl⟩ := next_cases ht
    exact (spec hs e).shape hmaps
  · rintro ⟨handle, live⟩ e t hs ht
    obtain ⟨buffer, rfl, -⟩ := next_cases ht
    exact (spec hs e).iff

def fresh : BufferHandle := ⟨7, [], 64, 256, 64, 16384, 0, .rgba8888, none⟩

theorem init_fresh : system.Init ⟨some fresh, owned fresh⟩ := ⟨fresh, rfl, rfl⟩

theorem mapping_twice :
    StepsMeet system Right ⟨some fresh, owned fresh⟩
      [.mmap (some 0x10000), .mmap none, .unmap, .unmap, .mmap (some 0x20000), .freeMem] :=
  (mapping_iff init_fresh _).mpr (by decide)

/-- The second GbmMmap returns MAP_FAILED without an attempt to map, and GbmUnmap fails. -/
theorem mapping_failed :
    gbmMmap fresh none = ⟨some mapFailed, { fresh with virAddr := some mapFailed }, []⟩ ∧
    (system.run ⟨some fresh, owned fresh⟩ [.mmap none, .mmap (some 0x10000), .unmap]).map
      (fun s => (s.virAddr, s.live)) = some (some mapFailed, {.fd 7, .handle}) ∧
    ¬ StepsMeet system Right ⟨some fresh, owned fresh⟩ [.mmap none] := by
  refine ⟨rfl, by decide, fun h => ?_⟩
  obtain ⟨hright, -⟩ := h _ rfl
  have hret := ((hright.call fresh rfl).1 rfl rfl).1
  cases hret

end GbmMmap
