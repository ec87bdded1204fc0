import DeviceQemu.Mmz

/-! Ownership of MMZ pages.
MmzMap maps whatever address it is given, and a page that is counted before it fails to be
mapped stays counted. Apart from that the counts keep the pages: they are released with their
last mapping, whoever unmaps it and in whatever pieces. -/
namespace MmzOwnership

open StepSystem PageFrames Mmz

/-- The frame of the k-th page from `paddr` on. -/
def frameAt (paddr : UInt32) (k : ℕ) : ℕ := frameOf (paddr + UInt32.ofNat (4096 * k))

theorem frameAt_zero (paddr : UInt32) : frameAt paddr 0 = frameOf paddr := by
  simp [frameAt]

theorem frameAt_succ (paddr : UInt32) (k : ℕ) :
    frameAt (paddr + pageSize) k = frameAt paddr (k + 1) := by
  have hsum : UInt32.ofNat (4096 * (k + 1)) = pageSize + UInt32.ofNat (4096 * k) := by
    rw [Nat.mul_add, Nat.add_comm, UInt32.ofNat_add]
    rfl
  rw [frameAt, frameAt, hsum, UInt32.add_assoc]

theorem frameAt_ofNat {frame pages k : ℕ} (h : frame + pages ≤ 1048576) (hk : k < pages) :
    frameAt (UInt32.ofNat (4096 * frame)) k = frame + k := by
  rw [frameAt, frameOf, ← UInt32.ofNat_add, ← Nat.mul_add, UInt32.toNat_ofNat']
  omega

/-- The page `k` is reached: each page up to it has a page structure. -/
def Reached (m : Memory) (paddr : UInt32) (k : ℕ) : Prop :=
  ∀ j ≤ k, m.managed (frameAt paddr j) = true

/-- Each page the loop reaches is allocated by the driver and can be mapped. -/
def Live (m : Memory) (paddr : UInt32) (mmuMap : ℕ → Bool) (k n : ℕ) : Prop :=
  ∀ j < n, Reached m paddr j →
    m.owner (frameAt paddr j) = .allocated ∧ mmuMap (k + j) = true

instance (m : Memory) (paddr : UInt32) (k : ℕ) : Decidable (Reached m paddr k) :=
  inferInstanceAs (Decidable (∀ j ≤ k, _))

instance (m : Memory) (paddr : UInt32) (mmuMap : ℕ → Bool) (k n : ℕ) :
    Decidable (Live m paddr mmuMap k n) :=
  inferInstanceAs (Decidable (∀ j < n, Reached m paddr j → _ ∧ _))

/-- What the loop does to the memory when the pages are live. -/
structure Looped (m m' : Memory) : Prop where
  counted : Counted m'
  owner : m'.owner = m.owner
  managed : m'.managed = m.managed
  counts : ∀ f, 0 < m.count f → 0 < m'.count f

theorem mapLoop_spec {space : ℕ} {mmuMap : ℕ → Bool} {n : ℕ} {m : Memory} {vpage : ℕ}
    {paddr : UInt32} {k : ℕ} (h : Counted m) (hlive : Live m paddr mmuMap k n) :
    Looped m (mapLoop space mmuMap n m vpage paddr k).2 ∧
      ((∀ j < n, Reached m paddr j) →
        (mapLoop space mmuMap n m vpage paddr k).1 = .ok ∧
          ∀ j < n, 0 < (mapLoop space mmuMap n m vpage paddr k).2.count (frameAt paddr j)) := by
  induction n generalizing m vpage paddr k with
  | zero => exact ⟨⟨h, rfl, rfl, fun _ hf => hf⟩, fun _ => ⟨rfl, fun j hj => absurd hj (by omega)⟩⟩
  | succ n ih =>
    by_cases hman : m.managed (frameOf paddr) = false
    · simp only [mapLoop, if_pos hman]
      refine ⟨⟨h, rfl, rfl, fun _ hf => hf⟩, fun hall => ?_⟩
      have := hall 0 (by omega) 0 (Nat.le_refl 0)
      rw [frameAt_zero, hman] at this
      cases this
    · have hreach : Reached m paddr 0 := by
        intro j hj
        obtain rfl : j = 0 := by omega
        rw [frameAt_zero]
        simpa using hman
      obtain ⟨hown, hmap⟩ := hlive 0 (by omega) hreach
      rw [frameAt_zero] at hown
      rw [Nat.add_zero] at hmap
      have hcounted := @mapPage_counted m space vpage _ h hown
      have hshift : ∀ j, Reached ((m.incRef (frameOf paddr)).addMap space vpage (frameOf paddr))
          (paddr + pageSize) j ↔ Reached m paddr (j + 1) := by
        intro j
        constructor
        · intro hr i hi
          cases i with
          | zero => exact hreach 0 (Nat.le_refl 0)
          | succ i => exact frameAt_succ paddr i ▸ hr i (by omega)
        · intro hr i hi
          exact (frameAt_succ paddr i).symm ▸ hr (i + 1) (by omega)
      obtain ⟨hloop, hdone⟩ := @ih ((m.incRef (frameOf paddr)).addMap space vpage (frameOf paddr))
        (vpage + 1) (paddr + pageSize) (k + 1) hcounted (by
          intro j hj hr
          obtain ⟨ho, hm⟩ := hlive (j + 1) (by omega) ((hshift j).mp hr)
          rw [frameAt_succ]
          exact ⟨ho, by rwa [Nat.add_assoc, Nat.add_comm 1 j]⟩)
      have hstep : mapLoop space mmuMap (n + 1) m vpage paddr k = mapLoop space mmuMap n
          ((m.incRef (frameOf paddr)).addMap space vpage (frameOf paddr)) (vpage + 1)
          (paddr + pageSize) (k + 1) := by
        simp only [mapLoop, if_neg hman, hmap]
        rfl
      rw [hstep]
      refine ⟨⟨hloop.counted, hloop.owner, hloop.managed, fun f hf =>
        hloop.counts f (mapPage_count_mono hf)⟩, fun hall => ?_⟩
      obtain ⟨hok, hcounts⟩ := hdone fun j hj => (hshift j).mpr (hall (j + 1) (by omega))
      refine ⟨hok, fun j hj => ?_⟩
      cases j with
      | zero =>
        apply hloop.counts
        rw [frameAt_zero]
        exact count_pos.mpr ⟨⟨space, vpage, frameOf paddr⟩, List.mem_cons_self .., rfl⟩
      | succ j =>
        rw [← frameAt_succ]
        exact hcounts j (by omega)

/-- Each page that a process has mapped is allocated, each allocated page is mapped, and the
pages given out were each released once, when nothing mapped them any more. -/
structure Owned (s : State) : Prop where
  mapped : ∀ x ∈ s.memory.maps, s.memory.owner x.frame = .allocated
  last : ∀ f, s.memory.owner f = .allocated → ∃ x ∈ s.memory.maps, x.frame = f
  released : ∀ r ∈ s.memory.releases, r.owner = .allocated ∧ r.mapped = false
  once : ∀ f, s.memory.allocs.count f = (s.memory.releases.map Release.frame).count f +
    if s.memory.owner f = .allocated then 1 else 0

structure Inv (s : State) : Prop where
  counted : Counted s.memory
  covered : Covered s.memory

theorem Inv.owned {s : State} (h : Inv s) : Owned s :=
  ⟨h.counted.mapped, fun f hf => count_pos.mp (h.covered f hf), h.counted.released, h.counted.once⟩

theorem init_inv {s : State} (h : Init s) : Inv s := by
  refine ⟨⟨?_, ?_, ?_, ?_, ?_⟩, ?_⟩
  · simp [h.maps]
  · exact fun f hf => absurd hf (h.owner f)
  · exact fun f hf => absurd hf (h.owner f)
  · simp [h.releases]
  · simp [h.allocs, h.releases, h.owner]
  · exact fun f hf => absurd hf (h.owner f)

def mapsLive (s : State) (c : Call) : Cmd → Prop
  | .mmzCache | .mmzNocache =>
    c.answers.region ≠ none → c.answers.frame ≠ none →
      ∀ k < c.mmzm.pages, c.answers.mmuMap k = true
  | .mapCache | .mapNocache =>
    c.answers.region ≠ none → Live s.memory c.mmzm.paddr.toUInt32 c.answers.mmuMap 0 c.mmzm.pages
  | _ => True

/-- The pages that MmzMap reaches are allocated by the driver, and each page that MmzAlloc and
MmzMap count is also mapped. -/
def MapsLive (s : State) (c : Call) : Prop := mapsLive s c c.cmd

instance (s : State) (c : Call) : ∀ cmd, Decidable (mapsLive s c cmd)
  | .mmzCache | .mmzNocache => inferInstanceAs (Decidable (_ → _ → ∀ k < _, _))
  | .mapCache | .mapNocache => inferInstanceAs (Decidable (_ → Live _ _ _ _ _))
  | .unmap => isTrue trivial
  | .mmzFree | .flushCache | .flushNocache | .invalidate | .unknown => isTrue trivial

instance (s : State) (c : Call) : Decidable (MapsLive s c) :=
  inferInstanceAs (Decidable (mapsLive s c c.cmd))

theorem unmap_inv {m : Memory} {space vpage n : ℕ} (h : Counted m) (hcov : Covered m)
    (regions : List Region) : Inv ⟨m.unmapPages space vpage n, regions⟩ := by
  obtain ⟨hc, hc'⟩ := @unmapPages_counted m space vpage n h
  exact ⟨hc, hc' hcov⟩

theorem mmzAlloc_inv {s : State} {c : Call} (h : Inv s) (hp : Possible s c)
    (hcmd : c.cmd = .mmzCache ∨ c.cmd = .mmzNocache)
    (hmmu : c.answers.region ≠ none → c.answers.frame ≠ none →
      ∀ k < c.mmzm.pages, c.answers.mmuMap k = true) : Inv (mmzAlloc s c).2 := by
  cases hr : c.answers.region with
  | none => simpa only [mmzAlloc, hr] using h
  | some base =>
    cases hf : c.answers.frame with
    | none => simpa only [mmzAlloc, hr, hf] using h
    | some frame =>
      obtain ⟨hbound, hfree⟩ := hp.frame hcmd frame hf
      have hmmu := hmmu (by simp [hr]) (by simp [hf])
      have hfree' : ∀ f, frame ≤ f → f < frame + c.mmzm.pages →
          s.memory.owner f = .free ∧ s.memory.managed f = true := by
        intro f h₁ h₂
        have := hfree (f - frame) (by omega)
        rwa [Nat.add_sub_cancel' h₁] at this
      have hcounted := allocate_counted h.counted hfree'
      have hat : ∀ k < c.mmzm.pages, frameAt (UInt32.ofNat (4096 * frame)) k = frame + k :=
        fun k hk => frameAt_ofNat hbound hk
      have hreach : ∀ k < c.mmzm.pages,
          Reached (s.memory.allocate frame c.mmzm.pages) (UInt32.ofNat (4096 * frame)) k := by
        intro k hk j hj
        rw [hat j (by omega)]
        exact (hfree j (by omega)).2
      obtain ⟨hloop, hdone⟩ := @mapLoop_spec c.space c.answers.mmuMap c.mmzm.pages
        (s.memory.allocate frame c.mmzm.pages) base (UInt32.ofNat (4096 * frame)) 0 hcounted (by
          intro j hj _
          rw [hat j hj, Nat.zero_add]
          exact ⟨if_pos (by omega), hmmu j hj⟩)
      obtain ⟨hok, hcounts⟩ := hdone hreach
      simp only [mmzAlloc, hr, hf, mapRegion, hok, if_true]
      refine ⟨hloop.counted, fun f hfa => ?_⟩
      rw [hloop.owner] at hfa
      by_cases hin : frame ≤ f ∧ f < frame + c.mmzm.pages
      · have := hcounts (f - frame) (by omega)
        rwa [hat _ (by omega), Nat.add_sub_cancel' hin.1] at this
      · exact hloop.counts f (h.covered f ((if_neg hin).symm.trans hfa))

theorem mmzMap_inv {s : State} {c : Call} (h : Inv s)
    (hlive : c.answers.region ≠ none →
      Live s.memory c.mmzm.paddr.toUInt32 c.answers.mmuMap 0 c.mmzm.pages) :
    Inv (mmzMap s c).2 := by
  cases hr : c.answers.region with
  | none => simpa only [mmzMap, hr] using h
  | some base =>
    obtain ⟨hloop, -⟩ := @mapLoop_spec c.space c.answers.mmuMap c.mmzm.pages s.memory base
      c.mmzm.paddr.toUInt32 0 h.counted (hlive (by simp [hr]))
    have hcov : Covered (mapLoop c.space c.answers.mmuMap c.mmzm.pages s.memory base
        c.mmzm.paddr.toUInt32 0).2 := by
      intro f hf
      rw [hloop.owner] at hf
      exact hloop.counts f (h.covered f hf)
    simp only [mmzMap, hr, mapRegion]
    split
    · exact ⟨hloop.counted, hcov⟩
    · exact unmap_inv hloop.counted hcov _

theorem mmzIoctl_inv {s : State} {c : Call} (h : Inv s) (hp : Possible s c)
    (hc : MapsLive s c) : Inv (mmzIoctl s c).2 := by
  cases hcmd : c.cmd <;> simp only [mmzIoctl, MapsLive, mapsLive, hcmd] at hc ⊢
  case mmzCache => exact mmzAlloc_inv h hp (.inl hcmd) hc
  case mmzNocache => exact mmzAlloc_inv h hp (.inr hcmd) hc
  case mapCache => exact mmzMap_inv h hc
  case mapNocache => exact mmzMap_inv h hc
  case mmzFree =>
    unfold mmzFree
    split
    · exact h
    · split
      · exact h
      · exact unmap_inv h.counted h.covered _
  case unmap =>
    unfold mmzUnMap
    split
    · exact unmap_inv h.counted h.covered _
    · exact h
  all_goals exact h

theorem next_inv {s t : State} {c : Call} (h : Inv s) (hc : MapsLive s c)
    (ht : system.next s c = some t) : Inv t := by
  by_cases hp : Possible s c
  · simp only [system, if_pos hp, Option.some.injEq] at ht
    exact ht ▸ mmzIoctl_inv h hp hc
  · simp [system, if_neg hp] at ht

/-- Any processes, any arguments: the pages are owned in each state of a run whose calls map
live pages only and do not fail between counting a page and mapping it. -/
theorem pages_owned {s : State} (h : Init s) {cs : List Call}
    (hc : StepsMeet system MapsLive s cs) : StatesMeet system Owned s cs :=
  statesMeet_of_stepsMeet (fun _ => Inv.owned) (fun _ _ _ => next_inv) (init_inv h) hc

/-- A machine with a megabyte of memory, all of it free apart from the first 16 frames. -/
def fresh : State where
  memory :=
    { managed := fun f => decide (f < 256)
      owner := fun f => if f < 16 then .other else .free
      refCounts := fun _ => 0
      maps := []
      allocs := []
      releases := [] }
  regions := []

theorem init_fresh : Init fresh := by
  refine ⟨rfl, fun f => ?_, rfl, rfl, rfl⟩
  by_cases hf : f < 16 <;> simp [fresh, hf]

def call (space : ℕ) (cmd : Cmd) (vaddr : UInt32) (paddr : UInt64) (size : Int32)
    (region frame : Option ℕ) : Call :=
  ⟨space, cmd, ⟨vaddr, paddr, size⟩, ⟨region, frame, fun _ => true, 0, true⟩⟩

/-- A process asks for the address of a page of the kernel. -/
theorem pages_not_owned : ¬ ∀ s, Reachable system s → Owned s := by
  intro hall
  have hrun : (system.run fresh [call 1 .mapCache 0 0x5000 4096 (some 64) none]).map
      (fun s => s.memory.maps.any fun x => decide (s.memory.owner x.frame = .other)) =
        some true := by
    decide +kernel
  rcases exists_reachable init_fresh hrun with ⟨s, hs, hp⟩
  obtain ⟨x, hx, ho⟩ := List.any_eq_true.mp hp
  rw [(hall s hs).mapped x hx] at ho
  simp at ho

/-- Two processes share two pages; one unmaps them one by one, the other frees its region. -/
def sharing : List Call :=
  [call 1 .mmzCache 0 0 8000 (some 64) (some 32), call 2 .mapNocache 0 0x20000 8192 (some 80) none,
    call 1 .unmap 0x40000 0 4096 none none, call 2 .mmzFree 0x51000 0x21000 0 none none,
    call 1 .unmap 0x41000 0 1 none none]

theorem pages_owned_sharing : StatesMeet system Owned fresh sharing :=
  pages_owned init_fresh (by decide +kernel)

end MmzOwnership
