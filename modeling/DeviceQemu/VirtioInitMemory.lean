import DeviceQemu.VirtioInit
import Mathlib.Data.List.Perm.Basic

/-! Initialisation and the former content of the DMA memory.
Where a driver clears its block the outcome does not depend on what was there; where it does
not, the counters it adds to and the fields its clean-up tests must have been zero. -/
namespace VirtioInitMemory

open RingWindow Virtmmio VirtioInit

theorem and_irqMask {n : UInt32} (h : n.toNat ≤ 0xFF) : n &&& irqMask = n := by
  rw [← UInt32.toNat_inj, UInt32.toNat_and, irqMask, show UInt32.toNat 0xFF = 2 ^ 8 - 1 by decide,
    Nat.and_two_pow_sub_one_eq_mod]
  omega

theorem and_not_irqMask {n : UInt32} (h : n.toNat ≤ 0xFF) : n &&& ~~~irqMask = 0 := by
  rw [← and_irqMask h, UInt32.and_assoc, UInt32.and_not_self, UInt32.and_zero]

theorem or_and_right (a b c : UInt32) : (a ||| b) &&& c = (a &&& c) ||| (b &&& c) :=
  UInt32.toBitVec_inj.1 BitVec.and_or_distrib_right

theorem registered_irq {n : UInt32} (h : n.toNat ≤ 0xFF) : (n ||| ~~~irqMask) &&& irqMask = n := by
  rw [or_and_right, and_irqMask h, UInt32.and_comm (~~~irqMask), UInt32.and_not_self,
    UInt32.or_zero]

theorem registered_flag (n : UInt32) : (n ||| ~~~irqMask) &&& ~~~irqMask ≠ 0 := by
  intro h
  rw [or_and_right, UInt32.and_self] at h
  exact absurd (UInt32.or_eq_zero_iff.mp h).2 (by decide)

theorem unregisterIrq_clear {dev : VirtmmioDev} (h : dev.irq &&& ~~~irqMask = 0) :
    unregisterIrq dev = [] := by simp [unregisterIrq, h]

theorem unregisterIrq_set {dev : VirtmmioDev} (h : dev.irq &&& ~~~irqMask ≠ 0) :
    unregisterIrq dev = [.release (.irq (dev.irq &&& irqMask))] := by simp [unregisterIrq, h]

theorem unregisterIrq_registered {dev : VirtmmioDev} (h : dev.irq.toNat ≤ 0xFF) :
    unregisterIrq dev.setRegistered = [.release (.irq dev.irq)] := by
  rw [unregisterIrq_set (registered_flag dev.irq)]
  simp only [VirtmmioDev.setRegistered, registered_irq h]

@[simp] theorem acquired_nil : acquired [] = [] := rfl

@[simp] theorem released_nil : released [] = [] := rfl

@[simp] theorem acquired_cons (a : Action) (as : List Action) :
    acquired (a :: as) = a.acquires ++ acquired as := List.flatMap_cons

@[simp] theorem released_cons (a : Action) (as : List Action) :
    released (a :: as) = a.releases ++ released as := List.flatMap_cons

@[simp] theorem acquired_append (as bs : List Action) :
    acquired (as ++ bs) = acquired as ++ acquired bs := List.flatMap_append

@[simp] theorem released_append (as bs : List Action) :
    released (as ++ bs) = released as ++ released bs := List.flatMap_append

def CleansUp (as : List Action) : Prop := (released as).Perm (acquired as)

instance (as : List Action) : Decidable (CleansUp as) := inferInstanceAs (Decidable (List.Perm _ _))

theorem CleansUp.length {as : List Action} (h : CleansUp as) :
    (released as).length = (acquired as).length := List.Perm.length_eq h

/-- A successful initialisation leaves the rings `ready`, a failed one cleans up. -/
def Sound {α : Type} (ready : α → Prop) (r : Result α) : Prop :=
  match r.outcome with
  | .done m => ready m
  | .failed => CleansUp r.actions
  | .fault => False

def found (bus : Bus) (devId : UInt32) : Bool :=
  (List.range numVirtioTransports).any fun i => (bus.transports i).matches devId

/-- The device offers queues of the sizes asked for, from queue `i` on. -/
def queuesFit (bus : Bus) (i : ℕ) : List UInt16 → Bool
  | [] => true
  | qsz :: rest => !(decide (bus.queueNumMax i < qsz.toUInt32)) && queuesFit bus (i + 1) rest

def accepted (bus : Bus) (qsz : List UInt16) : Bool := bus.negotiate && queuesFit bus 0 qsz

/-- The queues with the sizes that VirtmmioConfigQueue gives them. -/
def sized (vq : ℕ → Virtq) (i : ℕ) : List UInt16 → ℕ → Virtq
  | [] => vq
  | qsz :: rest => sized (Function.update vq i { vq i with qsz }) (i + 1) rest

/-- VirtmmioInitBegin and then the queues that the device took. -/
def Setup (as : List Action) : Prop := ∃ queues : List ℕ, as = .reset :: queues.map .queueReady

theorem Setup.neutral {as : List Action} (h : Setup as) :
    acquired as = [] ∧ released as = [] := by
  obtain ⟨queues, rfl⟩ := h
  induction queues with
  | nil => exact ⟨rfl, rfl⟩
  | cons i queues ih =>
    simp only [List.map_cons, acquired_cons, released_cons] at ih ⊢
    exact ih

theorem discover_spec (k : Kernel) (bus : Bus) (devId : UInt32) (dev : VirtmmioDev) {n : ℕ}
    (hn : n ≤ numVirtioTransports) :
    match virtmmioDiscover k bus devId dev n with
    | none => (List.range n).any (fun i => (bus.transports i).matches devId) = false
    | some dev' => (List.range n).any (fun i => (bus.transports i).matches devId) = true ∧
        dev'.irq.toNat ≤ 0xFF ∧ dev'.vq = dev.vq := by
  induction n with
  | zero => rfl
  | succ n ih =>
    have hle := k.irq_le
    have hmax : numVirtioTransports = 32 := rfl
    rw [virtmmioDiscover, List.range_succ, List.any_append]
    by_cases hm : (bus.transports n).matches devId = true
    · rw [if_pos hm]
      refine ⟨by simp [hm], ?_, rfl⟩
      have hbase : virtmmioBaseIrq.toNat = 16 := rfl
      simp only [UInt32.toNat_add, UInt32.toNat_ofNat', hbase]
      omega
    · rw [if_neg hm]
      have ih := ih (by omega)
      cases hd : virtmmioDiscover k bus devId dev n with
      | none => simpa [hd, hm] using ih
      | some dev' => simpa [hd, hm] using ih

theorem configQueue_spec (bus : Bus) (i : ℕ) (dev : VirtmmioDev) (qsz : List UInt16) :
    (∃ queues : List ℕ, (virtmmioConfigQueue bus i dev qsz).1 = queues.map .queueReady) ∧
    (virtmmioConfigQueue bus i dev qsz).2.1.irq = dev.irq ∧
    (virtmmioConfigQueue bus i dev qsz).2.2 = queuesFit bus i qsz ∧
    (queuesFit bus i qsz = true →
      (virtmmioConfigQueue bus i dev qsz).2.1.vq = sized dev.vq i qsz) := by
  induction qsz generalizing i dev with
  | nil => exact ⟨⟨[], rfl⟩, rfl, rfl, fun _ => rfl⟩
  | cons qsz rest ih =>
    obtain ⟨⟨queues, hqueues⟩, hirq, hok, hvq⟩ :=
      ih (i + 1) { dev with vq := Function.update dev.vq i { dev.vq i with qsz } }
    by_cases hlt : bus.queueNumMax i < qsz.toUInt32
    · simp [virtmmioConfigQueue, queuesFit, hlt]
    · simp only [virtmmioConfigQueue, queuesFit, hlt, if_false, decide_false, Bool.not_false,
        Bool.true_and]
      exact ⟨⟨i :: queues, by rw [hqueues]; rfl⟩, hirq, hok, hvq⟩

theorem bringUp_spec (k : Kernel) (bus : Bus) (devId : UInt32) (qsz : List UInt16)
    (dev : VirtmmioDev) :
    (found bus devId = false ∧ bringUp k bus devId qsz dev = ([], .absent)) ∨
    (found bus devId = true ∧ ∃ actions dev', Setup actions ∧ dev'.irq.toNat ≤ 0xFF ∧
      ((accepted bus qsz = false ∧ bringUp k bus devId qsz dev = (actions, .refused dev')) ∨
        (accepted bus qsz = true ∧ bringUp k bus devId qsz dev = (actions, .ready dev') ∧
          dev'.vq = sized dev.vq 0 qsz))) := by
  have hspec := discover_spec k bus devId dev (Nat.le_refl numVirtioTransports)
  cases hd : virtmmioDiscover k bus devId dev numVirtioTransports with
  | none =>
    rw [hd] at hspec
    exact .inl ⟨hspec, by simp [bringUp, hd]⟩
  | some dev₁ =>
    rw [hd] at hspec
    obtain ⟨hfound, hirq, hvq⟩ := hspec
    refine .inr ⟨hfound, ?_⟩
    obtain ⟨⟨queues, hqueues⟩, hirq', hok, hsized⟩ := configQueue_spec bus 0 dev₁ qsz
    have hsetup : Setup (.reset :: (virtmmioConfigQueue bus 0 dev₁ qsz).1) :=
      ⟨queues, by rw [hqueues]⟩
    by_cases hn : bus.negotiate = true
    · by_cases hfit : queuesFit bus 0 qsz = true
      · refine ⟨.reset :: (virtmmioConfigQueue bus 0 dev₁ qsz).1,
          (virtmmioConfigQueue bus 0 dev₁ qsz).2.1, hsetup, hirq' ▸ hirq, .inr ⟨?_, ?_, ?_⟩⟩
        · simp [accepted, hn, hfit]
        · simp only [bringUp, hd, hn, if_true]
          split
          · next heq => rw [heq]
          · next heq => simp [heq, hfit] at hok
        · rw [hsized hfit, hvq]
      · refine ⟨.reset :: (virtmmioConfigQueue bus 0 dev₁ qsz).1,
          (virtmmioConfigQueue bus 0 dev₁ qsz).2.1, hsetup, hirq' ▸ hirq, .inl ⟨?_, ?_⟩⟩
        · simp [accepted, hfit]
        · simp only [bringUp, hd, hn, if_true]
          split
          · next heq => simp [heq, hfit] at hok
          · next heq => rw [heq]
    · exact ⟨[.reset], dev₁, ⟨[], rfl⟩, hirq, .inl ⟨by simp [accepted, hn],
        by simp [bringUp, hd, hn]⟩⟩

/-- A queue on which the driver has published `heads` from slot 0 and the device has done
nothing yet. -/
structure Resting (qsz flag : UInt16) (heads : List UInt16) (q : Virtq) : Prop where
  size : q.qsz = qsz
  last : q.last = 0
  index : q.avail.index = UInt16.ofNat heads.length
  flag : q.avail.flag = flag
  ring : (List.range heads.length).map (fun i => q.avail.ring (UInt16.ofNat i)) = heads
  used : q.used.index = 0

/-- The counters that an initialisation without a memset takes over. -/
structure CountersZero (q : Virtq) : Prop where
  last : q.last = 0
  avail : q.avail.index = 0
  used : q.used.index = 0

theorem resting_nil {qsz flag : UInt16} {q : Virtq} :
    Resting qsz flag [] q ↔ q.qsz = qsz ∧ q.avail.flag = flag ∧ CountersZero q := by
  constructor
  · intro h
    exact ⟨h.size, h.flag, h.last, h.index, h.used⟩
  · rintro ⟨hsize, hflag, hzero⟩
    exact ⟨hsize, hzero.last, hzero.avail, hflag, rfl, hzero.used⟩

/-- What the device reads of a receive descriptor; `next` has no meaning without NEXT. -/
structure Receives (d : VirtqDesc) (pAddr : UInt64) (len : UInt32) : Prop where
  pAddr : d.pAddr = pAddr
  len : d.len = len
  flag : d.flag = virtqDescFWrite

structure Populated (addr : UInt16 → UInt64) (len : UInt32) (q q' : Virtq) (n : ℕ) : Prop where
  size : q'.qsz = q.qsz
  last : q'.last = q.last
  index : q'.avail.index = q.avail.index
  flag : q'.avail.flag = q.avail.flag
  used : q'.used = q.used
  ring : ∀ i : UInt16, i.toNat < n → q'.avail.ring i = i
  desc : ∀ i : UInt16, i.toNat < n → Receives (q'.desc i) (addr i) len
  next : ∀ i : UInt16, (q'.desc i).next = (q.desc i).next

theorem populate_spec (addr : UInt16 → UInt64) (len : UInt32) (q : Virtq) {n : ℕ}
    (hn : n ≤ 65536) : Populated addr len q (populate addr len q n) n := by
  induction n with
  | zero =>
    have hnone : ∀ i : UInt16, ¬ i.toNat < 0 := fun i => Nat.not_lt_zero _
    exact ⟨rfl, rfl, rfl, rfl, rfl, fun i h => absurd h (hnone i), fun i h => absurd h (hnone i),
      fun _ => rfl⟩
  | succ n ih =>
    obtain ⟨hsize, hlast, hindex, hflag, hused, hring, hdesc, hnext⟩ := ih (by omega)
    have hother : ∀ i : UInt16, i.toNat < n + 1 → i ≠ UInt16.ofNat n → i.toNat < n := by
      intro i hi hne
      have : i.toNat ≠ n := fun h => hne (by rw [← h, UInt16.ofNat_toNat])
      omega
    have hr : (populate addr len q (n + 1)).avail.ring =
        Function.update (populate addr len q n).avail.ring (UInt16.ofNat n) (UInt16.ofNat n) := rfl
    have hd : (populate addr len q (n + 1)).desc =
        Function.update (populate addr len q n).desc (UInt16.ofNat n)
          { (populate addr len q n).desc (UInt16.ofNat n) with
            pAddr := addr (UInt16.ofNat n), len, flag := virtqDescFWrite } := rfl
    refine ⟨hsize, hlast, hindex, hflag, hused, fun i hi => ?_, fun i hi => ?_, fun i => ?_⟩
    · by_cases h : i = UInt16.ofNat n
      · rw [hr, h, Function.update_self]
      · rw [hr, Function.update_of_ne h]
        exact hring i (hother i hi h)
    · by_cases h : i = UInt16.ofNat n
      · rw [hd, h, Function.update_self]
        exact ⟨rfl, rfl, rfl⟩
      · rw [hd, Function.update_of_ne h]
        exact hdesc i (hother i hi h)
    · by_cases h : i = UInt16.ofNat n
      · rw [hd, h, Function.update_self]
        exact hnext _
      · rw [hd, Function.update_of_ne h]
        exact hnext i

theorem resting_populated {addr : UInt16 → UInt64} {len : UInt32} {q q' : Virtq}
    {flag index : UInt16} (h : Populated addr len q q' q.qsz.toNat) :
    Resting q.qsz flag (indices q.qsz) { q' with avail := { q'.avail with index } } ↔
      q.last = 0 ∧ index = q.qsz ∧ q.used.index = 0 ∧ q.avail.flag = flag := by
  constructor
  · intro hrest
    refine ⟨h.last ▸ hrest.last, ?_, h.used ▸ hrest.used, h.flag ▸ hrest.flag⟩
    simpa using hrest.index
  · rintro ⟨hlast, rfl, hused, hflag⟩
    refine ⟨h.size, h.last.trans hlast, by simp, h.flag.trans hflag, ?_, h.used ▸ hused⟩
    rw [length_indices, indices]
    refine List.map_congr_left fun i hi => h.ring _ ?_
    have hlt := List.mem_range.mp hi
    have := q.qsz.toNat_lt
    rw [UInt16.toNat_ofNat']
    omega

structure VirtinReady (env : VirtinEnv) (m : Virtin) : Prop where
  event : Resting virtqEventQsz 0 (indices virtqEventQsz) (m.dev.vq 0)
  desc : ∀ i, i.toNat < virtqEventQsz.toNat →
    Receives ((m.dev.vq 0).desc i) (env.ev i) virtinEventSize
  status : Resting virtqStatusQsz 0 [] (m.dev.vq 1)

/-- Both queues of the block were at rest before the driver touched it. -/
def VirtinBlank (m : Virtin) : Prop :=
  (CountersZero (m.dev.vq 0) ∧ (m.dev.vq 0).avail.flag = 0) ∧
    CountersZero (m.dev.vq 1) ∧ (m.dev.vq 1).avail.flag = 0

/-- What HdfVirtinInit needs of the memory it is given and of g_virtInputDev, by the step that
fails. -/
def VirtinUnaffected (env : VirtinEnv) (g : UInt32) (m : Virtin) : Prop :=
  if env.dmaMemAlloc = false then True
  else if found env.toBus virtmmioDeviceIdInput = false then m.dev.irq &&& ~~~irqMask = 0
  else if accepted env.toBus [virtqEventQsz, virtqStatusQsz] = false then True
  else if env.registerIrq = false then True
  else if env.hidInfo = false then m.realWorkQueue = 0 ∧ g = 0
  else if env.inputDev = 0 then m.realWorkQueue = 0
  else if env.workQueueInit = false then env.realWorkQueue m.realWorkQueue = 0
  else VirtinBlank m

theorem virtinInitDev_cases (k : Kernel) (env : VirtinEnv) (m : Virtin)
    (halloc : env.dmaMemAlloc = true) :
    (found env.toBus virtmmioDeviceIdInput = false ∧
      virtinInitDev k env m = ⟨.acquire .dma :: virtinDeInit m, .failed⟩) ∨
    (found env.toBus virtmmioDeviceIdInput = true ∧
      (accepted env.toBus [virtqEventQsz, virtqStatusQsz] = false ∨
        accepted env.toBus [virtqEventQsz, virtqStatusQsz] = true ∧ env.registerIrq = false) ∧
      (virtinInitDev k env m).outcome = .failed ∧ CleansUp (virtinInitDev k env m).actions) ∨
    (found env.toBus virtmmioDeviceIdInput = true ∧
      accepted env.toBus [virtqEventQsz, virtqStatusQsz] = true ∧ env.registerIrq = true ∧
      ∃ (actions : List Action) (dev : VirtmmioDev), released actions = [] ∧
        acquired actions = [.dma, .irq dev.irq] ∧ dev.irq.toNat ≤ 0xFF ∧
        dev.vq = sized m.dev.vq 0 [virtqEventQsz, virtqStatusQsz] ∧
        virtinInitDev k env m = ⟨actions, .done { m with dev := dev.setRegistered }⟩) := by
  rcases bringUp_spec k env.toBus virtmmioDeviceIdInput [virtqEventQsz, virtqStatusQsz] m.dev with
    ⟨hf, hup⟩ | ⟨hf, as, dev, hset, hirq, ⟨ha, hup⟩ | ⟨ha, hup, hvq⟩⟩
  · exact .inl ⟨hf, by simp [virtinInitDev, halloc, hup, preceded]⟩
  · obtain ⟨hacq, hrel⟩ := hset.neutral
    refine .inr (.inl ⟨hf, .inl ha, by simp [virtinInitDev, halloc, hup], ?_⟩)
    have hclear := unregisterIrq_clear (and_not_irqMask hirq)
    simp [virtinInitDev, halloc, hup, CleansUp, virtinDeInit, hclear, hacq, hrel,
      Action.acquires, Action.releases]
  · obtain ⟨hacq, hrel⟩ := hset.neutral
    by_cases hreg : env.registerIrq = true
    · refine .inr (.inr ⟨hf, ha, hreg, .acquire .dma :: as ++ [.acquire (.irq dev.irq)], dev,
        ?_, ?_, hirq, hvq, ?_⟩)
      · simp [hrel, Action.releases]
      · simp [hacq, Action.acquires]
      · simp [virtinInitDev, halloc, hup, hreg, preceded]
    · have hreg : env.registerIrq = false := by simpa using hreg
      refine .inr (.inl ⟨hf, .inr ⟨ha, hreg⟩, by simp [virtinInitDev, halloc, hup, hreg], ?_⟩)
      have hclear := unregisterIrq_clear (and_not_irqMask hirq)
      simp [virtinInitDev, halloc, hup, hreg, CleansUp, virtinDeInit, hclear, hacq, hrel,
        Action.acquires, Action.releases]

theorem release_acquires (g : UInt32) (m : Virtin) : acquired (hdfVirtinRelease g m) = [] := by
  by_cases hw : m.realWorkQueue = 0 <;> by_cases hg : g = 0 <;>
    by_cases hi : m.dev.irq &&& ~~~irqMask = 0 <;>
      simp [hdfVirtinRelease, virtinDeInit, unregisterIrq, hw, hg, hi, Action.acquires]

theorem release_releases (g : UInt32) (m : Virtin) {dev : VirtmmioDev} (h : dev.irq.toNat ≤ 0xFF)
    (hm : m.dev = dev.setRegistered) :
    released (hdfVirtinRelease g m) =
      (if m.realWorkQueue = 0 then [] else [.workQueue]) ++
        (if g = 0 then [] else [.inputDevice]) ++ [.irq dev.irq, .dma] := by
  have hirq := unregisterIrq_registered h
  by_cases hw : m.realWorkQueue = 0 <;> by_cases hg : g = 0 <;>
    simp [hdfVirtinRelease, virtinDeInit, hm, hirq, hw, hg, Action.releases]

theorem virtin_absent_iff (m : Virtin) :
    CleansUp (.acquire .dma :: virtinDeInit m) ↔ m.dev.irq &&& ~~~irqMask = 0 := by
  by_cases hi : m.dev.irq &&& ~~~irqMask = 0
  · simp [CleansUp, virtinDeInit, unregisterIrq_clear hi, hi, Action.acquires, Action.releases]
  · refine iff_of_false (fun h => ?_) hi
    have hlen := h.length
    simp [virtinDeInit, unregisterIrq_set hi, Action.acquires, Action.releases] at hlen

theorem CountersZero.resize {q : Virtq} {qsz : UInt16} :
    CountersZero { q with qsz } ↔ CountersZero q :=
  ⟨fun h => ⟨h.last, h.avail, h.used⟩, fun h => ⟨h.last, h.avail, h.used⟩⟩

theorem virtin_ready_iff (env : VirtinEnv) {m m' : Virtin}
    (hvq : m'.dev.vq = sized m.dev.vq 0 [virtqEventQsz, virtqStatusQsz]) :
    VirtinReady env (populateEventQ env m') ↔ VirtinBlank m := by
  have h0 : m'.dev.vq 0 = { m.dev.vq 0 with qsz := virtqEventQsz } := by rw [hvq]; rfl
  have h1 : (populateEventQ env m').dev.vq 1 = { m.dev.vq 1 with qsz := virtqStatusQsz } := by
    have hkeep : (populateEventQ env m').dev.vq 1 = m'.dev.vq 1 := rfl
    rw [hkeep, hvq]
    rfl
  have hpop := populate_spec env.ev virtinEventSize (m'.dev.vq 0)
    (show virtqEventQsz.toNat ≤ 65536 by decide)
  have hsize : (m'.dev.vq 0).qsz = virtqEventQsz := by rw [h0]
  have hq : (populateEventQ env m').dev.vq 0 =
      { populate env.ev virtinEventSize (m'.dev.vq 0) virtqEventQsz.toNat with
        avail := { (populate env.ev virtinEventSize (m'.dev.vq 0) virtqEventQsz.toNat).avail with
          index := (m'.dev.vq 0).avail.index + virtqEventQsz } } := by
    simp only [populateEventQ, VirtmmioDev.setQueue, Function.update_self, hpop.index, hpop.size,
      hsize]
  have hevent : Resting virtqEventQsz 0 (indices virtqEventQsz)
        ((populateEventQ env m').dev.vq 0) ↔
      CountersZero (m.dev.vq 0) ∧ (m.dev.vq 0).avail.flag = 0 := by
    have hrest := @resting_populated _ _ _ _ 0 ((m'.dev.vq 0).avail.index + virtqEventQsz)
      (hsize.symm ▸ hpop)
    rw [hsize] at hrest
    rw [hq, hrest, h0]
    simp only [UInt16.add_eq_right]
    constructor
    · rintro ⟨hlast, havail, hused, hflag⟩
      exact ⟨⟨hlast, havail, hused⟩, hflag⟩
    · rintro ⟨⟨hlast, havail, hused⟩, hflag⟩
      exact ⟨hlast, havail, hused, hflag⟩
  have hstatus : Resting virtqStatusQsz 0 [] ((populateEventQ env m').dev.vq 1) ↔
      CountersZero (m.dev.vq 1) ∧ (m.dev.vq 1).avail.flag = 0 := by
    rw [resting_nil, h1, CountersZero.resize]
    exact ⟨fun h => ⟨h.2.2, h.2.1⟩, fun h => ⟨rfl, h.2, h.1⟩⟩
  constructor
  · intro h
    exact ⟨hevent.mp h.event, hstatus.mp h.status⟩
  · rintro ⟨he, hs⟩
    refine ⟨hevent.mpr he, fun i hi => ?_, hstatus.mpr hs⟩
    rw [hq]
    exact hpop.desc i hi

/-- A failure after VirtinInitDev, where HdfVirtinInitHid has kept its own books. -/
theorem virtin_release_iff {actions hid : List Action} {dev : VirtmmioDev} {g : UInt32} {m : Virtin}
    (hrel : released actions = []) (hacq : acquired actions = [.dma, .irq dev.irq])
    (hirq : dev.irq.toNat ≤ 0xFF) (hm : m.dev = dev.setRegistered)
    (hhid : (acquired hid).Perm (released hid ++ if g = 0 then [] else [.inputDevice])) :
    CleansUp (actions ++ hid ++ hdfVirtinRelease g m) ↔ m.realWorkQueue = 0 := by
  have hcount : ∀ r, (released (actions ++ hid ++ hdfVirtinRelease g m)).count r =
      (acquired (actions ++ hid ++ hdfVirtinRelease g m)).count r +
        (if m.realWorkQueue = 0 then [] else [Resource.workQueue]).count r := by
    intro r
    have hr := hhid.count_eq r
    simp only [acquired_append, released_append, release_acquires, release_releases g m hirq hm,
      hrel, hacq, List.count_append, List.count_cons, List.count_nil] at hr ⊢
    omega
  rw [CleansUp, List.perm_iff_count]
  constructor
  · intro h
    by_contra hw
    have hlen := h .workQueue
    rw [hcount, if_neg hw] at hlen
    simp at hlen
  · intro hw r
    rw [hcount, if_pos hw]
    simp

theorem virtin_sound_iff (k : Kernel) (env : VirtinEnv) (g : UInt32) (m : Virtin) :
    Sound (VirtinReady env) (hdfVirtinInit k env g m) ↔ VirtinUnaffected env g m := by
  by_cases halloc : env.dmaMemAlloc = true
  swap
  · simp [hdfVirtinInit, virtinInitDev, halloc, Sound, CleansUp, VirtinUnaffected]
  rcases virtinInitDev_cases k env m halloc with
    ⟨hf, hinit⟩ | ⟨hf, hfail, hout, hclean⟩ |
      ⟨hf, ha, hreg, actions, dev, hrel, hacq, hirq, hvq, hinit⟩
  · simp only [hdfVirtinInit, hinit, Sound, VirtinUnaffected, halloc, hf, if_true,
      Bool.true_eq_false, if_false]
    exact virtin_absent_iff m
  · have hsound : Sound (VirtinReady env) (hdfVirtinInit k env g m) := by
      simp only [hdfVirtinInit, hout, Sound]
      exact hclean
    refine iff_of_true hsound ?_
    rcases hfail with ha | ⟨ha, hreg⟩
    · simp [VirtinUnaffected, halloc, hf, ha]
    · simp [VirtinUnaffected, halloc, hf, ha, hreg]
  by_cases hhid : env.hidInfo = true
  swap
  · simp only [hdfVirtinInit, hinit, hdfVirtinInitHid, hhid, Sound, VirtinUnaffected, halloc, hf,
      ha, hreg, Bool.true_eq_false, if_false, if_true, preceded_actions,
      preceded_outcome, Bool.false_eq_true]
    by_cases hg : g = 0
    · rw [virtin_release_iff hrel hacq hirq rfl (by simp [hg])]
      simp [hg]
    · refine iff_of_false (fun h => ?_) fun h => hg h.2
      have hcount := h.count_eq .inputDevice
      simp only [acquired_append, released_append, release_acquires,
        release_releases g { m with dev := dev.setRegistered } hirq rfl, hrel, hacq, hg] at hcount
      simp at hcount
  by_cases hinput : env.inputDev = 0
  · simp only [hdfVirtinInit, hinit, hdfVirtinInitHid, hhid, hinput, Sound, VirtinUnaffected,
      halloc, hf, ha, hreg, bne_self_eq_false, Bool.true_eq_false, if_false, if_true,
      preceded_actions, preceded_outcome, Bool.false_eq_true]
    exact virtin_release_iff hrel hacq hirq rfl (by simp [Action.acquires, Action.releases])
  have hinput' : (env.inputDev != 0) = true := by simpa using hinput
  by_cases hwq : env.workQueueInit = true
  swap
  · simp only [hdfVirtinInit, hinit, hdfVirtinInitHid, hhid, hinput, hinput', hwq, Sound,
      VirtinUnaffected, halloc, hf, ha, hreg, Bool.true_eq_false, if_false,
      if_true, preceded_actions, preceded_outcome, Bool.false_eq_true]
    exact virtin_release_iff hrel hacq hirq rfl (by
      simp [hinput, Action.acquires, Action.releases])
  · simp only [hdfVirtinInit, hinit, hdfVirtinInitHid, hhid, hinput, hinput', hwq, Sound,
      VirtinUnaffected, halloc, hf, ha, hreg, Bool.true_eq_false, if_false, if_true,
      preceded_outcome]
    exact virtin_ready_iff env hvq

structure VirtgpuReady (m : Virtgpu) : Prop where
  control : Resting Virtgpu.virtqControlQsz virtqAvailFNoInterrupt [] (m.dev.vq 0)
  cursor : Resting virtqCursorQsz virtqAvailFNoInterrupt [] (m.dev.vq 1)

/-- What VirtgpuInitDev needs of the memory it is given, by the step that fails. -/
def VirtgpuUnaffected (env : VirtgpuEnv) (m : Virtgpu) : Prop :=
  if env.dmaMemAlloc = false then True
  else if found env.toBus virtmmioDeviceIdGpu = false then m.realTimer = 0 ∧ m.fb = 0
  else if accepted env.toBus [Virtgpu.virtqControlQsz, virtqCursorQsz] = false then
    m.realTimer = 0 ∧ m.fb = 0
  else if env.timerCreate = false then env.realTimer m.realTimer = 0 ∧ m.fb = 0
  else CountersZero (m.dev.vq 0) ∧ CountersZero (m.dev.vq 1)

theorem virtgpu_fail_iff {actions : List Action} (hrel : released actions = [])
    (hacq : acquired actions = [.dma]) (g : Option Virtgpu) (m : Virtgpu) :
    Sound VirtgpuReady (preceded actions (virtgpuDeInit g m).thenFail) ↔
      m.realTimer = 0 ∧ m.fb = 0 := by
  by_cases hfb : m.fb = 0
  · by_cases ht : m.realTimer = 0
    · simp [Sound, virtgpuDeInit, Result.thenFail, hfb, ht, CleansUp, hrel, hacq,
        Action.acquires, Action.releases]
    · refine iff_of_false (fun h => ?_) fun h => ht h.1
      simp only [Sound, virtgpuDeInit, Result.thenFail, hfb, bne_self_eq_false, Bool.false_eq_true,
        if_false, preceded_outcome] at h
      have hlen := h.length
      simp [hrel, hacq, ht, Action.acquires, Action.releases] at hlen
  · refine iff_of_false (fun h => ?_) fun h => hfb h.2
    have hfb' : (m.fb != 0) = true := by simpa using hfb
    cases g with
    | none => simp [Sound, virtgpuDeInit, Result.thenFail, hfb'] at h
    | some g =>
      simp only [Sound, virtgpuDeInit, Result.thenFail, hfb', if_true, preceded_outcome] at h
      have hlen := h.length
      by_cases ht : m.realTimer = 0
      · simp [hrel, hacq, ht, Action.acquires, Action.releases] at hlen
      · simp [hrel, hacq, ht, Action.acquires, Action.releases] at hlen

theorem hint_resting_iff {q : Virtq} {qsz : UInt16} :
    Resting qsz virtqAvailFNoInterrupt [] (hintNoInterrupt { q with qsz }) ↔ CountersZero q := by
  rw [resting_nil]
  constructor
  · rintro ⟨-, -, h⟩
    exact ⟨h.last, h.avail, h.used⟩
  · intro h
    exact ⟨rfl, rfl, h.last, h.avail, h.used⟩

theorem virtgpu_sound_iff (k : Kernel) (env : VirtgpuEnv) (g : Option Virtgpu) (m : Virtgpu) :
    Sound VirtgpuReady (virtgpuInitDev k env g m) ↔ VirtgpuUnaffected env m := by
  by_cases halloc : env.dmaMemAlloc = true
  swap
  · simp [virtgpuInitDev, halloc, Sound, CleansUp, VirtgpuUnaffected]
  rcases bringUp_spec k env.toBus virtmmioDeviceIdGpu [Virtgpu.virtqControlQsz, virtqCursorQsz]
    m.dev with ⟨hf, hup⟩ | ⟨hf, as, dev, hset, hirq, ⟨ha, hup⟩ | ⟨ha, hup, hvq⟩⟩
  · simp only [virtgpuInitDev, halloc, hup, VirtgpuUnaffected, hf, if_true, Bool.true_eq_false,
      if_false]
    exact virtgpu_fail_iff rfl rfl g m
  · obtain ⟨hacq, hrel⟩ := hset.neutral
    simp only [virtgpuInitDev, halloc, hup, VirtgpuUnaffected, hf, ha, if_true,
      Bool.true_eq_false, if_false, preceded_preceded]
    exact virtgpu_fail_iff (by simp [hrel, Action.releases]) (by simp [hacq, Action.acquires]) g
      { m with dev }
  obtain ⟨hacq, hrel⟩ := hset.neutral
  by_cases htimer : env.timerCreate = true
  swap
  · simp only [virtgpuInitDev, halloc, hup, VirtgpuUnaffected, hf, ha, htimer, if_true,
      Bool.true_eq_false, Bool.false_eq_true, if_false, preceded_preceded]
    exact virtgpu_fail_iff (by simp [hrel, Action.releases]) (by simp [hacq, Action.acquires]) g
      { m with dev, realTimer := env.realTimer m.realTimer }
  have h0 : dev.vq 0 = { m.dev.vq 0 with qsz := Virtgpu.virtqControlQsz } := by rw [hvq]; rfl
  have h1 : dev.vq 1 = { m.dev.vq 1 with qsz := virtqCursorQsz } := by rw [hvq]; rfl
  simp only [virtgpuInitDev, halloc, hup, VirtgpuUnaffected, hf, ha, htimer, if_true,
    Bool.true_eq_false, if_false, Sound, preceded_outcome]
  have hq0 : ((dev.setQueue 0 (hintNoInterrupt (dev.vq 0))).setQueue 1
      (hintNoInterrupt ((dev.setQueue 0 (hintNoInterrupt (dev.vq 0))).vq 1))).vq 0 =
      hintNoInterrupt (dev.vq 0) := rfl
  have hq1 : ((dev.setQueue 0 (hintNoInterrupt (dev.vq 0))).setQueue 1
      (hintNoInterrupt ((dev.setQueue 0 (hintNoInterrupt (dev.vq 0))).vq 1))).vq 1 =
      hintNoInterrupt (dev.vq 1) := rfl
  constructor
  · rintro ⟨hcontrol, hcursor⟩
    rw [hq0, h0, hint_resting_iff] at hcontrol
    rw [hq1, h1, hint_resting_iff] at hcursor
    exact ⟨hcontrol, hcursor⟩
  · rintro ⟨hcontrol, hcursor⟩
    refine ⟨?_, ?_⟩
    · rw [hq0, h0, hint_resting_iff]
      exact hcontrol
    · rw [hq1, h1, hint_resting_iff]
      exact hcursor

structure VirtblkReady (env : VirtblkEnv) (m : Virtblk) : Prop where
  request : Resting SyncRequest.virtblkRequestQsz 0 [] (m.dev.vq 0)
  desc : SyncRequest.PopulateRequestQ env.req env.resp (m.dev.vq 0).desc

theorem populateRequestQ_spec (env : VirtblkEnv) (desc : UInt16 → VirtqDesc) :
    SyncRequest.PopulateRequestQ env.req env.resp (populateRequestQ env desc) := by
  constructor
  · simp [populateRequestQ]
  · simp [populateRequestQ]
  · simp [populateRequestQ]

theorem virtblk_sound (k : Kernel) (env : VirtblkEnv) (m : Virtblk) :
    Sound (VirtblkReady env) (virtblkInitDev k env m) := by
  by_cases halloc : env.dmaMemAlloc = true
  swap
  · simp [virtblkInitDev, halloc, Sound, CleansUp]
  have hzero : unregisterIrq zeroDev = [] := rfl
  rcases bringUp_spec k env.toBus virtmmioDeviceIdBlk [SyncRequest.virtblkRequestQsz] zeroDev with
    ⟨hf, hup⟩ | ⟨hf, as, dev, hset, hirq, ⟨ha, hup⟩ | ⟨ha, hup, hvq⟩⟩
  · simp [virtblkInitDev, halloc, hup, Sound, CleansUp, virtblkDeInit, hzero, Action.acquires,
      Action.releases]
  · obtain ⟨hacq, hrel⟩ := hset.neutral
    have hclear := unregisterIrq_clear (and_not_irqMask hirq)
    simp [virtblkInitDev, halloc, hup, Sound, CleansUp, virtblkDeInit, hclear, hacq, hrel,
      Action.acquires, Action.releases]
  obtain ⟨hacq, hrel⟩ := hset.neutral
  by_cases hready : (env.eventInit && env.registerIrq) = true
  · simp only [virtblkInitDev, halloc, hup, hready, Sound, if_true, preceded_outcome]
    have h0 : dev.vq 0 = { zeroQueue with qsz := SyncRequest.virtblkRequestQsz } := by
      rw [hvq]
      rfl
    have hq : (dev.setRegistered.setQueue 0
        { dev.vq 0 with desc := populateRequestQ env (dev.vq 0).desc }).vq 0 =
        { dev.vq 0 with desc := populateRequestQ env (dev.vq 0).desc } := by
      simp [VirtmmioDev.setQueue]
    constructor
    · rw [hq, h0, resting_nil]
      exact ⟨rfl, rfl, rfl, rfl, rfl⟩
    · rw [hq]
      exact populateRequestQ_spec env _
  · have hclear := unregisterIrq_clear (and_not_irqMask hirq)
    simp [virtblkInitDev, halloc, hup, hready, Sound, CleansUp, virtblkDeInit, hclear, hacq, hrel,
      Action.acquires, Action.releases]

structure VirtnetReady (env : VirtnetEnv) (nic : VirtNetif) : Prop where
  rx : Resting virtqRxQsz 0 (indices virtqRxQsz) (nic.dev.vq 0)
  rxDesc : ∀ i, i.toNat < virtqRxQsz.toNat →
    Receives ((nic.dev.vq 0).desc i) (env.rbuf i) perRxbufSize ∧ ((nic.dev.vq 0).desc i).next = 0
  tx : Resting virtqTxQsz 0 [] (nic.dev.vq 1)
  txDesc : (nic.dev.vq 1).desc =
    VirtnetTx.initTxFreelist zeroQueue.desc (virtqTxQsz.toNat - 1)
  tFreeHdr : nic.tFreeHdr = 0
  tFreeNum : nic.tFreeNum = virtqTxQsz

/-- Nothing of the block matters, but a failure after the allocation is not cleaned up. -/
def VirtnetUnfailing (env : VirtnetEnv) : Prop :=
  env.dmaMemAlloc = true →
    found env.toBus virtmmioDeviceIdNet = true ∧
      accepted env.toBus [virtqRxQsz, virtqTxQsz] = true ∧ env.spinInit = true ∧
      env.registerIrq = true ∧ env.netDeviceAdd = true ∧ env.createEapolData = true ∧
      env.setStatus = true ∧ env.setAddr = true

/-- ConfigQueue over a cleared block, once the device has taken the queues. -/
def configured (env : VirtnetEnv) (dev : VirtmmioDev) : VirtNetif :=
  initTxFreelist (populateRxBuffer env ⟨dev, 0, 0⟩)

def registered (nic : VirtNetif) : VirtNetif := { nic with dev := nic.dev.setRegistered }

theorem virtnet_ready (env : VirtnetEnv) {dev : VirtmmioDev}
    (hvq : dev.vq = sized zeroDev.vq 0 [virtqRxQsz, virtqTxQsz]) :
    VirtnetReady env (publishRx (registered (configured env dev))) := by
  have h0 : dev.vq 0 = { zeroQueue with qsz := virtqRxQsz } := by rw [hvq]; rfl
  have h1 : dev.vq 1 = { zeroQueue with qsz := virtqTxQsz } := by rw [hvq]; rfl
  have hrx : (publishRx (registered (configured env dev))).dev.vq 0 =
      { populate env.rbuf perRxbufSize (dev.vq 0) (dev.vq 0).qsz.toNat with
        avail := { (populate env.rbuf perRxbufSize (dev.vq 0) (dev.vq 0).qsz.toNat).avail with
          index := (populate env.rbuf perRxbufSize (dev.vq 0) (dev.vq 0).qsz.toNat).qsz } } := rfl
  have htx : (publishRx (registered (configured env dev))).dev.vq 1 =
      { dev.vq 1 with
        desc := VirtnetTx.initTxFreelist (dev.vq 1).desc ((dev.vq 1).qsz.toNat - 1) } := rfl
  have hpop := populate_spec env.rbuf perRxbufSize (dev.vq 0)
    (show (dev.vq 0).qsz.toNat ≤ 65536 from Nat.le_of_lt (dev.vq 0).qsz.toNat_lt)
  have hsize : (dev.vq 0).qsz = virtqRxQsz := by rw [h0]
  constructor
  · have hzero : (dev.vq 0).last = 0 ∧ (dev.vq 0).used.index = 0 ∧ (dev.vq 0).avail.flag = 0 := by
      rw [h0]
      exact ⟨rfl, rfl, rfl⟩
    rw [hrx, ← hsize, resting_populated hpop]
    exact ⟨hzero.1, hpop.size, hzero.2⟩
  · intro i hi
    rw [hrx]
    refine ⟨hpop.desc i (hsize ▸ hi), (hpop.next i).trans ?_⟩
    rw [h0]
    rfl
  · rw [htx, h1, resting_nil]
    exact ⟨rfl, rfl, rfl, rfl, rfl⟩
  · rw [htx, h1]
  · rfl
  · have hnum : (publishRx (registered (configured env dev))).tFreeNum =
        (dev.vq 1).qsz := rfl
    rw [hnum, h1]

theorem not_cleansUp {as : List Action} (h : (released as).length ≠ (acquired as).length) :
    ¬ CleansUp as := fun hc => h hc.length

theorem virtnetInit_cases (k : Kernel) (env : VirtnetEnv) (m : VirtNetif)
    (halloc : env.dmaMemAlloc = true) :
    (¬ VirtnetUnfailing env ∧ (virtnetInit k env m).outcome = .failed ∧
      ¬ CleansUp (virtnetInit k env m).actions) ∨
    (found env.toBus virtmmioDeviceIdNet = true ∧
      accepted env.toBus [virtqRxQsz, virtqTxQsz] = true ∧ env.spinInit = true ∧
      env.registerIrq = true ∧
      ∃ (actions : List Action) (dev : VirtmmioDev), released actions = [] ∧
        acquired actions = [.dma, .spinlock, .irq dev.irq] ∧
        dev.vq = sized zeroDev.vq 0 [virtqRxQsz, virtqTxQsz] ∧
        virtnetInit k env m = ⟨actions, .done (registered (configured env dev))⟩) := by
  rcases bringUp_spec k env.toBus virtmmioDeviceIdNet [virtqRxQsz, virtqTxQsz] zeroDev with
    ⟨hf, hup⟩ | ⟨hf, as, dev, hset, hirq, ⟨ha, hup⟩ | ⟨ha, hup, hvq⟩⟩
  · refine .inl ⟨fun h => by simpa [hf] using (h halloc).1, ?_, ?_⟩
    · simp [virtnetInit, halloc, hup]
    · simp [virtnetInit, halloc, hup, CleansUp, Action.acquires, Action.releases]
  · obtain ⟨hacq, hrel⟩ := hset.neutral
    refine .inl ⟨fun h => by simpa [ha] using (h halloc).2.1, ?_, not_cleansUp ?_⟩
    · simp [virtnetInit, halloc, hup]
    · simp [virtnetInit, halloc, hup, hacq, hrel, Action.acquires, Action.releases]
  obtain ⟨hacq, hrel⟩ := hset.neutral
  by_cases hspin : env.spinInit = true
  swap
  · refine .inl ⟨fun h => hspin (h halloc).2.2.1, ?_, not_cleansUp ?_⟩
    · simp [virtnetInit, halloc, hup, hspin]
    · simp [virtnetInit, halloc, hup, hspin, hacq, hrel, Action.acquires, Action.releases]
  by_cases hreg : env.registerIrq = true
  swap
  · refine .inl ⟨fun h => hreg (h halloc).2.2.2.1, ?_, not_cleansUp ?_⟩
    · simp [virtnetInit, halloc, hup, hspin, hreg]
    · simp [virtnetInit, halloc, hup, hspin, hreg, hacq, hrel, Action.acquires, Action.releases]
  refine .inr ⟨hf, ha, hspin, hreg, .acquire .dma :: as ++
    [.acquire .spinlock, .acquire (.irq dev.irq), .driverOk], dev, ?_, ?_, hvq, ?_⟩
  · simp [hrel, Action.releases]
  · simp [hacq, Action.acquires]
  · simp [virtnetInit, halloc, hup, hspin, hreg, preceded, configured, registered]

theorem virtnetDeInit_registered (nic : VirtNetif) :
    acquired (virtnetDeInit (registered nic)) = [] ∧
      (released (virtnetDeInit (registered nic))).length = 2 := by
  have hirq : unregisterIrq (registered nic).dev =
      [.release (.irq ((registered nic).dev.irq &&& irqMask))] :=
    unregisterIrq_set (registered_flag nic.dev.irq)
  simp [virtnetDeInit, hirq, Action.acquires, Action.releases]

theorem virtnet_sound_iff (k : Kernel) (env : VirtnetEnv) (m : VirtNetif) :
    Sound (VirtnetReady env) (virtNetDeviceInit k env m) ↔ VirtnetUnfailing env := by
  by_cases halloc : env.dmaMemAlloc = true
  swap
  · simp [virtNetDeviceInit, virtnetInit, halloc, Sound, CleansUp, VirtnetUnfailing]
  rcases virtnetInit_cases k env m halloc with
    ⟨hnot, hout, hleak⟩ | ⟨hf, ha, hspin, hreg, actions, dev, hrel, hacq, hvq, hinit⟩
  · refine iff_of_false ?_ hnot
    simpa [virtNetDeviceInit, hout, Sound] using hleak
  obtain ⟨hdeAcq, hdeRel⟩ := virtnetDeInit_registered (configured env dev)
  by_cases hadd : env.netDeviceAdd = true
  swap
  · refine iff_of_false ?_ fun h => hadd (h halloc).2.2.2.2.1
    simp only [virtNetDeviceInit, hinit, hadd, Sound, preceded_actions, preceded_outcome]
    refine not_cleansUp ?_
    simp [hrel, hacq, hdeAcq, hdeRel]
  by_cases heapol : env.createEapolData = true
  swap
  · refine iff_of_false ?_ fun h => heapol (h halloc).2.2.2.2.2.1
    simp only [virtNetDeviceInit, hinit, hadd, heapol, Sound, preceded_actions, preceded_outcome]
    refine not_cleansUp ?_
    simp [hrel, hacq, hdeAcq, hdeRel, Action.acquires, Action.releases]
  by_cases hup : (env.setStatus && env.setAddr) = true
  · simp only [virtNetDeviceInit, hinit, hadd, heapol, hup, Sound, if_true, preceded_outcome]
    refine iff_of_true (virtnet_ready env hvq) fun _ => ?_
    rw [Bool.and_eq_true] at hup
    exact ⟨hf, ha, hspin, hreg, hadd, heapol, hup.1, hup.2⟩
  · refine iff_of_false ?_ fun h => hup ?_
    · simp only [virtNetDeviceInit, hinit, hadd, heapol, hup, Sound, preceded_actions,
        preceded_outcome]
      refine not_cleansUp ?_
      simp [hrel, hacq, Action.acquires, Action.releases]
    · rw [Bool.and_eq_true]
      exact (h halloc).2.2.2.2.2.2

/-- One initialisation: what the kernel and the device answer, and the block it is given. -/
inductive Attempt where
  | virtin (env : VirtinEnv) (g_virtInputDev : UInt32) (m : Virtin)
  | virtgpu (env : VirtgpuEnv) (g_virtGpu : Option Virtgpu) (m : Virtgpu)
  | virtblk (env : VirtblkEnv) (m : Virtblk)
  | virtnet (env : VirtnetEnv) (m : VirtNetif)

/-- On success the rings are in their initial state, on failure the clean-up is exact. -/
def Attempt.Sound (k : Kernel) : Attempt → Prop
  | .virtin env g m => VirtioInitMemory.Sound (VirtinReady env) (hdfVirtinInit k env g m)
  | .virtgpu env g m => VirtioInitMemory.Sound VirtgpuReady (virtgpuInitDev k env g m)
  | .virtblk env m => VirtioInitMemory.Sound (VirtblkReady env) (virtblkInitDev k env m)
  | .virtnet env m => VirtioInitMemory.Sound (VirtnetReady env) (virtNetDeviceInit k env m)

/-- Neither the block's former content nor the step that fails is one the driver mishandles. -/
def Attempt.Safe : Attempt → Prop
  | .virtin env g m => VirtinUnaffected env g m
  | .virtgpu env _ m => VirtgpuUnaffected env m
  | .virtblk _ _ => True
  | .virtnet env _ => VirtnetUnfailing env

theorem attempt_sound_iff (k : Kernel) (a : Attempt) : a.Sound k ↔ a.Safe := by
  cases a with
  | virtin env g m => exact virtin_sound_iff k env g m
  | virtgpu env g m => exact virtgpu_sound_iff k env g m
  | virtblk env m => exact iff_of_true (virtblk_sound k env m) trivial
  | virtnet env m => exact virtnet_sound_iff k env m

def willingInput : VirtinEnv where
  transports _ := ⟨virtmmioMagic, virtmmioVersion, virtmmioDeviceIdInput⟩
  negotiate := true
  queueNumMax _ := 1024
  dmaMemAlloc := true
  registerIrq := true
  hidInfo := true
  inputDev := 1
  workQueueInit := true
  realWorkQueue _ := 1
  ev i := 0x40000000 + 8 * i.toUInt64

/-- A block whose last owner left 5 where the event queue's avail.index comes to lie. -/
def staleVirtin : Virtin where
  dev := zeroDev.setQueue 0 { zeroQueue with avail := ⟨0, 5, fun _ => 0⟩ }
  realWorkQueue := 0

/-- The driver adds its eight buffers to the stale index and tells the device of thirteen. -/
theorem stale_index_published : ¬ (Attempt.virtin willingInput 0 staleVirtin).Sound gic := by
  intro h
  have hevent := VirtinReady.event h
  have hindex := hevent.index
  revert hindex
  decide +kernel

end VirtioInitMemory
