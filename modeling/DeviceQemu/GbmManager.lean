import DeviceQemu.ResourceLedger
import DeviceQemu.StepSystem
import Mathlib.Data.Finset.Empty
import Mathlib.Data.Int.Notation

/-! The gralloc manager of the GBM backend.
GbmGrallocInitialize opens the DRM device for its first user and counts the others,
GbmGrallocUninitialize counts down. -/
namespace GbmManager

open ResourceLedger StepSystem

inductive Resource where
  | fd (n : Int32)
  | gbmDevice (addr : ℕ)
  deriving DecidableEq, Repr

structure GrallocManager where
  gbmDevice : Option ℕ
  drmFd : Int32
  referCount : Int32
  deriving DecidableEq, Repr

structure Answers where
  malloc : Bool
  realpath : Bool
  drmFd : Int32
  gbmDevice : Option ℕ
  deriving DecidableEq, Repr

inductive Status where
  | success
  | failure
  | invalidParam
  | badFd
  deriving DecidableEq, Repr

structure Called where
  ret : Status
  manager : Option GrallocManager
  ops : List (Op Resource)

/-- g_grallocManager; a new one is zeroed. -/
def getGrallocManager (malloc : Bool) : Option GrallocManager → Option GrallocManager
  | some m => some m
  | none => if malloc then some ⟨none, 0, 0⟩ else none

def initGbmDevice (m : GrallocManager) (a : Answers) :
    Status × GrallocManager × List (Op Resource) :=
  match m.gbmDevice with
  | some _ => (.success, m, [])
  | none =>
    if a.realpath = false then (.invalidParam, m, [])
    else if a.drmFd < 0 then (.badFd, m, [])
    else
      match a.gbmDevice with
      | none => (.failure, { m with drmFd := -1 }, [.acquire (.fd a.drmFd), .release (.fd a.drmFd)])
      | some d => (.success, { m with gbmDevice := some d, drmFd := a.drmFd },
          [.acquire (.fd a.drmFd), .acquire (.gbmDevice d)])

def deInitGbmDevice (m : GrallocManager) : List (Op Resource) :=
  (m.gbmDevice.toList.map fun d => .release (.gbmDevice d)) ++
    if 0 < m.drmFd then [.release (.fd m.drmFd)] else []

def gbmGrallocInitialize (manager : Option GrallocManager) (a : Answers) : Called :=
  match getGrallocManager a.malloc manager with
  | none => ⟨.invalidParam, none, []⟩
  | some m =>
    match initGbmDevice m a with
    | (.success, m, ops) => ⟨.success, some { m with referCount := m.referCount + 1 }, ops⟩
    | (ret, m, ops) => ⟨ret, some m, ops⟩

def gbmGrallocUninitialize (manager : Option GrallocManager) (malloc : Bool) : Called :=
  match getGrallocManager malloc manager with
  | none => ⟨.invalidParam, none, []⟩
  | some m =>
    let m := { m with referCount := m.referCount - 1 }
    if m.referCount < 0 then ⟨.success, none, deInitGbmDevice m⟩
    else ⟨.success, some m, []⟩

inductive Event where
  | init (a : Answers)
  | uninit (malloc : Bool)
  deriving DecidableEq, Repr

/-- `opens` counts the successful initialisations that were not undone. -/
structure State where
  manager : Option GrallocManager
  opens : ℕ
  live : Multiset Resource
  deriving DecidableEq

def call (s : State) : Event → Called
  | .init a => gbmGrallocInitialize s.manager a
  | .uninit malloc => gbmGrallocUninitialize s.manager malloc

def opensAfter (opens : ℕ) : Event → Status → ℕ
  | .init _, .success => opens + 1
  | .init _, _ => opens
  | .uninit _, _ => opens - 1

def after (s : State) (e : Event) : State :=
  let r := call s e
  ⟨r.manager, opensAfter s.opens e r.ret, ResourceLedger.after s.live r.ops⟩

def Matched (s : State) : Event → Prop
  | .init _ => True
  | .uninit _ => 0 < s.opens

instance (s : State) : (e : Event) → Decidable (Matched s e)
  | .init _ => isTrue trivial
  | .uninit _ => inferInstanceAs (Decidable (0 < s.opens))

def initial : State := ⟨none, 0, 0⟩

def system : System State Event where
  Init s := s = initial
  next s e := if Matched s e then some (after s e) else none

def Shared (s : State) : Prop :=
  (0 < s.opens → ∃ fd d, s.live = {.fd fd, .gbmDevice d}) ∧ (s.opens = 0 → s.live = 0)

/-- The last uninitialisation closes and no other does, nothing is closed that is not open, and an
initialisation opens exactly when it is the first. -/
structure Right (s : State) (e : Event) : Prop where
  shared : Shared (after s e)
  closes : ∀ malloc, e = .uninit malloc →
    ((∃ r, .release r ∈ (call s e).ops) ↔ s.opens = 1)
  once : ResourceLedger.Sound ∅ s.live (call s e).ops
  opens : ∀ a, e = .init a → (call s e).ret = .success →
    ((∃ d, .acquire (.gbmDevice d) ∈ (call s e).ops) ↔ s.opens = 0)

/-- An uninitialisation is not the last one, and the count of those before it fits 32 bits. -/
def NotLast (s : State) : Event → Prop
  | .init _ => True
  | .uninit _ => 1 < s.opens ∧ (s.opens - 1) % 2 ^ 32 < 2 ^ 31

instance (s : State) : (e : Event) → Decidable (NotLast s e)
  | .init _ => isTrue trivial
  | .uninit _ => inferInstanceAs (Decidable (_ ∧ _))

/-- No users and no device, or users and the device of the manager. -/
inductive Shape (s : State) : Prop where
  | closed (manager : ∀ m, s.manager = some m → m.gbmDevice = none ∧ m.referCount = 0)
      (opens : s.opens = 0) (live : s.live = 0)
  | opened (fd : Int32) (d : ℕ) (manager : s.manager = some ⟨some d, fd, Int32.ofNat s.opens⟩)
      (opens : 0 < s.opens) (live : s.live = {.fd fd, .gbmDevice d})

theorem Shape.shared {s : State} (h : Shape s) : Shared s := by
  cases h with
  | closed manager opens live =>
    refine ⟨fun hpos => ?_, fun _ => live⟩
    omega
  | opened fd d manager opens live =>
    refine ⟨fun _ => ⟨fd, d, live⟩, fun hzero => ?_⟩
    omega

theorem ofNat_succ (n : ℕ) : Int32.ofNat n + 1 = Int32.ofNat (n + 1) := (Int32.ofNat_add n 1).symm

theorem ofNat_pred {n : ℕ} (h : 0 < n) : Int32.ofNat n - 1 = Int32.ofNat (n - 1) := by
  have hsucc := ofNat_succ (n - 1)
  rw [Nat.sub_add_cancel h] at hsucc
  rw [← hsucc, Int32.add_sub_cancel]

theorem ofNat_lt_zero (n : ℕ) : Int32.ofNat n < 0 ↔ ¬ n % 2 ^ 32 < 2 ^ 31 := by
  have hzero : (0 : Int32).toInt = 0 := rfl
  have hsize : Int32.size = 2 ^ 32 := rfl
  rw [Int32.lt_iff_toInt_lt, hzero, Int32.toInt_ofNat', hsize, Int.bmod_def]
  split_ifs <;> omega

section Step

variable {s : State}

/-- What holds of a step: it is right exactly when it is not the last close, and then keeps the
shape. -/
structure Spec (s : State) (e : Event) : Prop where
  iff : Right s e ↔ NotLast s e
  shape : NotLast s e → Shape (after s e)

/-- An initialisation whose operations leave as much open as before or open a device. -/
theorem init_spec {a : Answers} (hshape : Shape (after s (.init a)))
    (once : ResourceLedger.Sound ∅ s.live (call s (.init a)).ops)
    (opens : (call s (.init a)).ret = .success →
      ((∃ d, .acquire (.gbmDevice d) ∈ (call s (.init a)).ops) ↔ s.opens = 0)) :
    Spec s (.init a) := by
  refine ⟨iff_of_true ⟨hshape.shared, fun malloc he => (by cases he), once, fun b he => ?_⟩ trivial,
    fun _ => hshape⟩
  cases he
  exact opens

theorem init_opened_spec {a : Answers} {fd : Int32} {d : ℕ}
    (manager : s.manager = some ⟨some d, fd, Int32.ofNat s.opens⟩) (opens : 0 < s.opens)
    (live : s.live = {.fd fd, .gbmDevice d}) : Spec s (.init a) := by
  have hcall : call s (.init a) =
      ⟨.success, some ⟨some d, fd, Int32.ofNat (s.opens + 1)⟩, []⟩ := by
    rw [← ofNat_succ, call, manager]
    rfl
  apply init_spec
  · rw [after, hcall]
    exact .opened fd d rfl (Nat.succ_pos _) live
  · rw [hcall]
    trivial
  · intro _
    rw [hcall]
    simp only [List.not_mem_nil, exists_false, false_iff]
    omega

theorem init_failed_spec {a : Answers} (opens : s.opens = 0) {ret : Status}
    {manager : Option GrallocManager} {ops : List (Op Resource)}
    (hcall : call s (.init a) = ⟨ret, manager, ops⟩) (hret : ret ≠ .success)
    (hmanager : ∀ m, manager = some m → m.gbmDevice = none ∧ m.referCount = 0)
    (hafter : ResourceLedger.after s.live ops = 0) (hsound : ResourceLedger.Sound ∅ s.live ops) :
    Spec s (.init a) := by
  apply init_spec
  · have hopens : opensAfter s.opens (.init a) ret = 0 := by
      cases ret with
      | success => exact absurd rfl hret
      | failure => exact opens
      | invalidParam => exact opens
      | badFd => exact opens
    rw [after, hcall]
    exact .closed hmanager hopens hafter
  · rw [hcall]
    exact hsound
  · rw [hcall]
    exact fun h => absurd h hret

theorem getGrallocManager_closed {malloc : Bool} {manager : Option GrallocManager}
    (h : ∀ m, manager = some m → m.gbmDevice = none ∧ m.referCount = 0) {m : GrallocManager}
    (hm : getGrallocManager malloc manager = some m) : m.gbmDevice = none ∧ m.referCount = 0 := by
  cases manager with
  | some m' =>
    rw [getGrallocManager, Option.some.injEq] at hm
    rw [← hm]
    exact h m' rfl
  | none =>
    obtain ⟨-, hnew⟩ := Option.ite_none_right_eq_some.mp hm
    rw [← Option.some.inj hnew]
    exact ⟨rfl, rfl⟩

/-- The first user: whatever fails, nothing stays open, and else the device is open. -/
theorem init_closed_spec {a : Answers}
    (manager : ∀ m, s.manager = some m → m.gbmDevice = none ∧ m.referCount = 0)
    (opens : s.opens = 0) (live : s.live = 0) : Spec s (.init a) := by
  cases hget : getGrallocManager a.malloc s.manager with
  | none =>
    have hcall : call s (.init a) = ⟨.invalidParam, none, []⟩ := by
      rw [call, gbmGrallocInitialize, hget]
    exact init_failed_spec opens hcall (by decide) (fun m h => (by cases h)) live trivial
  | some m =>
    have hm := getGrallocManager_closed manager hget
    have hcall : call s (.init a) = match initGbmDevice m a with
        | (.success, m, ops) => ⟨.success, some { m with referCount := m.referCount + 1 }, ops⟩
        | (ret, m, ops) => ⟨ret, some m, ops⟩ := by
      rw [call, gbmGrallocInitialize, hget]
    have hsame : ∀ m', some m = some m' → m'.gbmDevice = none ∧ m'.referCount = 0 := by
      rintro m' ⟨⟩
      exact hm
    simp only [initGbmDevice, hm.1] at hcall
    by_cases hpath : a.realpath = false
    · rw [if_pos hpath] at hcall
      exact init_failed_spec opens hcall (by decide) hsame live trivial
    · by_cases hfd : a.drmFd < 0
      · rw [if_neg hpath, if_pos hfd] at hcall
        exact init_failed_spec opens hcall (by decide) hsame live trivial
      · rw [if_neg hpath, if_neg hfd] at hcall
        cases hdevice : a.gbmDevice with
        | none =>
          rw [hdevice] at hcall
          apply init_failed_spec opens hcall (by decide)
          · rintro m' ⟨⟩
            exact ⟨rfl, hm.2⟩
          · rw [live]
            exact Multiset.erase_singleton _
          · exact ⟨trivial, Multiset.mem_cons_self _ _, trivial⟩
        | some d =>
          rw [hdevice] at hcall
          apply init_spec
          · rw [after, hcall]
            refine .opened a.drmFd d ?_ (Nat.succ_pos _) ?_
            · simp only [hm.2, opensAfter, opens]
              rfl
            · rw [live]
              exact Multiset.cons_swap _ _ 0
          · rw [hcall]
            exact ⟨trivial, trivial, trivial⟩
          · rw [hcall]
            exact fun _ => iff_of_true ⟨d, List.mem_of_getLast? rfl⟩ opens

theorem uninit_spec {malloc : Bool} {fd : Int32} {d : ℕ}
    (manager : s.manager = some ⟨some d, fd, Int32.ofNat s.opens⟩) (opens : 0 < s.opens)
    (live : s.live = {.fd fd, .gbmDevice d}) : Spec s (.uninit malloc) := by
  have hcall : call s (.uninit malloc) =
      if Int32.ofNat (s.opens - 1) < 0 then
        ⟨.success, none, deInitGbmDevice ⟨some d, fd, Int32.ofNat (s.opens - 1)⟩⟩
      else ⟨.success, some ⟨some d, fd, Int32.ofNat (s.opens - 1)⟩, []⟩ := by
    rw [← ofNat_pred opens, call, manager]
    rfl
  by_cases hneg : Int32.ofNat (s.opens - 1) < 0
  · -- the count has wrapped around, and the device is closed under its users
    have hwrapped := (ofNat_lt_zero _).mp hneg
    rw [if_pos hneg] at hcall
    have hnot : ¬ NotLast s (.uninit malloc) := fun h => hwrapped h.2
    refine ⟨iff_of_false (fun hright => ?_) hnot, fun h => absurd h hnot⟩
    have hlast := (hright.closes malloc rfl).mp ⟨.gbmDevice d, by
      rw [hcall]
      exact List.mem_cons_self⟩
    rw [hlast] at hwrapped
    exact hwrapped (by decide)
  · have hfits : (s.opens - 1) % 2 ^ 32 < 2 ^ 31 := by
      by_contra hwrapped
      exact hneg ((ofNat_lt_zero _).mpr hwrapped)
    rw [if_neg hneg] at hcall
    by_cases hlast : s.opens = 1
    · -- the last user leaves, and the device stays open
      have hnot : ¬ NotLast s (.uninit malloc) := fun h => by
        have hmore := h.1
        omega
      refine ⟨iff_of_false (fun hright => ?_) hnot, fun h => absurd h hnot⟩
      obtain ⟨r, hr⟩ := (hright.closes malloc rfl).mpr hlast
      rw [hcall] at hr
      exact absurd hr List.not_mem_nil
    · have hshape : Shape (after s (.uninit malloc)) := by
        rw [after, hcall]
        refine .opened fd d rfl ?_ live
        simp only [opensAfter]
        omega
      refine ⟨iff_of_true ⟨hshape.shared, fun _ _ => ?_, ?_, fun a he => (by cases he)⟩
        ⟨by omega, hfits⟩, fun _ => hshape⟩
      · rw [hcall]
        simp only [List.not_mem_nil, exists_false, false_iff]
        exact hlast
      · rw [hcall]
        trivial

theorem spec (hs : Shape s) {e : Event} (hmatched : Matched s e) : Spec s e := by
  cases hs with
  | closed manager opens live =>
    cases e with
    | init a => exact init_closed_spec manager opens live
    | uninit malloc => exact absurd opens (Nat.ne_of_gt hmatched)
  | opened fd d manager opens live =>
    cases e with
    | init a => exact init_opened_spec manager opens live
    | uninit malloc => exact uninit_spec manager opens live

end Step

theorem next_cases {s t : State} {e : Event} (ht : system.next s e = some t) :
    Matched s e ∧ t = after s e := by
  obtain ⟨hmatched, ht⟩ := Option.ite_none_right_eq_some.mp ht
  exact ⟨hmatched, (Option.some.inj ht).symm⟩

theorem init_shape {s : State} (h : system.Init s) : Shape s := by
  obtain rfl : s = initial := h
  exact .closed (fun m hm => (by cases hm)) rfl rfl

/-- The runs in which the device is shared as it should be are those that never give it up. -/
theorem shared_iff {s : State} (h : system.Init s) (es : List Event) :
    StepsMeet system Right s es ↔ StepsMeet system NotLast s es := by
  apply stepsMeet_iff (I := Shape) _ _ (init_shape h)
  · intro s e t hs hnot ht
    obtain ⟨hmatched, rfl⟩ := next_cases ht
    exact (spec hs hmatched).shape hnot
  · intro s e t hs ht
    obtain ⟨hmatched, -⟩ := next_cases ht
    exact (spec hs hmatched).iff

def opening (fd : Int32) (d : ℕ) : Event := .init ⟨true, true, fd, some d⟩

def notThere : Event := .init ⟨true, true, -1, none⟩

theorem shared_by_two :
    StepsMeet system Right initial [notThere, opening 5 0x1000, opening 6 0x2000, .uninit true] :=
  (shared_iff rfl _).mpr (by decide)

/-- One user comes and goes, and leaves the device open. -/
theorem left_open :
    (system.run initial [opening 5 0x1000, .uninit true]).map (fun s => (s.opens, s.live)) =
      some (0, {.fd 5, .gbmDevice 0x1000}) ∧
    ¬ StepsMeet system Right initial [opening 5 0x1000, .uninit true] := by
  refine ⟨by decide, fun h => ?_⟩
  obtain ⟨-, hrest⟩ := h _ rfl
  obtain ⟨hright, -⟩ := hrest _ rfl
  exact absurd (hright.shared.2 rfl) (by decide)

end GbmManager
