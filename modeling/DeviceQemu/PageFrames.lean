import Mathlib.Data.List.Nodup
import Mathlib.Logic.Function.Basic

/-! Page frames mapped into address spaces.
Each mapping of a frame is counted. A frame whose count falls to zero goes back to the
allocator, whoever it belonged to. -/
namespace PageFrames

inductive Owner where
  | free
  | allocated
  | other
  deriving DecidableEq, Repr

structure Mapping where
  space : ℕ
  vpage : ℕ
  frame : ℕ
  deriving DecidableEq

/-- A frame that went back to the allocator: whose it was, and whether it was still mapped. -/
structure Release where
  frame : ℕ
  owner : Owner
  mapped : Bool
  deriving DecidableEq

/-- `managed` are the frames that have a page structure; `allocs` and `releases` are the
history of the frames given out and taken back. -/
structure Memory where
  managed : ℕ → Bool
  owner : ℕ → Owner
  refCounts : ℕ → Int
  maps : List Mapping
  allocs : List ℕ
  releases : List Release

def Memory.count (m : Memory) (frame : ℕ) : ℕ := (m.maps.map Mapping.frame).count frame

def Memory.find (m : Memory) (space vpage : ℕ) : Option Mapping :=
  m.maps.find? fun x => x.space = space ∧ x.vpage = vpage

def Memory.incRef (m : Memory) (frame : ℕ) : Memory :=
  { m with refCounts := Function.update m.refCounts frame (m.refCounts frame + 1) }

def Memory.addMap (m : Memory) (space vpage frame : ℕ) : Memory :=
  { m with maps := ⟨space, vpage, frame⟩ :: m.maps }

/-- The frames `frame`, …, `frame + n - 1` are given out, not counted yet. -/
def Memory.allocate (m : Memory) (frame n : ℕ) : Memory :=
  { m with
    owner := fun f => if frame ≤ f ∧ f < frame + n then .allocated else m.owner f
    refCounts := fun f => if frame ≤ f ∧ f < frame + n then 0 else m.refCounts f
    allocs := (List.range n).map (frame + ·) ++ m.allocs }

def Memory.decRef (m : Memory) (frame : ℕ) : Memory :=
  if m.refCounts frame - 1 ≤ 0 then
    { m with
      refCounts := Function.update m.refCounts frame 0
      owner := Function.update m.owner frame .free
      releases := ⟨frame, m.owner frame, m.count frame ≠ 0⟩ :: m.releases }
  else
    { m with refCounts := Function.update m.refCounts frame (m.refCounts frame - 1) }

def Memory.unmapPage (m : Memory) (space vpage : ℕ) : Memory :=
  match m.find space vpage with
  | none => m
  | some x =>
    let m' := { m with maps := m.maps.erase x }
    if m.managed x.frame then m'.decRef x.frame else m'

def Memory.unmapPages (m : Memory) (space vpage : ℕ) : ℕ → Memory
  | 0 => m
  | n + 1 => (m.unmapPage space vpage).unmapPages space (vpage + 1) n

structure Counted (m : Memory) : Prop where
  mapped : ∀ x ∈ m.maps, m.owner x.frame = .allocated
  refs : ∀ f, m.owner f = .allocated → m.refCounts f = m.count f
  managed : ∀ f, m.owner f = .allocated → m.managed f = true
  released : ∀ r ∈ m.releases, r.owner = .allocated ∧ r.mapped = false
  once : ∀ f, m.allocs.count f = (m.releases.map Release.frame).count f +
    if m.owner f = .allocated then 1 else 0

def Covered (m : Memory) : Prop := ∀ f, m.owner f = .allocated → 0 < m.count f

theorem count_pos {m : Memory} {f : ℕ} : 0 < m.count f ↔ ∃ x ∈ m.maps, x.frame = f := by
  simp [Memory.count, List.count_pos_iff]

theorem find_some {m : Memory} {space vpage : ℕ} {x : Mapping} (h : m.find space vpage = some x) :
    x ∈ m.maps := List.mem_of_find?_eq_some h

theorem count_erase {m : Memory} {x : Mapping} (h : x ∈ m.maps) (f : ℕ) :
    m.count f = ((m.maps.erase x).map Mapping.frame).count f + if x.frame = f then 1 else 0 := by
  have hp := ((List.perm_cons_erase h).map Mapping.frame).count_eq f
  rw [Memory.count, hp, List.map_cons, List.count_cons]
  simp only [beq_iff_eq]

theorem mapPage_counted {m : Memory} {space vpage frame : ℕ} (h : Counted m)
    (ho : m.owner frame = .allocated) : Counted ((m.incRef frame).addMap space vpage frame) := by
  refine ⟨?_, ?_, h.managed, h.released, h.once⟩
  · intro x hx
    rcases List.mem_cons.mp hx with rfl | hx
    · exact ho
    · exact h.mapped x hx
  · intro f hf
    have hcount : ((m.incRef frame).addMap space vpage frame).count f =
        m.count f + if frame = f then 1 else 0 := by
      simp only [Memory.count, Memory.addMap, List.map_cons, List.count_cons, beq_iff_eq]
      rfl
    have hrefs := h.refs f hf
    rw [hcount]
    by_cases heq : frame = f
    · subst heq
      simp only [Memory.addMap, Memory.incRef, Function.update_self, if_true, hrefs]
      push_cast
      rfl
    · simp only [Memory.addMap, Memory.incRef, Function.update_of_ne (Ne.symm heq), if_neg heq,
        hrefs, Nat.add_zero]

theorem mapPage_count_mono {m : Memory} {space vpage frame f : ℕ} (h : 0 < m.count f) :
    0 < ((m.incRef frame).addMap space vpage frame).count f := by
  obtain ⟨x, hx, hf⟩ := count_pos.mp h
  exact count_pos.mpr ⟨x, List.mem_cons_of_mem _ hx, hf⟩

theorem release_counted {m : Memory} {x : Mapping} (h : Counted m) (hx : x ∈ m.maps)
    (hzero : ((m.maps.erase x).map Mapping.frame).count x.frame = 0) :
    Counted { m with
      maps := m.maps.erase x
      refCounts := Function.update m.refCounts x.frame 0
      owner := Function.update m.owner x.frame .free
      releases := ⟨x.frame, m.owner x.frame, false⟩ :: m.releases } := by
  have howner := h.mapped x hx
  have hkept : ∀ f, Function.update m.owner x.frame .free f = .allocated →
      f ≠ x.frame ∧ m.owner f = .allocated := by
    intro f hf
    by_cases heq : f = x.frame
    · rw [heq, Function.update_self] at hf
      cases hf
    · rw [Function.update_of_ne heq] at hf
      exact ⟨heq, hf⟩
  constructor
  · intro y hy
    have hne : y.frame ≠ x.frame := by
      intro heq
      have : 0 < ((m.maps.erase x).map Mapping.frame).count x.frame :=
        List.count_pos_iff.mpr (List.mem_map.mpr ⟨y, hy, heq⟩)
      omega
    exact (Function.update_of_ne hne ..).trans (h.mapped y (List.mem_of_mem_erase hy))
  · intro f hf
    obtain ⟨hne, hf⟩ := hkept f hf
    have hcount := count_erase hx f
    rw [if_neg (Ne.symm hne), Nat.add_zero] at hcount
    exact (Function.update_of_ne hne ..).trans ((h.refs f hf).trans (congrArg _ hcount))
  · exact fun f hf => h.managed f (hkept f hf).2
  · intro r hr
    rcases List.mem_cons.mp hr with rfl | hr
    · exact ⟨howner, rfl⟩
    · exact h.released r hr
  · intro f
    have honce := h.once f
    simp only [List.map_cons, List.count_cons, beq_iff_eq]
    by_cases heq : f = x.frame
    · subst heq
      simp only [Function.update_self, howner, if_true, reduceCtorEq, if_false] at honce ⊢
      omega
    · simp only [Function.update_of_ne heq, if_neg (Ne.symm heq)]
      omega

theorem unmap_counted {m : Memory} {x : Mapping} (h : Counted m) (hx : x ∈ m.maps) :
    Counted { m with
      maps := m.maps.erase x
      refCounts := Function.update m.refCounts x.frame (m.refCounts x.frame - 1) } := by
  refine ⟨fun y hy => h.mapped y (List.mem_of_mem_erase hy), ?_, h.managed, h.released, h.once⟩
  intro f hf
  have hcount := count_erase hx f
  have hrefs := h.refs f hf
  simp only [Memory.count]
  by_cases heq : f = x.frame
  · subst heq
    rw [if_pos rfl] at hcount
    simp only [Function.update_self]
    omega
  · rw [if_neg (Ne.symm heq)] at hcount
    simp only [Function.update_of_ne heq]
    omega

/-- Unmapping a page takes its mapping and its count away, and the frame with the last one. -/
theorem unmapPage_counted {m : Memory} {space vpage : ℕ} (h : Counted m) :
    Counted (m.unmapPage space vpage) ∧ (Covered m → Covered (m.unmapPage space vpage)) := by
  cases hx : m.find space vpage with
  | none =>
    simp only [Memory.unmapPage, hx]
    exact ⟨h, id⟩
  | some x =>
    have hmem := find_some hx
    have howner := h.mapped x hmem
    have hrefs := h.refs x.frame howner
    have hcount := count_erase hmem
    have hcx := hcount x.frame
    rw [if_pos rfl] at hcx
    simp only [Memory.unmapPage, hx, h.managed x.frame howner, if_true, Memory.decRef]
    by_cases hlast : m.refCounts x.frame - 1 ≤ 0
    · have hzero : ((m.maps.erase x).map Mapping.frame).count x.frame = 0 := by omega
      simp only [if_pos hlast, Memory.count, hzero, ne_eq, not_true_eq_false, decide_false]
      refine ⟨release_counted h hmem hzero, fun hcov f hf => ?_⟩
      by_cases heq : f = x.frame
      · simp [heq] at hf
      · dsimp only at hf
        rw [Function.update_of_ne heq] at hf
        have := hcov f hf
        rw [hcount f, if_neg (Ne.symm heq)] at this
        exact this
    · simp only [if_neg hlast]
      refine ⟨unmap_counted h hmem, fun hcov f hf => ?_⟩
      have := hcov f hf
      have hf' := hcount f
      simp only [Memory.count]
      by_cases heq : x.frame = f
      · subst heq
        omega
      · rw [if_neg heq] at hf'
        omega

theorem unmapPages_counted {m : Memory} {space vpage n : ℕ} (h : Counted m) :
    Counted (m.unmapPages space vpage n) ∧
      (Covered m → Covered (m.unmapPages space vpage n)) := by
  induction n generalizing m vpage with
  | zero => exact ⟨h, id⟩
  | succ n ih =>
    obtain ⟨hc, hcov⟩ := @unmapPage_counted m space vpage h
    obtain ⟨hc', hcov'⟩ := @ih (m.unmapPage space vpage) (vpage + 1) hc
    exact ⟨hc', fun hm => hcov' (hcov hm)⟩

theorem allocate_counted {m : Memory} {frame n : ℕ} (h : Counted m)
    (hfree : ∀ f, frame ≤ f → f < frame + n → m.owner f = .free ∧ m.managed f = true) :
    Counted (m.allocate frame n) := by
  have hnone : ∀ f, frame ≤ f → f < frame + n → m.count f = 0 := by
    intro f h₁ h₂
    by_contra hne
    obtain ⟨x, hx, rfl⟩ := count_pos.mp (Nat.pos_of_ne_zero hne)
    have := h.mapped x hx
    rw [(hfree _ h₁ h₂).1] at this
    cases this
  constructor
  · intro x hx
    have := h.mapped x hx
    by_cases hin : frame ≤ x.frame ∧ x.frame < frame + n
    · exact if_pos hin
    · exact (if_neg hin).trans this
  · intro f hf
    by_cases hin : frame ≤ f ∧ f < frame + n
    · exact (if_pos hin).trans (congrArg _ (hnone f hin.1 hin.2).symm)
    · exact (if_neg hin).trans (h.refs f ((if_neg hin).symm.trans hf))
  · intro f hf
    by_cases hin : frame ≤ f ∧ f < frame + n
    · exact (hfree f hin.1 hin.2).2
    · exact h.managed f ((if_neg hin).symm.trans hf)
  · exact h.released
  · intro f
    have honce := h.once f
    have hnew : ((List.range n).map (frame + ·)).count f =
        if frame ≤ f ∧ f < frame + n then 1 else 0 := by
      have hnd : ((List.range n).map (frame + ·)).Nodup :=
        List.Nodup.map (fun a b hab => Nat.add_left_cancel hab) List.nodup_range
      rw [hnd.count]
      have hiff : f ∈ (List.range n).map (frame + ·) ↔ frame ≤ f ∧ f < frame + n := by
        simp only [List.mem_map, List.mem_range]
        constructor
        · rintro ⟨k, hk, rfl⟩
          omega
        · rintro ⟨h₁, h₂⟩
          exact ⟨f - frame, by omega, by omega⟩
      simp only [hiff]
    simp only [Memory.allocate, List.count_append, hnew]
    by_cases hin : frame ≤ f ∧ f < frame + n
    · simp only [if_pos hin, (hfree f hin.1 hin.2).1, reduceCtorEq, if_false, if_true] at honce ⊢
      omega
    · simp only [if_neg hin, Nat.zero_add]
      exact honce

end PageFrames
