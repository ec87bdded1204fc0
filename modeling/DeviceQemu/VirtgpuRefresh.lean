import DeviceQemu.Virtgpu
import Mathlib.Tactic.Tauto

/-! When a virtgpu refresh reaches the device.
The device goes only as far as it was notified. Entries of the control queue are then
notified or not, and a refresh gets stuck when the fullness test counts the wrong ones. -/
namespace VirtgpuRefresh

open StepSystem RingWindow Virtmmio Virtgpu

variable {m : Memory} {edid : Bool}

/-- used.index, the notified index and avail.index lie in this order within one ring. -/
structure Split (u n a : UInt16) : Prop where
  sum : (a - u).toNat = (n - u).toNat + (a - n).toNat
  le : (a - u).toNat ≤ 4

theorem Split.consume {u n a : UInt16} (h : Split u n a) (hne : u ≠ n) : Split (u + 1) n a := by
  have hsum := h.sum
  have hle := h.le
  have hn := gap_pop hne
  have hua : u ≠ a := by
    rintro rfl
    simp at hsum
    omega
  have ha := gap_pop hua
  constructor
  · omega
  · omega

theorem Split.publish {u n a : UInt16} (h : Split u n a) (hlt : (a - u).toNat ≤ 3) :
    Split u n (a + 1) := by
  have hsum := h.sum
  have hu := @gap_succ u a (by omega)
  have hn := @gap_succ n a (by omega)
  constructor
  · omega
  · omega

theorem Split.notify {u n a : UInt16} (h : Split u n a) : Split u a a := by
  constructor
  · simp
  · exact h.le

theorem Split.caughtUp {n a : UInt16} (h : (a - n).toNat ≤ 4) : Split n n a := by
  constructor
  · simp
  · exact h

/-- `u` and `a` lie on the same side of the wrap. -/
def Level (u a : UInt16) : Prop := u.toNat ≤ a.toNat

theorem Level.consume {u n a : UInt16} (h : Level u a) (hs : Split u n a) (hne : u ≠ n) :
    Level (u + 1) a := by
  have hsum := hs.sum
  have hle := hs.le
  have hpop := gap_pop hne
  have hu := u.toNat_lt
  have ha := a.toNat_lt
  simp only [Level, toNat_gap, UInt16.toNat_add, UInt16.toNat_one] at *
  omega

theorem Level.publish {u a : UInt16} (h : Level u a) (ha : a ≠ 0xFFFF) : Level u (a + 1) := by
  have hlt := a.toNat_lt
  have hne : a.toNat ≠ 65535 := fun h => ha (UInt16.toNat_inj.mp h)
  simp only [Level, UInt16.toNat_add, UInt16.toNat_one] at *
  omega

/-- An accepted request finds the counters level and at most three entries outstanding. -/
theorem accepted {q : Virtq} (hb : busy q = false)
    (hle : (q.avail.index - q.used.index).toNat ≤ 4) :
    Level q.used.index q.avail.index ∧ (q.avail.index - q.used.index).toNat ≤ 3 := by
  have hu := q.used.index.toNat_lt
  have ha := q.avail.index.toNat_lt
  have hfar : ¬ 4 ≤ counterDistance q := of_decide_eq_false hb
  simp only [counterDistance] at hfar
  simp only [Level, toNat_gap] at *
  omega

theorem refused {q : Virtq} (hb : busy q = true) (hl : Level q.used.index q.avail.index) :
    4 ≤ (q.avail.index - q.used.index).toNat := by
  have hu := q.used.index.toNat_lt
  have ha := q.avail.index.toNat_lt
  have hfar : 4 ≤ counterDistance q := of_decide_eq_true hb
  simp only [counterDistance] at hfar
  simp only [Level, toNat_gap] at *
  omega

/-- Between refreshes: few entries wait for a notify, and none of them across the wrap. -/
structure Rest (u n a : UInt16) : Prop where
  split : Split u n a
  few : (a - n).toNat ≤ 2
  level : n ≠ a → Level u a

theorem Rest.consume {u n a : UInt16} (h : Rest u n a) (hne : u ≠ n) : Rest (u + 1) n a :=
  ⟨h.split.consume hne, h.few, fun hn => (h.level hn).consume h.split hne⟩

/-- A refresh leaves nothing un-notified unless the queue is full, and one that began with
everything notified used publishes and notifies both commands. -/
structure Report.Ok (r : Report) : Prop where
  covered : r.unnotified = 0 ∨ virtqControlQsz ≤ r.outstanding
  both : r.caughtUp = true → r.trans = true ∧ r.flush = true ∧ r.unnotified = 0

/-- What holds of used.index, the notified index, avail.index and `last` at each point. -/
def PhaseOk (u n a last : UInt16) : Pc → Prop
  | .request _ _ | .post _ _ | .bump _ _ => a = last ∧ n = last ∧ u = last
  | .notify _ _ => a = last + 1 ∧ n = last ∧ u = last
  | .wait _ _ => a = last + 1 ∧ n = a ∧ (u = last ∨ u = a)
  | .populate => n = a ∧ u = a
  | .failed => True
  | .idle => Rest u n a
  | .test .trans r => Rest u n a ∧ (r.caughtUp = true → u = n)
  | .fill .trans _ r | .normPost .trans _ r | .normBump .trans r =>
    Rest u n a ∧ (r.caughtUp = true → u = n) ∧ Level u a ∧ (a - u).toNat ≤ 3 ∧ a ≠ 0xFFFF
  | .test .flush r =>
    Split u n a ∧ (n ≠ a → Level u a) ∧
      (r.caughtUp = true → u = n ∧ (a - n).toNat ≤ 3 ∧ a ≠ n ∧ r.trans = true)
  | .fill .flush _ r | .normPost .flush _ r | .normBump .flush r =>
    Split u n a ∧ (a - u).toNat ≤ 3 ∧ (r.caughtUp = true → r.trans = true)
  | .normNotify r => Split u n a ∧ r.flush = true ∧ (r.caughtUp = true → r.trans = true)
  | .returned r => Rest u n a ∧ Report.Ok r

def Inv (s : State) : Prop :=
  PhaseOk s.q.used.index s.notified s.q.avail.index s.q.last s.pc

/-- The transfer is not the entry that wraps avail.index, and the flush is refused only while
at most two entries wait for a notify. -/
def RefreshSafe (s : State) : Event → Prop
  | .driver =>
    match s.pc with
    | .test .trans _ => busy s.q = false → s.q.avail.index ≠ 0xFFFF
    | .test .flush _ => busy s.q = true → (s.q.avail.index - s.notified).toNat ≤ 2
    | _ => True
  | _ => True

instance (s : State) : ∀ e, Decidable (RefreshSafe s e)
  | .driver =>
    match h : s.pc with
    | .test .trans _ => decidable_of_iff (busy s.q = false → s.q.avail.index ≠ 0xFFFF)
        (by simp [RefreshSafe, h])
    | .test .flush _ => decidable_of_iff
        (busy s.q = true → (s.q.avail.index - s.notified).toNat ≤ 2) (by simp [RefreshSafe, h])
    | .request _ _ | .post _ _ | .bump _ _ | .notify _ _ | .wait _ _ | .populate | .failed | .idle
    | .fill _ _ _ | .normPost _ _ _ | .normBump _ _ | .normNotify _ | .returned _ =>
      isTrue (by simp [RefreshSafe, h])
  | .refresh | .consume _ => isTrue trivial

theorem inv_init {s : State} (h : Init edid s) : Inv s := by
  simp only [Inv, h.pc, PhaseOk]
  exact ⟨h.availIndex.trans h.last.symm, h.notified.trans h.last.symm,
    h.usedIndex.trans h.last.symm⟩

theorem consume_step {s t : State} {b : CtrlHdr} (h : Inv s) (ht : consume false s b = some t) :
    Inv t := by
  simp only [consume, Bool.false_eq_true, if_false] at ht
  obtain ⟨hne, ht⟩ := Option.ite_none_left_eq_some.mp ht
  obtain rfl := Option.some.inj ht
  simp only [Inv] at h ⊢
  cases hpc : s.pc with
  | request c rest | post c rest | bump c rest =>
    rw [hpc] at h
    exact absurd (h.2.2.trans h.2.1.symm) hne
  | notify c rest =>
    rw [hpc] at h
    exact absurd (h.2.2.trans h.2.1.symm) hne
  | wait c rest =>
    rw [hpc] at h
    rcases h with ⟨ha, hn, hu | hu⟩
    · exact ⟨ha, hn, Or.inr (by rw [hu, ha])⟩
    · exact absurd (hu.trans hn.symm) hne
  | populate =>
    rw [hpc] at h
    exact absurd (h.2.trans h.1.symm) hne
  | failed => trivial
  | idle =>
    rw [hpc] at h
    exact Rest.consume h hne
  | test k r =>
    rw [hpc] at h
    cases k with
    | trans => exact ⟨h.1.consume hne, fun hc => absurd (h.2 hc) hne⟩
    | flush =>
      exact ⟨h.1.consume hne, fun hn => (h.2.1 hn).consume h.1 hne,
        fun hc => absurd (h.2.2 hc).1 hne⟩
  | fill k head r | normPost k head r | normBump k r =>
    rw [hpc] at h
    cases k with
    | trans =>
      rcases h with ⟨hrest, hcaught, hlevel, hle, hwrap⟩
      have hlevel' := hlevel.consume hrest.split hne
      have hle' := (hrest.split.consume hne).le
      refine ⟨hrest.consume hne, fun hc => absurd (hcaught hc) hne, hlevel', ?_, hwrap⟩
      have hsum := hrest.split.sum
      have hpop := gap_pop hne
      have hsum' := (hrest.split.consume hne).sum
      omega
    | flush =>
      rcases h with ⟨hsplit, hle, hcaught⟩
      refine ⟨hsplit.consume hne, ?_, hcaught⟩
      have hsum := hsplit.sum
      have hpop := gap_pop hne
      have hsum' := (hsplit.consume hne).sum
      omega
  | normNotify r =>
    rw [hpc] at h
    exact ⟨h.1.consume hne, h.2⟩
  | returned r =>
    rw [hpc] at h
    exact ⟨h.1.consume hne, h.2⟩

theorem Rest.of_quiet (a : UInt16) : Rest a a a :=
  ⟨Split.caughtUp (by simp), by simp, fun h => absurd rfl h⟩

/-- With every notified entry used and few un-notified, the queue does not look full. -/
theorem Rest.not_busy {q : Virtq} {n : UInt16} (h : Rest q.used.index n q.avail.index)
    (hc : q.used.index = n) : busy q = false := by
  by_contra hb
  have hlevel : Level q.used.index q.avail.index := by
    by_cases hn : n = q.avail.index
    · rw [hc, hn]
      exact le_refl _
    · exact h.level hn
  have hfull := refused (by simpa using hb) hlevel
  have hfew := h.few
  rw [hc] at hfull
  omega

theorem test_step {s t : State} {k : Norm} {r : Report} (h : Inv s) (hpc : s.pc = .test k r)
    (hc : RefreshSafe s .driver) (ht : driverStep m s = some t) : Inv t := by
  simp only [Inv, hpc] at h
  simp only [RefreshSafe, hpc] at hc
  simp only [driverStep, hpc] at ht
  cases k with
  | trans =>
    rcases h with ⟨hrest, hcaught⟩
    by_cases hb : busy s.q = true
    · simp only [hb, if_true] at ht
      obtain rfl := Option.some.inj ht
      refine ⟨hrest.split, hrest.level, fun hr => ?_⟩
      rw [Rest.not_busy hrest (hcaught hr)] at hb
      simp at hb
    · simp only [hb] at ht
      obtain rfl := Option.some.inj ht
      rw [Bool.not_eq_true] at hb
      rcases accepted hb hrest.split.le with ⟨hlevel, hle⟩
      exact ⟨hrest, hcaught, hlevel, hle, hc hb⟩
  | flush =>
    rcases h with ⟨hsplit, hlevel, hcaught⟩
    by_cases hb : busy s.q = true
    · simp only [hb, if_true] at ht
      obtain rfl := Option.some.inj ht
      refine ⟨⟨hsplit, hc hb, hlevel⟩, ?_, fun hr => ?_⟩
      · by_cases hn : s.notified = s.q.avail.index
        · exact Or.inl (by simp [hn])
        · exact Or.inr (UInt16.le_iff_toNat_le.mpr (refused hb (hlevel hn)))
      · rcases hcaught hr with ⟨hun, hfew, hne, -⟩
        have hfull := refused hb (hlevel hne.symm)
        rw [hun] at hfull
        omega
    · simp only [hb] at ht
      obtain rfl := Option.some.inj ht
      rw [Bool.not_eq_true] at hb
      rcases accepted hb hsplit.le with ⟨-, hle⟩
      exact ⟨hsplit, hle, fun hr => (hcaught hr).2.2.2⟩

theorem bump_step {s t : State} {k : Norm} {r : Report} (h : Inv s) (hpc : s.pc = .normBump k r)
    (ht : driverStep m s = some t) : Inv t := by
  simp only [Inv, hpc] at h
  simp only [driverStep, hpc, Option.some.injEq] at ht
  subst ht
  cases k with
  | trans =>
    rcases h with ⟨hrest, hcaught, hlevel, hle, hwrap⟩
    refine ⟨hrest.split.publish hle, fun _ => hlevel.publish hwrap, fun hr => ?_⟩
    have hfew := hrest.few
    have hsucc := @gap_succ s.notified s.q.avail.index (by omega)
    have hne : s.q.avail.index + 1 ≠ s.notified := by
      intro hn
      rw [gap_eq_zero.mpr hn.symm] at hsucc
      omega
    refine ⟨hcaught hr, ?_, hne, rfl⟩
    simp only [State.setAvail]
    omega
  | flush =>
    rcases h with ⟨hsplit, hle, hcaught⟩
    exact ⟨hsplit.publish hle, rfl, hcaught⟩

theorem driver_step {s t : State} (h : Inv s) (hc : RefreshSafe s .driver)
    (ht : driverStep m s = some t) : Inv t := by
  cases hpc : s.pc with
  | request c rest | post c rest =>
    simp only [Inv, hpc] at h
    simp only [driverStep, hpc, Option.some.injEq] at ht
    subst ht
    exact h
  | bump c rest =>
    simp only [Inv, hpc] at h
    simp only [driverStep, hpc, Option.some.injEq] at ht
    subst ht
    exact ⟨congrArg (· + 1) h.1, h.2⟩
  | notify c rest =>
    simp only [Inv, hpc] at h
    simp only [driverStep, hpc, Option.some.injEq] at ht
    subst ht
    exact ⟨h.1, rfl, Or.inl h.2.2⟩
  | wait c rest =>
    simp only [Inv, hpc] at h
    obtain ⟨ha, hn, hu⟩ := h
    obtain ⟨hu, rfl⟩ := wait_cases hpc hu ht
    by_cases hf : (c.required && respFailed s.resp) = true
    · simp only [Inv, hf, if_true]
      trivial
    · cases rest with
      | nil =>
        simp only [Inv, hf]
        exact ⟨hn, hu⟩
      | cons c' rest =>
        simp only [Inv, hf]
        exact ⟨ha, hn.trans ha, hu.trans ha⟩
  | populate =>
    simp only [Inv, hpc] at h
    simp only [driverStep, hpc, Option.some.injEq] at ht
    subst ht
    rcases h with ⟨hn, hu⟩
    simp only [Inv, populateVirtQ, hn, hu]
    exact Rest.of_quiet _
  | failed | idle | returned r => simp [driverStep, hpc] at ht
  | test k r => exact test_step h hpc hc ht
  | fill k head r | normPost k head r =>
    simp only [Inv, hpc] at h
    simp only [driverStep, hpc, Option.some.injEq] at ht
    subst ht
    cases k <;> exact h
  | normBump k r => exact bump_step h hpc ht
  | normNotify r =>
    simp only [Inv, hpc] at h
    simp only [driverStep, hpc, Option.some.injEq] at ht
    subst ht
    rcases h with ⟨hsplit, hflush, hcaught⟩
    have hrest : Rest s.q.used.index s.q.avail.index s.q.avail.index :=
      ⟨hsplit.notify, by simp, fun hn => absurd rfl hn⟩
    have hzero : s.q.avail.index - s.q.avail.index = 0 :=
      UInt16.sub_self _
    exact ⟨hrest, Or.inl hzero, fun hr => ⟨hcaught hr, hflush, hzero⟩⟩

theorem refresh_step {s t : State} (h : Inv s) (ht : normOpsRefresh s = some t) : Inv t := by
  simp only [normOpsRefresh] at ht
  split at ht
  next hpc =>
    simp only [Inv, hpc] at h
    obtain rfl := Option.some.inj ht
    exact ⟨h, by simp⟩
  next r hpc =>
    simp only [Inv, hpc] at h
    obtain rfl := Option.some.inj ht
    exact ⟨h.1, by simp⟩
  next => simp at ht

theorem reachable_inv {s : State} (h : ReachableUnder (system m false edid) RefreshSafe s) :
    Inv s := by
  induction h with
  | init hi => exact inv_init hi
  | @step s e t _ hc ht ih =>
    cases e with
    | driver => exact driver_step ih hc ht
    | refresh => exact refresh_step ih ht
    | consume b => exact consume_step ih ht

/-- In every run whose refreshes are safe, no refresh leaves the queue wedged. -/
theorem refresh_reaches_device {s : State}
    (h : ReachableUnder (system m false edid) RefreshSafe s) {r : Report}
    (hpc : s.pc = .returned r) : Report.Ok r := by
  have hI := reachable_inv h
  simp only [Inv, hpc] at hI
  exact hI.2

/-- Nothing the device may still use, and no room in the eyes of the driver. -/
structure Wedged (s : State) : Prop where
  used : s.q.used.index = s.notified
  busy : busy s.q = true
  pc : s.pc = .idle ∨ (∃ k r, s.pc = .test k r) ∨ ∃ r, s.pc = .returned r

/-- A wedged queue stays wedged, with the same entries on it, whatever happens. -/
theorem wedged_step {s t : State} {e : Event} (h : Wedged s)
    (ht : next m false s e = some t) : Wedged t ∧ t.q = s.q := by
  rcases h with ⟨hused, hbusy, hpc⟩
  cases e with
  | driver =>
    simp only [next] at ht
    rcases hpc with hpc | ⟨k, r, hpc⟩ | ⟨r, hpc⟩
    · simp [driverStep, hpc] at ht
    · simp only [driverStep, hpc, hbusy, if_true] at ht
      cases k with
      | trans =>
        obtain rfl := Option.some.inj ht
        exact ⟨⟨hused, hbusy, Or.inr (Or.inl ⟨_, _, rfl⟩)⟩, rfl⟩
      | flush =>
        obtain rfl := Option.some.inj ht
        exact ⟨⟨hused, hbusy, Or.inr (Or.inr ⟨_, rfl⟩)⟩, rfl⟩
    · simp [driverStep, hpc] at ht
  | refresh =>
    simp only [next, normOpsRefresh] at ht
    split at ht
    · obtain rfl := Option.some.inj ht
      exact ⟨⟨hused, hbusy, Or.inr (Or.inl ⟨_, _, rfl⟩)⟩, rfl⟩
    · obtain rfl := Option.some.inj ht
      exact ⟨⟨hused, hbusy, Or.inr (Or.inl ⟨_, _, rfl⟩)⟩, rfl⟩
    · simp at ht
  | consume b => simp [next, consume, hused] at ht

/-- The transfer that wraps avail.index is the last command ever published, however few
entries are outstanding. -/
theorem wrap_wedges {s : State} {r : Report} (hu : s.q.used.index = 0xFFFF)
    (hn : s.notified = 0xFFFF) (ha : s.q.avail.index = 0) (hpc : s.pc = .test .flush r) :
    Wedged s := by
  refine ⟨hu.trans hn.symm, ?_, Or.inr (Or.inl ⟨_, _, hpc⟩)⟩
  simp only [busy, counterDistance, hu, ha]
  decide

def memory : Memory := ⟨fun _ => 4096, 8192, fun _ => 12288, 16384, 20480, 24576, 0⟩

def initRun (edid : Bool) : List Event :=
  (initCmds edid).flatMap (fun _ =>
    List.replicate 4 .driver ++ [.consume ⟨virtioGpuRespOkNodata, 0⟩, .driver]) ++ [.driver]

def fullFrame : List Event := .refresh :: List.replicate 9 .driver

/-- The device uses one entry, and the next refresh finds room for the transfer only. -/
def halfFrame : List Event :=
  .consume ⟨virtioGpuRespOkNodata, 0⟩ :: .refresh :: List.replicate 5 .driver

/-- A device that uses one entry for each frame: the entries that only a flush would notify
pile up until every outstanding one is un-notified. -/
def slowDevice : List Event :=
  initRun false ++ fullFrame ++ fullFrame ++ halfFrame ++ halfFrame ++ halfFrame ++ halfFrame

theorem refresh_wedges :
    ¬ ∀ s, Reachable (system memory false false) s →
      ∀ r, s.pc = .returned r → Report.Ok r := by
  intro h
  have hrun : ((system memory false false).run (zeroed false) slowDevice).map
      (fun s => match s.pc with
        | .returned r => r.caughtUp && !r.flush
        | _ => false) = some true := by decide +kernel
  rcases exists_reachable (init_zeroed false) hrun with ⟨s, hs, hp⟩
  split at hp
  next r hpc =>
    simp only [Bool.and_eq_true, Bool.not_eq_true'] at hp
    have hboth := (h s hs r hpc).both hp.1
    simp [hp.2] at hboth
  next => simp at hp

theorem refresh_reaches_device_fullFrame :
    ∃ s r, (system memory false true).run (zeroed true) (initRun true ++ fullFrame) = some s ∧
      s.pc = .returned r ∧ r.caughtUp = true ∧ Report.Ok r := by
  have hrun : ((system memory false true).run (zeroed true) (initRun true ++ fullFrame)).map
      State.pc = some (.returned ⟨true, true, true, 0, 2⟩) := by decide +kernel
  rcases Option.map_eq_some_iff.mp hrun with ⟨s, hs, hpc⟩
  have hsteps : StepsMeet (system memory false true) RefreshSafe (zeroed true)
      (initRun true ++ fullFrame) := by decide +kernel
  exact ⟨s, _, hs, hpc, rfl,
    refresh_reaches_device (.run (.init (init_zeroed true)) hsteps hs) hpc⟩

end VirtgpuRefresh
