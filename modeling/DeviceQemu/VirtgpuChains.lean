import DeviceQemu.VirtgpuRefresh

/-! Descriptor chains of virtgpu in flight.
A refresh command always takes the next of the two descriptor pairs, so a chain is reused as
soon as two younger entries exist, whatever the fullness test allows. -/
namespace VirtgpuChains

open StepSystem RingWindow LinkedWalk Virtmmio Virtgpu

variable {m : Memory} {edid : Bool}

def outstanding (q : Virtq) : List UInt16 := q.availFrom q.used.index

def writes (s : State) : List UInt16 :=
  match s.pc with
  | .request .resourceAttachBacking _ => [0, 1, 2]
  | .request _ _ => [0, 1]
  | .populate => [0, 1, 2, 3]
  | .fill _ head _ => [head]
  | _ => []

structure ChainsSafe (s : State) : Prop where
  heads : (outstanding s.q).Nodup
  writes : ∀ i ∈ writes s, ∀ head ∈ outstanding s.q, i ∉ s.q.chainOf head

/-- A refresh command is accepted only while at most one entry is outstanding. -/
def OneOutstanding (s : State) : Event → Prop
  | .driver =>
    match s.pc with
    | .test _ _ => busy s.q = false → (s.q.avail.index - s.q.used.index).toNat ≤ 1
    | _ => True
  | _ => True

structure Paired (desc : UInt16 → VirtqDesc) : Prop where
  head0 : (desc 0).hasNext = true ∧ (desc 0).next = 1
  tail0 : (desc 1).hasNext = false
  head2 : (desc 2).hasNext = true ∧ (desc 2).next = 3
  tail2 : (desc 3).hasNext = false

theorem Paired.chains {q : Virtq} (h : Paired q.desc) (hs : q.qsz = virtqControlQsz) :
    q.chainOf 0 = [0, 1] ∧ q.chainOf 2 = [2, 3] := by
  rcases h with ⟨⟨hn0, hx0⟩, ht0, ⟨hn2, hx2⟩, ht2⟩
  have h4 : q.qsz.toNat = 4 := by rw [hs]; rfl
  constructor
  · simp [Virtq.chainOf, h4, chain, hn0, hx0, ht0]
  · simp [Virtq.chainOf, h4, chain, hn2, hx2, ht2]

theorem paired_populateVirtQ (q : Virtq) : Paired (populateVirtQ m q).desc := by
  have hwrite : virtqDescFWrite &&& virtqDescFNext = 0 := by decide
  constructor
  · simp [populateVirtQ, Function.update, VirtqDesc.hasNext, virtqDescFNext]
  · simp [populateVirtQ, Function.update, VirtqDesc.hasNext, hwrite]
  · simp [populateVirtQ, Function.update, VirtqDesc.hasNext, virtqDescFNext]
  · simp [populateVirtQ, Function.update, VirtqDesc.hasNext, hwrite]

theorem Paired.fill {desc : UInt16 → VirtqDesc} (h : Paired desc) (head : UInt16)
    (pAddr : UInt64) (len : UInt32) :
    Paired (Function.update desc head { desc head with pAddr, len }) := by
  have hflag : ∀ i, (Function.update desc head { desc head with pAddr, len } i).hasNext =
      (desc i).hasNext := by
    intro i
    by_cases hi : i = head
    · subst i; simp [VirtqDesc.hasNext]
    · simp [hi]
  have hnext : ∀ i, (Function.update desc head { desc head with pAddr, len } i).next =
      (desc i).next := by
    intro i
    by_cases hi : i = head
    · subst i; simp
    · simp [hi]
  rcases h with ⟨⟨hn0, hx0⟩, ht0, ⟨hn2, hx2⟩, ht2⟩
  exact ⟨⟨(hflag 0).trans hn0, (hnext 0).trans hx0⟩, (hflag 1).trans ht0,
    ⟨(hflag 2).trans hn2, (hnext 2).trans hx2⟩, (hflag 3).trans ht2⟩

theorem slot_control (c : UInt16) : (slot virtqControlQsz c).toNat = c.toNat % 4 := by
  simp [slot, virtqControlQsz]

theorem slot_turn {c : UInt16} (h : c.toNat % 2 = 0) :
    (slot virtqControlQsz c = 0 ∧ slot virtqControlQsz (c - 2) = 2) ∨
      (slot virtqControlQsz c = 2 ∧ slot virtqControlQsz (c - 2) = 0) := by
  have hlt := c.toNat_lt
  have hc := slot_control c
  have hp := slot_control (c - 2)
  rw [toNat_gap, show (2 : UInt16).toNat = 2 from rfl] at hp
  simp only [← UInt16.toNat_inj, show (2 : UInt16).toNat = 2 from rfl,
    show (0 : UInt16).toNat = 0 from rfl]
  omega

theorem slot_back (c : UInt16) : slot virtqControlQsz (c - 4) = slot virtqControlQsz c := by
  have hlt := c.toNat_lt
  have hc := slot_control c
  have hp := slot_control (c - 4)
  rw [toNat_gap, show (4 : UInt16).toNat = 4 from rfl] at hp
  rw [← UInt16.toNat_inj]
  omega

/-- The heads of the last one or two commands before `pub`, oldest first. -/
inductive Recent (pub : UInt16) : List UInt16 → Prop where
  | none : Recent pub []
  | one : Recent pub [slot virtqControlQsz (pub - 2)]
  | two : Recent pub [slot virtqControlQsz (pub - 4), slot virtqControlQsz (pub - 2)]

theorem Recent.tail {pub x : UInt16} {w : List UInt16} (h : Recent pub (x :: w)) :
    Recent pub w := by
  cases h with
  | one => exact .none
  | two => exact .one

theorem Recent.push {pub : UInt16} {w : List UInt16} (h : Recent pub w) (hl : w.length ≤ 1) :
    Recent (pub + 2) (w ++ [slot virtqControlQsz pub]) := by
  have h2 : pub + 2 - 2 = pub := UInt16.add_sub_cancel _ _
  have h4 : pub + 2 - 4 = pub - 2 := by
    rw [← UInt16.toNat_inj, toNat_gap, toNat_gap, UInt16.toNat_add]
    simp only [show (2 : UInt16).toNat = 2 from rfl, show (4 : UInt16).toNat = 4 from rfl]
    have := pub.toNat_lt
    omega
  cases h with
  | none => simpa [h2] using @Recent.one (pub + 2)
  | one => simpa [h2, h4] using @Recent.two (pub + 2)
  | two => simp at hl

theorem Recent.nodup {pub : UInt16} {w : List UInt16} (h : Recent pub w)
    (he : pub.toNat % 2 = 0) : w.Nodup := by
  cases h with
  | none => simp
  | one => simp
  | two =>
    rw [slot_back]
    rcases slot_turn he with ⟨h1, h2⟩ | ⟨h1, h2⟩ <;> rw [h1, h2] <;> decide

/-- Normal operation: `pub` is the value of `last` up to which commands are published. -/
structure Normal (q : Virtq) (pub : UInt16) : Prop where
  paired : Paired q.desc
  recent : Recent pub (outstanding q)
  even : pub.toNat % 2 = 0

def PhaseOk (s : State) : Pc → Prop
  | .request _ _ | .post _ _ | .bump _ _ =>
    s.q.avail.index = s.q.last ∧ s.q.used.index = s.q.last
  | .notify _ _ | .wait _ _ =>
    s.q.avail.index = s.q.last + 1 ∧
      (s.q.used.index = s.q.last ∨ s.q.used.index = s.q.avail.index)
  | .populate => s.q.used.index = s.q.avail.index
  | .failed => outstanding s.q = []
  | .idle | .test _ _ | .normNotify _ | .returned _ => Normal s.q s.q.last
  | .fill _ head _ =>
    Normal s.q s.q.last ∧ head = slot virtqControlQsz s.q.last ∧ (outstanding s.q).length ≤ 1
  | .normPost _ head _ =>
    Normal s.q (s.q.last - 2) ∧ head = slot virtqControlQsz (s.q.last - 2) ∧
      (outstanding s.q).length ≤ 1
  | .normBump _ _ =>
    Normal s.q (s.q.last - 2) ∧
      s.q.avail.ring (slot virtqControlQsz s.q.avail.index) =
        slot virtqControlQsz (s.q.last - 2) ∧
      (outstanding s.q).length ≤ 1

structure Inv (s : State) : Prop where
  size : s.q.qsz = virtqControlQsz
  phase : PhaseOk s s.pc

theorem outstanding_length (q : Virtq) :
    (outstanding q).length = (q.avail.index - q.used.index).toNat := by
  simp [outstanding, Virtq.availFrom]

theorem outstanding_quiet {q : Virtq} (h : q.used.index = q.avail.index) :
    outstanding q = [] := by
  simp [outstanding, Virtq.availFrom, h]

theorem nodup_single {l : List UInt16} (h : l.length ≤ 1) : l.Nodup := by
  cases l with
  | nil => exact List.nodup_nil
  | cons a l =>
    have hnil : l = [] := by simpa using h
    subst l
    exact List.nodup_singleton a

theorem outstanding_single {q : Virtq} (ha : q.avail.index = q.last + 1)
    (hu : q.used.index = q.last ∨ q.used.index = q.avail.index) :
    (outstanding q).length ≤ 1 := by
  rw [outstanding_length]
  rcases hu with hu | hu
  · rw [hu, ha, @gap_succ q.last q.last (by simp)]
    simp
  · simp [hu]

theorem Recent.head_not_mem {q : Virtq} {pub : UInt16} {w : List UInt16} (hr : Recent pub w)
    (hp : Paired q.desc) (hs : q.qsz = virtqControlQsz) (he : pub.toNat % 2 = 0)
    (hl : w.length ≤ 1) : ∀ head ∈ w, slot virtqControlQsz pub ∉ q.chainOf head := by
  cases hr with
  | none => simp
  | two => simp at hl
  | one =>
    rcases hp.chains hs with ⟨h0, h2⟩
    intro head hhead
    rw [List.mem_singleton.mp hhead]
    rcases slot_turn he with ⟨hc, hb⟩ | ⟨hc, hb⟩
    · rw [hc, hb, h2]
      decide
    · rw [hc, hb, h0]
      decide

theorem inv_safe {s : State} (h : Inv s) : ChainsSafe s := by
  rcases h with ⟨hsize, hphase⟩
  cases hpc : s.pc with
  | request c rest | post c rest | bump c rest =>
    rw [hpc] at hphase
    have hnone := outstanding_quiet (hphase.2.trans hphase.1.symm)
    exact ⟨by simp [hnone], by simp [hnone]⟩
  | notify c rest | wait c rest =>
    rw [hpc] at hphase
    exact ⟨nodup_single (outstanding_single hphase.1 hphase.2), by simp [writes, hpc]⟩
  | populate =>
    rw [hpc] at hphase
    have hnone := outstanding_quiet hphase
    exact ⟨by simp [hnone], by simp [hnone]⟩
  | failed =>
    rw [hpc] at hphase
    exact ⟨by simp [show outstanding s.q = [] from hphase], by simp [writes, hpc]⟩
  | idle | test k r | normNotify r | returned r =>
    rw [hpc] at hphase
    exact ⟨hphase.recent.nodup hphase.even, by simp [writes, hpc]⟩
  | fill k head r =>
    rw [hpc] at hphase
    rcases hphase with ⟨hn, rfl, hlen⟩
    refine ⟨hn.recent.nodup hn.even, ?_⟩
    simp only [writes, hpc, List.mem_singleton, forall_eq]
    exact hn.recent.head_not_mem hn.paired hsize hn.even hlen
  | normPost k head r | normBump k r =>
    rw [hpc] at hphase
    exact ⟨hphase.1.recent.nodup hphase.1.even, by simp [writes, hpc]⟩

theorem powTwo_control : PowTwo virtqControlQsz := ⟨2, rfl⟩

theorem inv_init {s : State} (h : Init edid s) : Inv s := by
  refine ⟨h.size, ?_⟩
  rw [h.pc]
  exact ⟨h.availIndex.trans h.last.symm, h.usedIndex.trans h.last.symm⟩

theorem consume_tail {s t : State} {b : CtrlHdr} (ht : consume true s b = some t) :
    s.q.used.index ≠ s.q.avail.index ∧ ∃ head, outstanding s.q = head :: outstanding t.q := by
  simp only [consume, if_true] at ht
  obtain ⟨hne, ht⟩ := Option.ite_none_left_eq_some.mp ht
  obtain rfl := Option.some.inj ht
  exact ⟨hne, _, window_pop hne⟩

theorem Normal.consume {q q' : Virtq} {pub head : UInt16} (h : Normal q pub)
    (hd : q'.desc = q.desc) (hout : outstanding q = head :: outstanding q') : Normal q' pub := by
  have hrecent := h.recent
  rw [hout] at hrecent
  exact ⟨hd ▸ h.paired, hrecent.tail, h.even⟩

theorem consume_step {s t : State} {b : CtrlHdr} (h : Inv s) (ht : consume true s b = some t) :
    Inv t := by
  rcases consume_tail ht with ⟨hne, head, hout⟩
  have hlen : ∀ {n}, (outstanding s.q).length ≤ n → (outstanding t.q).length ≤ n := by
    intro n hn
    rw [hout, List.length_cons] at hn
    omega
  rcases h with ⟨hsize, hphase⟩
  simp only [consume, if_true] at ht
  rw [if_neg hne] at ht
  obtain rfl := Option.some.inj ht
  refine ⟨hsize, ?_⟩
  cases hpc : s.pc with
  | request c rest | post c rest | bump c rest =>
    rw [hpc] at hphase
    exact absurd (hphase.2.trans hphase.1.symm) hne
  | notify c rest | wait c rest =>
    rw [hpc] at hphase
    rcases hphase with ⟨ha, hu | hu⟩
    · exact ⟨ha, Or.inr (by simp [hu, ha])⟩
    · exact absurd hu hne
  | populate =>
    rw [hpc] at hphase
    exact absurd hphase hne
  | failed =>
    rw [hpc] at hphase
    rw [show outstanding s.q = [] from hphase] at hout
    simp at hout
  | idle | test k r | normNotify r | returned r =>
    rw [hpc] at hphase
    exact Normal.consume hphase rfl hout
  | fill k head r | normPost k head r | normBump k r =>
    rw [hpc] at hphase
    exact ⟨hphase.1.consume rfl hout, hphase.2.1, hlen hphase.2.2⟩

theorem outstanding_post {s : State} (hsize : s.q.qsz = virtqControlQsz)
    (hlen : (outstanding s.q).length ≤ 1) (head : UInt16) :
    outstanding (s.setAvail { s.q.avail with
      ring := Function.update s.q.avail.ring (slot s.q.qsz s.q.avail.index) head }).q
        = outstanding s.q := by
  have hgap : (s.q.avail.index - s.q.used.index).toNat + 0 < s.q.qsz.toNat := by
    rw [outstanding_length] at hlen
    rw [hsize, show virtqControlQsz.toNat = 4 from rfl]
    omega
  have hupd := @window_update _ _ (hsize ▸ powTwo_control) s.q.avail.ring _ _ _ hgap head
  simpa [outstanding, Virtq.availFrom, State.setAvail] using hupd

theorem normal_bump {s : State} (hsize : s.q.qsz = virtqControlQsz) (hn : Normal s.q (s.q.last - 2))
    (hring : s.q.avail.ring (slot virtqControlQsz s.q.avail.index)
      = slot virtqControlQsz (s.q.last - 2)) (hlen : (outstanding s.q).length ≤ 1) :
    Normal (s.setAvail { s.q.avail with index := s.q.avail.index + 1 }).q s.q.last := by
  have hgap : (s.q.avail.index - s.q.used.index).toNat < 65535 := by
    rw [outstanding_length] at hlen
    omega
  have hlast : s.q.last - 2 + 2 = s.q.last := UInt16.sub_add_cancel _ _
  have hpush := hn.recent.push hlen
  rw [hlast, ← hring, ← hsize] at hpush
  refine ⟨hn.paired, ?_, ?_⟩
  · simp only [outstanding, Virtq.availFrom, State.setAvail] at hpush ⊢
    rwa [window_bump hgap]
  · have heven := hn.even
    rw [toNat_gap, show (2 : UInt16).toNat = 2 from rfl] at heven
    omega

theorem driver_step {s t : State} (h : Inv s) (hc : OneOutstanding s .driver)
    (ht : driverStep m s = some t) : Inv t := by
  rcases h with ⟨hsize, hphase⟩
  cases hpc : s.pc with
  | request c rest | post c rest =>
    rw [hpc] at hphase
    simp only [driverStep, hpc, Option.some.injEq] at ht
    subst ht
    exact ⟨hsize, hphase⟩
  | bump c rest =>
    rw [hpc] at hphase
    simp only [driverStep, hpc, Option.some.injEq] at ht
    subst ht
    exact ⟨hsize, congrArg (· + 1) hphase.1, Or.inl hphase.2⟩
  | notify c rest =>
    rw [hpc] at hphase
    simp only [driverStep, hpc, Option.some.injEq] at ht
    subst ht
    exact ⟨hsize, hphase⟩
  | wait c rest =>
    rw [hpc] at hphase
    obtain ⟨ha, hu⟩ := hphase
    obtain ⟨hu, rfl⟩ := wait_cases hpc hu ht
    refine ⟨hsize, ?_⟩
    by_cases hf : (c.required && respFailed s.resp) = true
    · simp only [hf, if_true]
      exact outstanding_quiet hu
    · simp only [hf]
      cases rest with
      | nil => exact hu
      | cons c' rest => exact ⟨ha, hu.trans ha⟩
  | populate =>
    rw [hpc] at hphase
    simp only [driverStep, hpc, Option.some.injEq] at ht
    subst ht
    refine ⟨hsize, paired_populateVirtQ s.q, ?_, rfl⟩
    rw [outstanding_quiet (by exact hphase)]
    exact .none
  | failed | idle | returned r => simp [driverStep, hpc] at ht
  | test k r =>
    rw [hpc] at hphase
    simp only [OneOutstanding, hpc] at hc
    simp only [driverStep, hpc] at ht
    by_cases hb : busy s.q = true
    · simp only [hb, if_true] at ht
      cases k with
      | trans | flush =>
        obtain rfl := Option.some.inj ht
        exact ⟨hsize, hphase⟩
    · simp only [hb] at ht
      obtain rfl := Option.some.inj ht
      refine ⟨hsize, hphase, by rw [← hsize], ?_⟩
      have hle := hc (by simpa using hb)
      rwa [← outstanding_length] at hle
  | fill k head r =>
    rw [hpc] at hphase
    simp only [driverStep, hpc, Option.some.injEq] at ht
    subst ht
    rcases hphase with ⟨hn, hhead, hlen⟩
    have hback : s.q.last + normalCmdEntries - 2 = s.q.last := UInt16.add_sub_cancel _ _
    refine ⟨hsize, ⟨hn.paired.fill _ _ _, ?_, ?_⟩, ?_, hlen⟩
    · rw [hback]
      exact hn.recent
    · rw [hback]
      exact hn.even
    · rw [hback]
      exact hhead
  | normPost k head r =>
    rw [hpc] at hphase
    simp only [driverStep, hpc, Option.some.injEq] at ht
    subst ht
    rcases hphase with ⟨hn, rfl, hlen⟩
    have hkeep := outstanding_post hsize hlen (slot virtqControlQsz (s.q.last - 2))
    refine ⟨hsize, ⟨hn.paired, ?_, hn.even⟩, ?_, ?_⟩
    · rw [hkeep]
      exact hn.recent
    · rw [← hsize]
      exact Function.update_self ..
    · rw [hkeep]
      exact hlen
  | normBump k r =>
    rw [hpc] at hphase
    simp only [driverStep, hpc, Option.some.injEq] at ht
    subst ht
    rcases hphase with ⟨hn, hring, hlen⟩
    have hnormal := normal_bump hsize hn hring hlen
    cases k <;> exact ⟨hsize, hnormal⟩
  | normNotify r =>
    rw [hpc] at hphase
    simp only [driverStep, hpc, Option.some.injEq] at ht
    subst ht
    exact ⟨hsize, hphase⟩

theorem refresh_step {s t : State} (h : Inv s) (ht : normOpsRefresh s = some t) : Inv t := by
  rcases h with ⟨hsize, hphase⟩
  simp only [normOpsRefresh] at ht
  split at ht
  next hpc =>
    rw [hpc] at hphase
    obtain rfl := Option.some.inj ht
    exact ⟨hsize, hphase⟩
  next r hpc =>
    rw [hpc] at hphase
    obtain rfl := Option.some.inj ht
    exact ⟨hsize, hphase⟩
  next => simp at ht

/-- A command accepted while both pairs are outstanding is about to write one of them. -/
theorem accepted_overwrites {s t : State} {k : Norm} {r : Report} (h : Inv s)
    (hpc : s.pc = .test k r) (hb : busy s.q = false)
    (hlen : ¬ (s.q.avail.index - s.q.used.index).toNat ≤ 1) (ht : driverStep m s = some t) :
    ¬ ChainsSafe t := by
  rcases h with ⟨hsize, hphase⟩
  rw [hpc] at hphase
  simp only [driverStep, hpc, hb] at ht
  obtain rfl := Option.some.inj ht
  intro hsafe
  have hrecent := hphase.recent
  rw [← outstanding_length] at hlen
  generalize hw : outstanding s.q = w at hrecent hlen
  cases hrecent with
  | none => simp at hlen
  | one => simp at hlen
  | two =>
    have hmem : slot virtqControlQsz s.q.last ∈ outstanding s.q := by
      rw [hw, slot_back]
      simp
    apply hsafe.writes (slot s.q.qsz s.q.last) (by simp [writes]) _ hmem
    rw [hsize, Virtq.chainOf, hsize]
    exact List.mem_cons_self ..

/-- Outstanding chains stay distinct and untouched in exactly the runs that accept a refresh
command only while at most one entry is outstanding. -/
theorem chains_safe_iff {s : State} (h : Init edid s) (es : List Event) :
    StatesMeet (system m true edid) ChainsSafe s es ↔
      StepsMeet (system m true edid) OneOutstanding s es := by
  refine statesMeet_iff_stepsMeet (I := Inv) (fun _ => inv_safe) ?_ ?_ (inv_init h) es
  · intro s e t hI hc ht
    cases e with
    | driver => exact driver_step hI hc ht
    | refresh => exact refresh_step hI ht
    | consume b => exact consume_step hI ht
  · intro s e t hI hc ht
    cases e with
    | driver =>
      simp only [OneOutstanding] at hc
      split at hc
      next k r hpc =>
        simp only [Classical.not_imp] at hc
        exact accepted_overwrites hI hpc hc.1 hc.2 ht
      next => exact absurd trivial hc
    | refresh => exact absurd trivial hc
    | consume b => exact absurd trivial hc

def stalled : List Event :=
  VirtgpuRefresh.initRun false ++ VirtgpuRefresh.fullFrame ++ VirtgpuRefresh.fullFrame

theorem chains_republished :
    ¬ ∀ s, Reachable (system VirtgpuRefresh.memory true false) s → ChainsSafe s := by
  intro h
  have hrun : ((system VirtgpuRefresh.memory true false).run (zeroed false) stalled).map
      (fun s => decide (outstanding s.q = [0, 2, 0, 2])) = some true := by decide +kernel
  rcases exists_reachable (init_zeroed false) hrun with ⟨s, hs, hp⟩
  have hnodup := (h s hs).heads
  rw [of_decide_eq_true hp] at hnodup
  simp at hnodup

theorem chains_safe_iff_stalled :
    StatesMeet (system VirtgpuRefresh.memory true false) ChainsSafe (zeroed false) stalled ↔
      StepsMeet (system VirtgpuRefresh.memory true false) OneOutstanding (zeroed false) stalled :=
  chains_safe_iff (init_zeroed false) stalled

end VirtgpuChains
