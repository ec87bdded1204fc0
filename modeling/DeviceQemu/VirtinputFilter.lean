import DeviceQemu.StreamFilter
import DeviceQemu.Virtinput

/-! What VirtinGrabbed filters.
A release of the left button without a press before it should go, and with it the synchronisation
that ends its report. VirtinGrabbed remembers only the last button event, and takes whatever event
comes after such a release for the synchronisation. -/
namespace VirtinputFilter

open StepSystem StreamFilter Virtinput

def evSyn : UInt16 := 0
def synReport : UInt16 := 0

inductive Kind where
  | press
  | release
  | otherValue
  | syn
  | other
  deriving DecidableEq, Repr

def kind (ev : VirtinEvent) : Kind :=
  if ev.type = evKey ∧ ev.code = btnLeft then
    if ev.value = 1 then .press else if ev.value = 0 then .release else .otherValue
  else if ev.type = evSyn ∧ ev.code = synReport then .syn
  else .other

/-- The presses that no release has matched, and whether the report has lost a release. -/
structure Expected where
  unmatched : ℕ
  owed : Bool
  deriving DecidableEq, Repr

def expected (counted : Bool) (s : Expected) (ev : VirtinEvent) : Expected × Bool :=
  match kind ev with
  | .press => ({ s with unmatched := if counted then s.unmatched + 1 else 1 }, true)
  | .release =>
    if s.unmatched = 0 then ({ s with owed := true }, false)
    else ({ s with unmatched := s.unmatched - 1 }, true)
  | .syn => ({ s with owed := false }, !s.owed)
  | .otherValue | .other => (s, true)

/-- The expected filter's state, whether the last event of the button is a press, and whether the
event directly before is a release without a press. -/
structure Seen extends Expected where
  pressed : Bool
  released : Bool
  deriving DecidableEq, Repr

def Seen.next (counted : Bool) (s : Seen) (ev : VirtinEvent) : Seen where
  toExpected := (expected counted s.toExpected ev).1
  pressed := match kind ev with
    | .press => true
    | .release | .otherValue => false
    | .syn | .other => s.pressed
  released := kind ev = .release ∧ s.unmatched = 0

/-- A release that has a press follows it with no button event between; other values of the button
come only after a press, and other events not directly after a release without one; a synchronisation
that is to go does. -/
def Clear (s : Seen) (ev : VirtinEvent) : Prop :=
  match kind ev with
  | .press => True
  | .release => s.unmatched ≠ 0 → s.pressed = true
  | .otherValue => s.pressed = true
  | .syn => s.owed = true → s.released = true
  | .other => s.released = false

def AllClear (counted : Bool) (s : Seen) : List VirtinEvent → Prop
  | [] => True
  | ev :: evs => Clear s ev ∧ AllClear counted (s.next counted ev) evs

def start : Seen := ⟨⟨0, false⟩, false, false⟩

section Kinds

variable {c : PrecedeDown} {ev : VirtinEvent}

theorem grabbed_press (h : kind ev = .press) : virtinGrabbed c ev = (.yes, true) := by
  unfold kind at h
  unfold virtinGrabbed
  by_cases hbutton : ev.type = evKey ∧ ev.code = btnLeft
  · rw [if_pos hbutton] at h ⊢
    by_cases hone : ev.value = 1
    · rw [if_pos hone]
    · rw [if_neg hone] at h
      split_ifs at h
  · rw [if_neg hbutton] at h
    split_ifs at h

theorem grabbed_button (h : kind ev = .release ∨ kind ev = .otherValue) :
    virtinGrabbed c ev = if c = .yes then (.no, true) else (.syn, false) := by
  unfold kind at h
  unfold virtinGrabbed
  by_cases hbutton : ev.type = evKey ∧ ev.code = btnLeft
  · rw [if_pos hbutton] at h ⊢
    have hvalue : ¬ ev.value = 1 := by
      intro hone
      rw [if_pos hone] at h
      simp at h
    rw [if_neg hvalue]
  · rw [if_neg hbutton] at h
    split_ifs at h <;> simp at h

theorem grabbed_rest (h : kind ev = .syn ∨ kind ev = .other) :
    virtinGrabbed c ev = if c = .syn then (.no, false) else (c, true) := by
  unfold kind at h
  unfold virtinGrabbed
  by_cases hbutton : ev.type = evKey ∧ ev.code = btnLeft
  · rw [if_pos hbutton] at h
    split_ifs at h <;> simp at h
  · rw [if_neg hbutton]

end Kinds

section Expected

variable {counted : Bool} {s : Expected} {ev : VirtinEvent}

theorem expected_press (h : kind ev = .press) :
    expected counted s ev = ({ s with unmatched := if counted then s.unmatched + 1 else 1 }, true) := by
  unfold expected
  rw [h]

theorem expected_release (h : kind ev = .release) : expected counted s ev =
    if s.unmatched = 0 then ({ s with owed := true }, false)
    else ({ s with unmatched := s.unmatched - 1 }, true) := by
  unfold expected
  rw [h]

theorem expected_syn (h : kind ev = .syn) :
    expected counted s ev = ({ s with owed := false }, !s.owed) := by
  unfold expected
  rw [h]

theorem expected_rest (h : kind ev = .otherValue ∨ kind ev = .other) :
    expected counted s ev = (s, true) := by
  unfold expected
  rcases h with h | h <;> rw [h]

theorem unmatched_press (counted : Bool) (n : ℕ) : (if counted then n + 1 else 1) ≠ 0 := by
  split <;> omega

end Expected

structure Flag (c : PrecedeDown) (s : Seen) : Prop where
  yes : s.pressed = true ↔ c = .yes
  syn : s.released = true ↔ c = .syn
  unmatched : s.pressed = true → s.unmatched ≠ 0
  owed : s.released = true → s.owed = true

theorem flag_start : Flag .no start := by
  constructor <;> simp [start]

section Step

variable {counted : Bool} {c : PrecedeDown} {s : Seen} {ev : VirtinEvent}

/-- The filters decide alike on an event exactly when the stream is clear there. -/
theorem Flag.agree_iff (h : Flag c s) :
    (expected counted s.toExpected ev).2 = (virtinGrabbed c ev).2 ↔ Clear s ev := by
  unfold Clear
  cases hk : kind ev with
  | press => simp [expected_press hk, grabbed_press hk]
  | release =>
    rw [expected_release hk, grabbed_button (.inl hk)]
    have hyes := h.yes
    have hun := h.unmatched
    by_cases hzero : s.unmatched = 0 <;> by_cases hc : c = .yes <;> simp_all
  | otherValue =>
    rw [expected_rest (.inl hk), grabbed_button (.inr hk), h.yes]
    by_cases hc : c = .yes <;> simp [hc]
  | syn =>
    rw [expected_syn hk, grabbed_rest (.inl hk), h.syn]
    have howed := h.owed
    rw [h.syn] at howed
    by_cases hc : c = .syn
    · simp [hc, howed hc]
    · simp [hc]
  | other =>
    rw [expected_rest (.inr hk), grabbed_rest (.inr hk), ← Bool.not_eq_true, h.syn]
    by_cases hc : c = .syn <;> simp [hc]

theorem Flag.next (h : Flag c s) (hclear : Clear s ev) :
    Flag (virtinGrabbed c ev).1 (s.next counted ev) := by
  have hyes := h.yes
  have hsyn := h.syn
  have hun := h.unmatched
  have howed := h.owed
  unfold Clear at hclear
  cases hk : kind ev with
  | press =>
    rw [grabbed_press hk]
    constructor <;> simp [Seen.next, hk, expected_press hk, unmatched_press]
  | release =>
    rw [grabbed_button (.inl hk)]
    simp only [hk] at hclear
    by_cases hzero : s.unmatched = 0
    · have hnot : c ≠ .yes := fun hc => hun (hyes.mpr hc) hzero
      constructor <;> simp [Seen.next, hk, expected_release hk, hzero, hnot]
    · have hc : c = .yes := hyes.mp (hclear hzero)
      constructor <;> simp [Seen.next, hk, hzero, hc]
  | otherValue =>
    rw [grabbed_button (.inr hk)]
    simp only [hk] at hclear
    constructor <;> simp [Seen.next, hk, hyes.mp hclear]
  | syn =>
    rw [grabbed_rest (.inl hk)]
    by_cases hc : c = .syn
    · constructor <;> simp_all [Seen.next, expected_syn hk]
    · constructor <;> simp_all [Seen.next, expected_syn hk]
  | other =>
    rw [grabbed_rest (.inr hk)]
    simp only [hk] at hclear
    have hc : c ≠ .syn := fun hc => by simp [hsyn.mpr hc] at hclear
    constructor <;> simp_all [Seen.next, expected_rest (.inr hk)]

end Step

theorem agree_iff_allClear {counted : Bool} {c : PrecedeDown} {s : Seen} (h : Flag c s)
    (evs : List VirtinEvent) :
    Agree (expected counted) virtinGrabbed s.toExpected c evs ↔ AllClear counted s evs := by
  induction evs generalizing c s with
  | nil => exact Iff.rfl
  | cons ev evs ih =>
    unfold Agree AllClear
    rw [h.agree_iff]
    exact and_congr_right fun hclear => ih (h.next hclear)

/-- What the flag knows at any place where the filters have decided alike. -/
def Related (s : Expected) (c : PrecedeDown) : Prop :=
  (c = .yes → s.unmatched ≠ 0) ∧ (c = .syn → s.owed = true ∧ s.unmatched = 0)

/-- The code has dropped the queue. It holds a button event or no synchronisation, so that the
code, keeping only what is neither while its flag is not yes, takes nothing that empties it. -/
def Dropped (s : Expected) (c : PrecedeDown) (queue : List VirtinEvent) : Prop :=
  c ≠ .yes ∧ (∀ ev ∈ queue, kind ev ≠ .press) ∧
    ((∃ ev ∈ queue, kind ev = .release ∨ kind ev = .otherValue) ∨
      queue ≠ [] ∧ (∀ ev ∈ queue, kind ev ≠ .syn) ∧ (c = .syn → s.owed = true))

def Kept (c : PrecedeDown) (s : Expected) (queue : List VirtinEvent) : Prop :=
  queue ≠ [] ∧ (∀ ev ∈ queue, kind ev = .syn) ∧ (c = .syn → s.owed = true) ∧
    (c = .yes → s.unmatched ≠ 0)

section Differences

variable {counted : Bool} {s : Expected} {c : PrecedeDown} {ev : VirtinEvent}

theorem Related.next (h : Related s c)
    (hsame : (expected counted s ev).2 = (virtinGrabbed c ev).2) :
    Related (expected counted s ev).1 (virtinGrabbed c ev).1 := by
  unfold Related at h ⊢
  cases hk : kind ev with
  | press =>
    rw [expected_press hk, grabbed_press hk]
    simp [unmatched_press]
  | release =>
    rw [expected_release hk, grabbed_button (.inl hk)] at hsame ⊢
    by_cases hzero : s.unmatched = 0 <;> by_cases hc : c = .yes <;> simp_all
  | otherValue =>
    rw [expected_rest (.inl hk), grabbed_button (.inr hk)] at hsame ⊢
    by_cases hc : c = .yes <;> simp_all
  | syn =>
    rw [expected_syn hk, grabbed_rest (.inl hk)] at hsame ⊢
    by_cases hc : c = .syn <;> simp_all
  | other =>
    rw [expected_rest (.inr hk), grabbed_rest (.inr hk)] at hsame ⊢
    by_cases hc : c = .syn <;> simp_all

theorem Related.first (h : Related s c) (hf : (expected counted s ev).2 = true)
    (hg : (virtinGrabbed c ev).2 = false) :
    Dropped (expected counted s ev).1 (virtinGrabbed c ev).1 [ev] := by
  unfold Related at h
  unfold Dropped
  cases hk : kind ev with
  | press => simp [grabbed_press hk] at hg
  | release =>
    rw [grabbed_button (.inl hk)] at hg ⊢
    by_cases hc : c = .yes <;> simp_all
  | otherValue =>
    rw [grabbed_button (.inr hk)] at hg ⊢
    by_cases hc : c = .yes <;> simp_all
  | syn =>
    rw [expected_syn hk] at hf
    rw [grabbed_rest (.inl hk)] at hg
    by_cases hc : c = .syn <;> simp_all
  | other =>
    rw [grabbed_rest (.inr hk)] at hg ⊢
    by_cases hc : c = .syn <;> simp_all

theorem Related.second (h : Related s c) (hf : (expected counted s ev).2 = false)
    (hg : (virtinGrabbed c ev).2 = true) :
    Kept (virtinGrabbed c ev).1 (expected counted s ev).1 [ev] := by
  unfold Related at h
  unfold Kept
  cases hk : kind ev with
  | press => simp [expected_press hk] at hf
  | release =>
    rw [expected_release hk] at hf
    rw [grabbed_button (.inl hk)] at hg
    by_cases hzero : s.unmatched = 0 <;> by_cases hc : c = .yes <;> simp_all
  | otherValue => simp [expected_rest (.inl hk)] at hf
  | syn =>
    rw [expected_syn hk]
    rw [grabbed_rest (.inl hk)] at hg ⊢
    by_cases hc : c = .syn <;> simp_all
  | other => simp [expected_rest (.inr hk)] at hf

theorem ahead_expected_syn {queue : List VirtinEvent} (hk : kind ev = .syn) (h : s.owed = true) :
    ahead (expected counted) s queue ev = queue := by
  simp [ahead, expected_syn hk, h]

theorem ahead_expected_other {queue : List VirtinEvent} (hk : kind ev = .other) :
    ahead (expected counted) s queue ev = queue ++ [ev] := by
  simp [ahead, expected_rest (.inr hk)]

theorem Dropped.skip {queue : List VirtinEvent} (h : Dropped s c queue)
    (hg : (virtinGrabbed c ev).2 = false) :
    Dropped (expected counted s ev).1 (virtinGrabbed c ev).1
      (ahead (expected counted) s queue ev) := by
  obtain ⟨hc, hpress, hrest⟩ := h
  cases hk : kind ev with
  | press => simp [grabbed_press hk] at hg
  | release =>
    rw [grabbed_button (.inl hk), if_neg hc]
    refine ⟨by simp, forall_mem_ahead hpress (by simp [hk]), ?_⟩
    by_cases hzero : s.unmatched = 0
    · simp only [ahead, expected_release hk, hzero]
      rcases hrest with hrest | ⟨hne, hsyn, -⟩
      · exact .inl hrest
      · exact .inr ⟨hne, hsyn, by simp⟩
    · exact .inl ⟨ev, by simp [ahead, expected_release hk, hzero], .inl hk⟩
  | otherValue =>
    rw [grabbed_button (.inr hk), if_neg hc]
    refine ⟨by simp, forall_mem_ahead hpress (by simp [hk]), ?_⟩
    exact .inl ⟨ev, by simp [ahead, expected_rest (.inl hk)], .inr hk⟩
  | syn =>
    have hsyn : c = .syn := by
      by_contra hsyn
      simp [grabbed_rest (.inl hk), hsyn] at hg
    rw [grabbed_rest (.inl hk), if_pos hsyn]
    refine ⟨by simp, forall_mem_ahead hpress (by simp [hk]), ?_⟩
    rcases hrest with ⟨x, hx, hbutton⟩ | ⟨hne, hall, howed⟩
    · exact .inl ⟨x, subset_ahead _ _ _ _ hx, hbutton⟩
    · rw [ahead_expected_syn hk (howed hsyn)]
      exact .inr ⟨hne, hall, by simp⟩
  | other =>
    have hsyn : c = .syn := by
      by_contra hsyn
      simp [grabbed_rest (.inr hk), hsyn] at hg
    rw [grabbed_rest (.inr hk), if_pos hsyn]
    refine ⟨by simp, forall_mem_ahead hpress (by simp [hk]), ?_⟩
    rcases hrest with ⟨x, hx, hbutton⟩ | ⟨hne, hall, howed⟩
    · exact .inl ⟨x, subset_ahead _ _ _ _ hx, hbutton⟩
    · refine .inr ⟨fun hnil => hne (ahead_eq_nil hnil), ?_, by simp⟩
      exact forall_mem_ahead hall (by simp [hk])

/-- An event that the code keeps is at the head of what it has dropped only if it is neither of the
button nor a synchronisation, or a button event stands behind it. -/
theorem Dropped.take {queue rest : List VirtinEvent} (h : Dropped s c queue)
    (hg : (virtinGrabbed c ev).2 = true)
    (hahead : ahead (expected counted) s queue ev = ev :: rest) :
    Dropped (expected counted s ev).1 (virtinGrabbed c ev).1 rest := by
  obtain ⟨hc, hpress, hrest⟩ := h
  have hne : queue ≠ [] := by
    rcases hrest with ⟨x, hx, -⟩ | ⟨hne, -, -⟩
    · exact List.ne_nil_of_mem hx
    · exact hne
  obtain ⟨head, tail, rfl⟩ := List.exists_cons_of_ne_nil hne
  rw [ahead_cons] at hahead
  obtain ⟨rfl, rfl⟩ := List.cons.inj hahead
  have hkind : kind head = .syn ∨ kind head = .other := by
    cases hk : kind head with
    | press => exact absurd hk (hpress head (by simp))
    | release => simp [grabbed_button (.inl hk), hc] at hg
    | otherValue => simp [grabbed_button (.inr hk), hc] at hg
    | syn => exact .inl rfl
    | other => exact .inr rfl
  have hflag : c ≠ .syn := by
    intro hsyn
    simp [grabbed_rest hkind, hsyn] at hg
  rw [grabbed_rest hkind, if_neg hflag]
  refine ⟨hc, ?_, ?_⟩
  · exact forall_mem_ahead (fun x hx => hpress x (List.mem_cons_of_mem head hx))
      (hpress head (by simp))
  · rcases hrest with ⟨x, hx, hbutton⟩ | ⟨-, hall, -⟩
    · rcases List.mem_cons.mp hx with rfl | hx
      · rcases hkind with hk | hk <;> simp [hk] at hbutton
      · exact .inl ⟨x, subset_ahead _ _ _ _ hx, hbutton⟩
    · have hother : kind head = .other :=
        hkind.resolve_left (hall head (by simp))
      refine .inr ⟨by simp [ahead_expected_other hother], ?_, fun h => absurd h hflag⟩
      exact forall_mem_ahead (fun x hx => hall x (List.mem_cons_of_mem head hx))
        (hall head (by simp))

theorem leads (counted : Bool) : Leads (expected counted) virtinGrabbed Dropped where
  nonempty := by
    rintro s c queue ⟨-, -, ⟨x, hx, -⟩ | ⟨hne, -, -⟩⟩
    · exact List.ne_nil_of_mem hx
    · exact hne
  skip := fun _ _ _ _ h hg => h.skip hg
  take := fun _ _ _ _ _ h hg hahead => h.take hg hahead

theorem expected_drop (h : (expected counted s ev).2 = false) :
    kind ev = .release ∧ s.unmatched = 0 ∨ kind ev = .syn ∧ s.owed = true := by
  cases hk : kind ev with
  | press => simp [expected_press hk] at h
  | release =>
    rw [expected_release hk] at h
    by_cases hzero : s.unmatched = 0
    · exact .inl ⟨rfl, hzero⟩
    · simp [hzero] at h
  | otherValue => simp [expected_rest (.inl hk)] at h
  | syn =>
    rw [expected_syn hk] at h
    exact .inr ⟨rfl, by simpa using h⟩
  | other => simp [expected_rest (.inr hk)] at h

theorem Kept.skip {queue : List VirtinEvent} (h : Kept c s queue)
    (hf : (expected counted s ev).2 = false) :
    Kept (virtinGrabbed c ev).1 (expected counted s ev).1 (ahead virtinGrabbed c queue ev) := by
  obtain ⟨hne, hall, howed, hun⟩ := h
  rcases expected_drop hf with ⟨hk, hzero⟩ | ⟨hk, hdue⟩
  · have hc : c ≠ .yes := fun hc => hun hc hzero
    have hstay : ahead virtinGrabbed c queue ev = queue := by
      simp [ahead, grabbed_button (.inl hk), hc]
    rw [hstay, grabbed_button (.inl hk), if_neg hc, expected_release hk, if_pos hzero]
    exact ⟨hne, hall, by simp, by simp⟩
  · rw [expected_syn hk]
    by_cases hc : c = .syn
    · have hstay : ahead virtinGrabbed c queue ev = queue := by
        simp [ahead, grabbed_rest (.inl hk), hc]
      rw [hstay, grabbed_rest (.inl hk), if_pos hc]
      exact ⟨hne, hall, by simp, by simp⟩
    · rw [grabbed_rest (.inl hk), if_neg hc]
      exact ⟨fun hnil => hne (ahead_eq_nil hnil), forall_mem_ahead hall hk, fun h => absurd h hc, hun⟩

/-- The head of what the code has kept is a synchronisation, and where none is owed the code keeps
the next one too. -/
theorem Kept.take {queue rest : List VirtinEvent} (h : Kept c s queue)
    (hf : (expected counted s ev).2 = true)
    (hahead : ahead virtinGrabbed c queue ev = ev :: rest) :
    Kept (virtinGrabbed c ev).1 (expected counted s ev).1 rest := by
  obtain ⟨hne, hall, howed, hun⟩ := h
  obtain ⟨head, tail, rfl⟩ := List.exists_cons_of_ne_nil hne
  rw [ahead_cons] at hahead
  obtain ⟨rfl, rfl⟩ := List.cons.inj hahead
  have hk : kind head = .syn := hall head (by simp)
  rw [expected_syn hk] at hf ⊢
  have hclear : s.owed = false := by simpa using hf
  have hc : c ≠ .syn := by
    intro hc
    simp [howed hc] at hclear
  have hgrow : ahead virtinGrabbed c tail head = tail ++ [head] := by
    simp [ahead, grabbed_rest (.inl hk), hc]
  rw [hgrow, grabbed_rest (.inl hk), if_neg hc]
  refine ⟨by simp, ?_, fun h => absurd h hc, hun⟩
  intro x hx
  rcases List.mem_append.mp hx with hx | hx
  · exact hall x (List.mem_cons_of_mem head hx)
  · rwa [List.mem_singleton.mp hx]

theorem trails (counted : Bool) : Leads virtinGrabbed (expected counted) Kept where
  nonempty := fun _ _ _ h => h.1
  skip := fun _ _ _ _ h hf => h.skip hf
  take := fun _ _ _ _ _ h hf hahead => h.take hf hahead

theorem diverges (counted : Bool) :
    Diverges (expected counted) virtinGrabbed Related Dropped Kept where
  inv := fun _ _ _ h hsame => h.next hsame
  first := fun _ _ _ h hf hg => h.first hf hg
  second := fun _ _ _ h hf hg => h.second hf hg
  leads := leads counted
  trails := trails counted

end Differences

/-- The code reports what it should exactly when the stream is clear throughout. -/
theorem grabbed_exact_iff (counted : Bool) (evs : List VirtinEvent) :
    output virtinGrabbed .no evs = output (expected counted) ⟨0, false⟩ evs ↔
      AllClear counted start evs := by
  have hrelated : Related ⟨0, false⟩ .no := by simp [Related]
  rw [eq_comm, (diverges counted).output_eq_iff hrelated]
  exact agree_iff_allClear flag_start evs

def unmatchedRelease : VirtinEvent := ⟨evKey, btnLeft, 0⟩
def motion : VirtinEvent := ⟨evAbs, absX, 5⟩
def synchronisation : VirtinEvent := ⟨evSyn, synReport, 0⟩

/-- A pointer motion in the report of an unmatched release goes in place of the synchronisation. -/
theorem motion_dropped :
    output virtinGrabbed .no [unmatchedRelease, motion, synchronisation] = [synchronisation] ∧
    ∀ counted, output (expected counted) ⟨0, false⟩
      [unmatchedRelease, motion, synchronisation] = [motion] := by
  decide

section Runs

variable {sc : Screen} {s t : State}

/-- The event that VirtinHandleEv takes in a step. -/
def handledAt (s : State) : Event → List VirtinEvent
  | .task =>
    match s.handler with
    | .process idx => [s.ev idx]
    | _ => []
  | _ => []

def handled (sc : Screen) (s : State) : List Event → List VirtinEvent
  | [] => []
  | e :: es =>
    match next .riscv32 sc s e with
    | none => []
    | some t => handledAt s e ++ handled sc t es

/-- On riscv32 nothing is queued for later, and the interrupt handler only posts. -/
structure Direct (s : State) : Prop where
  wq : s.wq = []
  callback : s.callback = .idle
  irq : s.irq ≠ .handling

theorem direct_init (h : Init s) : Direct s :=
  ⟨h.wq, h.callback, by simp [h.irq]⟩

/-- What a step does to the flag and to the reports. -/
structure Filtered (s t : State) (evs : List VirtinEvent) : Prop where
  precedeDown : t.precedeDown = after virtinGrabbed s.precedeDown evs
  reported : t.reported = s.reported ++ output virtinGrabbed s.precedeDown evs

theorem filtered_nil (hflag : t.precedeDown = s.precedeDown) (hreports : t.reported = s.reported) :
    Filtered s t [] :=
  ⟨hflag, by rw [hreports, output, List.append_nil]⟩

theorem filtered_processEvent (s : State) (idx : UInt16) :
    Filtered s (processEvent .riscv32 s idx) [s.ev idx] := by
  constructor
  · rfl
  · cases hkeep : (virtinGrabbed s.precedeDown (s.ev idx)).2 <;> simp [processEvent, output, hkeep]

theorem handlerStep_queues (h : handlerStep .riscv32 s = some t) :
    t.wq = s.wq ∧ t.callback = s.callback ∧ t.irq = s.irq := by
  unfold handlerStep at h
  cases hh : s.handler with
  | off => simp [hh] at h
  | _ =>
    simp only [hh] at h
    obtain rfl := Option.some.inj h
    exact ⟨rfl, rfl, rfl⟩

theorem handlerStep_filtered (h : handlerStep .riscv32 s = some t) :
    Filtered s t (handledAt s .task) := by
  unfold handlerStep at h
  unfold handledAt
  cases hh : s.handler with
  | process idx =>
    simp only [hh] at h
    obtain rfl := Option.some.inj h
    exact ⟨(filtered_processEvent s idx).precedeDown, (filtered_processEvent s idx).reported⟩
  | off => simp [hh] at h
  | _ =>
    simp only [hh] at h
    obtain rfl := Option.some.inj h
    exact filtered_nil rfl rfl

theorem irqStep_filtered (h : Direct s) (hstep : irqStep .riscv32 s = some t) :
    Direct t ∧ Filtered s t [] := by
  simp only [irqStep] at hstep
  cases hpc : s.irq with
  | handling => exact absurd hpc h.irq
  | status =>
    simp only [hpc] at hstep
    split at hstep
    all_goals
      obtain rfl := Option.some.inj hstep
      exact ⟨⟨h.wq, h.callback, by simp⟩, filtered_nil rfl rfl⟩
  | _ =>
    simp only [hpc] at hstep
    obtain rfl := Option.some.inj hstep
    exact ⟨⟨h.wq, h.callback, by simp⟩, filtered_nil rfl rfl⟩

theorem taskStep_filtered (h : Direct s) (hstep : taskStep .riscv32 s = some t) :
    Direct t ∧ Filtered s t (handledAt s .task) := by
  by_cases hoff : s.handler = .off
  · simp only [taskStep, hoff] at hstep
    obtain ⟨-, hstep⟩ := Option.ite_none_right_eq_some.mp hstep
    obtain rfl := Option.some.inj hstep
    simp only [handledAt, hoff]
    exact ⟨⟨h.wq, h.callback, h.irq⟩, filtered_nil rfl rfl⟩
  · have hhandler : handlerStep .riscv32 s = some t := by
      rw [← hstep]
      simp only [taskStep]
    obtain ⟨hwq, hcallback, hirq⟩ := handlerStep_queues hhandler
    exact ⟨⟨hwq ▸ h.wq, hcallback ▸ h.callback, hirq ▸ h.irq⟩, handlerStep_filtered hhandler⟩

/-- A step of the run takes the flag and the reports on by the event it handles. -/
theorem next_filtered {e : Event} (h : Direct s) (hnext : next .riscv32 sc s e = some t) :
    Direct t ∧ Filtered s t (handledAt s e) := by
  cases e with
  | irq => exact irqStep_filtered h hnext
  | task => exact taskStep_filtered h hnext
  | callback => simp [next, callbackStep, h.callback, h.wq] at hnext
  | fetch =>
    simp only [next, deviceFetch] at hnext
    obtain ⟨-, hnext⟩ := Option.ite_none_left_eq_some.mp hnext
    obtain rfl := Option.some.inj hnext
    exact ⟨⟨h.wq, h.callback, h.irq⟩, filtered_nil rfl rfl⟩
  | write i ev =>
    simp only [next, deviceWrite] at hnext
    split at hnext
    · obtain rfl := Option.some.inj hnext
      exact ⟨⟨h.wq, h.callback, h.irq⟩, filtered_nil rfl rfl⟩
    · cases hnext
  | append =>
    simp only [next, deviceAppend] at hnext
    split at hnext
    · cases hnext
    · obtain rfl := Option.some.inj hnext
      exact ⟨⟨h.wq, h.callback, h.irq⟩, filtered_nil rfl rfl⟩
  | raise =>
    simp only [next, deviceRaise] at hnext
    obtain ⟨-, hnext⟩ := Option.ite_none_right_eq_some.mp hnext
    obtain rfl := Option.some.inj hnext
    exact ⟨⟨h.wq, h.callback, h.irq⟩, filtered_nil rfl rfl⟩
  | usedFlag flag =>
    obtain rfl := Option.some.inj hnext
    exact ⟨⟨h.wq, h.callback, h.irq⟩, filtered_nil rfl rfl⟩

theorem direct_reported {es : List Event} (h : Direct s)
    (hrun : (system .riscv32 sc).run s es = some t) :
    t.reported = s.reported ++ output virtinGrabbed s.precedeDown (handled sc s es) := by
  induction es generalizing s with
  | nil =>
    obtain rfl := Option.some.inj hrun
    simp [handled, output]
  | cons e es ih =>
    obtain ⟨u, hnext, hrest⟩ := Option.bind_eq_some_iff.mp hrun
    change next .riscv32 sc s e = some u at hnext
    obtain ⟨hdirect, hfiltered⟩ := next_filtered h hnext
    have htail := ih hdirect hrest
    rw [hfiltered.reported, hfiltered.precedeDown, List.append_assoc, ← output_append] at htail
    rw [htail, handled, hnext]

/-- What a run reports is what the filter lets through of the events it handles. -/
theorem run_reported {es : List Event} (h : Init s)
    (hrun : (system .riscv32 sc).run s es = some t) :
    t.reported = output virtinGrabbed s.precedeDown (handled sc s es) := by
  rw [direct_reported (direct_init h) hrun, h.reported, List.nil_append]

end Runs

end VirtinputFilter
