import DeviceQemu.StepSystem
import Mathlib.Tactic.Tauto

/-! Sticky interrupt lines.
A source hands over work and then decides once whether to set a sticky status bit; the
server may mask that decision while it looks for work by itself. Acknowledging clears the
bit whatever set it, so it must not clear the only notice of work left behind. -/
namespace InterruptLine

open StepSystem

/-- `owed` says that an interrupt decision of the source is still to come, `serving` that
the server will look at the work at least once more before it rests. -/
structure Line where
  pending : Bool
  owed : Bool
  masked : Bool
  status : Bool
  serving : Bool
  deriving DecidableEq, Repr

inductive Signal where
  | append (pending : Bool)
  | owe
  | decide (more : Bool)
  | assert
  | serve
  | mask
  | unmask
  | take (pending : Bool)
  | leave
  | ack
  deriving DecidableEq, Repr

/-- The server takes work only while serving. It rests with the mask lifted and no work left,
or with the work noticed by the status bit or by a decision to come. -/
def Line.next (l : Line) : Signal → Option Line
  | .append pending => some { l with pending, owed := true }
  | .owe => some { l with owed := true }
  | .decide more => some { l with owed := more, status := l.status || !l.masked }
  | .assert => some { l with status := true }
  | .serve => if l.status then some { l with serving := true } else none
  | .mask => if l.serving then some { l with masked := true } else none
  | .unmask => some { l with masked := false }
  | .take pending => if l.serving then some { l with pending } else none
  | .leave =>
    if l.masked || (l.pending && !l.status && !l.owed) then none
    else some { l with serving := false }
  | .ack => some { l with status := false }

def line : System Line Signal where
  Init l := l.pending = false ∧ l.masked = false
  next := Line.next

/-- The acknowledgement does not clear the only notice of pending work. -/
def AckSafe (l : Line) (e : Signal) : Prop :=
  e = .ack → l.pending = true → l.owed = true ∨ l.serving = true

structure Covered (l : Line) : Prop where
  notice : l.pending = true → l.owed = true ∨ l.status = true ∨ l.serving = true
  mask : l.masked = true → l.serving = true

theorem line_init {l : Line} (h : line.Init l) : Covered l := by
  obtain ⟨hp, hm⟩ := h
  constructor
  · intro h; simp [hp] at h
  · intro h; simp [hm] at h

theorem line_step {l l' : Line} {e : Signal} (h : Covered l) (hc : AckSafe l e)
    (ht : line.next l e = some l') : Covered l' := by
  obtain ⟨hn, hm⟩ := h
  cases e with
  | append pending | owe | assert =>
    obtain rfl := Option.some.inj ht
    exact ⟨by simp, hm⟩
  | decide more =>
    obtain rfl := Option.some.inj ht
    refine ⟨fun hp => ?_, hm⟩
    by_cases hmask : l.masked = true
    · exact Or.inr (Or.inr (hm hmask))
    · simp [hmask]
  | serve =>
    simp only [line, Line.next] at ht
    obtain ⟨-, ht⟩ := Option.ite_none_right_eq_some.mp ht
    obtain rfl := Option.some.inj ht
    exact ⟨by simp, by simp⟩
  | mask =>
    simp only [line, Line.next] at ht
    split at ht
    next hserve =>
      obtain rfl := Option.some.inj ht
      exact ⟨hn, fun _ => hserve⟩
    next => simp at ht
  | unmask =>
    obtain rfl := Option.some.inj ht
    exact ⟨hn, by simp⟩
  | take pending =>
    simp only [line, Line.next] at ht
    split at ht
    next hserve =>
      obtain rfl := Option.some.inj ht
      exact ⟨fun _ => Or.inr (Or.inr hserve), hm⟩
    next => simp at ht
  | leave =>
    simp only [line, Line.next] at ht
    obtain ⟨hidle, ht⟩ := Option.ite_none_left_eq_some.mp ht
    obtain rfl := Option.some.inj ht
    simp only [Bool.or_eq_true, not_or, Bool.not_eq_true, Bool.and_eq_false_iff,
      Bool.not_eq_false'] at hidle
    rcases hidle with ⟨hmask, (hnone | hstatus) | howed⟩
    · exact ⟨by simp [hnone], by simp [hmask]⟩
    · exact ⟨by simp [hstatus], by simp [hmask]⟩
    · exact ⟨by simp [howed], by simp [hmask]⟩
  | ack =>
    obtain rfl := Option.some.inj ht
    refine ⟨fun hp => ?_, hm⟩
    have := hc rfl hp
    tauto

theorem line_run {l l' : Line} {es : List Signal} (h : Covered l)
    (hc : StepsMeet line AckSafe l es) (ht : line.run l es = some l') : Covered l' := by
  induction es generalizing l with
  | nil =>
    obtain rfl : l = l' := by simpa using ht
    exact h
  | cons e es ih =>
    obtain ⟨m, hm, ht⟩ := Option.bind_eq_some_iff.mp ht
    obtain ⟨he, hes⟩ := hc m hm
    exact ih (line_step h he hm) hes ht

theorem stepsMeet_of_no_ack {l : Line} {es : List Signal} (h : Signal.ack ∉ es) :
    StepsMeet line AckSafe l es := by
  induction es generalizing l with
  | nil => trivial
  | cons e es ih =>
    intro m _
    simp only [List.mem_cons, not_or] at h
    exact ⟨fun he => absurd he.symm h.1, ih h.2⟩

/-- Signals other than an acknowledgement lead from one line to the other. -/
def Leads (l l' : Line) : Prop := ∃ es, Signal.ack ∉ es ∧ line.run l es = some l'

theorem Leads.refl (l : Line) : Leads l l := ⟨[], by simp, rfl⟩

theorem Leads.of_eq {l l' : Line} (h : l' = l) : Leads l l' := h ▸ Leads.refl l

/-- Signals whose acknowledgements are safe lead from one line to the other. -/
def Follows (l l' : Line) : Prop := ∃ es, StepsMeet line AckSafe l es ∧ line.run l es = some l'

theorem Leads.follows {l l' : Line} (h : Leads l l') : Follows l l' := by
  rcases h with ⟨es, hack, hrun⟩
  exact ⟨es, stepsMeet_of_no_ack hack, hrun⟩

theorem follows_ack {l l' : Line} (h : l.pending = true → l.owed = true ∨ l.serving = true)
    (hl : l' = { l with status := false }) : Follows l l' := by
  refine ⟨[.ack], ?_, by rw [hl]; rfl⟩
  intro m _
  exact ⟨fun _ => h, trivial⟩

/-- The server rests with the acknowledgement, and leaves only work it is owed a notice of. -/
theorem follows_leave_ack {l l' : Line} (hmask : l.masked = false)
    (h : l.pending = true → l.owed = true)
    (hl : l' = { l with status := false, serving := false }) : Follows l l' := by
  have hleave : line.next l .leave = some { l with serving := false } := by
    have hwork : (l.pending && !l.status && !l.owed) = false := by
      by_cases hp : l.pending = true
      · simp [h hp]
      · simp [hp]
    simp [line, Line.next, hmask, hwork]
  refine ⟨[.leave, .ack], ?_, ?_⟩
  · intro m hm
    obtain rfl := Option.some.inj (hleave.symm.trans hm)
    exact ⟨by simp [AckSafe], fun n _ => ⟨fun _ hp => Or.inl (h hp), trivial⟩⟩
  · rw [run_cons, hleave, hl]
    rfl

theorem covered_step {σ ε : Type*} {S : System σ ε} {C : σ → ε → Prop} {I : σ → Prop}
    {f : σ → Line} (h : Simulation S C I line AckSafe f) {s t : σ} {e : ε} (hI : I s)
    (hc : C s e) (ht : S.next s e = some t) (hs : Covered (f s)) : Covered (f t) := by
  obtain ⟨ds, hd, hrun⟩ := h.step s e t hI hc ht
  exact line_run hs hd hrun

/-- A line that is neither owed a decision nor being served shows its work in the status. -/
theorem Covered.status_of_pending {l : Line} (h : Covered l) (ho : l.owed = false)
    (hs : l.serving = false) (hp : l.pending = true) : l.status = true := by
  have := h.notice hp
  simpa [ho, hs] using this

end InterruptLine
