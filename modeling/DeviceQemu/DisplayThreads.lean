import DeviceQemu.StepSystem
import Mathlib.Data.Int.Notation
import Mathlib.Data.Nat.Notation
import Mathlib.Order.Defs.LinearOrder
import Mathlib.Tactic.SplitIfs

/-! Threads of the display that start with their object.
Init of DrmVsyncWorker and of HdiNetLinkMonitor creates a thread and then sets mRunning, the flag
by which the thread stays in its loop. Each access to what the threads share is a step. -/
namespace DisplayThreads

open StepSystem

inductive InitPc where
  | idle
  | created
  | stored
  | returned (success : Bool)
  deriving DecidableEq, Repr

namespace DrmVsyncWorker

/-- WorkThread. Between `readEnable` and `readReturn` it is in WaitSignalAndCheckRuning with the
mutex, and `blocked` in the condition variable without it. -/
inductive WorkPc where
  | none
  | lock
  | readEnable
  | readRunning
  | blocked
  | readReturn
  | vblank
  | left
  deriving DecidableEq, Repr

inductive Holder where
  | worker
  | enableVsync (enable : Bool)
  | destructor
  deriving DecidableEq, Repr

structure State where
  init : InitPc
  work : WorkPc
  mMutex : Option Holder
  mEnable : Bool
  mRunning : Bool
  destroyed : Bool
  deriving DecidableEq, Repr

def initial : State := ⟨.idle, .none, none, false, false, false⟩

/-- `wake` is a return from the wait, notified or spurious. `enable` and `destroy` are EnableVsync
and the destructor up to the lock; the steps after them store and unlock. -/
inductive Event where
  | init (fd : ℤ)
  | initStore
  | initReturn
  | work
  | wake
  | enable (enable : Bool)
  | enableStore
  | enableUnlock
  | destroy
  | destroyStore
  | destroyUnlock
  deriving DecidableEq, Repr

def initStart (s : State) (fd : ℤ) : Option State :=
  if s.init ≠ .idle then none
  else if fd < 0 then some { s with init := .returned false }
  else some { s with init := .created, work := .lock }

/-- WorkThread and WaitSignalAndCheckRuning, with what becomes of the mutex: `mEnable || !mRunning`
is read while the wait has it, and mRunning once more for the result. -/
def workNext (s : State) : Option (WorkPc × Option Holder) :=
  match s.work with
  | .none | .blocked | .left => none
  | .lock => if s.mMutex = none then some (.readEnable, some .worker) else none
  | .readEnable => some (if s.mEnable then .readReturn else .readRunning, s.mMutex)
  | .readRunning => some (if s.mRunning then (.blocked, none) else (.readReturn, s.mMutex))
  | .readReturn => some (if s.mRunning then .vblank else .left, none)
  | .vblank => some (.lock, s.mMutex)

def enableStore (s : State) : Option State :=
  match s.mMutex with
  | some (.enableVsync enable) => some { s with mEnable := enable }
  | _ => none

def next (s : State) : Event → Option State
  | .init fd => initStart s fd
  | .initStore => if s.init = .created then some { s with init := .stored, mRunning := true } else none
  | .initReturn => if s.init = .stored then some { s with init := .returned true } else none
  | .work => (workNext s).map fun (work, mMutex) => { s with work, mMutex }
  | .wake => if s.work = .blocked then some { s with work := .lock } else none
  | .enable enable =>
    if s.mMutex = none then some { s with mMutex := some (.enableVsync enable) } else none
  | .enableStore => enableStore s
  | .enableUnlock =>
    match s.mMutex with
    | some (.enableVsync _) => some { s with mMutex := none }
    | _ => none
  | .destroy =>
    match s.init with
    | .returned _ =>
      if s.mMutex = none then some { s with mMutex := some .destructor, destroyed := true } else none
    | _ => none
  | .destroyStore => if s.mMutex = some .destructor then some { s with mRunning := false } else none
  | .destroyUnlock => if s.mMutex = some .destructor then some { s with mMutex := none } else none

def system : System State Event where
  Init s := s = initial
  next := next

def Live (s : State) : Prop := s.init = .returned true ∧ s.destroyed = false

def Working (s : State) : Prop := Live s → s.work ≠ .left

/-- The thread reads mRunning for the result of WaitSignalAndCheckRuning only after Init has set
it, as long as nobody destroys the object. -/
def RunningSet (s : State) : Event → Prop
  | .work => s.work = .readReturn → s.mRunning = true ∨ s.destroyed = true
  | _ => True

instance (s : State) (e : Event) : Decidable (RunningSet s e) := by
  cases e <;> unfold RunningSet <;> infer_instance

theorem workNext_left {s : State} {r : WorkPc × Option Holder} (h : workNext s = some r) :
    s.work ≠ .none ∧ s.work ≠ .left ∧ (r.1 = .left → s.work = .readReturn ∧ s.mRunning = false) := by
  unfold workNext at h
  cases hwork : s.work <;> simp only [hwork] at h <;> grind

/-- What a step does to the fields that the end of the thread depends on. -/
structure Effect (s t : State) (e : Event) : Prop where
  destroyed : s.destroyed = true → t.destroyed = true
  idle : t.init = .idle → s.init = .idle ∧ t.work = s.work
  stays : s.work = .left → t.work = .left
  left : t.work = .left → s.work = .left ∨ (e = .work ∧ s.work = .readReturn ∧ s.mRunning = false)

theorem next_effect {s t : State} {e : Event} (hidle : s.init = .idle → s.work = .none)
    (ht : next s e = some t) : Effect s t e := by
  cases e with
  | work =>
    obtain ⟨r, hr, rfl⟩ := Option.map_eq_some_iff.mp ht
    obtain ⟨hnone, hleft, hreturn⟩ := workNext_left hr
    refine ⟨id, fun h => absurd (hidle h) hnone, fun h => absurd h hleft, fun h => Or.inr ⟨rfl, ?_⟩⟩
    exact hreturn h
  | init fd =>
    simp only [next, initStart] at ht
    constructor <;> grind
  | _ =>
    simp only [next, DrmVsyncWorker.enableStore] at ht
    constructor <;> grind

theorem next_idle {s t : State} {e : Event} (hidle : s.init = .idle → s.work = .none)
    (ht : next s e = some t) : t.init = .idle → t.work = .none := by
  intro h
  obtain ⟨hs, hwork⟩ := (next_effect hidle ht).idle h
  exact hwork.trans (hidle hs)

theorem next_breach {s t : State} {e : Event} (hc : ¬ RunningSet s e) (ht : next s e = some t) :
    t.work = .left := by
  cases e with
  | work =>
    obtain ⟨hreturn, hunset⟩ := Classical.not_imp.mp hc
    have hrunning : s.mRunning = false := (Bool.not_eq_true _).mp fun h => hunset (Or.inl h)
    obtain ⟨r, hr, rfl⟩ := Option.map_eq_some_iff.mp ht
    simp only [workNext, hreturn, hrunning, Bool.false_eq_true, if_false, Option.some.injEq] at hr
    rw [← hr]
  | _ => exact absurd trivial hc

theorem departs : Departs system (fun s => s.init = .idle → s.work = .none) (fun s => s.work = .left)
    (fun s => s.destroyed = true) RunningSet fun _ _ => True where
  inv _ _ _ h ht := next_idle h ht
  past _ _ _ h ht := (next_effect h ht).destroyed
  stays _ _ _ h ht := (next_effect h ht).stays
  leaves s e t h _ hc ht hleft := by
    rcases (next_effect h ht).left hleft with hs | ⟨rfl, hreturn, hrunning⟩
    · exact Or.inl hs
    · exact Or.inr ((hc hreturn).resolve_left (by simp [hrunning]))
  breach _ _ _ hc ht := next_breach hc ht

theorem working_of_runningSet {es : List Event} (h : StepsMeet system RunningSet initial es) :
    StatesMeet system Working initial es := by
  refine departs.statesMeet ?_ (fun _ => rfl) (by decide) (stepsMeet_true system initial es) h
  intro s hs hlive hleft
  exact absurd (hs hleft) (by simp [hlive.2])

theorem runningSet_of_working {es : List Event} {t : State} (hr : system.run initial es = some t)
    (hlive : Live t) (h : Working t) : StepsMeet system RunningSet initial es :=
  departs.stepsMeet (fun _ => rfl) hr (h hlive)

end DrmVsyncWorker

namespace HdiNetLinkMonitor

/-- ThreadInit up to `bind`, and MonitorThread. -/
inductive MonitorPc where
  | none
  | socket
  | setsockopt
  | bind
  | publish
  | check
  | read
  | left
  deriving DecidableEq, Repr

structure State where
  init : InitPc
  monitor : MonitorPc
  fd : ℤ
  mScoketFd : ℤ
  mRunning : Bool
  destroyed : Bool
  deriving DecidableEq, Repr

def initial : State := ⟨.idle, .none, -1, -1, false, false⟩

/-- `answer` is what the system call of the step returns. -/
inductive Event where
  | init
  | initStore
  | initReturn
  | monitor (answer : ℤ)
  | destroy
  deriving DecidableEq, Repr

def monitorNext (s : State) (answer : ℤ) : Option State :=
  match s.monitor with
  | .none | .left => none
  | .socket => some (if answer < 0 then { s with monitor := .left }
      else { s with monitor := .setsockopt, fd := answer })
  | .setsockopt => some { s with monitor := if answer = -1 then .left else .bind }
  | .bind => some { s with monitor := if answer < 0 then .left else .publish }
  | .publish => some { s with monitor := .check, mScoketFd := s.fd }
  | .check => some { s with monitor := if s.mRunning then .read else .left }
  | .read => some { s with monitor := if answer < 0 then .left else .check }

def next (s : State) : Event → Option State
  | .init => if s.init = .idle then some { s with init := .created, monitor := .socket } else none
  | .initStore => if s.init = .created then some { s with init := .stored, mRunning := true } else none
  | .initReturn => if s.init = .stored then some { s with init := .returned true } else none
  | .monitor answer => monitorNext s answer
  | .destroy => if s.init = .returned true then some { s with destroyed := true } else none

def system : System State Event where
  Init s := s = initial
  next := next

def Live (s : State) : Prop := s.init = .returned true ∧ s.destroyed = false

def Working (s : State) : Prop := Live s → s.monitor ≠ .left

def SocketsSucceed (s : State) : Event → Prop
  | .monitor answer => s.destroyed = false → s.monitor ∈ [.socket, .setsockopt, .bind, .read] → 0 ≤ answer
  | _ => True

instance (s : State) (e : Event) : Decidable (SocketsSucceed s e) := by
  cases e <;> unfold SocketsSucceed <;> infer_instance

/-- The thread checks mRunning only after Init has set it. -/
def RunningSet (s : State) : Event → Prop
  | .monitor _ => s.monitor = .check → s.mRunning = true ∨ s.destroyed = true
  | _ => True

instance (s : State) (e : Event) : Decidable (RunningSet s e) := by
  cases e <;> unfold RunningSet <;> infer_instance

/-- What a step does to the fields that the end of the thread depends on. -/
structure Effect (s t : State) (e : Event) : Prop where
  destroyed : s.destroyed = true → t.destroyed = true
  idle : t.init = .idle → s.init = .idle ∧ t.monitor = s.monitor
  stays : s.monitor = .left → t.monitor = .left
  left : t.monitor = .left → s.monitor = .left ∨ ∃ answer, e = .monitor answer ∧
    (answer < 0 ∧ s.monitor ∈ [.socket, .setsockopt, .bind, .read] ∨
      s.monitor = .check ∧ s.mRunning = false)

theorem next_effect {s t : State} {e : Event} (hidle : s.init = .idle → s.monitor = .none)
    (ht : next s e = some t) : Effect s t e := by
  cases e with
  | monitor answer =>
    simp only [next, monitorNext] at ht
    constructor <;> grind
  | _ =>
    simp only [next] at ht
    constructor <;> grind

theorem next_idle {s t : State} {e : Event} (hidle : s.init = .idle → s.monitor = .none)
    (ht : next s e = some t) : t.init = .idle → t.monitor = .none := by
  intro h
  obtain ⟨hs, hmonitor⟩ := (next_effect hidle ht).idle h
  exact hmonitor.trans (hidle hs)

theorem next_breach {s t : State} {e : Event} (hc : ¬ RunningSet s e) (ht : next s e = some t) :
    t.monitor = .left := by
  cases e with
  | monitor answer =>
    obtain ⟨hcheck, hunset⟩ := Classical.not_imp.mp hc
    have hrunning : s.mRunning = false := (Bool.not_eq_true _).mp fun h => hunset (Or.inl h)
    simp only [next, monitorNext, hcheck, hrunning, Bool.false_eq_true, if_false,
      Option.some.injEq] at ht
    rw [← ht]
  | _ => exact absurd trivial hc

theorem departs : Departs system (fun s => s.init = .idle → s.monitor = .none)
    (fun s => s.monitor = .left) (fun s => s.destroyed = true) RunningSet SocketsSucceed where
  inv _ _ _ h ht := next_idle h ht
  past _ _ _ h ht := (next_effect h ht).destroyed
  stays _ _ _ h ht := (next_effect h ht).stays
  leaves s e t h hsockets hc ht hleft := by
    rcases (next_effect h ht).left hleft with hs | ⟨answer, rfl, ⟨hfails, hcall⟩ | ⟨hcheck, hrunning⟩⟩
    · exact Or.inl hs
    · apply Or.inr
      by_contra hlive
      have hanswer := hsockets ((Bool.not_eq_true _).mp hlive) hcall
      omega
    · exact Or.inr ((hc hcheck).resolve_left (by simp [hrunning]))
  breach _ _ _ hc ht := next_breach hc ht

theorem working_of_runningSet {es : List Event} (hsockets : StepsMeet system SocketsSucceed initial es)
    (h : StepsMeet system RunningSet initial es) : StatesMeet system Working initial es := by
  refine departs.statesMeet ?_ (fun _ => rfl) (by decide) hsockets h
  intro s hs hlive hleft
  exact absurd (hs hleft) (by simp [hlive.2])

theorem runningSet_of_working {es : List Event} {t : State} (hr : system.run initial es = some t)
    (hlive : Live t) (h : Working t) : StepsMeet system RunningSet initial es :=
  departs.stepsMeet (fun _ => rfl) hr (h hlive)

end HdiNetLinkMonitor

/-- On the runs that bring Init to an end the condition is also necessary. -/
theorem startup_runs (es : List DrmVsyncWorker.Event) (es' : List HdiNetLinkMonitor.Event) :
    (StepsMeet DrmVsyncWorker.system DrmVsyncWorker.RunningSet DrmVsyncWorker.initial es →
      StatesMeet DrmVsyncWorker.system DrmVsyncWorker.Working DrmVsyncWorker.initial es) ∧
    (∀ t, DrmVsyncWorker.system.run DrmVsyncWorker.initial es = some t → DrmVsyncWorker.Live t →
      DrmVsyncWorker.Working t →
      StepsMeet DrmVsyncWorker.system DrmVsyncWorker.RunningSet DrmVsyncWorker.initial es) ∧
    (StepsMeet HdiNetLinkMonitor.system HdiNetLinkMonitor.SocketsSucceed
        HdiNetLinkMonitor.initial es' →
      StepsMeet HdiNetLinkMonitor.system HdiNetLinkMonitor.RunningSet HdiNetLinkMonitor.initial es' →
      StatesMeet HdiNetLinkMonitor.system HdiNetLinkMonitor.Working HdiNetLinkMonitor.initial es') ∧
    (∀ t, HdiNetLinkMonitor.system.run HdiNetLinkMonitor.initial es' = some t →
      HdiNetLinkMonitor.Live t → HdiNetLinkMonitor.Working t →
      StepsMeet HdiNetLinkMonitor.system HdiNetLinkMonitor.RunningSet HdiNetLinkMonitor.initial es') :=
  ⟨DrmVsyncWorker.working_of_runningSet, fun _ => DrmVsyncWorker.runningSet_of_working,
    HdiNetLinkMonitor.working_of_runningSet, fun _ => HdiNetLinkMonitor.runningSet_of_working⟩

/-- The thread comes to its first look at mRunning after Init, and vsync is enabled. -/
def inTime : List DrmVsyncWorker.Event :=
  [.init 5, .work, .work, .initStore, .initReturn, .work, .enable true, .enableStore, .enableUnlock,
    .wake, .work, .work, .work, .work]

def inTimeMonitor : List HdiNetLinkMonitor.Event :=
  [.init, .monitor 4, .monitor 0, .monitor 0, .initStore, .monitor 0, .monitor 0, .initReturn,
    .monitor 30]

theorem startup_runs_inTime :
    StatesMeet DrmVsyncWorker.system DrmVsyncWorker.Working DrmVsyncWorker.initial inTime ∧
      StatesMeet HdiNetLinkMonitor.system HdiNetLinkMonitor.Working HdiNetLinkMonitor.initial
        inTimeMonitor :=
  ⟨(startup_runs inTime inTimeMonitor).1 (by decide),
    (startup_runs inTime inTimeMonitor).2.2.1 (by decide) (by decide)⟩

/-- The new thread runs before Init goes on: it finds mRunning false and leaves, and Init returns
success all the same. -/
theorem worker_leaves :
    ∃ s, Reachable DrmVsyncWorker.system s ∧ DrmVsyncWorker.Live s ∧ s.work = .left := by
  have hrun : ((DrmVsyncWorker.system.run DrmVsyncWorker.initial
      [.init 5, .work, .work, .work, .work, .initStore, .initReturn]).map fun s =>
        decide (s.init = .returned true ∧ s.destroyed = false ∧ s.work = .left)) = some true := by
    decide
  obtain ⟨s, hs, hleft⟩ := exists_reachable (S := DrmVsyncWorker.system) rfl hrun
  obtain ⟨hreturned, hlive, hleft⟩ := of_decide_eq_true hleft
  exact ⟨s, hs, ⟨hreturned, hlive⟩, hleft⟩

end DisplayThreads
