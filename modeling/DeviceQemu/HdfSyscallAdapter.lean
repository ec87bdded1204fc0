import DeviceQemu.CursorWalk
import DeviceQemu.StepSystem
import Mathlib.Data.Fintype.Basic
import Mathlib.Logic.Function.Basic

/-! The event adapter of riscv32.
Contexts register and unregister listeners at adapters and dispatch events to them, each at its own
pace. The mutex of an adapter is held while its list is changed and while a listener is called, but
not while the cursor of a dispatch moves on. -/
namespace HdfSyscallAdapter

open CursorWalk StepSystem

variable {A L T : Type}

inductive Status where
  | success
  | invalidParam
  | invalidObject
  | notSupport
  deriving DecidableEq, Repr

/-- Before the statement of this name; `receive` calls the listener, `next` reads its link. A context
is lost when it follows the links of a listener that is not in the list any more. -/
inductive Pc (A L : Type) where
  | idle
  | addLock (a : A) (l : L)
  | insertTail (a : A) (l : L)
  | addUnlock (a : A) (ret : Status)
  | removeLock (a : A) (l : L)
  | remove (a : A) (l : L)
  | removeUnlock (a : A) (l : L)
  | walkLock (a : A) (l : L)
  | receive (a : A) (l : L)
  | walkUnlock (a : A) (l : L)
  | next (a : A) (l : L)
  | lost
  deriving DecidableEq, Repr

/-- `linked` says that the links of a listener are not null. The last four fields record what
happened: the walk of a dispatch in progress, the walks that are finished, the listeners that an
unregistration has returned for since they were registered, and the calls of such. -/
structure State (A L T : Type) where
  listenerList : A → List L
  linked : L → Bool
  mutex : A → Option T
  pc : T → Pc A L
  ret : T → Option Status
  walk : T → Walk L
  finished : List (Walk L)
  gone : L → Bool
  late : List L

/-- GetHdfDeviceObject, and which listeners have an onReceive or a callBack. -/
structure Board (A L : Type) where
  input : Option A
  implemented : L → Bool

inductive Event (A L T : Type) where
  | register (t : T) (target : Option A) (listener : Option L)
  | unregister (t : T) (target : Option A) (listener : Option L)
  | send (t : T) (deviceObject : Option A) (data : Bool)
  | run (t : T)
  deriving DecidableEq, Repr

section Calls

variable [DecidableEq A] [DecidableEq L] [DecidableEq T]

def State.move (s : State A L T) (t : T) (pc : Pc A L) : State A L T :=
  { s with pc := Function.update s.pc t pc }

def State.back (s : State A L T) (t : T) (ret : Status) : State A L T :=
  { s with pc := Function.update s.pc t .idle, ret := Function.update s.ret t (some ret) }

def State.lock (s : State A L T) (t : T) (a : A) : Option (State A L T) :=
  if s.mutex a = none then some { s with mutex := Function.update s.mutex a (some t) } else none

def State.unlock (s : State A L T) (a : A) : State A L T :=
  { s with mutex := Function.update s.mutex a none }

/-- HdfDeviceRegisterEventListener up to the mutex. -/
def register (b : Board A L) (s : State A L T) (t : T) : Option A → Option L → State A L T
  | some a, some l => if b.implemented l then s.move t (.addLock a l) else s.back t .invalidObject
  | _, _ => s.back t .invalidParam

/-- HdfDeviceUnregisterEventListener up to the mutex. -/
def unregister (s : State A L T) (t : T) : Option A → Option L → State A L T
  | some a, some l => if s.linked l then s.move t (.removeLock a l) else s.back t .invalidObject
  | _, _ => s.back t .invalidParam

/-- HdfDeviceSendEvent up to the first cursor. -/
def sendEvent (b : Board A L) (s : State A L T) (t : T) (deviceObject : Option A) (data : Bool) :
    State A L T :=
  match deviceObject, data, b.input with
  | some a, true, some i =>
    if a = i then
      match s.listenerList a with
      | [] => { s.back t .success with finished := s.finished ++ [Walk.begin []] }
      | l :: rest => { s.move t (.walkLock a l) with
          walk := Function.update s.walk t (Walk.begin (l :: rest)) }
    else { s.back t .success with finished := s.finished ++ [Walk.begin (s.listenerList a)] }
  | some _, true, none => s.back t .notSupport
  | _, _, _ => s.back t .invalidParam

def addListener (s : State A L T) (t : T) (a : A) (l : L) : State A L T :=
  if l ∈ s.listenerList a then s.move t (.addUnlock a .invalidParam)
  else { s.move t (.addUnlock a .success) with
    listenerList := Function.update s.listenerList a (s.listenerList a ++ [l])
    linked := Function.update s.linked l true
    gone := Function.update s.gone l false }

/-- DListRemove: it follows the links of the listener, whatever list they are in. -/
def dListRemove (s : State A L T) (t : T) (a : A) (l : L) : State A L T :=
  if s.linked l then { s.move t (.removeUnlock a l) with
    listenerList := fun a' => without (s.listenerList a') l
    linked := Function.update s.linked l false
    walk := fun t' => (s.walk t').leave l }
  else s.move t .lost

def onReceive (b : Board A L) (s : State A L T) (t : T) (a : A) (l : L) : State A L T :=
  if b.implemented l then { s.move t (.walkUnlock a l) with
    walk := Function.update s.walk t ((s.walk t).visit l)
    late := if s.gone l then s.late ++ [l] else s.late }
  else s.move t (.walkUnlock a l)

def advance (s : State A L T) (t : T) (a : A) (l : L) : State A L T :=
  match successor (s.listenerList a) l with
  | none => s.move t .lost
  | some none => { s.back t .success with finished := s.finished ++ [s.walk t] }
  | some (some l') => s.move t (.walkLock a l')

def run (b : Board A L) (s : State A L T) (t : T) : Option (State A L T) :=
  match s.pc t with
  | .idle => none
  | .addLock a l => (s.lock t a).map fun s => s.move t (.insertTail a l)
  | .insertTail a l => some (addListener s t a l)
  | .addUnlock a ret => some ((s.unlock a).back t ret)
  | .removeLock a l => (s.lock t a).map fun s => s.move t (.remove a l)
  | .remove a l => some (dListRemove s t a l)
  | .removeUnlock a l => some { (s.unlock a).back t .success with
      gone := if s.linked l then s.gone else Function.update s.gone l true }
  | .walkLock a l => (s.lock t a).map fun s => s.move t (.receive a l)
  | .receive a l => some (onReceive b s t a l)
  | .walkUnlock a l => some ((s.unlock a).move t (.next a l))
  | .next a l => some (advance s t a l)
  | .lost => none

def next (b : Board A L) (s : State A L T) : Event A L T → Option (State A L T)
  | .register t target listener =>
    if s.pc t = .idle then some (register b s t target listener) else none
  | .unregister t target listener =>
    if s.pc t = .idle then some (unregister s t target listener) else none
  | .send t deviceObject data =>
    if s.pc t = .idle then some (sendEvent b s t deviceObject data) else none
  | .run t => run b s t

def initial : State A L T where
  listenerList _ := []
  linked _ := false
  mutex _ := none
  pc _ := .idle
  ret _ := none
  walk _ := Walk.begin []
  finished := []
  gone _ := false
  late := []

def system (b : Board A L) : System (State A L T) (Event A L T) where
  Init s := s = initial
  next := next b

end Calls

section Cases

variable [DecidableEq T]

theorem register_cases (b : Board A L) (s : State A L T) (t : T) (target : Option A)
    (listener : Option L) :
    (∃ ret, register b s t target listener = s.back t ret) ∨
      ∃ a l, b.implemented l = true ∧ register b s t target listener = s.move t (.addLock a l) := by
  match target, listener with
  | none, _ => exact .inl ⟨_, rfl⟩
  | some _, none => exact .inl ⟨_, rfl⟩
  | some a, some l =>
    cases himpl : b.implemented l with
    | true => exact .inr ⟨a, l, himpl, by rw [register, if_pos himpl]⟩
    | false => exact .inl ⟨.invalidObject, by simp [register, himpl]⟩

theorem unregister_cases (s : State A L T) (t : T) (target : Option A) (listener : Option L) :
    (∃ ret, unregister s t target listener = s.back t ret) ∨
      ∃ a l, unregister s t target listener = s.move t (.removeLock a l) := by
  match target, listener with
  | none, _ => exact .inl ⟨_, rfl⟩
  | some _, none => exact .inl ⟨_, rfl⟩
  | some a, some l =>
    cases hlinked : s.linked l with
    | true => exact .inr ⟨a, l, by rw [unregister, if_pos hlinked]⟩
    | false => exact .inl ⟨.invalidObject, by simp [unregister, hlinked]⟩

theorem sendEvent_cases [DecidableEq A] (b : Board A L) (s : State A L T) (t : T) (deviceObject : Option A)
    (data : Bool) :
    (∃ ret, sendEvent b s t deviceObject data = s.back t ret) ∨
      (∃ a, deviceObject = some a ∧ data = true ∧
        (s.listenerList a = [] ∨ ∃ i, b.input = some i ∧ i ≠ a) ∧
        sendEvent b s t deviceObject data =
          { s.back t .success with finished := s.finished ++ [Walk.begin (s.listenerList a)] }) ∨
      ∃ a l rest, s.listenerList a = l :: rest ∧ sendEvent b s t deviceObject data =
        { s.move t (.walkLock a l) with
          walk := Function.update s.walk t (Walk.begin (l :: rest)) } := by
  match deviceObject, data with
  | none, _ => exact .inl ⟨_, rfl⟩
  | some _, false => exact .inl ⟨_, rfl⟩
  | some a, true =>
    cases hinput : b.input with
    | none => exact .inl ⟨.notSupport, by simp only [sendEvent, hinput]⟩
    | some i =>
      simp only [sendEvent, hinput]
      by_cases hai : a = i
      · rw [if_pos hai]
        cases hlist : s.listenerList a with
        | nil => exact .inr (.inl ⟨a, rfl, trivial, .inl hlist, by rw [hlist]⟩)
        | cons l rest => exact .inr (.inr ⟨a, l, rest, hlist, rfl⟩)
      · rw [if_neg hai]
        exact .inr (.inl ⟨a, rfl, trivial, .inr ⟨i, rfl, Ne.symm hai⟩, rfl⟩)

end Cases

section Delivery

variable [DecidableEq L]

/-- Dispatches have called what was registered throughout exactly once and none went astray, no
listener was called after its unregistration, and none is in two lists or in one twice. -/
structure Delivered (s : State A L T) : Prop where
  once : ∀ w ∈ s.finished, ∀ l ∈ w.stayed, w.visits.count l = 1
  kept : ∀ t, s.pc t ≠ .lost
  unregistered : s.late = []
  single : ∀ l a a', l ∈ s.listenerList a → l ∈ s.listenerList a' → a = a'
  nodup : ∀ a, (s.listenerList a).Nodup

def Pc.cursor : Pc A L → Option L
  | .walkLock _ l | .receive _ l | .walkUnlock _ l | .next _ l => some l
  | _ => none

/-- A listener that is in the list of another adapter is not inserted; one is removed that is in a
list, with no dispatch standing at it. -/
def CalmAt (s : State A L T) : Pc A L → Prop
  | .insertTail a l => l ∉ s.listenerList a → s.linked l = false
  | .remove _ l => s.linked l = true ∧ ∀ t, (s.pc t).cursor ≠ some l
  | _ => True

/-- Events come from the input device, or from one that has no listeners. -/
def Calm (b : Board A L) (s : State A L T) : Event A L T → Prop
  | .send _ (some a) true => b.input = none ∨ b.input = some a ∨ s.listenerList a = []
  | .run t => CalmAt s (s.pc t)
  | _ => True

/-- Where a context stands: a listener to be inserted can be called, and the walk of a dispatch is
done with what is before the cursor. -/
def Standing (b : Board A L) (lists : A → List L) (w : Walk L) : Pc A L → Prop
  | .addLock _ l | .insertTail _ l => b.implemented l = true
  | .walkLock a l | .receive a l =>
    ∃ before rest, lists a = before ++ l :: rest ∧ Midway before (l :: rest) w
  | .walkUnlock a l | .next a l =>
    ∃ before rest, lists a = before ++ l :: rest ∧ Midway (before ++ [l]) rest w
  | .lost => False
  | .idle | .addUnlock .. | .removeLock .. | .remove .. | .removeUnlock .. => True

structure Inv (b : Board A L) (s : State A L T) : Prop where
  once : ∀ w ∈ s.finished, ∀ l ∈ w.stayed, w.visits.count l = 1
  unregistered : s.late = []
  single : ∀ l a a', l ∈ s.listenerList a → l ∈ s.listenerList a' → a = a'
  nodup : ∀ a, (s.listenerList a).Nodup
  linked : ∀ a l, l ∈ s.listenerList a → s.linked l = true
  implemented : ∀ a l, l ∈ s.listenerList a → b.implemented l = true
  gone : ∀ l, s.gone l = true → s.linked l = false
  standing : ∀ t, Standing b s.listenerList (s.walk t) (s.pc t)

theorem Inv.delivered {b : Board A L} {s : State A L T} (h : Inv b s) : Delivered s where
  once := h.once
  kept t hlost := by
    have hstand := h.standing t
    rw [hlost] at hstand
    exact hstand
  unregistered := h.unregistered
  single := h.single
  nodup := h.nodup

section Step

variable {b : Board A L} {s : State A L T} {t : T} {a : A} {l : L}

theorem inv_initial : Inv b (initial : State A L T) where
  once w hw := absurd hw List.not_mem_nil
  unregistered := rfl
  single l a a' h := absurd h List.not_mem_nil
  nodup _ := List.nodup_nil
  linked a l h := absurd h List.not_mem_nil
  implemented a l h := absurd h List.not_mem_nil
  gone l h := by cases h
  standing _ := trivial

variable [DecidableEq T]

theorem standing_move {lists : A → List L} {walk : T → Walk L} {pc : T → Pc A L}
    (h : ∀ t', Standing b lists (walk t') (pc t')) {pc' : Pc A L} (ht : Standing b lists (walk t) pc')
    (t' : T) : Standing b lists (walk t') (Function.update pc t pc' t') := by
  by_cases heq : t' = t
  · rw [heq, Function.update_self]
    exact ht
  · rw [Function.update_of_ne heq]
    exact h t'

theorem standing_walk {lists : A → List L} {walk : T → Walk L} {pc : T → Pc A L}
    (h : ∀ t', Standing b lists (walk t') (pc t')) {w : Walk L} {pc' : Pc A L}
    (ht : Standing b lists w pc') (t' : T) :
    Standing b lists (Function.update walk t w t') (Function.update pc t pc' t') := by
  by_cases heq : t' = t
  · rw [heq, Function.update_self, Function.update_self]
    exact ht
  · rw [Function.update_of_ne heq, Function.update_of_ne heq]
    exact h t'

/-- The mutexes and the results of calls are not what the invariant is about. -/
theorem Inv.moved (h : Inv b s) {pc : Pc A L} (ht : Standing b s.listenerList (s.walk t) pc)
    (mutex : A → Option T) (ret : T → Option Status) :
    Inv b { s with mutex := mutex, ret := ret, pc := Function.update s.pc t pc } :=
  { h with standing := standing_move h.standing ht }

theorem Inv.back (h : Inv b s) (ret : Status) : Inv b (s.back t ret) := by
  have hidle : Standing b s.listenerList (s.walk t) .idle := trivial
  exact h.moved hidle s.mutex _

theorem Inv.finished (h : Inv b s) {w : Walk L} (hw : ∀ l ∈ w.stayed, w.visits.count l = 1)
    (ret : T → Option Status) :
    Inv b { s with ret := ret, pc := Function.update s.pc t .idle, finished := s.finished ++ [w] } := by
  refine { h with once := fun w' hw' => ?_, standing := standing_move h.standing trivial }
  rcases List.mem_append.mp hw' with hold | hnew
  · exact h.once w' hold
  · rw [List.mem_singleton.mp hnew]
    exact hw

theorem Standing.append [DecidableEq A] {lists : A → List L} {w : Walk L} {pc : Pc A L} (h : Standing b lists w pc)
    (a : A) (l : L) : Standing b (Function.update lists a (lists a ++ [l])) w pc := by
  have hlist : ∀ {a' x before rest}, lists a' = before ++ x :: rest →
      Function.update lists a (lists a ++ [l]) a' = before ++ x :: rest ∨
        Function.update lists a (lists a ++ [l]) a' = before ++ x :: (rest ++ [l]) := by
    intro a' x before rest heq
    by_cases ha : a' = a
    · right
      rw [ha] at heq
      rw [ha, Function.update_self, heq, List.append_assoc, List.cons_append]
    · left
      rw [Function.update_of_ne ha, heq]
  cases pc with
  | walkLock a' x | receive a' x =>
    obtain ⟨before, rest, heq, hmid⟩ := h
    rcases hlist heq with hsame | hmore
    · exact ⟨before, rest, hsame, hmid⟩
    · exact ⟨before, rest ++ [l], hmore, hmid.append l⟩
  | walkUnlock a' x | next a' x =>
    obtain ⟨before, rest, heq, hmid⟩ := h
    rcases hlist heq with hsame | hmore
    · exact ⟨before, rest, hsame, hmid⟩
    · exact ⟨before, rest ++ [l], hmore, hmid.append l⟩
  | lost => exact h
  | addLock a' x | insertTail a' x => exact h
  | idle | addUnlock a' ret | removeLock a' x | remove a' x | removeUnlock a' x => trivial

theorem Standing.leave {lists : A → List L} {w : Walk L} {pc : Pc A L} (h : Standing b lists w pc)
    (hl : pc.cursor ≠ some l) : Standing b (fun a => without (lists a) l) (w.leave l) pc := by
  have hlist : ∀ {a' x before rest}, x ≠ l → lists a' = before ++ x :: rest →
      without (lists a') l = without before l ++ x :: without rest l := by
    intro a' x before rest hne heq
    rw [heq, without_append, without_cons_of_ne hne]
  cases pc with
  | walkLock a' x | receive a' x =>
    have hne : x ≠ l := fun heq => hl (by rw [heq]; rfl)
    obtain ⟨before, rest, heq, hmid⟩ := h
    have hleave := hmid.leave l
    rw [without_cons_of_ne hne] at hleave
    exact ⟨_, _, hlist hne heq, hleave⟩
  | walkUnlock a' x | next a' x =>
    have hne : x ≠ l := fun heq => hl (by rw [heq]; rfl)
    obtain ⟨before, rest, heq, hmid⟩ := h
    have hleave := hmid.leave l
    rw [without_append, without_cons_of_ne hne] at hleave
    exact ⟨_, _, hlist hne heq, hleave⟩
  | lost => exact h
  | addLock a' x | insertTail a' x => exact h
  | idle | addUnlock a' ret | removeLock a' x | remove a' x | removeUnlock a' x => trivial

theorem register_inv (h : Inv b s) (target : Option A) (listener : Option L) :
    Inv b (register b s t target listener) := by
  rcases register_cases b s t target listener with ⟨ret, heq⟩ | ⟨a, l, himpl, heq⟩
  · rw [heq]
    exact h.back ret
  · rw [heq]
    have hadd : Standing b s.listenerList (s.walk t) (.addLock a l) := himpl
    exact h.moved hadd s.mutex s.ret

theorem unregister_inv (h : Inv b s) (target : Option A) (listener : Option L) :
    Inv b (unregister s t target listener) := by
  rcases unregister_cases s t target listener with ⟨ret, heq⟩ | ⟨a, l, heq⟩
  · rw [heq]
    exact h.back ret
  · rw [heq]
    have hremove : Standing b s.listenerList (s.walk t) (.removeLock a l) := trivial
    exact h.moved hremove s.mutex s.ret

theorem sendEvent_inv [DecidableEq A] (h : Inv b s) {deviceObject : Option A} {data : Bool}
    (hc : Calm b s (.send t deviceObject data)) : Inv b (sendEvent b s t deviceObject data) := by
  rcases sendEvent_cases b s t deviceObject data with
    ⟨ret, heq⟩ | ⟨a, rfl, rfl, hskip, heq⟩ | ⟨a, l, rest, hlist, heq⟩
  · rw [heq]
    exact h.back ret
  · have hempty : s.listenerList a = [] := by
      rcases hskip with hempty | ⟨i, hinput, hne⟩
      · exact hempty
      · rcases hc with hnone | hsome | hempty
        · rw [hinput] at hnone
          cases hnone
        · rw [hinput, Option.some.injEq] at hsome
          exact absurd hsome hne
        · exact hempty
    rw [heq, hempty]
    exact h.finished (fun l hl => absurd hl List.not_mem_nil) _
  · have hstand : Standing b s.listenerList (Walk.begin (l :: rest)) (.walkLock a l) :=
      ⟨[], rest, hlist, Midway.begin (l :: rest)⟩
    rw [heq]
    exact { h with standing := standing_walk h.standing hstand }

theorem addListener_inv [DecidableEq A] (h : Inv b s) (himpl : b.implemented l = true)
    (hnew : l ∉ s.listenerList a → s.linked l = false) : Inv b (addListener s t a l) := by
  rw [addListener]
  split_ifs with hmem
  · have hunlock : Standing b s.listenerList (s.walk t) (.addUnlock a .invalidParam) := trivial
    exact h.moved hunlock s.mutex s.ret
  · have hfree : ∀ a', l ∉ s.listenerList a' := fun a' hin => by
      have hlinked := h.linked a' l hin
      rw [hnew hmem] at hlinked
      cases hlinked
    have hlists : ∀ {a' x}, x ∈ Function.update s.listenerList a (s.listenerList a ++ [l]) a' ↔
        x ∈ s.listenerList a' ∨ (x = l ∧ a' = a) := by
      intro a' x
      by_cases ha : a' = a
      · rw [ha, Function.update_self, List.mem_append, List.mem_singleton]
        simp
      · rw [Function.update_of_ne ha]
        simp [ha]
    constructor
    · exact h.once
    · exact h.unregistered
    · intro x a' a'' hx hx'
      rcases hlists.mp hx with hold | ⟨rfl, rfl⟩
      · rcases hlists.mp hx' with hold' | ⟨rfl, rfl⟩
        · exact h.single x a' a'' hold hold'
        · exact absurd hold (hfree a')
      · rcases hlists.mp hx' with hold' | ⟨-, rfl⟩
        · exact absurd hold' (hfree a'')
        · rfl
    · intro a'
      by_cases ha : a' = a
      · rw [ha]
        simp only [Function.update_self]
        exact List.nodup_append.mpr ⟨h.nodup a, List.nodup_singleton l, fun x hx y hy heq =>
          hmem (by rwa [heq, List.mem_singleton.mp hy] at hx)⟩
      · simp only [Function.update_of_ne ha]
        exact h.nodup a'
    · intro a' x hx
      by_cases hxl : x = l
      · simp [hxl]
      · rcases hlists.mp hx with hold | ⟨heq, -⟩
        · simp only [Function.update_of_ne hxl]
          exact h.linked a' x hold
        · exact absurd heq hxl
    · intro a' x hx
      rcases hlists.mp hx with hold | ⟨rfl, -⟩
      · exact h.implemented a' x hold
      · exact himpl
    · intro x hx
      by_cases hxl : x = l
      · simp [hxl] at hx
      · simp only [Function.update_of_ne hxl] at hx ⊢
        exact h.gone x hx
    · exact standing_move (fun t' => (h.standing t').append a l) trivial

theorem dListRemove_inv (h : Inv b s) (hlinked : s.linked l = true)
    (hcursor : ∀ t', (s.pc t').cursor ≠ some l) : Inv b (dListRemove s t a l) := by
  rw [dListRemove, if_pos hlinked]
  constructor
  · exact h.once
  · exact h.unregistered
  · intro x a' a'' hx hx'
    exact h.single x a' a'' (mem_without.mp hx).1 (mem_without.mp hx').1
  · exact fun a' => nodup_without (h.nodup a') l
  · intro a' x hx
    obtain ⟨hx, hne⟩ := mem_without.mp hx
    simp only [Function.update_of_ne hne]
    exact h.linked a' x hx
  · intro a' x hx
    exact h.implemented a' x (mem_without.mp hx).1
  · intro x hx
    by_cases hxl : x = l
    · simp [hxl]
    · simp only [Function.update_of_ne hxl]
      exact h.gone x hx
  · exact standing_move (fun t' => (h.standing t').leave (hcursor t')) trivial

/-- The listener at the cursor is linked, so that its unregistration has not returned. -/
theorem onReceive_inv (h : Inv b s) (hpc : s.pc t = .receive a l) : Inv b (onReceive b s t a l) := by
  have hstand := h.standing t
  rw [hpc] at hstand
  obtain ⟨before, rest, hlist, hmid⟩ := hstand
  have hmem : l ∈ s.listenerList a := by
    rw [hlist]
    exact List.mem_append_right _ List.mem_cons_self
  have hgone : s.gone l = false := by
    by_contra hgone
    have hnot := h.gone l (Bool.eq_true_of_not_eq_false hgone)
    rw [h.linked a l hmem] at hnot
    cases hnot
  have hn := h.nodup a
  rw [hlist] at hn
  have hnext : Standing b s.listenerList ((s.walk t).visit l) (.walkUnlock a l) :=
    ⟨before, rest, hlist, hmid.visit hn⟩
  rw [onReceive, if_pos (h.implemented a l hmem), hgone]
  exact { h with standing := standing_walk h.standing hnext }

theorem advance_inv (h : Inv b s) (hpc : s.pc t = .next a l) : Inv b (advance s t a l) := by
  have hstand := h.standing t
  rw [hpc] at hstand
  obtain ⟨before, rest, hlist, hmid⟩ := hstand
  have hn := h.nodup a
  rw [hlist] at hn
  have hbefore : l ∉ before := fun hmem =>
    (List.nodup_append.mp hn).2.2 l hmem l List.mem_cons_self rfl
  rw [advance, hlist, successor_append hbefore]
  cases rest with
  | nil => exact h.finished (fun x hx => hmid.finish hx) _
  | cons l' rest =>
    have hnext : Standing b s.listenerList (s.walk t) (.walkLock a l') := by
      refine ⟨before ++ [l], rest, ?_, hmid⟩
      rw [hlist, List.append_assoc]
      rfl
    exact h.moved hnext s.mutex s.ret

theorem lock_inv [DecidableEq A] (h : Inv b s) {pc : Pc A L} (ht : Standing b s.listenerList (s.walk t) pc)
    {s' : State A L T} (hs' : (s.lock t a).map (fun s => s.move t pc) = some s') : Inv b s' := by
  obtain ⟨locked, hlock, rfl⟩ := Option.map_eq_some_iff.mp hs'
  obtain ⟨-, hlock⟩ := Option.ite_none_right_eq_some.mp hlock
  rw [← Option.some.inj hlock]
  exact h.moved ht _ _

theorem run_inv [DecidableEq A] (h : Inv b s) (hc : Calm b s (.run t)) {s' : State A L T}
    (hs' : run b s t = some s') : Inv b s' := by
  have hstand := h.standing t
  rw [run] at hs'
  rw [Calm] at hc
  cases hpc : s.pc t with
  | idle | lost =>
    rw [hpc] at hs'
    cases hs'
  | addLock a l =>
    rw [hpc] at hs' hstand
    have hinsert : Standing b s.listenerList (s.walk t) (.insertTail a l) := hstand
    exact lock_inv h hinsert hs'
  | removeLock a l =>
    rw [hpc] at hs'
    have hremove : Standing b s.listenerList (s.walk t) (.remove a l) := trivial
    exact lock_inv h hremove hs'
  | walkLock a l =>
    rw [hpc] at hs' hstand
    have hreceive : Standing b s.listenerList (s.walk t) (.receive a l) := hstand
    exact lock_inv h hreceive hs'
  | insertTail a l =>
    rw [hpc] at hs' hstand hc
    rw [← Option.some.inj hs']
    exact addListener_inv h hstand hc
  | remove a l =>
    rw [hpc] at hs' hc
    rw [← Option.some.inj hs']
    exact dListRemove_inv h hc.1 hc.2
  | addUnlock a ret =>
    rw [hpc] at hs'
    rw [← Option.some.inj hs']
    have hidle : Standing b s.listenerList (s.walk t) .idle := trivial
    exact h.moved hidle _ _
  | removeUnlock a l =>
    rw [hpc] at hs'
    rw [← Option.some.inj hs']
    refine { h with gone := fun x hx => ?_, standing := standing_move h.standing trivial }
    cases hlinked : s.linked l with
    | true =>
      rw [hlinked] at hx
      exact h.gone x hx
    | false =>
      by_cases hxl : x = l
      · rw [hxl]
        exact hlinked
      · rw [hlinked] at hx
        simp only [Bool.false_eq_true, if_false, Function.update_of_ne hxl] at hx
        exact h.gone x hx
  | receive a l =>
    rw [hpc] at hs'
    rw [← Option.some.inj hs']
    exact onReceive_inv h hpc
  | walkUnlock a l =>
    rw [hpc] at hs' hstand
    rw [← Option.some.inj hs']
    have hnext : Standing b s.listenerList (s.walk t) (.next a l) := hstand
    exact h.moved hnext _ s.ret
  | next a l =>
    rw [hpc] at hs'
    rw [← Option.some.inj hs']
    exact advance_inv h hpc

theorem next_inv [DecidableEq A] (h : Inv b s) {e : Event A L T} (hc : Calm b s e) {s' : State A L T}
    (hs' : next b s e = some s') : Inv b s' := by
  cases e with
  | run t => exact run_inv h hc hs'
  | register t target listener =>
    obtain ⟨-, hs'⟩ := Option.ite_none_right_eq_some.mp hs'
    rw [← Option.some.inj hs']
    exact register_inv h target listener
  | unregister t target listener =>
    obtain ⟨-, hs'⟩ := Option.ite_none_right_eq_some.mp hs'
    rw [← Option.some.inj hs']
    exact unregister_inv h target listener
  | send t deviceObject data =>
    obtain ⟨-, hs'⟩ := Option.ite_none_right_eq_some.mp hs'
    rw [← Option.some.inj hs']
    exact sendEvent_inv h hc

end Step

end Delivery

def Pc.holds : Pc A L → Option A
  | .insertTail a _ | .addUnlock a _ | .remove a _ | .removeUnlock a _ | .receive a _
  | .walkUnlock a _ => some a
  | .idle | .addLock .. | .removeLock .. | .walkLock .. | .next .. | .lost => none

def Holding (s : State A L T) : Prop := ∀ t a, (s.pc t).holds = some a → s.mutex a = some t

section Mutex

variable [DecidableEq T] {b : Board A L} {s s' : State A L T} {t : T} {a : A} {pc : Pc A L}

theorem Holding.keep (h : Holding s) (hpc : s'.pc = Function.update s.pc t pc)
    (hmutex : s'.mutex = s.mutex) (hold : ∀ a, pc.holds = some a → (s.pc t).holds = some a) :
    Holding s' := by
  intro t' a' hholds
  rw [hmutex]
  rw [hpc] at hholds
  by_cases heq : t' = t
  · rw [heq] at hholds ⊢
    rw [Function.update_self] at hholds
    exact h t a' (hold a' hholds)
  · rw [Function.update_of_ne heq] at hholds
    exact h t' a' hholds

theorem Holding.lock [DecidableEq A] (h : Holding s) (hpc : pc.holds = some a)
    (hs' : (s.lock t a).map (fun s => s.move t pc) = some s') : Holding s' := by
  obtain ⟨locked, hlock, rfl⟩ := Option.map_eq_some_iff.mp hs'
  obtain ⟨hfree, hlock⟩ := Option.ite_none_right_eq_some.mp hlock
  rw [← Option.some.inj hlock]
  intro t' a' hholds
  by_cases heq : t' = t
  · rw [heq] at hholds ⊢
    simp only [State.move, Function.update_self, hpc, Option.some.injEq] at hholds
    simp [State.move, hholds]
  · simp only [State.move, Function.update_of_ne heq] at hholds
    have hold := h t' a' hholds
    have hne : a' ≠ a := fun ha => by
      rw [ha, hfree] at hold
      cases hold
    simp only [State.move, Function.update_of_ne hne]
    exact hold

theorem Holding.unlock [DecidableEq A] (h : Holding s) (ha : (s.pc t).holds = some a) (hnone : pc.holds = none)
    (hpc : s'.pc = Function.update s.pc t pc)
    (hmutex : s'.mutex = Function.update s.mutex a none) : Holding s' := by
  intro t' a' hholds
  rw [hpc] at hholds
  by_cases heq : t' = t
  · rw [heq, Function.update_self, hnone] at hholds
    cases hholds
  · rw [Function.update_of_ne heq] at hholds
    have hold := h t' a' hholds
    have hne : a' ≠ a := fun haa => by
      rw [haa, h t a ha] at hold
      exact heq (Option.some.inj hold).symm
    rw [hmutex, Function.update_of_ne hne]
    exact hold

theorem run_holding [DecidableEq A] [DecidableEq L] (h : Holding s) (hs' : run b s t = some s') : Holding s' := by
  rw [run] at hs'
  cases hpc : s.pc t with
  | idle | lost =>
    rw [hpc] at hs'
    cases hs'
  | addLock a l | removeLock a l | walkLock a l =>
    rw [hpc] at hs'
    exact h.lock rfl hs'
  | insertTail a l =>
    rw [hpc] at hs'
    rw [← Option.some.inj hs', addListener]
    split_ifs
    · exact h.keep rfl rfl fun a' ha => by rwa [hpc]
    · exact h.keep rfl rfl fun a' ha => by rwa [hpc]
  | remove a l =>
    rw [hpc] at hs'
    rw [← Option.some.inj hs', dListRemove]
    split_ifs
    · exact h.keep rfl rfl fun a' ha => by rwa [hpc]
    · exact h.keep rfl rfl fun a' ha => by cases ha
  | receive a l =>
    rw [hpc] at hs'
    rw [← Option.some.inj hs', onReceive]
    by_cases himpl : b.implemented l
    · rw [if_pos himpl]
      exact h.keep rfl rfl fun a' ha => by rwa [hpc]
    · rw [if_neg himpl]
      exact h.keep rfl rfl fun a' ha => by rwa [hpc]
  | addUnlock a ret =>
    rw [hpc] at hs'
    rw [← Option.some.inj hs']
    exact h.unlock (congrArg Pc.holds hpc) rfl rfl rfl
  | removeUnlock a l =>
    rw [hpc] at hs'
    rw [← Option.some.inj hs']
    exact h.unlock (congrArg Pc.holds hpc) rfl rfl rfl
  | walkUnlock a l =>
    rw [hpc] at hs'
    rw [← Option.some.inj hs']
    exact h.unlock (congrArg Pc.holds hpc) rfl rfl rfl
  | next a l =>
    rw [hpc] at hs'
    rw [← Option.some.inj hs', advance]
    cases successor (s.listenerList a) l with
    | none => exact h.keep rfl rfl fun a' ha => by cases ha
    | some rest =>
      cases rest with
      | none => exact h.keep rfl rfl fun a' ha => by cases ha
      | some l' => exact h.keep rfl rfl fun a' ha => by cases ha

theorem next_holding [DecidableEq A] [DecidableEq L] (h : Holding s) {e : Event A L T} (hs' : next b s e = some s') :
    Holding s' := by
  have hback : ∀ t ret, Holding (s.back t ret) := fun t ret =>
    h.keep rfl rfl fun a ha => by cases ha
  cases e with
  | run t => exact run_holding h hs'
  | register t target listener =>
    obtain ⟨-, hs'⟩ := Option.ite_none_right_eq_some.mp hs'
    rw [← Option.some.inj hs']
    rcases register_cases b s t target listener with ⟨ret, heq⟩ | ⟨a, l, -, heq⟩
    · rw [heq]
      exact hback t ret
    · rw [heq]
      exact h.keep rfl rfl fun a ha => by cases ha
  | unregister t target listener =>
    obtain ⟨-, hs'⟩ := Option.ite_none_right_eq_some.mp hs'
    rw [← Option.some.inj hs']
    rcases unregister_cases s t target listener with ⟨ret, heq⟩ | ⟨a, l, heq⟩
    · rw [heq]
      exact hback t ret
    · rw [heq]
      exact h.keep rfl rfl fun a ha => by cases ha
  | send t deviceObject data =>
    obtain ⟨-, hs'⟩ := Option.ite_none_right_eq_some.mp hs'
    rw [← Option.some.inj hs']
    rcases sendEvent_cases b s t deviceObject data with
      ⟨ret, heq⟩ | ⟨a, -, -, -, heq⟩ | ⟨a, l, rest, -, heq⟩
    · rw [heq]
      exact hback t ret
    · rw [heq]
      exact hback t .success
    · rw [heq]
      exact h.keep rfl rfl fun a ha => by cases ha

end Mutex

variable [DecidableEq A] [DecidableEq L] [DecidableEq T]

theorem exclusive {b : Board A L} {s : State A L T} (h : Reachable (system b) s) {t t' : T} {a : A}
    (ht : (s.pc t).holds = some a) (ht' : (s.pc t').holds = some a) : t = t' := by
  have hholding : Holding s := by
    apply h.invariant
    · rintro _ rfl t a ha
      cases ha
    · exact fun s e s' hs hs' => next_holding hs hs'
  have hmutex := hholding t a ht
  rw [hholding t' a ht'] at hmutex
  exact (Option.some.inj hmutex).symm

instance [Fintype T] (s : State A L T) (pc : Pc A L) : Decidable (CalmAt s pc) :=
  match pc with
  | .insertTail a l => inferInstanceAs (Decidable (l ∉ s.listenerList a → s.linked l = false))
  | .remove _ l =>
    inferInstanceAs (Decidable (s.linked l = true ∧ ∀ t, (s.pc t).cursor ≠ some l))
  | .idle | .addLock .. | .addUnlock .. | .removeLock .. | .removeUnlock .. | .walkLock ..
  | .receive .. | .walkUnlock .. | .next .. | .lost => isTrue trivial

instance [Fintype T] (b : Board A L) (s : State A L T) (e : Event A L T) : Decidable (Calm b s e) :=
  match e with
  | .send _ (some a) true =>
    inferInstanceAs (Decidable (b.input = none ∨ b.input = some a ∨ s.listenerList a = []))
  | .run t => inferInstanceAs (Decidable (CalmAt s (s.pc t)))
  | .register .. | .unregister .. | .send _ none _ | .send _ (some _) false => isTrue trivial

def twoAdapters : Board ℕ ℕ := ⟨some 0, fun _ => true⟩

/-- The context `t` takes its next steps. -/
def steps (t : Bool) (n : ℕ) : List (Event ℕ ℕ Bool) := List.replicate n (.run t)

def listen (t : Bool) (a l : ℕ) : List (Event ℕ ℕ Bool) :=
  .register t (some a) (some l) :: steps t 3

def unlisten (t : Bool) (a l : ℕ) : List (Event ℕ ℕ Bool) :=
  .unregister t (some a) (some l) :: steps t 3

/-- A dispatch starts with the listeners 0 and 1; listener 2 comes and 1 goes meanwhile. -/
def changing : List (Event ℕ ℕ Bool) :=
  listen true 0 0 ++ listen true 0 1 ++ [.send false (some 0) true] ++ listen true 0 2 ++
    unlisten true 0 1 ++ steps false 8

/-- Every state of a run whose steps are calm. -/
theorem calm_delivered (b : Board A L) {s : State A L T} (h : ReachableUnder (system b) (Calm b) s) :
    Delivered s := by
  have hinv : Inv b s := by
    apply h.invariant
    · rintro _ rfl
      exact inv_initial
    · exact fun s e t hs hc ht => next_inv hs hc ht
  exact hinv.delivered

theorem delivered_meanwhile :
    ∃ s, (system twoAdapters).run initial changing = some s ∧ s.finished = [⟨[0], [0, 2]⟩] ∧
      Delivered s := by
  have hrun : ((system twoAdapters).run initial changing).map (fun s => decide
      (s.finished = [⟨[0], [0, 2]⟩])) = some true := by
    decide +kernel
  obtain ⟨s, hs, hfinished⟩ := Option.map_eq_some_iff.mp hrun
  have hcalm : StepsMeet (system twoAdapters) (Calm twoAdapters) initial changing := by
    decide +kernel
  exact ⟨s, hs, of_decide_eq_true hfinished,
    calm_delivered twoAdapters (ReachableUnder.run (.init rfl) hcalm hs)⟩

/-- The listener goes and comes back behind the dispatch that stands at it, which then ends. -/
def comesBack : List (Event ℕ ℕ Bool) :=
  listen true 0 0 ++ listen true 0 1 ++ [.send false (some 0) true] ++ steps false 3 ++
    unlisten true 0 0 ++ listen true 0 0 ++ steps false 1

/-- The listener goes before the dispatch that stands at it has the mutex. -/
def called : List (Event ℕ ℕ Bool) :=
  listen true 0 0 ++ [.send false (some 0) true] ++ unlisten true 0 0 ++ steps false 2

def shared : List (Event ℕ ℕ Bool) := listen true 0 0 ++ listen true 1 0

/-- A listener that stayed is passed over, one is called after it has gone, one is in two lists. -/
theorem late_call :
    (∃ s : State ℕ ℕ Bool, Reachable (system twoAdapters) s ∧
      ∃ w ∈ s.finished, 1 ∈ w.stayed ∧ 1 ∉ w.visits) ∧
    (∃ s : State ℕ ℕ Bool, Reachable (system twoAdapters) s ∧ s.late = [0]) ∧
    ∃ s : State ℕ ℕ Bool, Reachable (system twoAdapters) s ∧
      0 ∈ s.listenerList 0 ∧ 0 ∈ s.listenerList 1 := by
  refine ⟨?_, ?_, ?_⟩
  · have hrun : ((system twoAdapters).run initial comesBack).map (fun s => decide
        (∃ w ∈ s.finished, 1 ∈ w.stayed ∧ 1 ∉ w.visits)) = some true := by
      decide +kernel
    obtain ⟨s, hs, hmissed⟩ := exists_reachable (S := system twoAdapters) rfl hrun
    exact ⟨s, hs, of_decide_eq_true hmissed⟩
  · have hrun : ((system twoAdapters).run initial called).map (fun s => decide
        (s.late = [0])) = some true := by
      decide +kernel
    obtain ⟨s, hs, hlate⟩ := exists_reachable (S := system twoAdapters) rfl hrun
    exact ⟨s, hs, of_decide_eq_true hlate⟩
  · have hrun : ((system twoAdapters).run initial shared).map (fun s => decide
        (0 ∈ s.listenerList 0 ∧ 0 ∈ s.listenerList 1)) = some true := by
      decide +kernel
    obtain ⟨s, hs, hboth⟩ := exists_reachable (S := system twoAdapters) rfl hrun
    exact ⟨s, hs, of_decide_eq_true hboth⟩

end HdfSyscallAdapter
