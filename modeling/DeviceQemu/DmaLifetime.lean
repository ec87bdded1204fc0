import DeviceQemu.StepSystem
import Mathlib.Data.Nat.Notation

/-! Memory lent to a device.
A driver allocates a block for each initialisation, points the device at it and starts the
device, which from then on reaches the block and what is published to it until it is reset.
Calls are scripts of small operations, with the traffic of the device in between. -/
namespace DmaLifetime

open StepSystem

variable {ι τ ε β : Type*}

/-- What happens between a driver and its started device. `reaches` are the buffers of the
chains that are published and not used yet, `Holds` those that are the driver's to lend.
`backed` and `attached` tell whether a second piece of memory was allocated and shown to the
device, `settled` how the part of an initialisation that needs the device ended. -/
structure Traffic (τ ε β : Type*) where
  Fresh : τ → Prop
  next : τ → ε → Option τ
  reaches : τ → List β
  Holds : τ → β → Prop
  backed : τ → Bool
  attached : τ → Bool
  settled : τ → Option Bool

def Traffic.system (T : Traffic τ ε β) : System τ ε where
  Init := T.Fresh
  next := T.next

/-- No traffic makes the device reach a buffer that is not the driver's to lend. -/
def Traffic.Lawful (T : Traffic τ ε β) : Prop :=
  ∀ t, Reachable T.system t → ∀ b ∈ T.reaches t, T.Holds t b

/-- Memory, by the number of the initialisation that allocated it. -/
inductive Mem (β : Type*) where
  | block (n : ℕ)
  | backing (n : ℕ)
  | lent (b : β)
  deriving DecidableEq

/-- `keep` and `drop` set the pointer a later release goes by; `stray` frees through a pointer
that was never set; `finish` ends an initialisation that failed or was undone. -/
inductive Op (τ β : Type*) where
  | take
  | free
  | freeBacking
  | stray (m : Mem β)
  | reset
  | point
  | start (t : τ)
  | keep
  | drop
  | await
  | bind
  | finish
  | halt

/-- `latest` is the number of the latest initialisation, from 1 on, and `target` the one whose
block the running call works on. -/
structure State (τ β : Type*) where
  todo : List (Op τ β)
  latest : ℕ
  target : ℕ
  kept : Option ℕ
  bound : Bool
  freed : List (Mem β)
  ended : List ℕ
  started : Bool
  rings : Option ℕ
  traffic : Option τ

def initial : State τ β := ⟨[], 0, 0, none, false, [], [], false, none, none⟩

structure Driver (ι τ ε β : Type*) extends Traffic τ ε β where
  script : ι → List (Op τ β)
  release : List (Op τ β)

/-- An operation of the running call, `s.todo` being what remains after it. A failed `await`
goes over to the release. -/
def exec (d : Driver ι τ ε β) (s : State τ β) : Op τ β → Option (State τ β)
  | .take => some { s with latest := s.latest + 1, target := s.latest + 1 }
  | .free => some { s with freed := .block s.target :: s.freed }
  | .freeBacking =>
    some { s with
      freed := if s.traffic.any d.backed then .backing s.target :: s.freed else s.freed }
  | .stray m => some { s with freed := m :: s.freed }
  | .reset => some { s with started := false, rings := none, traffic := none }
  | .point => some { s with rings := some s.target }
  | .start t => some { s with started := true, traffic := some t }
  | .keep => some { s with kept := some s.target }
  | .drop => some { s with kept := none }
  | .await =>
    (s.traffic.bind d.settled).map fun ok => if ok then s else { s with todo := d.release }
  | .bind => some { s with bound := true }
  | .finish => some { s with ended := s.target :: s.ended, bound := false }
  | .halt => none

inductive Event (ι ε : Type*) where
  | init (i : ι)
  | deinit
  | step
  | traffic (e : ε)

/-- A call starts when none is running; a bound device is released before it is initialised
again. -/
def next (d : Driver ι τ ε β) (s : State τ β) : Event ι ε → Option (State τ β)
  | .init i => if s.todo.isEmpty && !s.bound then some { s with todo := d.script i } else none
  | .deinit =>
    if s.todo.isEmpty then s.kept.map fun n => { s with target := n, todo := d.release }
    else none
  | .step =>
    match s.todo with
    | [] => none
    | op :: rest => exec d { s with todo := rest } op
  | .traffic e => (s.traffic.bind (d.next · e)).map fun t => { s with traffic := some t }

def system (d : Driver ι τ ε β) : System (State τ β) (Event ι ε) where
  Init s := s = initial
  next := next d

def Accessible (d : Driver ι τ ε β) (s : State τ β) : Mem β → Prop
  | .block n => s.started = true ∧ s.rings = some n
  | .backing n => s.started = true ∧ s.rings = some n ∧ s.traffic.any d.attached = true
  | .lent b => s.started = true ∧ ∃ t, s.traffic = some t ∧ b ∈ d.reaches t

def Alive (d : Driver ι τ ε β) (s : State τ β) : Mem β → Prop
  | .block n => .block n ∉ s.freed ∧ n ∉ s.ended
  | .backing n => .backing n ∉ s.freed ∧ n ∉ s.ended
  | .lent b => ∃ t, s.traffic = some t ∧ d.Holds t b

/-- The device reaches only memory that is neither freed nor left by a failed or undone
initialisation. -/
def Safe (d : Driver ι τ ε β) (s : State τ β) : Prop := ∀ m, Accessible d s m → Alive d s m

/-- The part of the initialisation that needs the device has failed and is about to be undone. -/
def failing (d : Driver ι τ ε β) (s : State τ β) : Bool :=
  match s.todo with
  | .await :: _ => s.traffic.bind d.settled == some false
  | _ => false

/-- No initialisation that goes wrong after the start, and no release of a started device. -/
def Orderly (d : Driver ι τ ε β) (Clean : ι → Prop) (s : State τ β) : Event ι ε → Prop
  | .init i => Clean i
  | .deinit => s.started = false
  | .step => failing d s = false
  | .traffic _ => True

instance (d : Driver ι τ ε β) (Clean : ι → Prop) [DecidablePred Clean] (s : State τ β) :
    ∀ e, Decidable (Orderly d Clean s e)
  | .init i => inferInstanceAs (Decidable (Clean i))
  | .deinit => inferInstanceAs (Decidable (s.started = false))
  | .step => inferInstanceAs (Decidable (failing d s = false))
  | .traffic _ => inferInstanceAs (Decidable True)

def OrderlyRun (d : Driver ι τ ε β) (Clean : ι → Prop) (es : List (Event ι ε)) : Prop :=
  StepsMeet (system d) (Orderly d Clean) initial es

instance (d : Driver ι τ ε β) (Clean : ι → Prop) [DecidablePred Clean] (es : List (Event ι ε)) :
    Decidable (OrderlyRun d Clean es) :=
  inferInstanceAs (Decidable (StepsMeet _ _ _ _))

def SafeRun (d : Driver ι τ ε β) (es : List (Event ι ε)) : Prop :=
  StatesMeet (system d) (Safe d) initial es

/-- What the operations so far say about the running call. -/
inductive Phase where
  | idle
  | taken
  | ready
  | running
  | bound
  deriving DecidableEq

/-- The phase after an operation; none when the operation would not be safe there. -/
def Phase.after : Phase → Op τ β → Option Phase
  | .idle, .take => some .taken
  | .taken, .reset | .ready, .reset | .ready, .point => some .ready
  | .ready, .start _ => some .running
  | .idle, .free | .idle, .freeBacking | .idle, .finish | .idle, .reset => some .idle
  | .taken, .free | .taken, .freeBacking | .taken, .finish => some .idle
  | .ready, .free | .ready, .freeBacking | .ready, .finish => some .idle
  | .running, .await => some .running
  | .running, .bind => some .bound
  | p, .keep | p, .drop | p, .halt => some p
  | _, _ => none

/-- From phase `p` the operations are safe, and leave the device bound or at rest. -/
def Admits (d : Driver ι τ ε β) (p : Phase) : List (Op τ β) → Prop
  | [] => p = .idle ∨ p = .bound
  | op :: rest => (∀ t, op = .start t → d.Fresh t) ∧ ∃ q, p.after op = some q ∧ Admits d q rest

structure Intact (s : State τ β) (n : ℕ) : Prop where
  block : .block n ∉ s.freed
  backing : .backing n ∉ s.freed
  ended : n ∉ s.ended

structure Numbered (s : State τ β) : Prop where
  target : s.target ≤ s.latest
  kept : ∀ n, s.kept = some n → n ≤ s.latest
  fresh : ∀ n, s.latest < n → Intact s n

/-- The device's rings are in the block of the running call, if it has been given any. -/
def Pointed (s : State τ β) : Prop := ∀ n, s.rings = some n → n = s.target

structure Live (d : Driver ι τ ε β) (s : State τ β) : Prop where
  started : s.started = true
  intact : Intact s s.target
  pointed : Pointed s
  traffic : ∃ t, s.traffic = some t ∧ Reachable d.system t

def At (d : Driver ι τ ε β) (s : State τ β) : Phase → Prop
  | .idle => s.started = false
  | .taken => s.started = false ∧ Intact s s.target
  | .ready => s.started = false ∧ Intact s s.target ∧ Pointed s
  | .running => Live d s
  | .bound => Live d s ∧ s.bound = true

structure Inv (d : Driver ι τ ε β) (s : State τ β) (p : Phase) : Prop where
  at_phase : At d s p
  admits : Admits d p s.todo
  numbered : Numbered s

theorem Live.safe {d : Driver ι τ ε β} (hT : d.Lawful) {s : State τ β} (h : Live d s) :
    Safe d s := by
  obtain ⟨t, ht, hreach⟩ := h.traffic
  intro m hm
  cases m with
  | block n =>
    obtain rfl := h.pointed n hm.2
    exact ⟨h.intact.block, h.intact.ended⟩
  | backing n =>
    obtain rfl := h.pointed n hm.2.1
    exact ⟨h.intact.backing, h.intact.ended⟩
  | lent b =>
    obtain ⟨-, t', ht', hb⟩ := hm
    obtain rfl : t = t' := Option.some.inj (ht.symm.trans ht')
    exact ⟨t, ht, hT t hreach b hb⟩

theorem safe_of_stopped {d : Driver ι τ ε β} {s : State τ β} (h : s.started = false) :
    Safe d s := by
  intro m hm
  have hstarted : s.started = true := by
    cases m with
    | block n | backing n | lent b => exact hm.1
  simp [h] at hstarted

theorem Inv.safe {d : Driver ι τ ε β} (hT : d.Lawful) {s : State τ β} {p : Phase}
    (h : Inv d s p) : Safe d s := by
  have hat := h.at_phase
  cases p with
  | idle => exact safe_of_stopped hat
  | taken | ready => exact safe_of_stopped hat.1
  | running => exact hat.safe hT
  | bound => exact hat.1.safe hT

theorem Intact.frame {s t : State τ β} {n : ℕ} (h : Intact s n) (hfreed : t.freed = s.freed)
    (hended : t.ended = s.ended) : Intact t n :=
  ⟨hfreed ▸ h.block, hfreed ▸ h.backing, hended ▸ h.ended⟩

/-- Phases know nothing of the pointer kept for a release, nor of what is left to do. -/
theorem At.frame {d : Driver ι τ ε β} {s : State τ β} {p : Phase} (h : At d s p)
    (todo : List (Op τ β)) (latest : ℕ) (kept : Option ℕ) :
    At d { s with todo, latest, kept } p := by
  cases p with
  | idle => exact h
  | taken => exact ⟨h.1, h.2.frame rfl rfl⟩
  | ready => exact ⟨h.1, h.2.1.frame rfl rfl, h.2.2⟩
  | running => exact ⟨h.started, h.intact.frame rfl rfl, h.pointed, h.traffic⟩
  | bound => exact ⟨⟨h.1.started, h.1.intact.frame rfl rfl, h.1.pointed, h.1.traffic⟩, h.2⟩

/-- Freeing or ending what the current call works on spares the numbers still to come. -/
theorem Numbered.lose {s t : State τ β} (h : Numbered s) (hlatest : t.latest = s.latest)
    (htarget : t.target = s.target) (hkept : t.kept = s.kept)
    (hfreed : ∀ m ∈ t.freed, m ∈ s.freed ∨ m = .block s.target ∨ m = .backing s.target)
    (hended : ∀ n ∈ t.ended, n ∈ s.ended ∨ n = s.target) : Numbered t := by
  have hle := h.target
  constructor
  · rw [hlatest, htarget]
    exact h.target
  · intro n hn
    rw [hlatest]
    exact h.kept n (hkept ▸ hn)
  · intro n hn
    rw [hlatest] at hn
    have hfresh := h.fresh n hn
    constructor
    · intro hm
      rcases hfreed _ hm with hm | hm | hm
      · exact hfresh.block hm
      · obtain rfl : n = s.target := by injection hm
        omega
      · cases hm
    · intro hm
      rcases hfreed _ hm with hm | hm | hm
      · exact hfresh.backing hm
      · cases hm
      · obtain rfl : n = s.target := by injection hm
        omega
    · intro hm
      rcases hended _ hm with hm | hm
      · exact hfresh.ended hm
      · omega

theorem At.stopped {d : Driver ι τ ε β} {s : State τ β} {p : Phase} (h : At d s p)
    (hp : p = .idle ∨ p = .taken ∨ p = .ready) : s.started = false := by
  rcases hp with rfl | rfl | rfl
  · exact h
  · exact h.1
  · exact h.1

/-- Memory goes only while the device is stopped, and then nothing is known of it any more. -/
theorem after_lose {p q : Phase} {op : Op τ β}
    (hop : op = .free ∨ op = .freeBacking ∨ op = .finish) (hq : p.after op = some q) :
    (p = .idle ∨ p = .taken ∨ p = .ready) ∧ q = .idle := by
  rcases hop with rfl | rfl | rfl
  all_goals cases p <;> simp_all [Phase.after]

theorem exec_step {d : Driver ι τ ε β} {s t : State τ β} {op : Op τ β} {p q : Phase}
    (hat : At d s p) (hnum : Numbered s) (hstart : ∀ u, op = .start u → d.Fresh u)
    (hq : p.after op = some q) (ht : exec d s op = some t)
    (hok : op = .await → s.traffic.bind d.settled ≠ some false) :
    At d t q ∧ Numbered t ∧ t.todo = s.todo := by
  have hsame : ∀ {u : State τ β}, u.latest = s.latest → u.target = s.target →
      u.kept = s.kept → u.freed = s.freed → u.ended = s.ended → Numbered u := by
    intro u h1 h2 h3 h4 h5
    exact hnum.lose h1 h2 h3 (fun m hm => .inl (h4 ▸ hm)) fun n hn => .inl (h5 ▸ hn)
  cases op with
  | take =>
    obtain rfl := Option.some.inj ht
    cases p with
    | idle =>
      obtain rfl := Option.some.inj hq
      have hfresh := hnum.fresh (s.latest + 1) (Nat.lt_succ_self _)
      exact ⟨⟨hat, hfresh.frame rfl rfl⟩,
        ⟨Nat.le_refl _, fun n hn => Nat.le_succ_of_le (hnum.kept n hn),
          fun n hn => (hnum.fresh n (Nat.lt_of_succ_lt hn)).frame rfl rfl⟩, rfl⟩
    | taken | ready | running | bound => simp [Phase.after] at hq
  | free =>
    obtain rfl := Option.some.inj ht
    obtain ⟨hp, rfl⟩ := after_lose (.inl rfl) hq
    refine ⟨hat.stopped hp, hnum.lose rfl rfl rfl (fun m hm => ?_) fun n hn => .inl hn, rfl⟩
    rcases List.mem_cons.mp hm with hm | hm
    · exact .inr (.inl hm)
    · exact .inl hm
  | freeBacking =>
    obtain rfl := Option.some.inj ht
    obtain ⟨hp, rfl⟩ := after_lose (.inr (.inl rfl)) hq
    refine ⟨hat.stopped hp, hnum.lose rfl rfl rfl (fun m hm => ?_) fun n hn => .inl hn, rfl⟩
    dsimp only at hm
    split at hm
    · rcases List.mem_cons.mp hm with hm | hm
      · exact .inr (.inr hm)
      · exact .inl hm
    · exact .inl hm
  | finish =>
    obtain rfl := Option.some.inj ht
    obtain ⟨hp, rfl⟩ := after_lose (.inr (.inr rfl)) hq
    refine ⟨hat.stopped hp, hnum.lose rfl rfl rfl (fun m hm => .inl hm) fun n hn => ?_, rfl⟩
    rcases List.mem_cons.mp hn with hn | hn
    · exact .inr hn
    · exact .inl hn
  | stray m => cases p <;> simp [Phase.after] at hq
  | reset =>
    obtain rfl := Option.some.inj ht
    refine ⟨?_, hsame rfl rfl rfl rfl rfl, rfl⟩
    cases p with
    | idle =>
      obtain rfl := Option.some.inj hq
      rfl
    | taken | ready =>
      obtain rfl := Option.some.inj hq
      have hintact : Intact s s.target := by first | exact hat.2 | exact hat.2.1
      exact ⟨rfl, hintact.frame rfl rfl, fun n hn => by simp at hn⟩
    | running | bound => simp [Phase.after] at hq
  | point =>
    obtain rfl := Option.some.inj ht
    refine ⟨?_, hsame rfl rfl rfl rfl rfl, rfl⟩
    cases p with
    | ready =>
      obtain rfl := Option.some.inj hq
      obtain ⟨hstop, hintact, -⟩ := hat
      exact ⟨hstop, hintact.frame rfl rfl, fun n hn => (Option.some.inj hn).symm⟩
    | idle | taken | running | bound => simp [Phase.after] at hq
  | start u =>
    obtain rfl := Option.some.inj ht
    refine ⟨?_, hsame rfl rfl rfl rfl rfl, rfl⟩
    cases p with
    | ready =>
      obtain rfl := Option.some.inj hq
      obtain ⟨-, hintact, hpointed⟩ := hat
      exact ⟨rfl, hintact.frame rfl rfl, hpointed, u, rfl, .init (hstart u rfl)⟩
    | idle | taken | running | bound => simp [Phase.after] at hq
  | keep =>
    obtain rfl := Option.some.inj ht
    have hp : q = p := by cases p <;> simpa [Phase.after] using hq.symm
    subst hp
    refine ⟨hat.frame s.todo s.latest (some s.target), ⟨hnum.target, fun n hn => ?_,
      fun n hn => (hnum.fresh n hn).frame rfl rfl⟩, rfl⟩
    obtain rfl := Option.some.inj hn
    exact hnum.target
  | drop =>
    obtain rfl := Option.some.inj ht
    have hp : q = p := by cases p <;> simpa [Phase.after] using hq.symm
    subst hp
    exact ⟨hat.frame s.todo s.latest none, ⟨hnum.target, fun n hn => by simp at hn,
      fun n hn => (hnum.fresh n hn).frame rfl rfl⟩, rfl⟩
  | await =>
    cases p with
    | running =>
      obtain rfl := Option.some.inj hq
      obtain ⟨ok, hsettled, rfl⟩ := Option.map_eq_some_iff.mp ht
      cases ok with
      | true => exact ⟨hat, hnum, rfl⟩
      | false => exact absurd hsettled (hok rfl)
    | idle | taken | ready | bound => simp [Phase.after] at hq
  | bind =>
    obtain rfl := Option.some.inj ht
    cases p with
    | running =>
      obtain rfl := Option.some.inj hq
      exact ⟨⟨⟨hat.started, hat.intact.frame rfl rfl, hat.pointed, hat.traffic⟩, rfl⟩,
        hsame rfl rfl rfl rfl rfl, rfl⟩
    | idle | taken | ready | bound => simp [Phase.after] at hq
  | halt => simp [exec] at ht

/-- What the scripts of a driver owe for its runs to be safe. -/
structure Driver.Lawful (d : Driver ι τ ε β) (Clean : ι → Prop) : Prop where
  traffic : d.toTraffic.Lawful
  script : ∀ i, Clean i → Admits d .idle (d.script i)
  release : Admits d .idle d.release

theorem next_step {d : Driver ι τ ε β} {Clean : ι → Prop} (hd : d.Lawful Clean) {s t : State τ β}
    {e : Event ι ε} (h : ∃ p, Inv d s p) (hc : Orderly d Clean s e) (ht : next d s e = some t) :
    ∃ p, Inv d t p := by
  obtain ⟨p, hat, hadmits, hnum⟩ := h
  have hrest : s.todo = [] → p = .idle ∨ p = .bound := by
    intro htodo
    rwa [htodo] at hadmits
  cases e with
  | init i =>
    simp only [next] at ht
    split at ht
    next hguard =>
      obtain rfl := Option.some.inj ht
      simp only [Bool.and_eq_true, List.isEmpty_iff, Bool.not_eq_true'] at hguard
      rcases hrest hguard.1 with rfl | rfl
      · exact ⟨.idle, hat.frame _ _ _, hd.script i hc, hnum.target, hnum.kept,
          fun n hn => (hnum.fresh n hn).frame rfl rfl⟩
      · exact absurd hat.2 (by simp [hguard.2])
    next => simp at ht
  | deinit =>
    simp only [next] at ht
    obtain ⟨-, ht⟩ := Option.ite_none_right_eq_some.mp ht
    obtain ⟨n, hn, rfl⟩ := Option.map_eq_some_iff.mp ht
    exact ⟨.idle, hc, hd.release, hnum.kept n hn, hnum.kept,
      fun n hn => (hnum.fresh n hn).frame rfl rfl⟩
  | step =>
    simp only [next] at ht
    split at ht
    · simp at ht
    next op rest htodo =>
      rw [htodo] at hadmits
      obtain ⟨hstart, q, hq, hadmits⟩ := hadmits
      have hnum' : Numbered { s with todo := rest } :=
        ⟨hnum.target, hnum.kept, fun n hn => (hnum.fresh n hn).frame rfl rfl⟩
      obtain ⟨hat, hnum, htodo'⟩ := exec_step (hat.frame rest s.latest s.kept) hnum' hstart hq ht
        (by
          rintro rfl hfail
          simp [Orderly, failing, htodo] at hc
          exact hc hfail)
      exact ⟨q, hat, htodo' ▸ hadmits, hnum⟩
  | traffic e =>
    simp only [next] at ht
    obtain ⟨u, hu, rfl⟩ := Option.map_eq_some_iff.mp ht
    obtain ⟨v, hv, hu⟩ := Option.bind_eq_some_iff.mp hu
    have hlive : Live d s → Live d { s with traffic := some u } := by
      rintro ⟨hstarted, hintact, hpointed, w, hw, hreach⟩
      obtain rfl : w = v := Option.some.inj (hw.symm.trans hv)
      exact ⟨hstarted, hintact.frame rfl rfl, hpointed, u, rfl, .step hreach trivial hu⟩
    refine ⟨p, ?_, hadmits, hnum.target, hnum.kept, fun n hn => (hnum.fresh n hn).frame rfl rfl⟩
    cases p with
    | idle => exact hat
    | taken => exact ⟨hat.1, hat.2.frame rfl rfl⟩
    | ready => exact ⟨hat.1, hat.2.1.frame rfl rfl, hat.2.2⟩
    | running => exact hlive hat
    | bound => exact ⟨hlive hat.1, hat.2⟩

theorem inv_initial (d : Driver ι τ ε β) : Inv d initial .idle := by
  refine ⟨rfl, .inl rfl, Nat.le_refl _, fun n hn => by simp [initial] at hn, fun n _ => ?_⟩
  exact ⟨by simp [initial], by simp [initial], by simp [initial]⟩

/-- Along an orderly run no memory the device can reach is freed or given up. -/
theorem orderly_safe {d : Driver ι τ ε β} {Clean : ι → Prop} (hd : d.Lawful Clean)
    {es : List (Event ι ε)} (h : OrderlyRun d Clean es) : SafeRun d es := by
  have hsafe : ∀ s, (∃ p, Inv d s p) → Safe d s := by
    rintro s ⟨p, hp⟩
    exact hp.safe hd.traffic
  have hstep : ∀ s e t, (∃ p, Inv d s p) → Orderly d Clean s e → (system d).next s e = some t →
      ∃ p, Inv d t p := fun s e t hs hc ht => next_step hd hs hc ht
  exact statesMeet_of_stepsMeet hsafe hstep ⟨.idle, inv_initial d⟩ h

end DmaLifetime
