import DeviceQemu.StepSystem
import Mathlib.Data.List.Basic

/-! A bounded FIFO queue between one producer and one consumer.
Each side first looks at the queue and takes effect later, by what it saw then: the producer
the room that was left, the consumer the items that were there. -/
namespace BoundedFifo

open StepSystem

variable {α : Type*}

/-- `push` and `pop` are the calls that have looked and not taken effect; `accepted`, `pushed`
and `popped` are the history: the items let in and the answers of the finished calls. -/
structure State (α : Type*) where
  queue : List α
  push : Option (List α × ℕ)
  pop : Option (ℕ × ℕ)
  accepted : List α
  pushed : List (List α × ℕ)
  popped : List (ℕ × List α)

inductive Event (α : Type*) where
  | offer (xs : List α)
  | accept
  | ask (n : ℕ)
  | take

def next (cap : ℕ) (s : State α) : Event α → Option (State α)
  | .offer xs =>
    match s.push with
    | none => some { s with push := some (xs, cap - s.queue.length) }
    | some _ => none
  | .accept =>
    s.push.map fun (xs, room) =>
      { s with
        queue := s.queue ++ xs.take room
        push := none
        accepted := s.accepted ++ xs.take room
        pushed := s.pushed ++ [(xs, min xs.length room)] }
  | .ask n =>
    match s.pop with
    | none => some { s with pop := some (n, s.queue.length) }
    | some _ => none
  | .take =>
    s.pop.map fun (n, there) =>
      { s with
        queue := s.queue.drop (min n there)
        pop := none
        popped := s.popped ++ [(n, s.queue.take (min n there))] }

structure Init (s : State α) : Prop where
  queue : s.queue = []
  push : s.push = none
  pop : s.pop = none
  accepted : s.accepted = []
  pushed : s.pushed = []
  popped : s.popped = []

def system (α : Type*) (cap : ℕ) : System (State α) (Event α) where
  Init := Init
  next := next cap

/-- Nothing is lost, delivered twice or out of order, and neither side acts beyond what is
still true of what it saw. -/
structure Safety (cap : ℕ) (s : State α) : Prop where
  capacity : s.queue.length ≤ cap
  conserved : s.accepted = (s.popped.map Prod.snd).flatten ++ s.queue
  prefixes : s.accepted = (s.pushed.map fun c => c.1.take c.2).flatten
  room : ∀ c ∈ s.push, s.queue.length + c.2 ≤ cap
  there : ∀ c ∈ s.pop, c.2 ≤ s.queue.length

theorem init_safety {cap : ℕ} {s : State α} (h : Init s) : Safety cap s := by
  constructor
  · simp [h.queue]
  · simp [h.accepted, h.popped, h.queue]
  · simp [h.accepted, h.pushed]
  · simp [h.push]
  · simp [h.pop]

theorem next_safety {cap : ℕ} {s t : State α} {e : Event α} (h : Safety cap s)
    (ht : next cap s e = some t) : Safety cap t := by
  cases e with
  | offer xs =>
    cases hp : s.push with
    | some c => simp [next, hp] at ht
    | none =>
      simp only [next, hp, Option.some.injEq] at ht
      subst ht
      refine ⟨h.capacity, h.conserved, h.prefixes, ?_, h.there⟩
      rintro c hc
      obtain rfl := Option.some.inj hc
      have := h.capacity
      dsimp only
      omega
  | accept =>
    obtain ⟨⟨xs, room⟩, hc, rfl⟩ := Option.map_eq_some_iff.mp ht
    have hroom := h.room _ hc
    dsimp only at hroom
    constructor
    · have := h.capacity
      simp only [List.length_append, List.length_take]
      omega
    · simp [h.conserved]
    · rw [h.prefixes]
      simp only [List.map_append, List.map_cons, List.map_nil, List.flatten_append,
        List.flatten_cons, List.flatten_nil, List.append_nil, List.append_cancel_left_eq]
      rw [Nat.min_comm, ← List.take_take, List.take_length]
    · simp
    · intro c hc
      have := h.there c hc
      simp only [List.length_append]
      omega
  | ask n =>
    cases hp : s.pop with
    | some c => simp [next, hp] at ht
    | none =>
      simp only [next, hp, Option.some.injEq] at ht
      subst ht
      refine ⟨h.capacity, h.conserved, h.prefixes, h.room, ?_⟩
      rintro c hc
      obtain rfl := Option.some.inj hc
      exact Nat.le_refl _
  | take =>
    obtain ⟨⟨n, there⟩, hc, rfl⟩ := Option.map_eq_some_iff.mp ht
    constructor
    · have := h.capacity
      simp only [List.length_drop]
      omega
    · simp [h.conserved]
    · exact h.prefixes
    · intro c hc
      have := h.room c hc
      simp only [List.length_drop]
      omega
    · simp

theorem reachable_safety {cap : ℕ} {s : State α} (h : Reachable (system α cap) s) :
    Safety cap s :=
  h.invariant (fun _ => init_safety) fun _ _ _ => next_safety

end BoundedFifo
