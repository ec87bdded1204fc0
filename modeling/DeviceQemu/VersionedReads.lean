import Mathlib.Data.Nat.Init
import Mathlib.Order.Defs.LinearOrder
import Mathlib.Tactic.ByContra
import Mathlib.Tactic.SplitIfs

/-! Reading a value that changes under a version.
A program reads parts of a value one after the other while somebody else changes it. When the
version is the same before and after, all the reads saw one value. -/
namespace VersionedReads

universe u

structure Source (C G : Type*) where
  value : ℕ → C
  version : ℕ → G

variable {C G : Type*} {α β : Type u}

/-- From `m` to `n`, a change of the value changes the version, and no version comes back. -/
structure Source.Tracks (S : Source C G) (m n : ℕ) : Prop where
  bumps : ∀ t, m ≤ t → t < n → S.value (t + 1) ≠ S.value t → S.version (t + 1) ≠ S.version t
  noReturn : ∀ i j k, m ≤ i → i ≤ j → j ≤ k → k ≤ n → S.version i = S.version k →
    S.version j = S.version i

theorem Source.Tracks.value_eq {S : Source C G} {m n i k : ℕ} (h : S.Tracks m n) (hi : m ≤ i)
    (hk : k ≤ n) (hversion : S.version i = S.version k) {j : ℕ} (hij : i ≤ j) (hjk : j ≤ k) :
    S.value j = S.value i := by
  induction j, hij using Nat.le_induction with
  | base => rfl
  | succ j hij ih =>
    rw [← ih (by omega)]
    by_contra hne
    apply h.bumps j (by omega) (by omega) hne
    rw [h.noReturn i j k hi hij (by omega) hk hversion,
      h.noReturn i (j + 1) k hi (by omega) hjk hk hversion]

theorem Source.Tracks.value_eq_of_version {S : Source C G} {m n i k : ℕ} (h : S.Tracks m n)
    (hi : m ≤ i) (hin : i ≤ n) (hk : m ≤ k) (hkn : k ≤ n) (hversion : S.version i = S.version k) :
    S.value i = S.value k := by
  rcases Nat.le_total i k with hik | hki
  · exact (h.value_eq hi hkn hversion hik (Nat.le_refl k)).symm
  · exact h.value_eq hk hin hversion.symm hki (Nat.le_refl i)

def Source.once (time : ℕ) (old new : C) (v w : G) : Source C G :=
  ⟨fun t => if t < time then old else new, fun t => if t < time then v else w⟩

theorem Source.once_tracks (time : ℕ) (old new : C) {v w : G} (h : v ≠ w) (m n : ℕ) :
    (Source.once time old new v w).Tracks m n := by
  constructor
  · intro t _ _ hne hversion
    simp only [Source.once] at hne hversion
    split_ifs at hne hversion with hnext hnow hnow
    · exact hne rfl
    · exact hnow (by omega)
    · exact h hversion.symm
    · exact hne rfl
  · intro i j k _ hij hjk _ hversion
    simp only [Source.once] at hversion ⊢
    split_ifs at hversion ⊢ <;> first | rfl | omega | exact absurd hversion h

/-- A program whose only effect is to read the value, once for each `read`. -/
inductive Reads (C α : Type*) where
  | pure (a : α)
  | read (next : C → Reads C α)

namespace Reads

def bind : Reads C α → (α → Reads C β) → Reads C β
  | .pure a, f => f a
  | .read next, f => .read fun c => (next c).bind f

instance {C : Type*} : Monad (Reads C) where
  pure := Reads.pure
  bind := Reads.bind

def get (f : C → α) : Reads C α := .read fun c => .pure (f c)

/-- From time `t` on, each read takes one unit. -/
def run : Reads C α → (ℕ → C) → ℕ → α × ℕ
  | .pure a, _, t => (a, t)
  | .read next, value, t => (next (value t)).run value (t + 1)

def eval : Reads C α → C → α
  | .pure a, _ => a
  | .read next, c => (next c).eval c

@[simp] theorem eval_pure (a : α) (c : C) : (Pure.pure a : Reads C α).eval c = a := rfl

@[simp] theorem eval_get (f : C → α) (c : C) : (get f).eval c = f c := rfl

@[simp] theorem eval_bind (x : Reads C α) (f : α → Reads C β) (c : C) :
    (x >>= f).eval c = (f (x.eval c)).eval c := by
  change (x.bind f).eval c = _
  induction x with
  | pure a => rfl
  | read next ih => exact ih c

theorem eval_foldlM (f : α → β → Reads C α) (l : List β) (a : α) (c : C) :
    (l.foldlM f a).eval c = l.foldl (fun a b => (f a b).eval c) a := by
  induction l generalizing a with
  | nil => rfl
  | cons b l ih =>
    rw [List.foldlM_cons, eval_bind]
    exact ih _

theorem le_run (x : Reads C α) (value : ℕ → C) (t : ℕ) : t ≤ (x.run value t).2 := by
  induction x generalizing t with
  | pure a => exact Nat.le_refl t
  | read next ih => exact Nat.le_trans (Nat.le_succ t) (ih (value t) (t + 1))

theorem run_eq_eval (x : Reads C α) {value : ℕ → C} {t : ℕ} {c : C}
    (h : ∀ j, t ≤ j → j < (x.run value t).2 → value j = c) : (x.run value t).1 = x.eval c := by
  induction x generalizing t with
  | pure a => rfl
  | read next ih =>
    have hlt : t < ((next (value t)).run value (t + 1)).2 := le_run (next (value t)) value (t + 1)
    have hc : value t = c := h t (Nat.le_refl t) hlt
    subst hc
    exact ih _ fun j hj => h j (by omega)

end Reads

theorem Source.Tracks.run_eq_eval {S : Source C G} {m n t₀ t₁ : ℕ} {x : Reads C α} {a : α}
    (h : S.Tracks m n) (hm : m ≤ t₀) (hn : t₁ ≤ n) (hrun : x.run S.value (t₀ + 1) = (a, t₁))
    (hversion : S.version t₀ = S.version t₁) : a = x.eval (S.value t₀) := by
  have hvalue : ∀ j, t₀ + 1 ≤ j → j < (x.run S.value (t₀ + 1)).2 → S.value j = S.value t₀ := by
    intro j hj hlt
    rw [hrun] at hlt
    exact h.value_eq hm hn hversion (by omega) (by omega)
  rw [← Reads.run_eq_eval x hvalue, hrun]

/-- One pass of `retry`, from the state `start`: the times of its looks at the version. A pass that
gives up does not look a second time. -/
structure Pass (σ : Type*) where
  start : σ
  before : ℕ
  after : ℕ

/-- `do { before = version; x; after = version } while (before != after)`, as long as there is
fuel; `x` may give up. Yields whether it did not, the state, the time and the last pass. -/
def retry {σ : Type u} [DecidableEq G] (S : Source C G) (x : σ → Reads C (Bool × σ)) :
    ℕ → σ → ℕ → Option (Bool × σ × ℕ × Pass σ)
  | 0, _, _ => none
  | fuel + 1, s, t =>
    let ((ok, s'), t') := (x s).run S.value (t + 1)
    if !ok then some (false, s', t', ⟨s, t, t'⟩)
    else if S.version t ≠ S.version t' then retry S x fuel s' (t' + 1)
    else some (true, s', t' + 1, ⟨s, t, t'⟩)

structure Ended {σ : Type u} (S : Source C G) (x : σ → Reads C (Bool × σ)) (t : ℕ) (ok : Bool) (s' : σ)
    (t' : ℕ) (p : Pass σ) : Prop where
  start : t ≤ p.before
  before : p.before < p.after
  after : p.after ≤ t'
  run : (x p.start).run S.value (p.before + 1) = ((ok, s'), p.after)
  version : ok = true → S.version p.before = S.version p.after

theorem retry_ended {σ : Type u} [DecidableEq G] {S : Source C G} {x : σ → Reads C (Bool × σ)}
    {fuel t t' : ℕ} {ok : Bool} {s s' : σ} {p : Pass σ}
    (h : retry S x fuel s t = some (ok, s', t', p)) :
    Ended S x t ok s' t' p ∧
      ∀ I : σ → Prop, I s → (∀ s t, I s → I ((x s).run S.value t).1.2) → I p.start := by
  induction fuel generalizing s t with
  | zero => cases h
  | succ fuel ih =>
    unfold retry at h
    have hle := (x s).le_run S.value (t + 1)
    rcases hrun : (x s).run S.value (t + 1) with ⟨⟨ok₁, s₁⟩, t₁⟩
    simp only [hrun] at h hle
    cases ok₁ with
    | false =>
      cases h
      exact ⟨⟨Nat.le_refl t, hle, Nat.le_refl t', hrun, fun h => nomatch h⟩, fun I hI _ => hI⟩
    | true =>
      simp only [Bool.not_true, Bool.false_eq_true, if_false] at h
      by_cases hversion : S.version t = S.version t₁
      · simp only [hversion, ne_eq, not_true, if_false] at h
        cases h
        exact ⟨⟨Nat.le_refl t, hle, Nat.le_succ t₁, hrun, fun _ => hversion⟩, fun I hI _ => hI⟩
      · simp only [ne_eq, hversion, not_false_eq_true, if_true] at h
        obtain ⟨hended, hkept⟩ := ih h
        have hstart := hended.start
        refine ⟨⟨by omega, hended.before, hended.after, hended.run, hended.version⟩, ?_⟩
        intro I hI hpass
        have hI₁ := hpass s (t + 1) hI
        rw [hrun] at hI₁
        exact hkept I hI₁ hpass

theorem Ended.eval {σ : Type u} {S : Source C G} {x : σ → Reads C (Bool × σ)} {t t' : ℕ} {s' : σ}
    {p : Pass σ} (h : Ended S x t true s' t' p) (htracks : S.Tracks t t') :
    (x p.start).eval (S.value p.before) = (true, s') :=
  (htracks.run_eq_eval h.start h.after h.run (h.version rfl)).symm

end VersionedReads
