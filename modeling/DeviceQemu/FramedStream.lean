import Mathlib.Data.List.Basic

/-! Frames in a stream of words.
A decoder reads one word after the other and puts out frames. An encoder whose words bring the
decoder back to where it was, with just the frame put out, carries sequences of frames. -/
namespace FramedStream

variable {σ ω φ α : Type*}

/-- What a decoder does with the next word, and the frames that it puts out. -/
abbrev Decoder (σ ω φ : Type*) := σ → ω → σ × List φ

def run (d : Decoder σ ω φ) : σ → List ω → σ × List φ
  | s, [] => (s, [])
  | s, w :: ws => ((run d (d s w).1 ws).1, (d s w).2 ++ (run d (d s w).1 ws).2)

theorem run_append (d : Decoder σ ω φ) (s : σ) (vs ws : List ω) :
    run d s (vs ++ ws) = ((run d (run d s vs).1 ws).1, (run d s vs).2 ++ (run d (run d s vs).1 ws).2) := by
  induction vs generalizing s with
  | nil => rfl
  | cons v vs ih => rw [List.cons_append, run, run, ih, List.append_assoc]

/-- The words of `x` take the decoder from `s` back to `s` and put out the frame of `x`. -/
def Carries (d : Decoder σ ω φ) (s : σ) (encode : α → List ω) (frame : α → φ) (x : α) : Prop :=
  run d s (encode x) = (s, [frame x])

variable {d : Decoder σ ω φ} {s : σ} {encode : α → List ω} {frame : α → φ} {xs : List α}

theorem run_flatMap (h : ∀ x ∈ xs, Carries d s encode frame x) :
    run d s (xs.flatMap encode) = (s, xs.map frame) := by
  induction xs with
  | nil => rfl
  | cons x xs ih =>
    rw [List.flatMap_cons, run_append, h x List.mem_cons_self,
      ih fun y hy => h y (List.mem_cons_of_mem x hy)]
    rfl

theorem run_prefix_iff :
    (∀ ys, ys <+: xs → run d s (ys.flatMap encode) = (s, ys.map frame)) ↔
      ∀ x ∈ xs, Carries d s encode frame x := by
  constructor
  · intro h x hx
    obtain ⟨l, r, rfl⟩ := List.append_of_mem hx
    have hl := h l (List.prefix_append l (x :: r))
    have hlx := h (l ++ [x]) ⟨r, by rw [List.append_assoc, List.singleton_append]⟩
    rw [List.flatMap_append, run_append, hl, List.flatMap_singleton, List.map_append] at hlx
    obtain ⟨hs, hout⟩ := Prod.ext_iff.mp hlx
    exact Prod.ext hs (List.append_cancel_left hout)
  · intro h ys hys
    exact run_flatMap fun x hx => h x (hys.subset hx)

end FramedStream
