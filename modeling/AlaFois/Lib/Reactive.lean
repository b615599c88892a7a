import Mathlib.Tactic.Common

/-!
# Machines that answer their inputs

A state and an input determine an answer and the next state. Two states that a similarity relates
give the same answers to every sequence of inputs.
-/

namespace Reactive

variable {σ ι ω : Type*} {step : σ → ι → σ × ω} {R : σ → σ → Prop}

/-- The state after the inputs. -/
def final (step : σ → ι → σ × ω) (s : σ) (is : List ι) : σ := is.foldl (fun s i => (step s i).1) s

/-- The answers to the inputs, in order. -/
def answers (step : σ → ι → σ × ω) : σ → List ι → List ω
  | _, [] => []
  | s, i :: is => (step s i).2 :: answers step (step s i).1 is

/-- Related states give the same answer to every input, and states that are related again. -/
structure Similarity (step : σ → ι → σ × ω) (R : σ → σ → Prop) : Prop where
  answer : ∀ s t i, R s t → (step s i).2 = (step t i).2
  next : ∀ s t i, R s t → R (step s i).1 (step t i).1

theorem Similarity.final (h : Similarity step R) {s t : σ} (hst : R s t) (is : List ι) :
    R (final step s is) (final step t is) :=
  List.foldl_rel hst fun i _ s t hst => h.next s t i hst

theorem Similarity.answers_eq (h : Similarity step R) {s t : σ} (hst : R s t) (is : List ι) :
    answers step s is = answers step t is := by
  induction is generalizing s t with
  | nil => rfl
  | cons i is ih =>
    rw [answers, answers, h.answer s t i hst, ih (h.next s t i hst)]

end Reactive
