/-
# CountingSheep.Theory.Progress — runs that end

A world is `Total` when it always has some answer. A program is `Bounded` when no trace
of it is longer than a given number. Then no thread waits for another:

* `Run.completes`: from any moment on, a thread can be run to its end alone.
* `Run.length_le`: a run of finitely many bounded threads is bounded by the sum of
  their bounds, however they are interleaved.
* `ended_of_stuck`: where no thread can go on, all have ended.
-/
import CountingSheep.Theory.Interleaving
import Mathlib.Algebra.BigOperators.Group.Finset.Piecewise
import Mathlib.Algebra.Order.BigOperators.Group.Finset

namespace CountingSheep.Theory

set_option autoImplicit false

universe u v w x y

variable {ι : Type y} {σ : Type x} {E : Type u} {R : E → Type v} {α : Type w}

/-- No trace of the program is longer. -/
def Prog.Bounded (n : Nat) (p : Prog E R α) : Prop :=
  ∀ events q, Prog.Steps p events q → events.length ≤ n

/-- Whatever is asked, there is an answer. -/
def World.Total (W : World ι σ E R) : Prop := ∀ i s e, ∃ r s', W.answer i s e r s'

theorem World.Total.returns {W : World ι σ E R} (total : W.Total) (i : ι) (p : Prog E R α) (s : σ) :
    ∃ events a s', Prog.Returns p events a ∧ W.Answers i s events s' := by
  induction p generalizing s with
  | pure a => exact ⟨[], a, s, .refl _, .nil s⟩
  | op e k ih =>
      obtain ⟨r, s₁, answered⟩ := total i s e
      obtain ⟨events, a, s', returned, answers⟩ := ih r s₁
      exact ⟨⟨e, r⟩ :: events, a, s', .answer r returned, .cons answered answers⟩

section Run

variable [DecidableEq ι] {W : World ι σ E R} {c c' : System ι σ E R α} {history : History ι E R}

/-- **Every thread can be run to its end alone**, within its bound. -/
theorem Run.completes (total : W.Total) (run : Run W c history c') (i : ι) {n : Nat}
    (bounded : (c.threads i).Bounded n) :
    ∃ (events : List (Event E R)) (d : System ι σ E R α) (a : α),
      Run W c' (events.map fun event => (i, event)) d ∧ d.threads i = .pure a ∧
        (History.of i history).length + events.length ≤ n := by
  obtain ⟨events, a, s', returned, answers⟩ := total.returns i (c'.threads i) c'.shared
  refine ⟨events, _, a, Run.alone returned answers, Function.update_self .., ?_⟩
  have whole := bounded _ _ ((run.steps i).trans returned)
  rwa [List.length_append] at whole

/-- Where no thread can go on, all have ended. -/
theorem ended_of_stuck (total : W.Total) (stuck : ∀ made d, Step W c made d → made = []) (i : ι) :
    ∃ a, c.threads i = .pure a := by
  cases next : c.threads i with
  | pure a => exact ⟨a, rfl⟩
  | op e k =>
      obtain ⟨r, s', answered⟩ := total i c.shared e
      exact absurd (stuck _ _ (.effect next answered)) (List.cons_ne_nil _ _)

/-- A history is as long as the parts of its threads together. -/
theorem History.length_eq_sum [Fintype ι] (history : History ι E R) :
    history.length = ∑ i, (History.of i history).length := by
  induction history with
  | nil => simp
  | cons entry rest ih =>
      have own (i : ι) : (History.of i (entry :: rest)).length =
          (History.of i rest).length + if entry.1 = i then 1 else 0 := by
        by_cases here : entry.1 = i <;> simp [History.of, here]
      simp only [own, Finset.sum_add_distrib, ← ih, List.length_cons]
      simp

theorem Run.length_le [Fintype ι] (run : Run W c history c') {bound : ι → Nat}
    (bounded : ∀ i, (c.threads i).Bounded (bound i)) : history.length ≤ ∑ i, bound i := by
  rw [History.length_eq_sum]
  exact Finset.sum_le_sum fun i _ => bounded i _ _ (run.steps i)

end Run

end CountingSheep.Theory
