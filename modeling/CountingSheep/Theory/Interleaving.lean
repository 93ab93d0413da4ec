/-
# CountingSheep.Theory.Interleaving — programs that share a state, step by step

A `World` says how a shared state may answer one effect of one thread, and how
it may move by itself between effects (`drift`: a background worker, a timer).
A `System` is a shared state with a family of threads, each the rest of its
program. One `Step` is one effect of one thread, atomic on the shared state, or
one drift; `Run` is any finite sequence of them, with the history of who did
what.

* `Run.steps`: whatever the others did, a thread's part of the history is a
  trace of its own program. A fact about every trace of a program is thereby a
  fact about that program under every interleaving.
* `Run.induct`: what every answer and every drift preserves holds after every
  run, with the history so far in view.
-/
import CountingSheep.Theory.Program
import Mathlib.Logic.Function.Basic

namespace CountingSheep.Theory

set_option autoImplicit false

universe u v w x y

/-- How a shared state answers effects, and how it moves on its own. -/
structure World (ι : Type y) (σ : Type x) (E : Type u) (R : E → Type v) where
  /-- `answer i s e r s'`: asked for `e` by thread `i` in `s`, the answer `r`
  leading to `s'` is possible. -/
  answer : ι → σ → (e : E) → R e → σ → Prop
  drift : σ → σ → Prop

/-- A shared state and the rest of every thread's program. -/
structure System (ι : Type y) (σ : Type x) (E : Type u) (R : E → Type v) (α : Type w) where
  shared : σ
  threads : ι → Prog E R α

/-- Who performed which effect, and how it was answered, oldest first. -/
abbrev History (ι : Type y) (E : Type u) (R : E → Type v) := List (ι × Event E R)

namespace History

variable {ι : Type y} {E : Type u} {R : E → Type v} [DecidableEq ι]

/-- The part of a history that thread `i` made. -/
def of (i : ι) (history : History ι E R) : List (Event E R) :=
  history.filterMap fun entry => if entry.1 = i then some entry.2 else none

@[simp] theorem of_nil (i : ι) : of i ([] : History ι E R) = [] := rfl

@[simp] theorem of_append (i : ι) (first later : History ι E R) :
    of i (first ++ later) = of i first ++ of i later := by
  simp [of]

@[simp] theorem of_single_self (i : ι) (event : Event E R) : of i [(i, event)] = [event] := by
  simp [of]

theorem of_single_ne {i j : ι} (different : j ≠ i) (event : Event E R) :
    of i [(j, event)] = [] := by
  simp [of, different]

end History

section Run

variable {ι : Type y} {σ : Type x} {E : Type u} {R : E → Type v} {α : Type w} [DecidableEq ι]

/-- One atomic effect of one thread, or one drift of the shared state. -/
inductive Step (W : World ι σ E R) : System ι σ E R α → History ι E R → System ι σ E R α → Prop
    where
  | effect {c : System ι σ E R α} {i : ι} {e : E} {k : R e → Prog E R α} {r : R e} {s' : σ}
      (next : c.threads i = .op e k) (answered : W.answer i c.shared e r s') :
      Step W c [(i, ⟨e, r⟩)] ⟨s', Function.update c.threads i (k r)⟩
  | drift {c : System ι σ E R α} {s' : σ} (moved : W.drift c.shared s') :
      Step W c [] ⟨s', c.threads⟩

/-- Any finite number of steps, with the history they made. -/
inductive Run (W : World ι σ E R) (c : System ι σ E R α) :
    History ι E R → System ι σ E R α → Prop where
  | refl : Run W c [] c
  | snoc {history made : History ι E R} {c' c'' : System ι σ E R α}
      (before : Run W c history c') (step : Step W c' made c'') : Run W c (history ++ made) c''

variable {W : World ι σ E R} {c c' : System ι σ E R α} {history : History ι E R}

theorem Step.steps {made : History ι E R} (step : Step W c made c') (i : ι) :
    Prog.Steps (c.threads i) (History.of i made) (c'.threads i) := by
  cases step with
  | @effect j e k r s' next answered =>
      by_cases same : i = j
      · subst same
        simp only [next, History.of_single_self, Function.update_self]
        exact .answer r (.refl _)
      · simp only [History.of_single_ne (Ne.symm same), Function.update_of_ne same]
        exact .refl _
  | drift moved => exact .refl _

/-- **Interleaving is invisible to a program.** What thread `i` did in a run is
a trace of its own program. -/
theorem Run.steps (run : Run W c history c') (i : ι) :
    Prog.Steps (c.threads i) (History.of i history) (c'.threads i) := by
  induction run with
  | refl => exact .refl _
  | snoc before step ih =>
      rw [History.of_append]
      exact ih.trans (step.steps i)

/-- A thread that has ended made a complete trace. -/
theorem Run.returns (run : Run W c history c') {i : ι} {a : α} (ended : c'.threads i = .pure a) :
    Prog.Returns (c.threads i) (History.of i history) a := by
  rw [Prog.Returns, ← ended]
  exact run.steps i

/-- The run rule: an invariant of the shared state and the history so far. -/
theorem Run.induct (inv : σ → History ι E R → Prop) (start : inv c.shared [])
    (answers : ∀ i s e r s' h, inv s h → W.answer i s e r s' → inv s' (h ++ [(i, ⟨e, r⟩)]))
    (drifts : ∀ s s' h, inv s h → W.drift s s' → inv s' h)
    (run : Run W c history c') : inv c'.shared history := by
  induction run with
  | refl => exact start
  | snoc before step ih =>
      cases step with
      | effect next answered => exact answers _ _ _ _ _ _ ih answered
      | drift moved => simpa using drifts _ _ _ ih moved

/-! ## Who ended, and in which order -/

/-- What thread `i` returned, if its program is at its end. -/
def ending (i : ι) : Prog E R α → Option (ι × α)
  | .pure a => some (i, a)
  | .op _ _ => none

/-- The threads of a step that it brought to their end, with what they returned. -/
def endings (made : History ι E R) (c : System ι σ E R α) : List (ι × α) :=
  made.filterMap fun entry => ending entry.1 (c.threads entry.1)

theorem endings_single (i : ι) (event : Event E R) (s : σ) (threads : ι → Prog E R α)
    (p : Prog E R α) :
    endings [(i, event)] (⟨s, Function.update threads i p⟩ : System ι σ E R α) =
      (ending i p).toList := by
  simp only [endings, Function.update_self, List.filterMap_cons, List.filterMap_nil]
  cases ending i p <;> rfl

omit [DecidableEq ι] in
/-- Only thread `i` ends with thread `i`. -/
theorem ending_filter (i : ι) (p : Prog E R α) (keep : ι → Bool) :
    (ending i p).toList.filter (fun entry => keep entry.1) =
      if keep i then (ending i p).toList else [] := by
  cases p with
  | pure a => cases kept : keep i <;> simp [ending, kept]
  | op e k => cases kept : keep i <;> rfl

/-- A run with the threads that ended in it, in the order in which they did. -/
inductive Finishes (W : World ι σ E R) (c : System ι σ E R α) :
    History ι E R → List (ι × α) → System ι σ E R α → Prop where
  | refl : Finishes W c [] [] c
  | snoc {history made : History ι E R} {ended : List (ι × α)} {c' c'' : System ι σ E R α}
      (before : Finishes W c history ended c') (step : Step W c' made c'') :
      Finishes W c (history ++ made) (ended ++ endings made c'') c''

theorem Finishes.run {ended : List (ι × α)} (finishes : Finishes W c history ended c') :
    Run W c history c' := by
  induction finishes with
  | refl => exact .refl
  | snoc _ step ih => exact ih.snoc step

theorem Run.finishes (run : Run W c history c') : ∃ ended, Finishes W c history ended c' := by
  induction run with
  | refl => exact ⟨[], .refl⟩
  | snoc _ step ih =>
      obtain ⟨ended, before⟩ := ih
      exact ⟨_, before.snoc step⟩

/-! ## Building runs -/

theorem Run.trans {later : History ι E R} {c'' : System ι σ E R α} (before : Run W c history c')
    (after : Run W c' later c'') : Run W c (history ++ later) c'' := by
  induction after with
  | refl =>
      rw [List.append_nil]
      exact before
  | snoc _ step ih =>
      rw [← List.append_assoc]
      exact ih.snoc step

/-- A world answers one thread's effects, one after another. -/
inductive World.Answers (W : World ι σ E R) (i : ι) : σ → List (Event E R) → σ → Prop where
  | nil (s : σ) : Answers W i s [] s
  | cons {s s' s'' : σ} {e : E} {r : R e} {events : List (Event E R)}
      (answered : W.answer i s e r s') (rest : Answers W i s' events s'') :
      Answers W i s (⟨e, r⟩ :: events) s''

theorem Run.alone_update {i : ι} {p q : Prog E R α} {events : List (Event E R)} {s s' : σ}
    {threads : ι → Prog E R α} (steps : Prog.Steps p events q) (answers : W.Answers i s events s') :
    Run W ⟨s, Function.update threads i p⟩ (events.map fun event => (i, event))
      ⟨s', Function.update threads i q⟩ := by
  induction steps generalizing s with
  | refl p =>
      cases answers
      exact .refl
  | @answer e k r events q rest ih =>
      cases answers with
      | cons answered more =>
          have first : Run W ⟨s, Function.update threads i (.op e k)⟩ ([] ++ [(i, ⟨e, r⟩)]) _ :=
            Run.refl.snoc (.effect (Function.update_self ..) answered)
          rw [Function.update_idem] at first
          exact first.trans (ih more)

/-- A thread runs alone for as long as the world answers it. -/
theorem Run.alone {i : ι} {q : Prog E R α} {events : List (Event E R)} {s' : σ}
    (steps : Prog.Steps (c.threads i) events q) (answers : W.Answers i c.shared events s') :
    Run W c (events.map fun event => (i, event)) ⟨s', Function.update c.threads i q⟩ := by
  have run := @Run.alone_update _ _ _ _ _ _ W i _ _ _ _ _ c.threads steps answers
  rwa [Function.update_eq_self] at run

end Run

end CountingSheep.Theory
