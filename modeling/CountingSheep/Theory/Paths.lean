/-
# CountingSheep.Theory.Paths — runs as paths of the shared state

A run interleaves two things: how the shared state moves, and how every thread
follows its program. `World.Path` is the first alone.

* `run_iff_path`: a run is a path on which every thread follows its program. It is how
  a run of some programs becomes a run of others, or one in another world.
* `World.Simulates.run`: what one world can answer, a world that simulates it can, to
  the same programs in the same order.
-/
import CountingSheep.Theory.Interleaving

namespace CountingSheep.Theory

set_option autoImplicit false

universe u v w x y z

section Path

variable {ι : Type y} {σ : Type x} {E : Type u} {R : E → Type v} {α : Type w}

/-- The shared state moves along a history, whoever made it. -/
inductive World.Path (W : World ι σ E R) : σ → History ι E R → σ → Prop where
  | refl (s : σ) : Path W s [] s
  | effect {s s' s'' : σ} {i : ι} {e : E} {r : R e} {history : History ι E R}
      (answered : W.answer i s e r s') (rest : Path W s' history s'') :
      Path W s ((i, ⟨e, r⟩) :: history) s''
  | drift {s s' s'' : σ} {history : History ι E R} (moved : W.drift s s')
      (rest : Path W s' history s'') : Path W s history s''

variable {W : World ι σ E R}

theorem World.Path.trans {s s' s'' : σ} {history later : History ι E R}
    (first : W.Path s history s') (second : W.Path s' later s'') : W.Path s (history ++ later) s'' := by
  induction first with
  | refl s => exact second
  | effect answered _ ih => exact .effect answered (ih second)
  | drift moved _ ih => exact .drift moved (ih second)

variable [DecidableEq ι] {c c' : System ι σ E R α} {history : History ι E R}

theorem Run.path (run : Run W c history c') : W.Path c.shared history c'.shared := by
  induction run with
  | refl => exact .refl _
  | snoc before step ih =>
      cases step with
      | effect next answered => exact ih.trans (.effect answered (.refl _))
      | drift moved => exact ih.trans (.drift moved (.refl _))

theorem History.of_cons_self (i : ι) (event : Event E R) (history : History ι E R) :
    History.of i ((i, event) :: history) = event :: History.of i history := by
  simp [History.of]

theorem History.of_cons_ne {i j : ι} (different : j ≠ i) (event : Event E R) (history : History ι E R) :
    History.of i ((j, event) :: history) = History.of i history := by
  simp [History.of, different]

/-- Programs that have their part in the history follow the path. -/
theorem World.Path.run {s s' : σ} (path : W.Path s history s') {threads threads' : ι → Prog E R α}
    (steps : ∀ i, Prog.Steps (threads i) (History.of i history) (threads' i)) :
    Run W ⟨s, threads⟩ history ⟨s', threads'⟩ := by
  induction path generalizing threads with
  | refl s =>
      have same : threads = threads' := by
        funext i
        have none := steps i
        generalize threads i = p at none
        generalize threads' i = q at none
        cases none
        rfl
      rw [same]
      exact .refl
  | drift moved _ ih => exact (Run.refl.snoc (.drift moved)).trans (ih steps)
  | @effect s s₁ s₂ i e r history answered _ ih =>
      have own := steps i
      rw [History.of_cons_self] at own
      generalize next : threads i = p at own
      cases own with
      | @answer _ k _ _ _ own =>
          refine (Run.refl.snoc (.effect next answered)).trans (ih fun j => ?_)
          by_cases same : j = i
          · subst same
            rw [Function.update_self]
            exact own
          · have other := steps j
            rw [History.of_cons_ne (Ne.symm same)] at other
            rw [Function.update_of_ne same]
            exact other

/-- **A run is a path on which every thread follows its program.** -/
theorem run_iff_path : Run W c history c' ↔
    W.Path c.shared history c'.shared ∧ ∀ i, Prog.Steps (c.threads i) (History.of i history) (c'.threads i) :=
  ⟨fun run => ⟨run.path, fun i => run.steps i⟩, fun ⟨path, steps⟩ => path.run steps⟩

end Path

section Simulation

variable {ι : Type y} {σ : Type x} {τ : Type z} {E : Type u} {R : E → Type v} {α : Type w}

/-- Whatever `W` may do, `W'` may do in a related state. -/
structure World.Simulates (W : World ι σ E R) (W' : World ι τ E R) (related : σ → τ → Prop) : Prop where
  answer : ∀ {i s t e r s'}, related s t → W.answer i s e r s' →
    ∃ t', W'.answer i t e r t' ∧ related s' t'
  drift : ∀ {s t s'}, related s t → W.drift s s' → ∃ t', (W'.drift t t' ∨ t' = t) ∧ related s' t'

variable {W : World ι σ E R} {W' : World ι τ E R} {related : σ → τ → Prop}

theorem World.Simulates.path (simulates : W.Simulates W' related) {s s' : σ} {t : τ}
    {history : History ι E R} (path : W.Path s history s') (start : related s t) :
    ∃ t', W'.Path t history t' ∧ related s' t' := by
  induction path generalizing t with
  | refl s => exact ⟨t, .refl t, start⟩
  | effect answered _ ih =>
      obtain ⟨t₁, step, next⟩ := simulates.answer start answered
      obtain ⟨t', rest, ends⟩ := ih next
      exact ⟨t', .effect step rest, ends⟩
  | drift moved _ ih =>
      obtain ⟨t₁, step | rfl, next⟩ := simulates.drift start moved
      · obtain ⟨t', rest, ends⟩ := ih next
        exact ⟨t', .drift step rest, ends⟩
      · exact ih next

/-- **The same programs run the same in a world that simulates theirs.** -/
theorem World.Simulates.run [DecidableEq ι] (simulates : W.Simulates W' related)
    {c c' : System ι σ E R α} {history : History ι E R} {t : τ} (run : Run W c history c')
    (start : related c.shared t) :
    ∃ t', Run W' ⟨t, c.threads⟩ history ⟨t', c'.threads⟩ ∧ related c'.shared t' := by
  obtain ⟨path, steps⟩ := run_iff_path.mp run
  obtain ⟨t', path', ends⟩ := simulates.path path start
  exact ⟨t', run_iff_path.mpr ⟨path', steps⟩, ends⟩

end Simulation

end CountingSheep.Theory
