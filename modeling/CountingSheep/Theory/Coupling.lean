/-
# CountingSheep.Theory.Coupling — two programs that perform the same effects

`Coupled related silent ends p q`: as long as their effects get `related` answers,
`p` and `q` perform the same effects up to `silent` ones, and end in values related
by `ends`. This is a relation between programs, so what it says about two runs is
said once (`Coupled.interp`, `Coupled.returns`), and a program is coupled with
itself by its structure (`Coupled.bind`).
-/
import CountingSheep.Theory.Program

namespace CountingSheep.Theory.Prog

set_option autoImplicit false

universe u v w x y

variable {E : Type u} {R : E → Type v} {α β γ δ : Type w}

/-- The same effect, with related answers. -/
inductive Answered (related : (e : E) → R e → R e → Prop) : Event E R → Event E R → Prop where
  | mk {e : E} {r r' : R e} (same : related e r r') : Answered related ⟨e, r⟩ ⟨e, r'⟩

inductive Coupled (related : (e : E) → R e → R e → Prop) (silent : E → Bool) (ends : α → β → Prop) :
    Prog E R α → Prog E R β → Prop where
  | pure {a : α} {b : β} (ended : ends a b) : Coupled related silent ends (.pure a) (.pure b)
  | op {e : E} {k : R e → Prog E R α} {k' : R e → Prog E R β} (audible : silent e = false)
      (next : ∀ r r', related e r r' → Coupled related silent ends (k r) (k' r')) :
      Coupled related silent ends (.op e k) (.op e k')
  | left {e : E} {k : R e → Prog E R α} {q : Prog E R β} (quiet : silent e = true)
      (next : ∀ r, Coupled related silent ends (k r) q) : Coupled related silent ends (.op e k) q
  | right {e : E} {p : Prog E R α} {k : R e → Prog E R β} (quiet : silent e = true)
      (next : ∀ r, Coupled related silent ends p (k r)) : Coupled related silent ends p (.op e k)

/-- A trace without its silent effects. -/
def loud (silent : E → Bool) (events : List (Event E R)) : List (Event E R) :=
  events.filter fun event => !silent event.1

@[simp] theorem loud_nil (silent : E → Bool) : loud (R := R) silent [] = [] := rfl

theorem loud_cons_audible {silent : E → Bool} {e : E} (audible : silent e = false) (r : R e)
    (events : List (Event E R)) : loud silent (⟨e, r⟩ :: events) = ⟨e, r⟩ :: loud silent events :=
  List.filter_cons_of_pos (by simp [audible])

theorem loud_cons_quiet {silent : E → Bool} {e : E} (quiet : silent e = true) (r : R e)
    (events : List (Event E R)) : loud silent (⟨e, r⟩ :: events) = loud silent events :=
  List.filter_cons_of_neg (by simp [quiet])

section Rules

variable {related : (e : E) → R e → R e → Prop} {silent : E → Bool} {ends : α → β → Prop}

theorem Coupled.bind {ends' : γ → δ → Prop} {p : Prog E R α} {q : Prog E R β}
    {f : α → Prog E R γ} {g : β → Prog E R δ} (first : Coupled related silent ends p q)
    (later : ∀ a b, ends a b → Coupled related silent ends' (f a) (g b)) :
    Coupled related silent ends' (p.bind f) (q.bind g) := by
  induction first with
  | pure ended => exact later _ _ ended
  | op audible next ih => exact .op audible ih
  | left quiet next ih => exact .left quiet ih
  | right quiet next ih => exact .right quiet ih

/-- Two runs whose answers are related end in related values. -/
theorem Coupled.returns {p : Prog E R α} {q : Prog E R β} (coupled : Coupled related silent ends p q)
    {events events' : List (Event E R)} {a : α} {b : β} (left : Returns p events a)
    (right : Returns q events' b)
    (answered : List.Forall₂ (Answered related) (loud silent events) (loud silent events')) :
    ends a b := by
  induction coupled generalizing events events' with
  | pure ended =>
      obtain ⟨-, rfl⟩ := pure_returns_iff.mp left
      obtain ⟨-, rfl⟩ := pure_returns_iff.mp right
      exact ended
  | op audible next ih =>
      obtain ⟨r, rest, rfl, goesLeft⟩ := op_returns_iff.mp left
      obtain ⟨r', rest', rfl, goesRight⟩ := op_returns_iff.mp right
      rw [loud_cons_audible audible, loud_cons_audible audible] at answered
      cases answered with
      | cons head tail =>
          cases head with
          | mk same => exact ih r r' same goesLeft goesRight tail
  | left quiet next ih =>
      obtain ⟨r, rest, rfl, goesLeft⟩ := op_returns_iff.mp left
      rw [loud_cons_quiet quiet] at answered
      exact ih r goesLeft right answered
  | right quiet next ih =>
      obtain ⟨r, rest, rfl, goesRight⟩ := op_returns_iff.mp right
      rw [loud_cons_quiet quiet] at answered
      exact ih r left goesRight answered

/-- Two machines that keep giving related answers answer two coupled programs alike. -/
theorem Coupled.interp {σ : Type x} {τ : Type y} {answer : (e : E) → σ → R e × σ}
    {answer' : (e : E) → τ → R e × τ} {alike : σ → τ → Prop}
    (step : ∀ e s t, alike s t →
      related e (answer e s).1 (answer' e t).1 ∧ alike (answer e s).2 (answer' e t).2)
    (still : ∀ e s t, silent e = true → (answer e s).2 = s ∧ (answer' e t).2 = t)
    {p : Prog E R α} {q : Prog E R β} (coupled : Coupled related silent ends p q)
    {s : σ} {t : τ} (start : alike s t) :
    List.Forall₂ (Answered related) (loud silent (p.interp answer s).2.1)
      (loud silent (q.interp answer' t).2.1) := by
  induction coupled generalizing s t with
  | pure ended => exact .nil
  | @op e k k' audible next ih =>
      obtain ⟨same, onward⟩ := step e s t start
      simp only [interp_op, loud_cons_audible audible]
      exact .cons (.mk same) (ih _ _ same onward)
  | @left e k q quiet next ih =>
      simp only [interp_op, loud_cons_quiet quiet]
      rw [(still e s t quiet).1]
      exact ih _ start
  | @right e p k quiet next ih =>
      simp only [interp_op, loud_cons_quiet quiet]
      rw [(still e s t quiet).2]
      exact ih _ start

end Rules

end CountingSheep.Theory.Prog
