/-
# CountingSheep.Theory.Matched — two programs in lockstep, effect for effect

`Matched alike related ends p q`: `p` and `q` perform effects that are `alike`,
one for one, as long as these get `related` answers, and end in values related by
`ends`. The effects need not be the same: `alike` says what of them may be told
apart, so this is how a program is compared with itself on two inputs.

* `Matched.bind`, `Matched.bindE`: sequencing, without and with early exit.
* `Matched.steps`: every run of the one is matched by a run of the other, event for
  event, and their ends are related.
* `NotedAlike`, `notes_eq_of_same`: programs that write notes, where only the effects
  may differ; matched runs have the same notes.
-/
import CountingSheep.Theory.Annotated

namespace CountingSheep.Theory.Prog

set_option autoImplicit false

universe u v w x y

variable {E : Type u} {R : E → Type v} {α β γ δ : Type w}

/-- What two effects that are alike may be answered. -/
abbrev Relates (E : Type u) (R : E → Type v) := (e e' : E) → R e → R e' → Prop

inductive Matched (alike : E → E → Prop) (related : Relates E R) (ends : α → β → Prop) :
    Prog E R α → Prog E R β → Prop where
  | pure {a : α} {b : β} (ended : ends a b) : Matched alike related ends (.pure a) (.pure b)
  | op {e e' : E} {k : R e → Prog E R α} {k' : R e' → Prog E R β} (same : alike e e')
      (next : ∀ r r', related e e' r r' → Matched alike related ends (k r) (k' r')) :
      Matched alike related ends (.op e k) (.op e' k')

section Rules

variable {alike : E → E → Prop} {related : Relates E R} {ends : α → β → Prop}

theorem Matched.bind {ends' : γ → δ → Prop} {p : Prog E R α} {q : Prog E R β}
    {f : α → Prog E R γ} {g : β → Prog E R δ} (first : Matched alike related ends p q)
    (later : ∀ a b, ends a b → Matched alike related ends' (f a) (g b)) :
    Matched alike related ends' (p.bind f) (q.bind g) := by
  induction first with
  | pure ended => exact later _ _ ended
  | op same next ih => exact .op same ih

/-- Both stop with the same error, or both go on with related values. -/
inductive SameExit {ε : Type w} (ends : α → β → Prop) : Except ε α → Except ε β → Prop where
  | error (stop : ε) : SameExit ends (.error stop) (.error stop)
  | ok {a : α} {b : β} (ended : ends a b) : SameExit ends (.ok a) (.ok b)

theorem Matched.bindE {ε : Type w} {ends' : γ → δ → Prop} {p : ExceptT ε (Prog E R) α}
    {q : ExceptT ε (Prog E R) β} {f : α → ExceptT ε (Prog E R) γ} {g : β → ExceptT ε (Prog E R) δ}
    (first : Matched alike related (SameExit ends) p.run q.run)
    (later : ∀ a b, ends a b → Matched alike related (SameExit ends') (f a).run (g b).run) :
    Matched alike related (SameExit ends') (p >>= f).run (q >>= g).run := by
  rw [ExceptT.run_bind, ExceptT.run_bind]
  refine first.bind ?_
  intro out out' same
  cases same with
  | error stop => exact .pure (.error stop)
  | ok ended => exact later _ _ ended

/-- A result of each, and what follows each. -/
theorem SameExit.bind {ε : Type w} {ends' : γ → δ → Prop} {x : Except ε α} {y : Except ε β}
    {f : α → Except ε γ} {g : β → Except ε δ} (first : SameExit ends x y)
    (later : ∀ a b, ends a b → SameExit ends' (f a) (g b)) :
    SameExit ends' (x >>= f) (y >>= g) := by
  cases first with
  | error stop => exact .error stop
  | ok ended => exact later _ _ ended

/-- The same result, and what follows it. -/
theorem SameExit.bind_same {ε : Type w} {ends' : γ → δ → Prop} (x : Except ε α) {f : α → Except ε γ}
    {g : α → Except ε δ} (later : ∀ a, SameExit ends' (f a) (g a)) : SameExit ends' (x >>= f) (x >>= g) := by
  cases x with
  | error stop => exact .error stop
  | ok a => exact later a

theorem SameExit.mapError {ε ε' : Type w} {x : Except ε α} {y : Except ε β} (f : ε → ε')
    (same : SameExit ends x y) : SameExit ends (x.mapError f) (y.mapError f) := by
  cases same with
  | error stop => exact .error (f stop)
  | ok ended => exact .ok ended

variable (alike related) in
/-- Two events with effects that are alike and answers that are related. -/
def SameEvent (event event' : Event E R) : Prop :=
  alike event.1 event'.1 ∧ related event.1 event'.1 event.2 event'.2

/-- **A run of the one is matched by a run of the other**, event for event, if every answer has
a related one. -/
theorem Matched.steps (answered : ∀ e e' (r : R e), alike e e' → ∃ r' : R e', related e e' r r')
    {p rest : Prog E R α} {q : Prog E R β} {events : List (Event E R)}
    (matched : Matched alike related ends p q) (steps : Steps p events rest) :
    ∃ events' rest', Steps q events' rest' ∧
      List.Forall₂ (SameEvent alike related) events events' ∧
      Matched alike related ends rest rest' := by
  induction steps generalizing q with
  | refl p => exact ⟨[], q, .refl q, .nil, matched⟩
  | answer r onward ih =>
      cases matched with
      | op same next =>
          obtain ⟨r', agrees⟩ := answered _ _ r same
          obtain ⟨events', rest', steps', events_same, rest_same⟩ := ih (next r r' agrees)
          exact ⟨_, rest', .answer r' steps', .cons ⟨same, agrees⟩ events_same, rest_same⟩

end Rules

/-! ## The same answers, and the same notes -/

/-- The same answer, of the same type. -/
def sameAnswer : Relates E R := fun _ _ r r' => HEq r r'

theorem exists_sameAnswer {alike : E → E → Prop} (typed : ∀ e e', alike e e' → R e = R e') (e e' : E)
    (r : R e) (same : alike e e') : ∃ r' : R e', sameAnswer e e' r r' :=
  ⟨cast (typed e e' same) r, (cast_heq _ r).symm⟩

section Noted

variable {L : Type u} {alike : E → E → Prop}

/-- Effects that are alike, or the same note. -/
inductive NotedAlike (alike : E → E → Prop) : Noted E L → Noted E L → Prop where
  | act {e e' : E} (same : alike e e') : NotedAlike alike (.act e) (.act e')
  | note (l : L) : NotedAlike alike (.note l) (.note l)

theorem NotedAlike.typed (typed : ∀ e e', alike e e' → R e = R e') (e e' : Noted E L)
    (same : NotedAlike alike e e') : Noted.Answer L R e = Noted.Answer L R e' := by
  cases same with
  | act same => exact typed _ _ same
  | note l => rfl

variable {events events' : List (Event (Noted E L) (Noted.Answer L R))}

/-- Matched runs have the same notes. -/
theorem notes_eq_of_same (same : List.Forall₂ (SameEvent (NotedAlike alike) sameAnswer) events events') :
    Noted.notes events = Noted.notes events' := by
  induction same with
  | nil => rfl
  | @cons event event' events events' same _ ih =>
      obtain ⟨effect, answer⟩ := event
      obtain ⟨effect', answer'⟩ := event'
      obtain ⟨same, -⟩ := same
      cases same with
      | act _ => exact ih
      | note l => exact congrArg (l :: ·) ih

/-- The effects of matched runs are alike. -/
theorem acts_same (same : List.Forall₂ (SameEvent (NotedAlike alike) sameAnswer) events events') :
    List.Forall₂ (SameEvent alike sameAnswer) (Noted.acts events) (Noted.acts events') := by
  induction same with
  | nil => exact .nil
  | @cons event event' events events' same _ ih =>
      obtain ⟨effect, answer⟩ := event
      obtain ⟨effect', answer'⟩ := event'
      obtain ⟨same, agrees⟩ := same
      cases same with
      | act same => exact .cons ⟨same, agrees⟩ ih
      | note l => exact ih

end Noted

end CountingSheep.Theory.Prog
