/-
# CountingSheep.Theory.Annotated — programs that write notes between their effects

`Noted E L` adds notes `l : L` to the effects `E`: a log line, a comment, anything
that is written and not answered. `erase` forgets them. Notes never matter to what
a program does:

* `erase_bind`, `eraseE_bind`: erasing is a morphism of programs, without and with
  early exit, so a noted program is compared with a plain one part by part.
* `steps_erase`, `erase_returns_iff`: the traces of the erased program are the acts
  of the noted one's.
* `run_erase`, `exists_run_of_erase`: and so are its runs, in both directions,
  beside any other threads and over any world.
-/
import CountingSheep.Theory.Interleaving

namespace CountingSheep.Theory

set_option autoImplicit false

universe u v w x y

/-- An effect, or a note. -/
inductive Noted (E : Type u) (L : Type u) where
  | act (e : E)
  | note (l : L)

namespace Noted

variable {E : Type u} {L : Type u} {R : E → Type v} {α β : Type w}

@[reducible] def Answer (L : Type u) (R : E → Type v) : Noted E L → Type v
  | .act e => R e
  | .note _ => PUnit

/-- The effect an entry of a noted trace performed, if it is not a note. -/
def asAct : Event (Noted E L) (Answer L R) → Option (Event E R)
  | ⟨.act e, r⟩ => some ⟨e, r⟩
  | ⟨.note _, _⟩ => none

def asNote : Event (Noted E L) (Answer L R) → Option L
  | ⟨.act _, _⟩ => none
  | ⟨.note l, _⟩ => some l

/-- A noted trace without its notes. -/
def acts (events : List (Event (Noted E L) (Answer L R))) : List (Event E R) :=
  events.filterMap asAct

/-- The notes of a trace, oldest first. -/
def notes (events : List (Event (Noted E L) (Answer L R))) : List L := events.filterMap asNote

@[simp] theorem acts_nil : acts ([] : List (Event (Noted E L) (Answer L R))) = [] := rfl

@[simp] theorem notes_nil : notes ([] : List (Event (Noted E L) (Answer L R))) = [] := rfl

@[simp] theorem acts_append (first later : List (Event (Noted E L) (Answer L R))) :
    acts (first ++ later) = acts first ++ acts later := List.filterMap_append

@[simp] theorem notes_append (first later : List (Event (Noted E L) (Answer L R))) :
    notes (first ++ later) = notes first ++ notes later := List.filterMap_append

@[simp] theorem acts_act (e : E) (r : R e) (events : List (Event (Noted E L) (Answer L R))) :
    acts (⟨.act e, r⟩ :: events) = ⟨e, r⟩ :: acts events := rfl

@[simp] theorem acts_note (l : L) (r : PUnit) (events : List (Event (Noted E L) (Answer L R))) :
    acts (⟨.note l, r⟩ :: events) = acts events := rfl

@[simp] theorem notes_act (e : E) (r : R e) (events : List (Event (Noted E L) (Answer L R))) :
    notes (⟨.act e, r⟩ :: events) = notes events := rfl

@[simp] theorem notes_note (l : L) (r : PUnit) (events : List (Event (Noted E L) (Answer L R))) :
    notes (⟨.note l, r⟩ :: events) = l :: notes events := rfl

/-! ## Erasing the notes of a program -/

/-- The program without its notes. -/
def erase : Prog (Noted E L) (Answer L R) α → Prog E R α
  | .pure a => .pure a
  | .op (.act e) k => .op e fun r => erase (k r)
  | .op (.note _) k => erase (k ⟨⟩)

@[simp] theorem erase_pure (a : α) :
    erase (.pure a : Prog (Noted E L) (Answer L R) α) = .pure a := by
  rw [erase]

@[simp] theorem erase_act (e : E) (k : R e → Prog (Noted E L) (Answer L R) α) :
    erase (.op (.act e) k) = .op e fun r => erase (k r) := by
  rw [erase]

@[simp] theorem erase_note (l : L) (k : PUnit → Prog (Noted E L) (Answer L R) α) :
    erase (.op (.note l) k) = erase (k ⟨⟩) := by
  rw [erase]

theorem erase_bind (p : Prog (Noted E L) (Answer L R) α)
    (f : α → Prog (Noted E L) (Answer L R) β) :
    erase (p.bind f) = (erase p).bind fun a => erase (f a) := by
  induction p with
  | pure a => simp only [Prog.bind, erase_pure]
  | op effect k ih =>
      cases effect with
      | act e => simp only [Prog.bind, erase_act, ih]
      | note l => simp only [Prog.bind, erase_note, ih]

section Exit

variable {ε : Type w}

/-- Erasing under early exit. -/
def eraseE (p : ExceptT ε (Prog (Noted E L) (Answer L R)) α) : ExceptT ε (Prog E R) α :=
  ExceptT.mk (erase p.run)

theorem eraseE_run (p : ExceptT ε (Prog (Noted E L) (Answer L R)) α) :
    (eraseE p).run = erase p.run := rfl

theorem eraseE_bind (p : ExceptT ε (Prog (Noted E L) (Answer L R)) α)
    (f : α → ExceptT ε (Prog (Noted E L) (Answer L R)) β) :
    eraseE (p >>= f) = eraseE p >>= fun a => eraseE (f a) := by
  apply ExceptT.ext
  rw [eraseE_run, ExceptT.run_bind, ExceptT.run_bind, eraseE_run, Prog.bind_eq, Prog.bind_eq,
    erase_bind]
  congr 1
  funext out
  cases out with
  | error stop => exact erase_pure _
  | ok a => rfl

@[simp] theorem eraseE_pure (a : α) :
    eraseE (Pure.pure a : ExceptT ε (Prog (Noted E L) (Answer L R)) α) = Pure.pure a :=
  ExceptT.ext (erase_pure (L := L) _)

@[simp] theorem eraseE_throw (stop : ε) :
    eraseE (throw stop : ExceptT ε (Prog (Noted E L) (Answer L R)) α) = throw stop :=
  ExceptT.ext (erase_pure (L := L) _)

end Exit

/-! ## Traces -/

section Traces

variable {p q : Prog (Noted E L) (Answer L R) α}
  {events : List (Event (Noted E L) (Answer L R))} {a : α}

theorem steps_erase (steps : Prog.Steps p events q) :
    Prog.Steps (erase p) (acts events) (erase q) := by
  induction steps with
  | refl p => exact .refl _
  | @answer effect k r events q rest ih =>
      cases effect with
      | act e =>
          rw [erase_act, acts_act]
          exact @Prog.Steps.answer _ _ _ _ (fun r => erase (k r)) r _ _ ih
      | note l =>
          rw [erase_note]
          exact ih

/-- **The traces of the erased program are the acts of the noted one's.** -/
theorem erase_returns_iff {plain : List (Event E R)} :
    Prog.Returns (erase p) plain a ↔ ∃ events, acts events = plain ∧ Prog.Returns p events a := by
  constructor
  · induction p generalizing plain with
    | pure b =>
        intro returned
        rw [erase_pure] at returned
        obtain ⟨rfl, rfl⟩ := Prog.pure_returns_iff.mp returned
        exact ⟨[], rfl, .refl _⟩
    | op effect k ih =>
        intro returned
        cases effect with
        | act e =>
            rw [erase_act] at returned
            obtain ⟨r, rest, rfl, continued⟩ := Prog.op_returns_iff.mp returned
            obtain ⟨events, rfl, noted⟩ := ih r continued
            exact ⟨⟨.act e, r⟩ :: events, rfl, @Prog.Steps.answer _ _ _ _ k r _ _ noted⟩
        | note l =>
            rw [erase_note] at returned
            obtain ⟨events, rfl, noted⟩ := ih ⟨⟩ returned
            exact ⟨⟨.note l, ⟨⟩⟩ :: events, rfl, @Prog.Steps.answer _ _ _ _ k ⟨⟩ _ _ noted⟩
  · rintro ⟨events, rfl, returned⟩
    simpa using steps_erase returned

/-- A noted program about to act has only notes left before it does. -/
theorem exists_steps_act {e : E} {k : R e → Prog E R α} (next : erase p = .op e k) :
    ∃ events k', acts events = [] ∧ Prog.Steps p events (.op (.act e) k') ∧
      ∀ r, erase (k' r) = k r := by
  induction p with
  | pure a =>
      rw [erase_pure] at next
      cases next
  | op effect k' ih =>
      cases effect with
      | act e' =>
          rw [erase_act] at next
          cases next
          exact ⟨[], k', rfl, .refl _, fun r => rfl⟩
      | note l =>
          rw [erase_note] at next
          obtain ⟨events, k'', silent, steps, same⟩ := ih ⟨⟩ next
          exact ⟨⟨.note l, ⟨⟩⟩ :: events, k'', silent, @Prog.Steps.answer _ _ _ _ k' ⟨⟩ _ _ steps, same⟩

end Traces

/-! ## Among further effects and notes -/

section Widen

variable {E' : Type u} {L' : Type u} {R' : E' → Type v}

/-- An effect or a note among those of a larger kind. -/
def widen (f : E → E') (g : L → L') : Noted E L → Noted E' L'
  | .act e => .act (f e)
  | .note l => .note (g l)

def widenBack {f : E → E'} {g : L → L'} (back : ∀ e, R' (f e) → R e) :
    ∀ effect : Noted E L, Answer L' R' (widen f g effect) → Answer L R effect
  | .act e, r => back e r
  | .note _, _ => ⟨⟩

/-- Notes are erased alike before and after embedding. -/
theorem erase_embed {f : E → E'} {g : L → L'} (back : ∀ e, R' (f e) → R e)
    (p : Prog (Noted E L) (Answer L R) α) :
    erase (p.embed (widen f g) (widenBack back)) = (erase p).embed f back := by
  induction p with
  | pure a => simp only [Prog.embed, erase_pure]
  | op effect k ih =>
      cases effect with
      | act e =>
          rw [erase_act, Prog.embed, Prog.embed]
          exact (erase_act (f e) _).trans (congrArg _ (funext fun r => ih (back e r)))
      | note l =>
          rw [erase_note, Prog.embed]
          exact (erase_note (g l) _).trans (ih ⟨⟩)

end Widen

end Noted

/-! ## Runs -/

section Run

open Noted

variable {ι : Type y} {σ : Type x} {E : Type u} {L : Type u} {R : E → Type v} {α : Type w}

/-- The same world for programs with notes, which it lets pass. -/
def World.noted (W : World ι σ E R) (L : Type u) : World ι σ (Noted E L) (Noted.Answer L R) where
  answer i s effect answer s' := match effect, answer with
    | .act e, r => W.answer i s e r s'
    | .note _, _ => s' = s
  drift := W.drift

/-- The system without notes. -/
def System.erase (c : System ι σ (Noted E L) (Noted.Answer L R) α) : System ι σ E R α :=
  ⟨c.shared, fun i => Noted.erase (c.threads i)⟩

/-- A history without its notes. -/
def History.acts (history : History ι (Noted E L) (Noted.Answer L R)) : History ι E R :=
  history.filterMap fun entry => (asAct entry.2).map fun event => (entry.1, event)

/-- The notes of a history, with who wrote them. -/
def History.notes (history : History ι (Noted E L) (Noted.Answer L R)) : List (ι × L) :=
  history.filterMap fun entry => (asNote entry.2).map fun l => (entry.1, l)

variable {W : World ι σ E R}

/-- Whatever answers the acts of a trace answers the trace. -/
theorem answers_noted {i : ι} {events : List (Event (Noted E L) (Noted.Answer L R))} {s s' : σ}
    (answers : W.Answers i s (Noted.acts events) s') : (W.noted L).Answers i s events s' := by
  induction events generalizing s with
  | nil =>
      cases answers
      exact .nil _
  | cons event rest ih =>
      obtain ⟨effect, r⟩ := event
      cases effect with
      | note l => exact .cons rfl (ih answers)
      | act e =>
          cases answers with
          | cons answered more =>
              have acts : (W.noted L).answer i s (.act e) r _ := answered
              exact .cons acts (ih more)

variable [DecidableEq ι]
  {c c' : System ι σ (Noted E L) (Noted.Answer L R) α}
  {history : History ι (Noted E L) (Noted.Answer L R)}

omit [DecidableEq ι] in
@[simp] theorem History.acts_append (first later : History ι (Noted E L) (Noted.Answer L R)) :
    History.acts (first ++ later) = History.acts first ++ History.acts later :=
  List.filterMap_append

theorem History.of_acts (i : ι) (history : History ι (Noted E L) (Noted.Answer L R)) :
    History.of i (History.acts history) = Noted.acts (History.of i history) := by
  induction history with
  | nil => rfl
  | cons entry rest ih =>
      obtain ⟨j, effect, r⟩ := entry
      have split : (j, (⟨effect, r⟩ : Event _ _)) :: rest = [(j, ⟨effect, r⟩)] ++ rest := rfl
      rw [split, History.acts_append, History.of_append, History.of_append, Noted.acts_append, ih]
      congr 1
      by_cases here : j = i
      · subst here
        cases effect <;> simp [History.acts, asAct, Noted.acts, History.of]
      · cases effect <;> simp [History.acts, asAct, Noted.acts, History.of, here]

/-- **Erasing the notes of a run leaves a run.** -/
theorem run_erase (run : Run (W.noted L) c history c') : Run W c.erase (History.acts history) c'.erase := by
  induction run with
  | refl => exact .refl
  | @snoc history made c' c'' before step ih =>
      rw [History.acts_append]
      cases step with
      | drift moved => exact ih.snoc (.drift moved)
      | @effect i effect k r s' next answered =>
          have threads : (fun j => Noted.erase (Function.update c'.threads i (k r) j)) =
              Function.update c'.erase.threads i (Noted.erase (k r)) := by
            funext j
            by_cases same : j = i
            · subst same
              rw [Function.update_self, Function.update_self]
            · rw [Function.update_of_ne same, Function.update_of_ne same]
              rfl
          cases effect with
          | act e =>
              have plain : c'.erase.threads i = .op e fun r => Noted.erase (k r) := by
                rw [← erase_act, ← next]
                rfl
              have stepped := ih.snoc (.effect plain answered)
              rw [← threads] at stepped
              exact stepped
          | note l =>
              have unchanged : s' = c'.shared := answered
              have same : c'.erase.threads i = Noted.erase (k r) := by
                rw [← erase_note l k, ← next]
                rfl
              rw [← same, Function.update_eq_self] at threads
              have stays : (System.mk s' (Function.update c'.threads i (k r))).erase = c'.erase := by
                rw [unchanged, System.erase, threads]
                rfl
              rw [stays]
              simpa [History.acts, asAct] using ih

/-- **Every run of the erased system is that of a noted run**, whose notes are
written just in time. -/
theorem exists_run_of_erase {plain : History ι E R} {d : System ι σ E R α}
    (run : Run W c.erase plain d) :
    ∃ history c', Run (W.noted L) c history c' ∧ History.acts history = plain ∧ c'.erase = d := by
  induction run with
  | refl => exact ⟨[], c, .refl, rfl, rfl⟩
  | @snoc plain made d d' before step ih =>
      obtain ⟨history, c', noted, rfl, rfl⟩ := ih
      cases step with
      | drift moved =>
          refine ⟨history ++ [], _, noted.snoc (.drift moved), ?_, rfl⟩
          rw [History.acts_append]
          rfl
      | @effect i e k r s' next answered =>
          obtain ⟨events, k', silent, steps, same⟩ :=
            exists_steps_act (p := c'.threads i) next
          have passes : (W.noted L).Answers i c'.shared events c'.shared :=
            answers_noted (by rw [silent]; exact .nil _)
          have waited := Run.alone steps passes
          have acts : (W.noted L).answer i c'.shared (.act e) r s' := answered
          have acted := (noted.trans waited).snoc (.effect (Function.update_self ..) acts)
          rw [Function.update_idem] at acted
          refine ⟨_, _, acted, ?_, ?_⟩
          · have quiet : History.acts (events.map fun event => (i, event)) = [] := by
              rw [History.acts, List.filterMap_map, List.filterMap_eq_nil_iff]
              intro event member
              have none : asAct event = none := List.filterMap_eq_nil_iff.mp silent event member
              simp [none]
            rw [History.acts_append, History.acts_append, quiet, List.append_nil]
            rfl
          · unfold System.erase
            congr 1
            funext j
            by_cases here : j = i
            · subst here
              simp only [Function.update_self, same]
            · simp only [Function.update_of_ne here]

end Run

end CountingSheep.Theory
