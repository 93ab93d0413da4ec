/-
# CountingSheep.Theory.Interruption — programs that may be stopped while they wait

A task waits for something or acts. While it waits, and only then, it may be stopped
for good: its time is up, or nobody wants its result any more. `interruptible` is a
program under such interruptions; a `task` waits first, for what decides how it acts.

* `phase_of_steps`: a task waits, or was stopped before it acted, or has all it
  waited for and acts.
* `run_uninterrupted`: without the waits, every run of tasks is one of programs that
  are never stopped, in which the tasks that were have not begun.
-/
import CountingSheep.Theory.Paths

namespace CountingSheep.Theory

set_option autoImplicit false

universe u v w x y

/-! ## Waiting and acting -/

/-- Wait for something, or act. -/
inductive Waiting (A : Type u) (E : Type u) where
  | await (a : A)
  | act (e : E)

namespace Waiting

variable {A E : Type u} {RA : A → Type v} {R : E → Type v} {X α β : Type v}

@[reducible] def Answer (RA : A → Type v) (R : E → Type v) : Waiting A E → Type v
  | .await a => RA a
  | .act e => R e

/-- What ends a wait: what was waited for, or an interruption. -/
abbrev OrStopped (X : Type v) (RA : A → Type v) (a : A) : Type v := Except X (RA a)

/-- The action of an entry, if it is one. -/
def asAct : Event (Waiting A E) (Answer RA R) → Option (Event E R)
  | ⟨.act e, r⟩ => some ⟨e, r⟩
  | ⟨.await _, _⟩ => none

/-- What an entry was told while it waited. -/
def asRead : Event (Waiting A E) (Answer (OrStopped X RA) R) → Option (Event A RA)
  | ⟨.await a, .ok r⟩ => some ⟨a, r⟩
  | ⟨.await _, .error _⟩ | ⟨.act _, _⟩ => none

def asStop : Event (Waiting A E) (Answer (OrStopped X RA) R) → Option X
  | ⟨.await _, .error why⟩ => some why
  | ⟨.await _, .ok _⟩ | ⟨.act _, _⟩ => none

/-- The actions of a trace. -/
def acts (events : List (Event (Waiting A E) (Answer RA R))) : List (Event E R) :=
  events.filterMap asAct

/-- All a trace was told while it waited. -/
def reads (events : List (Event (Waiting A E) (Answer (OrStopped X RA) R))) : List (Event A RA) :=
  events.filterMap asRead

/-- Why a trace was stopped, if it was. -/
def stops (events : List (Event (Waiting A E) (Answer (OrStopped X RA) R))) : List X :=
  events.filterMap asStop

/-- A program that only waits. -/
def awaiting (p : Prog A RA α) : Prog (Waiting A E) (Answer RA R) α := p.embed .await fun _ r => r

/-- A program that only acts. -/
def acting (p : Prog E R α) : Prog (Waiting A E) (Answer RA R) α := p.embed .act fun _ r => r

/-- A program that may be stopped wherever it waits. -/
def interruptible (X : Type v) : Prog (Waiting A E) (Answer RA R) α →
    Prog (Waiting A E) (Answer (OrStopped X RA) R) (Except X α)
  | .pure a => .pure (.ok a)
  | .op (.act e) k => .op (.act e) fun r => interruptible X (k r)
  | .op (.await a) k => .op (.await a) fun
      | .ok r => interruptible X (k r)
      | .error why => .pure (.error why)

/-- Wait for what `reader` reads, then act on it; stopped while waiting, end in `stop`. -/
def task (reader : Prog A RA β) (body : β → Prog E R α) (stop : X → α) :
    Prog (Waiting A E) (Answer (OrStopped X RA) R) α :=
  (interruptible X (awaiting reader)).bind fun
    | .ok b => acting (body b)
    | .error why => .pure (stop why)

@[simp] theorem acting_pure (a : α) :
    (acting (.pure a) : Prog (Waiting A E) (Answer RA R) α) = .pure a := rfl

/-- A program that only acts is at its end when its actions are. -/
theorem acting_eq_pure {p : Prog E R α} {a : α}
    (ended : (acting p : Prog (Waiting A E) (Answer RA R) α) = .pure a) : p = .pure a := by
  cases p with
  | pure b =>
      cases ended
      rfl
  | op e k => cases ended

theorem acting_bind (p : Prog E R α) (f : α → Prog E R β) :
    (acting (p.bind f) : Prog (Waiting A E) (Answer RA R) β) = (acting p).bind fun a => acting (f a) := by
  induction p with
  | pure a => rfl
  | op e k ih =>
      change Prog.op _ _ = Prog.op _ _
      congr 1
      funext r
      exact ih r

theorem interruptible_act (e : E) (k : R e → Prog (Waiting A E) (Answer RA R) α) :
    interruptible X (.op (.act e) k) = .op (.act e) fun r => interruptible X (k r) := by
  rw [interruptible]

theorem interruptible_await (a : A) (k : RA a → Prog (Waiting A E) (Answer RA R) α) :
    interruptible X (.op (.await a) k) = .op (.await a) fun
      | .ok r => interruptible X (k r)
      | .error why => .pure (.error why) := by
  rw [interruptible]

/-- A sequence is stopped in its first part or in its second. -/
theorem interruptible_bind (p : Prog (Waiting A E) (Answer RA R) α)
    (f : α → Prog (Waiting A E) (Answer RA R) β) :
    interruptible X (p.bind f) = (interruptible X p).bind fun
      | .ok a => interruptible X (f a)
      | .error why => .pure (.error why) := by
  induction p with
  | pure a => simp only [Prog.bind, interruptible]
  | op effect k ih =>
      cases effect with
      | act e => simp only [Prog.bind, interruptible_act, ih]
      | await a =>
          simp only [Prog.bind, interruptible_await]
          congr 1
          funext answer
          cases answer with
          | error why => rfl
          | ok r => exact ih r

/-- Nothing stops a program that only acts. -/
theorem interruptible_acting (p : Prog E R α) :
    interruptible X (acting p : Prog (Waiting A E) (Answer RA R) α) =
      acting (p.bind fun a => .pure (.ok a)) := by
  induction p with
  | pure a => simp only [acting, Prog.embed, Prog.bind, interruptible]
  | op e k ih =>
      change interruptible X (.op (.act e) fun r => acting (k r)) = _
      rw [interruptible_act]
      simp only [ih]
      rfl

/-! ## Where a task can be -/

section Phase

variable {reader : Prog A RA β} {body : β → Prog E R α} {stop : X → α}

/-- An answer waited for, in the trace of a task. -/
def awaited (X : Type v) (event : Event A RA) : Event (Waiting A E) (Answer (OrStopped X RA) R) :=
  ⟨.await event.1, .ok event.2⟩

def acted (X : Type v) (RA : A → Type v) (event : Event E R) :
    Event (Waiting A E) (Answer (OrStopped X RA) R) :=
  ⟨.act event.1, event.2⟩

/-- Where a task is after a trace: still waiting, stopped before it began, or acting on what it
read. `plain` is how far a program that was given `b` at once has come by the same actions. -/
inductive Phase (reader : Prog A RA β) (body : β → Prog E R α) (stop : X → α) (b : β) :
    List (Event (Waiting A E) (Answer (OrStopped X RA) R)) →
    Prog (Waiting A E) (Answer (OrStopped X RA) R) α → Prog E R α → Prop where
  | waiting {events : List (Event A RA)} {a : A} {k : RA a → Prog A RA β}
      (reading : Prog.Steps reader events (.op a k)) :
      Phase reader body stop b (events.map (awaited X)) (task (.op a k) body stop) (body b)
  | stopped {events : List (Event A RA)} {a : A} {k : RA a → Prog A RA β}
      (reading : Prog.Steps reader events (.op a k)) (why : X) :
      Phase reader body stop b (events.map (awaited X) ++ [⟨.await a, .error why⟩]) (.pure (stop why))
        (body b)
  | acting {events : List (Event A RA)} {done : List (Event E R)} {plain : Prog E R α}
      (read : Prog.Returns reader events b) (steps : Prog.Steps (body b) done plain) :
      Phase reader body stop b (events.map (awaited X) ++ done.map (acted X RA)) (acting plain) plain

/-- The traces of a program that only acts are its own. -/
theorem acting_steps {p : Prog E R α} {trace : List (Event (Waiting A E) (Answer (OrStopped X RA) R))}
    {q : Prog (Waiting A E) (Answer (OrStopped X RA) R) α} (steps : Prog.Steps (acting p) trace q) :
    ∃ done plain, trace = done.map (acted X RA) ∧ q = acting plain ∧ Prog.Steps p done plain := by
  induction p generalizing trace with
  | pure a =>
      obtain ⟨rfl, rfl⟩ := Prog.pure_steps_iff.mp steps
      exact ⟨[], .pure a, rfl, rfl, .refl _⟩
  | op e k ih =>
      cases steps with
      | refl => exact ⟨[], .op e k, rfl, rfl, .refl _⟩
      | answer r rest =>
          obtain ⟨done, plain, rfl, rfl, own⟩ := ih r rest
          exact ⟨⟨e, r⟩ :: done, plain, rfl, rfl, @Prog.Steps.answer _ _ _ _ k r _ _ own⟩

theorem steps_acting {p plain : Prog E R α} {done : List (Event E R)} (steps : Prog.Steps p done plain) :
    Prog.Steps (acting p) (done.map (acted X RA)) (acting plain) := by
  induction steps with
  | refl p => exact .refl _
  | @answer e k r _ _ _ ih =>
      exact @Prog.Steps.answer _ (Answer (OrStopped X RA) R) _ (.act e) (fun r => acting (k r)) r _ _ ih

theorem task_pure (b : β) :
    task (X := X) (.pure b : Prog A RA β) body stop = acting (body b) := by
  simp only [task, awaiting, Prog.embed, interruptible, Prog.bind]

theorem task_op (a : A) (k : RA a → Prog A RA β) : task (.op a k) body stop = .op (.await a) fun
    | .ok r => task (k r) body stop
    | .error why => .pure (stop why) := by
  simp only [task, awaiting, Prog.embed, interruptible, Prog.bind]
  congr 1
  funext answer
  cases answer <;> rfl

/-- One more answer, first. -/
theorem Phase.cons {a : A} {k : RA a → Prog A RA β} {r : RA a} {b : β}
    {trace : List (Event (Waiting A E) (Answer (OrStopped X RA) R))}
    {q : Prog (Waiting A E) (Answer (OrStopped X RA) R) α} {plain : Prog E R α}
    (phase : Phase (k r) body stop b trace q plain) :
    Phase (.op a k) body stop b (⟨.await a, .ok r⟩ :: trace) q plain := by
  cases phase with
  | waiting reading => exact .waiting (Prog.Steps.answer r reading)
  | stopped reading why => exact .stopped (Prog.Steps.answer r reading) why
  | acting read steps => exact .acting (Prog.Steps.answer r read) steps

/-- **A task waits, or was stopped before it acted, or has all it waited for and acts.** -/
theorem phase_of_steps [Nonempty β]
    {trace : List (Event (Waiting A E) (Answer (OrStopped X RA) R))}
    {q : Prog (Waiting A E) (Answer (OrStopped X RA) R) α}
    (steps : Prog.Steps (task reader body stop) trace q) :
    ∃ b plain, Phase reader body stop b trace q plain := by
  induction reader generalizing trace with
  | pure b =>
      rw [task_pure] at steps
      obtain ⟨done, plain, rfl, rfl, own⟩ := acting_steps steps
      exact ⟨b, plain, .acting (.refl _) own⟩
  | op a k ih =>
      rw [task_op] at steps
      cases steps with
      | refl =>
          obtain ⟨b⟩ := ‹Nonempty β›
          rw [← task_op]
          exact ⟨b, _, .waiting (.refl _)⟩
      | answer answer rest =>
          cases answer with
          | ok r =>
              obtain ⟨b, plain, phase⟩ := ih r rest
              exact ⟨b, plain, phase.cons⟩
          | error why =>
              obtain ⟨rfl, rfl⟩ := Prog.pure_steps_iff.mp rest
              obtain ⟨b⟩ := ‹Nonempty β›
              exact ⟨b, _, .stopped (.refl _) why⟩

end Phase

/-! ## The actions of a trace -/

section Acts

variable {reader : Prog A RA β} {body : β → Prog E R α} {stop : X → α} {b : β}
  {trace : List (Event (Waiting A E) (Answer (OrStopped X RA) R))}
  {q : Prog (Waiting A E) (Answer (OrStopped X RA) R) α} {plain : Prog E R α}

theorem acts_append (first later : List (Event (Waiting A E) (Answer RA R))) :
    acts (first ++ later) = acts first ++ acts later := List.filterMap_append

@[simp] theorem acts_awaited (events : List (Event A RA)) :
    acts (R := R) (events.map (awaited X)) = [] := by
  simp [acts, asAct, awaited]

@[simp] theorem acts_acted (done : List (Event E R)) :
    acts (done.map (acted X RA)) = done := by
  induction done with
  | nil => rfl
  | cons event rest ih => exact congrArg (event :: ·) ih

theorem reads_append (first later : List (Event (Waiting A E) (Answer (OrStopped X RA) R))) :
    reads (first ++ later) = reads first ++ reads later := List.filterMap_append

@[simp] theorem reads_awaited (events : List (Event A RA)) :
    reads (R := R) (events.map (awaited X)) = events := by
  induction events with
  | nil => rfl
  | cons event rest ih => exact congrArg (event :: ·) ih

@[simp] theorem reads_acted (done : List (Event E R)) :
    reads (done.map (acted X RA)) = [] := by
  simp [reads, asRead, acted]

theorem stops_append (first later : List (Event (Waiting A E) (Answer (OrStopped X RA) R))) :
    stops (first ++ later) = stops first ++ stops later := List.filterMap_append

@[simp] theorem stops_awaited (events : List (Event A RA)) :
    stops (R := R) (events.map (awaited X)) = [] := by
  simp [stops, asStop, awaited]

@[simp] theorem stops_acted (done : List (Event E R)) :
    stops (done.map (acted X RA)) = [] := by
  simp [stops, asStop, acted]

/-- What has been done is a trace of the program that acts. -/
theorem Phase.steps (phase : Phase reader body stop b trace q plain) :
    Prog.Steps (body b) (acts trace) plain := by
  cases phase with
  | waiting reading =>
      rw [acts_awaited]
      exact .refl _
  | stopped reading why =>
      rw [acts_append, acts_awaited]
      exact .refl _
  | acting read steps =>
      rw [acts_append, acts_awaited, acts_acted]
      exact steps

/-- A task that was stopped, or is about to wait, has done nothing. Any other has all it
waited for, and does what is left of its program. -/
theorem Phase.standing (phase : Phase reader body stop b trace q plain) :
    (stops trace = [] ∧ (∃ a k, q = .op (.await a) k) ∧ acts trace = [] ∧ plain = body b) ∨
      (∃ why, stops trace = [why] ∧ q = .pure (stop why) ∧ acts trace = [] ∧ plain = body b) ∨
      stops trace = [] ∧ Prog.Returns reader (reads trace) b ∧ q = Waiting.acting plain := by
  cases phase with
  | waiting reading =>
      rw [task_op]
      exact .inl ⟨stops_awaited _, ⟨_, _, rfl⟩, acts_awaited _, rfl⟩
  | stopped reading why =>
      refine .inr (.inl ⟨why, ?_, rfl, ?_, rfl⟩)
      · rw [stops_append, stops_awaited]
        rfl
      · rw [acts_append, acts_awaited]
        rfl
  | acting read steps =>
      refine .inr (.inr ⟨?_, ?_, rfl⟩)
      · rw [stops_append, stops_awaited, stops_acted, List.append_nil]
      · rw [reads_append, reads_awaited, reads_acted, List.append_nil]
        exact read

end Acts

end Waiting

/-! ## Tasks beside one another -/

section Run

open Waiting

variable {ι : Type y} {σ : Type x} {A E : Type u} {RA : A → Type v} {R : E → Type v} {X α β : Type v}

/-- The same world for programs that wait: any answer and any interruption, at any time. -/
def World.waiting (W : World ι σ E R) (X : Type v) (RA : A → Type v) :
    World ι σ (Waiting A E) (Answer (OrStopped X RA) R) where
  answer i s effect answer s' := match effect, answer with
    | .act e, r => W.answer i s e r s'
    | .await _, _ => s' = s
  drift := W.drift

/-- A history without its waits. -/
def History.actions (history : History ι (Waiting A E) (Answer RA R)) : History ι E R :=
  history.filterMap fun entry => (asAct entry.2).map fun event => (entry.1, event)

variable {W : World ι σ E R}

theorem answers_waiting {i : ι} {s s' : σ} {done : List (Event E R)} (answers : W.Answers i s done s') :
    (W.waiting X RA).Answers i s (done.map (acted X RA)) s' := by
  induction answers with
  | nil s => exact .nil s
  | cons answered _ ih => exact .cons answered ih

theorem path_actions {s s' : σ} {history : History ι (Waiting A E) (Answer (OrStopped X RA) R)}
    (path : (W.waiting X RA).Path s history s') : W.Path s (History.actions history) s' := by
  induction path with
  | refl s => exact .refl s
  | drift moved _ ih => exact .drift moved ih
  | @effect s s₁ s₂ i effect answer history answered _ ih =>
      cases effect with
      | act e => exact .effect answered ih
      | await a =>
          obtain rfl : s₁ = s := answered
          exact ih

theorem of_actions [DecidableEq ι] (i : ι) (history : History ι (Waiting A E) (Answer RA R)) :
    History.of i (History.actions history) = acts (History.of i history) := by
  simp only [History.of, History.actions, acts, List.filterMap_filterMap]
  congr 1
  funext entry
  by_cases here : entry.1 = i
  · cases act : asAct entry.2 <;> simp [here, act]
  · cases act : asAct entry.2 <;> simp [here]

/-- **Interruptions leave nothing behind.** Every run of tasks is, without its waits, a run of
programs that had all they waited for from the start and are never stopped. -/
theorem run_uninterrupted [DecidableEq ι] [Nonempty β] {readers : ι → Prog A RA β}
    {body : ι → β → Prog E R α} {stop : X → α} {start : σ}
    {history : History ι (Waiting A E) (Answer (OrStopped X RA) R)}
    {c : System ι σ (Waiting A E) (Answer (OrStopped X RA) R) α}
    (run : Run (W.waiting X RA) ⟨start, fun i => task (readers i) (body i) stop⟩ history c) :
    ∃ (given : ι → β) (d : System ι σ E R α),
      Run W ⟨start, fun i => body i (given i)⟩ (History.actions history) d ∧ d.shared = c.shared ∧
      ∀ i, Phase (readers i) (body i) stop (given i) (History.of i history) (c.threads i) (d.threads i) := by
  obtain ⟨path, steps⟩ := run_iff_path.mp run
  choose given plain phase using fun i => phase_of_steps (steps i)
  refine ⟨given, ⟨c.shared, plain⟩, run_iff_path.mpr ⟨path_actions path, fun i => ?_⟩, rfl, phase⟩
  rw [of_actions]
  exact (phase i).steps

end Run

end CountingSheep.Theory
