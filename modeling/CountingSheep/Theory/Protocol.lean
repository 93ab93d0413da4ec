/-
# CountingSheep.Theory.Protocol — which effect may come next, and why a program keeps to it

A `Protocol` is a ghost state, the effects allowed in it, and where an answered
effect leads. `wp` is the weakest precondition of a program over it: from this
ghost state every effect the program performs is allowed, whatever the answers, and
its value meets `post` in the ghost state it ends in.

* `wp_bind`, `wpE_bind`: a sequence, without and with early exit. Together with the
  two equations of `wp` these are the rules of a program logic.
* `wp_steps`: at every moment the program has followed the protocol, and the rest
  of it still will.
* `run_follows`: and so does a thread under any interleaving.
-/
import CountingSheep.Theory.Interleaving

namespace CountingSheep.Theory

set_option autoImplicit false

universe u v w x y z

/-- The effects allowed in each ghost state, and the state an answer leads to. -/
structure Protocol (S : Type z) (E : Type u) (R : E → Type v) where
  allows : S → E → Prop
  next : S → (e : E) → R e → S

namespace Protocol

variable {S : Type z} {E : Type u} {R : E → Type v} {α β : Type w} (P : Protocol S E R)

/-- The ghost state a trace leads to. -/
def after : S → List (Event E R) → S
  | s, [] => s
  | s, ⟨e, r⟩ :: rest => after (P.next s e r) rest

/-- Every effect of the trace is allowed when it happens. -/
def Follows : S → List (Event E R) → Prop
  | _, [] => True
  | s, ⟨e, r⟩ :: rest => P.allows s e ∧ Follows (P.next s e r) rest

/-- From ghost state `s`, the program keeps to the protocol and ends in `post`. -/
def wp (post : S → α → Prop) : Prog E R α → S → Prop
  | .pure a, s => post s a
  | .op e k, s => P.allows s e ∧ ∀ r, wp post (k r) (P.next s e r)

section Traces

variable {P} {s : S} {first later events : List (Event E R)}

@[simp] theorem after_append : P.after s (first ++ later) = P.after (P.after s first) later := by
  induction first generalizing s with
  | nil => rfl
  | cons event rest ih => exact ih

@[simp] theorem follows_append :
    P.Follows s (first ++ later) ↔ P.Follows s first ∧ P.Follows (P.after s first) later := by
  induction first generalizing s with
  | nil => exact (iff_of_eq (true_and _)).symm
  | cons event rest ih => simp only [List.cons_append, Follows, ih, after, and_assoc]

/-- The invariant rule: what every allowed effect preserves holds after a trace
that follows the protocol. -/
theorem Follows.invariant (inv : S → List (Event E R) → Prop) (start : inv s [])
    (step : ∀ s h e r, inv s h → P.allows s e → inv (P.next s e r) (h ++ [⟨e, r⟩]))
    (follows : P.Follows s events) : inv (P.after s events) events := by
  suffices onward : ∀ (rest done : List (Event E R)) (t : S), inv t done → P.Follows t rest →
      inv (P.after t rest) (done ++ rest) from onward events [] s start follows
  intro rest
  induction rest with
  | nil =>
      intro done t held _
      rw [List.append_nil]
      exact held
  | cons event rest ih =>
      intro done t held follows
      have next := ih _ _ (step _ _ _ event.2 held follows.1) follows.2
      rwa [List.append_assoc] at next

end Traces

section Rules

variable {P} {post post' : S → α → Prop} {s : S}

@[simp] theorem wp_pure {a : α} : P.wp post (.pure a : Prog E R α) s ↔ post s a := Iff.rfl

theorem wp_op {e : E} {k : R e → Prog E R α} :
    P.wp post (.op e k) s ↔ P.allows s e ∧ ∀ r, P.wp post (k r) (P.next s e r) := Iff.rfl

theorem wp_mono {p : Prog E R α} (weaker : ∀ s a, post s a → post' s a) (holds : P.wp post p s) :
    P.wp post' p s := by
  induction p generalizing s with
  | pure a => exact weaker s a holds
  | op e k ih => exact ⟨holds.1, fun r => ih r (holds.2 r)⟩

/-- Sequencing: what the first part must establish is what the second needs. -/
theorem wp_bind {p : Prog E R α} {f : α → Prog E R β} {post : S → β → Prop} :
    P.wp post (p.bind f) s ↔ P.wp (fun s a => P.wp post (f a) s) p s := by
  induction p generalizing s with
  | pure a => rfl
  | op e k ih => simp only [Prog.bind, wp_op, ih]

variable {ε : Type w}

/-- What a part with early exit must establish: `post` if it stops, `more` if it goes on. -/
def orStop (post : S → Except ε β → Prop) (more : S → α → Prop) : S → Except ε α → Prop
  | s, .ok a => more s a
  | s, .error stop => post s (.error stop)

theorem wpE_bind {p : ExceptT ε (Prog E R) α} {f : α → ExceptT ε (Prog E R) β}
    {post : S → Except ε β → Prop} :
    P.wp post (p >>= f).run s ↔ P.wp (orStop post fun s a => P.wp post (f a).run s) p.run s := by
  rw [ExceptT.run_bind, Prog.bind_eq, wp_bind]
  constructor
  · refine wp_mono ?_
    rintro s (stop | a) holds
    · exact holds
    · exact holds
  · refine wp_mono ?_
    rintro s (stop | a) holds
    · exact holds
    · exact holds

end Rules

/-! ## Soundness -/

section Soundness

variable {P} {post : S → α → Prop} {s : S} {p q : Prog E R α} {events : List (Event E R)}

/-- **At every moment.** -/
theorem wp_steps (holds : P.wp post p s) (steps : Prog.Steps p events q) :
    P.Follows s events ∧ P.wp post q (P.after s events) := by
  induction steps generalizing s with
  | refl p => exact ⟨trivial, holds⟩
  | answer r rest ih =>
      obtain ⟨follows, onward⟩ := ih (holds.2 r)
      exact ⟨⟨holds.1, follows⟩, onward⟩

variable {ι : Type y} {σ : Type x} [DecidableEq ι] {W : World ι σ E R} {c c' : System ι σ E R α}
  {history : History ι E R}

/-- **A thread follows the protocol under any interleaving**, at every moment, and
meets `post` when it ends. -/
theorem run_follows {i : ι} (holds : P.wp post (c.threads i) s) (run : Run W c history c') :
    P.Follows s (History.of i history) ∧
      P.wp post (c'.threads i) (P.after s (History.of i history)) :=
  wp_steps holds (run.steps i)

end Soundness

end Protocol

end CountingSheep.Theory
