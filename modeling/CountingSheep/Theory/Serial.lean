/-
# CountingSheep.Theory.Serial — runs that might have been one thread at a time

An effect is private when the world answers it without touching the shared state,
and as well in any other state. A private event commutes with every event of
another thread and with every drift (`Step.swap`, `Step.swap_back`), so it may be
moved next to the others of its thread. If each thread performs at most one effect
that is not private, all of its events gather around that one:

* `Run.serial`: the threads could have run whole, one after another, in the order of
  these effects, with the same answers and to the same system; a thread that was
  through before another began comes before it.
-/
import CountingSheep.Theory.Interleaving
import Mathlib.Data.List.Induction
import Mathlib.Data.List.Nodup

namespace CountingSheep.Theory

set_option autoImplicit false

universe u v w x y

variable {ι : Type y} {σ : Type x} {E : Type u} {R : E → Type v} {α : Type w}

/-- Answered without touching the shared state, wherever that is. -/
structure World.Private (W : World ι σ E R) (e : E) : Prop where
  untouched : ∀ i s r s', W.answer i s e r s' → s' = s
  anywhere : ∀ i s r t, W.answer i s e r s → W.answer i t e r t

variable [DecidableEq ι] {W : World ι σ E R} {c c' d : System ι σ E R α}
  {history made : History ι E R} {i : ι} {e : E} {r : R e}

/-! ## A private event commutes with what others do -/

theorem Step.swap (hidden : W.Private e) (first : Step W c [(i, ⟨e, r⟩)] d) (second : Step W d made c')
    (others : History.of i made = []) : ∃ m, Step W c made m ∧ Step W m [(i, ⟨e, r⟩)] c' := by
  cases first with
  | @effect _ _ k _ s next answered =>
      obtain rfl := hidden.untouched _ _ _ _ answered
      cases second with
      | @effect j e' k' r' s' next' answered' =>
          have other : j ≠ i := by
            rintro rfl
            rw [History.of_single_self] at others
            cases others
          have next' : c.threads j = .op e' k' := (Function.update_of_ne other ..).symm.trans next'
          refine ⟨_, .effect next' answered', ?_⟩
          change Step W _ _ ⟨s', Function.update (Function.update c.threads i (k r)) j (k' r')⟩
          rw [Function.update_comm other.symm]
          exact .effect ((Function.update_of_ne other.symm ..).trans next) (hidden.anywhere _ _ _ s' answered)
      | drift moved => exact ⟨_, .drift moved, .effect next (hidden.anywhere _ _ _ _ answered)⟩

theorem Step.swap_back (hidden : W.Private e) (first : Step W c made d) (second : Step W d [(i, ⟨e, r⟩)] c')
    (others : History.of i made = []) : ∃ m, Step W c [(i, ⟨e, r⟩)] m ∧ Step W m made c' := by
  cases second with
  | @effect _ _ k _ s next answered =>
      obtain rfl := hidden.untouched _ _ _ _ answered
      cases first with
      | @effect j e' k' r' s' next' answered' =>
          have other : j ≠ i := by
            rintro rfl
            rw [History.of_single_self] at others
            cases others
          have next : c.threads i = .op e k := (Function.update_of_ne other.symm ..).symm.trans next
          refine ⟨_, .effect next (hidden.anywhere _ _ _ c.shared answered), ?_⟩
          change Step W _ _ ⟨s', Function.update (Function.update c.threads j (k' r')) i (k r)⟩
          rw [Function.update_comm other]
          exact .effect ((Function.update_of_ne other ..).trans next') answered'
      | drift moved => exact ⟨_, .effect next (hidden.anywhere _ _ _ c.shared answered), .drift moved⟩

theorem Run.swap (hidden : W.Private e) (first : Step W c [(i, ⟨e, r⟩)] d) (later : Run W d history c')
    (others : History.of i history = []) : ∃ m, Run W c history m ∧ Step W m [(i, ⟨e, r⟩)] c' := by
  induction later with
  | refl => exact ⟨c, .refl, first⟩
  | snoc before step ih =>
      rw [History.of_append, List.append_eq_nil_iff] at others
      obtain ⟨m, before', last⟩ := ih others.1
      obtain ⟨m', step', last'⟩ := Step.swap hidden last step others.2
      exact ⟨m', before'.snoc step', last'⟩

theorem Run.swap_back (hidden : W.Private e) (before : Run W c history d) (last : Step W d [(i, ⟨e, r⟩)] c')
    (others : History.of i history = []) : ∃ m, Step W c [(i, ⟨e, r⟩)] m ∧ Run W m history c' := by
  induction before generalizing c' with
  | refl => exact ⟨c', last, .refl⟩
  | snoc before step ih =>
      rw [History.of_append, List.append_eq_nil_iff] at others
      obtain ⟨m, last', step'⟩ := Step.swap_back hidden step last others.2
      obtain ⟨m', first, before'⟩ := ih last' others.1
      exact ⟨m', first, before'.snoc step'⟩

/-! ## Taking runs apart -/

theorem Step.made_cases (step : Step W c made c') : made = [] ∨ ∃ entry, made = [entry] := by
  cases step with
  | effect next answered => exact .inr ⟨_, rfl⟩
  | drift moved => exact .inl rfl

theorem Run.split {first later : History ι E R} (run : Run W c (first ++ later) c') :
    ∃ m, Run W c first m ∧ Run W m later c' := by
  generalize whole : first ++ later = history at run
  induction run generalizing later with
  | refl =>
      obtain ⟨rfl, rfl⟩ := List.append_eq_nil_iff.mp whole
      exact ⟨c, .refl, .refl⟩
  | @snoc history made m c' before step ih =>
      rcases List.eq_nil_or_concat later with rfl | ⟨front, last, rfl⟩
      · rw [List.append_nil] at whole
        exact ⟨c', whole ▸ before.snoc step, .refl⟩
      · rcases step.made_cases with rfl | ⟨entry, rfl⟩
        · rw [List.append_nil] at whole
          obtain ⟨n, head, tail⟩ := ih whole
          exact ⟨n, head, by simpa using tail.snoc step⟩
        · rw [List.concat_eq_append, ← List.append_assoc] at whole
          obtain ⟨front_eq, last_eq⟩ := List.append_inj' whole rfl
          obtain ⟨n, head, tail⟩ := ih front_eq
          cases last_eq
          exact ⟨n, head, by simpa using tail.snoc step⟩

theorem Run.uncons {entry : ι × Event E R} (run : Run W c [entry] c') :
    ∃ m n, Run W c [] m ∧ Step W m [entry] n ∧ Run W n [] c' := by
  generalize whole : [entry] = history at run
  induction run with
  | refl => cases whole
  | @snoc history made m c' before step ih =>
      rcases step.made_cases with rfl | ⟨last, rfl⟩
      · rw [List.append_nil] at whole ⊢
        obtain ⟨p, q, head, middle, tail⟩ := ih whole
        exact ⟨p, q, head, middle, tail.snoc step⟩
      · obtain ⟨rfl, same⟩ := List.append_inj' (show [] ++ [entry] = history ++ [last] from whole) rfl
        cases same
        exact ⟨m, c', before, step, .refl⟩

/-! ## A thread's events side by side -/

namespace History

/-- The events of one thread. -/
def block (i : ι) (history : History ι E R) : History ι E R :=
  (of i history).map fun event => (i, event)

/-- The events of these threads, one thread after another. -/
def sequential (order : List ι) (history : History ι E R) : History ι E R :=
  order.flatMap fun i => block i history

theorem of_block_ne {j : ι} (different : j ≠ i) (history : History ι E R) : of i (block j history) = [] := by
  simp [of, block, different]

theorem of_sequential {order : List ι} (absent : i ∉ order) (history : History ι E R) :
    of i (sequential order history) = [] := by
  induction order with
  | nil => rfl
  | cons j rest ih =>
      obtain ⟨different, absent⟩ := List.ne_and_not_mem_of_not_mem_cons absent
      rw [sequential, List.flatMap_cons, of_append, of_block_ne (Ne.symm different)]
      exact ih absent

theorem block_append_self (history : History ι E R) (event : Event E R) :
    block i (history ++ [(i, event)]) = block i history ++ [(i, event)] := by
  simp [block]

theorem sequential_split (front back : List ι) (history : History ι E R) :
    sequential (front ++ i :: back) history =
      sequential front history ++ (block i history ++ sequential back history) := by
  simp only [sequential, List.flatMap_append, List.flatMap_cons]

theorem sequential_snoc (order : List ι) (history : History ι E R) :
    sequential (order ++ [i]) history = sequential order history ++ block i history := by
  have nothing : sequential [] history = [] := rfl
  rw [sequential_split, nothing, List.append_nil]

theorem sequential_append {order : List ι} (absent : i ∉ order) (history : History ι E R)
    (event : Event E R) : sequential order (history ++ [(i, event)]) = sequential order history := by
  refine List.flatMap_congr fun j member => ?_
  have different : i ≠ j := fun same => absent (same ▸ member)
  rw [block, of_append, of_single_ne different, List.append_nil]
  rfl

/-- Thread `i` did all it did before thread `j` did anything. -/
def Precedes (history : History ι E R) (i j : ι) : Prop :=
  ∃ first later, history = first ++ later ∧ of i later = [] ∧ of j first = []

end History

open History

/-- A private block moves behind what others did. -/
theorem Run.push_back {own later : History ι E R}
    (hidden : ∀ entry ∈ own, entry.1 = i ∧ W.Private entry.2.1) (others : of i later = [])
    (run : Run W c (own ++ later) c') : Run W c (later ++ own) c' := by
  induction own using List.reverseRecOn generalizing c' with
  | nil => simpa using run
  | append_singleton front last ih =>
      obtain ⟨mine, secret⟩ := hidden last (by simp)
      rw [List.append_assoc] at run
      obtain ⟨m, head, tail⟩ := run.split
      obtain ⟨n, single, after⟩ := tail.split
      obtain ⟨p, q, before, step, between⟩ := single.uncons
      obtain ⟨j, e, r⟩ := last
      obtain rfl : j = i := mine
      obtain ⟨s, moved, step'⟩ := Run.swap secret step (between.trans after) others
      have joined := ih (fun entry member => hidden entry (by simp [member]))
        (head.trans (before.trans moved))
      rw [← List.append_assoc]
      exact joined.snoc step'

/-- A private event moves in front of what others did last. -/
theorem Run.push_front {first later : History ι E R} (hidden : W.Private e) (others : of i later = [])
    (run : Run W c (first ++ later) d) (step : Step W d [(i, ⟨e, r⟩)] c') :
    Run W c (first ++ (i, ⟨e, r⟩) :: later) c' := by
  obtain ⟨m, head, tail⟩ := run.split
  obtain ⟨n, step', tail'⟩ := Run.swap_back hidden tail step others
  exact head.trans ((Run.refl.snoc step').trans tail')

/-! ## One thread at a time -/

/-- `order` serializes a run: it lists the threads that did something, once each, a thread that
was through before another began before it, and they might have run whole in this order. -/
structure Serializes (W : World ι σ E R) (c : System ι σ E R α) (history : History ι E R)
    (c' : System ι σ E R α) (order : List ι) : Prop where
  nodup : order.Nodup
  active : ∀ i, i ∈ order ↔ of i history ≠ []
  run : Run W c (sequential order history) c'
  realTime : ∀ i j, of i history ≠ [] → of j history ≠ [] → Precedes history i j → i ≠ j →
    List.Sublist [i, j] order

theorem precedes_snoc {event : Event E R} {a b : ι} (before : Precedes (history ++ [(i, event)]) a b)
    (began : of b (history ++ [(i, event)]) ≠ []) : a ≠ i ∧ Precedes history a b := by
  obtain ⟨first, later, whole, ended, fresh⟩ := before
  rcases List.eq_nil_or_concat later with rfl | ⟨front, last, rfl⟩
  · rw [List.append_nil] at whole
    rw [whole] at began
    exact absurd fresh began
  · rw [List.concat_eq_append, ← List.append_assoc] at whole
    obtain ⟨front_eq, last_eq⟩ := List.append_inj' whole rfl
    cases last_eq
    rw [List.concat_eq_append, of_append, List.append_eq_nil_iff] at ended
    refine ⟨?_, first, front, front_eq, ended.1, fresh⟩
    rintro rfl
    rw [of_single_self] at ended
    cases ended.2

/-- The thread keeps its place, and its private event joins its block. -/
theorem Serializes.stay {order : List ι} (hidden : W.Private e) (serial : Serializes W c history d order)
    (member : i ∈ order) (step : Step W d [(i, ⟨e, r⟩)] c') :
    Serializes W c (history ++ [(i, ⟨e, r⟩)]) c' order := by
  obtain ⟨nodup, active, run, realTime⟩ := serial
  obtain ⟨front, back, rfl⟩ := List.append_of_mem member
  obtain ⟨-, nodupBack, apart⟩ := List.nodup_append.mp nodup
  have absentFront : i ∉ front := fun inFront => apart i inFront i List.mem_cons_self rfl
  have absentBack : i ∉ back := (List.nodup_cons.mp nodupBack).1
  refine ⟨nodup, fun j => ?_, ?_, fun a b didA didB before different => ?_⟩
  · rw [active, of_append]
    by_cases same : i = j
    · subst same
      simp [(active i).mp member]
    · simp [of_single_ne same]
  · rw [sequential_split] at run
    rw [sequential_split, sequential_append absentFront, sequential_append absentBack, block_append_self,
      List.append_assoc (block i history), ← List.append_assoc]
    rw [← List.append_assoc] at run
    exact run.push_front hidden (of_sequential absentBack history) step
  · obtain ⟨notSelf, before⟩ := precedes_snoc before didB
    have did {j : ι} (inOrder : j ∈ front ++ i :: back) : of j history ≠ [] := (active j).mp inOrder
    refine realTime a b ?_ ?_ before different
    · rwa [of_append, of_single_ne (Ne.symm notSelf), List.append_nil] at didA
    · by_cases same : b = i
      · exact same ▸ did member
      · rwa [of_append, of_single_ne (Ne.symm same), List.append_nil] at didB

/-- The block of a private thread moves to the end. -/
theorem Run.last {order : List ι} (nodup : order.Nodup)
    (hidden : ∀ event ∈ of i history, W.Private event.1)
    (absent : i ∉ order → of i history = []) (run : Run W c (sequential order history) d) :
    Run W c (sequential (order.erase i) history ++ block i history) d := by
  by_cases member : i ∈ order
  · obtain ⟨front, back, rfl⟩ := List.append_of_mem member
    obtain ⟨-, nodupBack, apart⟩ := List.nodup_append.mp nodup
    have absentFront : i ∉ front := fun inFront => apart i inFront i List.mem_cons_self rfl
    have absentBack : i ∉ back := (List.nodup_cons.mp nodupBack).1
    rw [sequential_split] at run
    obtain ⟨m, head, tail⟩ := run.split
    have moved := tail.push_back (i := i) (fun entry member => ?_) (of_sequential absentBack history)
    · rw [List.erase_append_right _ absentFront, List.erase_cons_head, sequential, List.flatMap_append,
        List.append_assoc]
      exact head.trans moved
    · obtain ⟨event, done, rfl⟩ := List.mem_map.mp member
      exact ⟨rfl, hidden event done⟩
  · have nothing : block i history = [] := by rw [block, absent member, List.map_nil]
    rw [List.erase_of_not_mem member, nothing, List.append_nil]
    exact run

/-- The thread, private so far, moves to the end. -/
theorem Serializes.move {order : List ι} (serial : Serializes W c history d order)
    (hidden : ∀ event ∈ of i history, W.Private event.1) (step : Step W d [(i, ⟨e, r⟩)] c') :
    Serializes W c (history ++ [(i, ⟨e, r⟩)]) c' (order.erase i ++ [i]) := by
  obtain ⟨nodup, active, run, realTime⟩ := serial
  have gone : i ∉ order.erase i := nodup.not_mem_erase
  refine ⟨?_, fun j => ?_, ?_, fun a b didA didB before different => ?_⟩
  · exact List.nodup_append.mpr ⟨nodup.erase i, List.nodup_singleton i, fun a member b here => by
      rintro rfl
      exact gone (List.mem_singleton.mp here ▸ member)⟩
  · rw [of_append, List.mem_append, List.mem_singleton]
    by_cases same : i = j
    · subst same
      simp
    · rw [List.mem_erase_of_ne (Ne.symm same), active, of_single_ne same, List.append_nil]
      simp [Ne.symm same]
  · have inactive : i ∉ order → of i history = [] := fun absent => by
      by_contra did
      exact absent ((active i).mpr did)
    rw [sequential_snoc, sequential_append gone, block_append_self, ← List.append_assoc]
    exact (Run.last nodup hidden inactive run).snoc step
  · obtain ⟨notSelf, before⟩ := precedes_snoc before didB
    rw [of_append, of_single_ne (Ne.symm notSelf), List.append_nil] at didA
    by_cases same : b = i
    · subst same
      have earlier : a ∈ order.erase b := (List.mem_erase_of_ne different).mpr ((active a).mpr didA)
      exact (List.singleton_sublist.mpr earlier).append (List.Sublist.refl [b])
    · rw [of_append, of_single_ne (Ne.symm same), List.append_nil] at didB
      have kept := (realTime a b didA didB before different).erase i
      rw [List.erase_of_not_mem (by simp [Ne.symm notSelf, Ne.symm same])] at kept
      exact kept.trans (List.sublist_append_left _ _)

/-- **Threads with one shared effect each might have run one at a time.** `touches` holds of the
effects that may touch the shared state. -/
theorem Run.serial {touches : E → Bool} (hidden : ∀ e, touches e = false → W.Private e)
    (once : ∀ i, ((of i history).filter fun event => touches event.1).length ≤ 1)
    (run : Run W c history d) : ∃ order, Serializes W c history d order := by
  induction run with
  | refl =>
      refine ⟨[], List.nodup_nil, by simp, .refl, ?_⟩
      rintro i j did
      exact absurd rfl did
  | @snoc history made d c' before step ih =>
      have earlier : ∀ i, ((of i history).filter fun event => touches event.1).length ≤ 1 := by
        intro i
        have both := once i
        rw [of_append, List.filter_append, List.length_append] at both
        omega
      obtain ⟨order, serial⟩ := ih earlier
      rcases step.made_cases with rfl | ⟨⟨i, e, r⟩, rfl⟩
      · obtain ⟨nodup, active, run, realTime⟩ := serial
        have drifted := run.snoc step
        rw [List.append_nil] at drifted ⊢
        exact ⟨order, nodup, active, drifted, realTime⟩
      · cases touched : touches e with
        | true =>
            -- The one shared effect of the thread: what it did before was private.
            have both := once i
            rw [of_append, of_single_self, List.filter_append, List.length_append,
              List.filter_cons_of_pos (by exact touched)] at both
            have none : ((of i history).filter fun event => touches event.1) = [] := by
              apply List.eq_nil_of_length_eq_zero
              simp only [List.filter_nil, List.length_singleton] at both
              omega
            refine ⟨_, serial.move (fun event did => hidden _ ?_) step⟩
            simpa using List.filter_eq_nil_iff.mp none event did
        | false =>
            by_cases member : i ∈ order
            · exact ⟨order, serial.stay (hidden e touched) member step⟩
            · have nothing : of i history = [] := by
                by_contra did
                exact member ((serial.active i).mpr did)
              refine ⟨_, serial.move (fun event did => ?_) step⟩
              rw [nothing] at did
              cases did

end CountingSheep.Theory
