/-
# CountingSheep.Theory.Abnf — the operators of a textual grammar, as languages

A grammar production denotes a `Language`: alternatives are `+`, concatenation is
`*`, repetition is Kleene's star. Here are the remaining operators (`letter`,
`word`, `optional`, `many`, `atMost`, `between`) and two invariants of words that
pass through all of them.

* `spelled P`: words whose letters all satisfy `P`. Closed under every operator.
* `guarded sep stop`: words in which some `stop` letter stands before every `sep`.
  A word without `sep` is guarded, and so is a guarded word followed by one that
  is empty or begins with a `stop` letter (`opening stop`).
-/
import Mathlib

namespace CountingSheep.Theory.Abnf

open Computability

set_option autoImplicit false

variable {α : Type}

/-! ## Operators -/

/-- One letter that satisfies `P`. -/
def letter (P : α → Bool) : Language α := {w | ∃ c, P c = true ∧ w = [c]}

/-- Exactly this word. -/
def word (w : List α) : Language α := {w}

/-- `[ l ]` -/
def optional (l : Language α) : Language α := 1 + l

/-- `1*l` -/
def many (l : Language α) : Language α := l * l∗

/-- `*n l` -/
def atMost (n : Nat) (l : Language α) : Language α := optional l ^ n

/-- `m*n l` -/
def between (m n : Nat) (l : Language α) : Language α := l ^ m * atMost (n - m) l

/-! ## Words over a set of letters -/

/-- Words whose letters all satisfy `P`. -/
def spelled (P : α → Bool) : Language α := {w | ∀ c ∈ w, P c = true}

section Over

variable {P Q : α → Bool} {l m : Language α}

theorem spelled_mono (weaker : ∀ c, P c = true → Q c = true) : spelled P ≤ spelled Q :=
  fun _ inside c member => weaker c (inside c member)

theorem one_le_spelled : 1 ≤ spelled P := by
  intro w empty
  rw [(Language.mem_one w).mp empty]
  intro c member
  cases member

theorem letter_le_spelled (weaker : ∀ c, P c = true → Q c = true) : letter P ≤ spelled Q := by
  intro w single
  obtain ⟨c, holds, rfl⟩ := single
  intro d member
  rw [List.mem_singleton.mp member]
  exact weaker c holds

theorem word_le_spelled {w : List α} (inside : w.all P = true) : word w ≤ spelled P := by
  intro w' same
  rw [show w' = w from same]
  exact List.all_eq_true.mp inside

theorem add_le_spelled (left : l ≤ spelled P) (right : m ≤ spelled P) : l + m ≤ spelled P := add_le left right

theorem mul_le_spelled (left : l ≤ spelled P) (right : m ≤ spelled P) : l * m ≤ spelled P := by
  intro w split
  obtain ⟨u, inLeft, v, inRight, rfl⟩ := Language.mem_mul.mp split
  intro c member
  rcases List.mem_append.mp member with before | after
  · exact left inLeft c before
  · exact right inRight c after

theorem kstar_le_spelled (each : l ≤ spelled P) : l∗ ≤ spelled P := by
  apply kstar_le_of_mul_le_left one_le_spelled
  exact mul_le_spelled le_rfl each

/-- Repeating one letter of a set spells exactly the words over that set. -/
theorem kstar_letter (P : α → Bool) : (letter P)∗ = spelled P := by
  apply le_antisymm (kstar_le_spelled (letter_le_spelled fun _ => id))
  intro w inside
  refine Language.mem_kstar.mpr ⟨w.map fun c => [c], (List.flatMap_singleton' w).symm, ?_⟩
  intro single member
  obtain ⟨c, here, rfl⟩ := List.mem_map.mp member
  exact ⟨c, inside c here, rfl⟩

theorem mem_many_letter {w : List α} :
    w ∈ many (letter P) ↔ w ≠ [] ∧ ∀ c ∈ w, P c = true := by
  rw [many, kstar_letter]
  constructor
  · intro derived
    obtain ⟨u, ⟨c, holds, rfl⟩, rest, inside, rfl⟩ := Language.mem_mul.mp derived
    exact ⟨by simp, List.forall_mem_cons.mpr ⟨holds, inside⟩⟩
  · rintro ⟨nonempty, inside⟩
    cases w with
    | nil => exact absurd rfl nonempty
    | cons c rest =>
        obtain ⟨holds, later⟩ := List.forall_mem_cons.mp inside
        exact Language.append_mem_mul (a := [c]) ⟨c, holds, rfl⟩ later

theorem pow_le_spelled (each : l ≤ spelled P) (n : Nat) : l ^ n ≤ spelled P := by
  induction n with
  | zero =>
      rw [pow_zero]
      exact one_le_spelled
  | succ n ih =>
      rw [pow_succ]
      exact mul_le_spelled ih each

theorem optional_le_spelled (each : l ≤ spelled P) : optional l ≤ spelled P := add_le_spelled one_le_spelled each

theorem many_le_spelled (each : l ≤ spelled P) : many l ≤ spelled P := mul_le_spelled each (kstar_le_spelled each)

theorem atMost_le_spelled (n : Nat) (each : l ≤ spelled P) : atMost n l ≤ spelled P :=
  pow_le_spelled (optional_le_spelled each) n

theorem between_le_spelled (m n : Nat) (each : l ≤ spelled P) : between m n l ≤ spelled P :=
  mul_le_spelled (pow_le_spelled each m) (atMost_le_spelled (n - m) each)

end Over

/-! ## A separator behind a stop letter -/

/-- The empty word, and words that begin with a `stop` letter. -/
def opening (stop : α → Bool) : Language α := {w | ∀ c rest, w = c :: rest → stop c = true}

/-- Words in which some `stop` letter stands before every `sep`. -/
def guarded (sep : α) (stop : α → Bool) : Language α :=
  {w | ∀ before after, w = before ++ sep :: after → ∃ c ∈ before, stop c = true}

section Guarded

variable {sep : α} {stop : α → Bool} {l m : Language α}

theorem one_le_opening : 1 ≤ opening stop := by
  intro w empty c rest same
  rw [(Language.mem_one w).mp empty] at same
  cases same

theorem word_mul_le_opening {c : α} {w : List α} (stops : stop c = true) :
    word (c :: w) * l ≤ opening stop := by
  intro w' split d rest same
  obtain ⟨u, whole, v, -, rfl⟩ := Language.mem_mul.mp split
  rw [show u = c :: w from whole] at same
  cases same
  exact stops

theorem optional_le_opening (each : l ≤ opening stop) : optional l ≤ opening stop :=
  add_le one_le_opening each

theorem mul_le_opening (left : l ≤ opening stop) (right : m ≤ opening stop) :
    l * m ≤ opening stop := by
  intro w split c rest same
  obtain ⟨u, inLeft, v, inRight, rfl⟩ := Language.mem_mul.mp split
  cases u with
  | nil => exact right inRight c rest same
  | cons d more =>
      cases same
      exact left inLeft c more rfl

theorem kstar_le_opening (each : l ≤ opening stop) : l∗ ≤ opening stop := by
  apply kstar_le_of_mul_le_left one_le_opening
  exact mul_le_opening le_rfl each

theorem spelled_le_guarded {P : α → Bool} (without : P sep = false) : spelled P ≤ guarded sep stop := by
  intro w inside before after same
  have holds := inside sep (by rw [same]; exact List.mem_append_right _ List.mem_cons_self)
  rw [without] at holds
  cases holds

/-- A guarded word stays guarded in front of one that opens with a stop. -/
theorem mul_le_guarded (different : stop sep = false) (left : l ≤ guarded sep stop)
    (right : m ≤ opening stop) : l * m ≤ guarded sep stop := by
  intro w split before after same
  obtain ⟨u, inLeft, v, inRight, rfl⟩ := Language.mem_mul.mp split
  rcases List.append_eq_append_iff.mp same with ⟨more, rfl, tail⟩ | ⟨more, rfl, tail⟩
  · -- The separator is in the second word, so its first letter comes before it.
    cases more with
    | nil =>
        have stops := right inRight sep after tail
        rw [different] at stops
        cases stops
    | cons c rest =>
        exact ⟨c, List.mem_append_right _ List.mem_cons_self, right inRight c _ tail⟩
  · cases more with
    | nil =>
        have stops := right inRight sep after tail.symm
        rw [different] at stops
        cases stops
    | cons c rest =>
        cases tail
        exact left inLeft before rest rfl

theorem opening_le_guarded (different : stop sep = false) : opening stop ≤ guarded sep stop := by
  have empty : (1 : Language α) ≤ guarded sep stop :=
    one_le_spelled.trans (spelled_le_guarded (P := fun _ => false) rfl)
  calc opening stop = 1 * opening stop := (one_mul _).symm
    _ ≤ guarded sep stop := mul_le_guarded different empty le_rfl

end Guarded

end CountingSheep.Theory.Abnf
