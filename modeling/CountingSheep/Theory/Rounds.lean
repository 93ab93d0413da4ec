/-
# CountingSheep.Theory.Rounds — what repeated rounds leave at each position

A round delivers a list; `copies i` are the entries that the rounds delivered at
position `i`. When every round is a prefix of the same work and the last round is
all of it, each position is delivered at least once, and exactly once more for each
earlier round that got past it (`length_copies_snoc`); an earlier position is
delivered at least as often as a later one (`length_copies_antitone`).
-/
import Mathlib.Data.List.Basic
import Mathlib.Data.List.Count

namespace CountingSheep.Theory.Rounds

set_option autoImplicit false

universe u

variable {α : Type u}

/-- The entries that rounds delivered at position `i`. -/
def copies (i : Nat) (rounds : List (List α)) : List α := rounds.filterMap fun round => round[i]?

theorem mem_copies {i : Nat} {rounds : List (List α)} {a : α} :
    a ∈ copies i rounds ↔ ∃ round ∈ rounds, round[i]? = some a :=
  List.mem_filterMap

/-- One copy for each round that got past the position. -/
theorem length_copies (i : Nat) (rounds : List (List α)) :
    (copies i rounds).length = (rounds.map List.length).countP (i < ·) := by
  induction rounds with
  | nil => rfl
  | cons round rest ih =>
      simp only [copies] at ih
      by_cases past : i < round.length <;> simp [copies, past, ih]

theorem length_copies_snoc {i : Nat} {rounds : List (List α)} {full : List α}
    (inside : i < full.length) :
    (copies i (rounds ++ [full])).length = 1 + (rounds.map List.length).countP (i < ·) := by
  rw [length_copies, List.map_append, List.countP_append, Nat.add_comm]
  simp [inside]

theorem length_copies_antitone {i j : Nat} (before : i ≤ j) (rounds : List (List α)) :
    (copies j rounds).length ≤ (copies i rounds).length := by
  rw [length_copies, length_copies]
  apply List.countP_mono_left
  intro length _ past
  have later : j < length := of_decide_eq_true past
  exact decide_eq_true (Nat.lt_of_le_of_lt before later)

end CountingSheep.Theory.Rounds
