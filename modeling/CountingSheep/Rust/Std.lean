/-
# CountingSheep.Rust.Std — panics, `unwrap`, and the `str` functions the service uses

The parts of Rust's standard library that the source relies on, on their own.
A computation that can panic is an `Exec`; the panic carries its message, which
the panic handler reports. A `&str` is its characters in order.

* `splitOnce_eq_some_iff`, `splitOnce_eq_none_iff`: `split_once` cuts at the
  first separator and only fails when there is none.
-/
import Mathlib.Data.List.Basic
import Mathlib.Tactic.Common

namespace CountingSheep.Rust

set_option autoImplicit false

/-! ## Panics -/

/-- An unwinding panic, with the message a panic handler can read. -/
structure Panic where
  message : String
  deriving DecidableEq, Repr

abbrev Exec (α : Type) := Except Panic α

def unwrap {α : Type} : Option α → Exec α
  | some a => .ok a
  | none => .error ⟨"called `Option::unwrap()` on a `None` value"⟩

@[simp] theorem unwrap_some {α : Type} (a : α) : unwrap (some a) = .ok a := rfl

/-! ## Characters -/

/-- `char::is_whitespace`: the Unicode property White_Space. -/
def isWhitespace (c : Char) : Bool :=
  let n := c.toNat
  (0x9 ≤ n && n ≤ 0xD) || n = 0x20 || n = 0x85 || n = 0xA0 || n = 0x1680 ||
    (0x2000 ≤ n && n ≤ 0x200A) || n = 0x2028 || n = 0x2029 || n = 0x202F || n = 0x205F ||
    n = 0x3000

/-- `char::is_control`: the general category Cc. -/
def isControl (c : Char) : Bool :=
  c.toNat ≤ 0x1F || (0x7F ≤ c.toNat && c.toNat ≤ 0x9F)

/-- `char::is_ascii_graphic`. -/
def isAsciiGraphic (c : Char) : Bool :=
  0x21 ≤ c.toNat && c.toNat ≤ 0x7E

/-! ## Strings -/

/-- `str::split_once` on one character. -/
def splitOnce (sep : Char) : List Char → Option (List Char × List Char)
  | [] => none
  | c :: rest =>
      if c = sep then some ([], rest)
      else (splitOnce sep rest).map fun parts => (c :: parts.1, parts.2)

theorem splitOnce_eq_none_iff {sep : Char} {s : List Char} :
    splitOnce sep s = none ↔ sep ∉ s := by
  induction s with
  | nil => simp [splitOnce]
  | cons c rest ih =>
      by_cases here : c = sep
      · simp [splitOnce, here]
      · simp [splitOnce, here, ih, Ne.symm here]

theorem splitOnce_append {sep : Char} {before after : List Char} (first : sep ∉ before) :
    splitOnce sep (before ++ sep :: after) = some (before, after) := by
  induction before with
  | nil => simp [splitOnce]
  | cons c rest ih =>
      obtain ⟨different, first⟩ := not_or.mp (List.mem_cons.not.mp first)
      simp [splitOnce, Ne.symm different, ih first]

theorem splitOnce_eq_some_iff {sep : Char} {s before after : List Char} :
    splitOnce sep s = some (before, after) ↔ s = before ++ sep :: after ∧ sep ∉ before := by
  constructor
  · induction s generalizing before with
    | nil => simp [splitOnce]
    | cons c rest ih =>
        intro cut
        by_cases here : c = sep
        · simp only [splitOnce, here, if_true, Option.some.injEq, Prod.mk.injEq] at cut
          obtain ⟨rfl, rfl⟩ := cut
          simp [here]
        · simp only [splitOnce, here, if_false, Option.map_eq_some_iff, Prod.mk.injEq] at cut
          obtain ⟨⟨before', after'⟩, cut, rfl, rfl⟩ := cut
          obtain ⟨rfl, first⟩ := ih cut
          simp [first, Ne.symm here]
  · rintro ⟨rfl, first⟩
    exact splitOnce_append first

/-- `str::split(sep).next()`: everything before the first separator. -/
def beforeFirst (sep : Char) (s : List Char) : List Char := s.takeWhile (· ≠ sep)

/-- `str::trim`. -/
def trim (s : List Char) : List Char :=
  ((s.dropWhile isWhitespace).reverse.dropWhile isWhitespace).reverse

/-- `str::eq_ignore_ascii_case`. -/
def eqIgnoreAsciiCase (s t : List Char) : Bool := s.map Char.toLower == t.map Char.toLower

end CountingSheep.Rust
