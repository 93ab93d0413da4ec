/-
# CountingSheep.Config.Environment — reading settings from environment variables

An `Environment` is what `dotenvy::var` answers for each name: a text, or that the
variable is missing or not Unicode. `var` tells the missing ones apart, and
`nonBlank` takes a whitespace-only text for a missing one.
-/
import CountingSheep.Rust.Crates
import CountingSheep.Theory.Margins

namespace CountingSheep.Config

open Rust

set_option autoImplicit false

/-- `std::env::VarError`. -/
inductive VarError where
  | notPresent
  | notUnicode (raw : Bytes)
  deriving DecidableEq

abbrev Environment := String → Except VarError String

/-- An environment variable, `none` if it is unset. -/
def var (env : Environment) (key : String) : Except VarError (Option String) :=
  match env key with
  | .ok content => .ok (some content)
  | .error .notPresent => .ok none
  | .error error => .error error

/-- Treats a blank / whitespace-only value as unset, without mutating a real one. -/
def nonBlank (value : Option String) : Option String :=
  value.filter fun v => !(trim v.toList).isEmpty

/-- Whitespace-only, or empty. -/
def Blank (s : String) : Prop := ∀ c ∈ s.toList, isWhitespace c = true

theorem trim_eq_nil_iff {s : String} : trim s.toList = [] ↔ Blank s := Theory.Margins.strip_eq_nil_iff

theorem nonBlank_eq_some_iff {value : Option String} {s : String} :
    nonBlank value = some s ↔ value = some s ∧ ¬ Blank s := by
  rw [nonBlank, Option.filter_eq_some_iff, ← trim_eq_nil_iff]
  simp

theorem nonBlank_eq_none_iff {value : Option String} :
    nonBlank value = none ↔ ∀ s, value = some s → Blank s := by
  rw [Option.eq_none_iff_forall_ne_some]
  simp only [ne_eq, nonBlank_eq_some_iff, not_and, not_not]

/-- `key` holds `value`, readable and not blank. -/
def Configured (env : Environment) (key value : String) : Prop := env key = .ok value ∧ ¬ Blank value

/-! ## Readable environments -/

/-- The environment that has exactly these texts. -/
def readable (settings : String → Option String) : Environment := fun key =>
  match settings key with
  | some content => .ok content
  | none => .error .notPresent

@[simp] theorem var_readable (settings : String → Option String) (key : String) :
    var (readable settings) key = .ok (settings key) := by
  unfold var readable
  cases settings key <;> rfl

/-- `settings'` is `settings` with some of its blank values unset. -/
def BlanksUnset (settings settings' : String → Option String) : Prop :=
  ∀ key, settings' key = settings key ∨
    settings' key = none ∧ ∃ s, settings key = some s ∧ Blank s

theorem BlanksUnset.nonBlank {settings settings' : String → Option String}
    (unset : BlanksUnset settings settings') (key : String) :
    nonBlank (settings' key) = nonBlank (settings key) := by
  rcases unset key with same | ⟨gone, s, held, blank⟩
  · rw [same]
  · have ignored : Config.nonBlank (some s) = none := by
      rw [nonBlank_eq_none_iff]
      rintro t ⟨⟩
      exact blank
    rw [gone, held, ignored]
    rfl

end CountingSheep.Config
