/-
# CountingSheep.Theory.Timestamp — RFC 3339 timestamps, as written and as instants

A `Written` timestamp is a date and a time of day, a fraction of up to nine digits,
and a zone; no leap second. It has a text and, by the Gregorian calendar, an
instant: a rational number of seconds since 1970-01-01T00:00:00Z.

* `floor_instant`: an instant is a whole number of seconds and a fraction below one,
  so its floor is that number, before 1970 as well.
-/
import CountingSheep.Theory.Gregorian

namespace CountingSheep.Theory.Timestamp

open Gregorian

set_option autoImplicit false

/-- How the offset from UTC is written. -/
inductive Zone where
  /-- `Z`, in either case. -/
  | zulu (lower : Bool)
  /-- A sign, hours and minutes. -/
  | numeric (west : Bool) (hours : Fin 24) (minutes : Fin 60)

/-- Seconds east of UTC. -/
def Zone.offset : Zone → Int
  | .zulu _ => 0
  | .numeric west hours minutes =>
      let seconds : Int := 3600 * hours.val + 60 * minutes.val
      if west then -seconds else seconds

structure Written where
  year : Nat
  month : Nat
  day : Nat
  hour : Nat
  minute : Nat
  second : Nat
  /-- The digits after the point, none if there is no point. -/
  fraction : List (Fin 10)
  zone : Zone
  /-- What stands between date and time. -/
  separator : Char
  fourDigits : year ≤ 9999
  date : ValidDay year month day
  clock : hour < 24 ∧ minute < 60 ∧ second < 60
  precise : fraction.length ≤ 9
  separates : separator = 'T' ∨ separator = 't' ∨ separator = ' '

/-! ## Text -/

/-- `n` in two digits. -/
def two (n : Nat) : List Char := [(n / 10).digitChar, (n % 10).digitChar]

def Zone.text : Zone → List Char
  | .zulu lower => [if lower then 'z' else 'Z']
  | .numeric west hours minutes =>
      (if west then '-' else '+') :: two hours.val ++ ':' :: two minutes.val

namespace Written

variable (w : Written)

def digits : List Char := w.fraction.map fun d => d.val.digitChar

def fractionText : List Char := if w.fraction = [] then [] else '.' :: w.digits

/-- `YYYY-MM-DD` -/
def dateText : List Char :=
  two (w.year / 100) ++ two (w.year % 100) ++ '-' :: two w.month ++ '-' :: two w.day

/-- `HH:MM:SS` -/
def clockText : List Char := two w.hour ++ ':' :: two w.minute ++ ':' :: two w.second

def text : List Char :=
  w.dateText ++ w.separator :: w.clockText ++ w.fractionText ++ w.zone.text

/-! ## Instant -/

def civil : Civil := ⟨w.year, w.month, w.day, w.date⟩

/-- The day number of 1970-01-01. -/
def epochDay : Int := (⟨1970, 1, 1, by decide⟩ : Civil).toDays

/-- Whole seconds since the epoch. -/
def seconds : Int :=
  86400 * (w.civil.toDays - epochDay) + (3600 * w.hour + 60 * w.minute + w.second : Nat) -
    w.zone.offset

/-- The number the fraction's digits spell. -/
def units : Nat := Nat.ofDigitChars 10 w.digits 0

/-- Seconds since the epoch. -/
def instant : ℚ := w.seconds + w.units / 10 ^ w.fraction.length

theorem units_lt : w.units < 10 ^ w.fraction.length := by
  have bound : ∀ (fraction : List (Fin 10)) (n : Nat),
      Nat.ofDigitChars 10 (fraction.map fun d => d.val.digitChar) n < 10 ^ fraction.length * (n + 1) := by
    intro fraction
    induction fraction with
    | nil => simp
    | cons d rest ih =>
        intro n
        have digit := d.isLt
        rw [List.map_cons, Nat.ofDigitChars_cons_digitChar_of_lt_ten digit]
        calc _ < 10 ^ rest.length * (10 * n + d.val + 1) := ih _
          _ ≤ 10 ^ rest.length * (10 * (n + 1)) := by gcongr; omega
          _ = 10 ^ (rest.length + 1) * (n + 1) := by ring
  simpa [units, digits] using bound w.fraction 0

theorem fraction_range : (0 : ℚ) ≤ w.units / 10 ^ w.fraction.length ∧
    (w.units / 10 ^ w.fraction.length : ℚ) < 1 := by
  have positive : (0 : ℚ) < 10 ^ w.fraction.length := by positivity
  refine ⟨by positivity, ?_⟩
  rw [div_lt_one positive]
  exact_mod_cast w.units_lt

/-- The floor of an instant is its whole seconds, on either side of the epoch. -/
theorem floor_instant : ⌊w.instant⌋ = w.seconds := by
  obtain ⟨lower, upper⟩ := w.fraction_range
  rw [instant, Int.floor_eq_iff]
  constructor
  · linarith
  · linarith

end Written

end CountingSheep.Theory.Timestamp
