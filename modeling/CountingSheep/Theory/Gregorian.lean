/-
# CountingSheep.Theory.Gregorian — the proleptic Gregorian calendar and its day count

Dates of any year, before and after year 1, and the days since 0001-01-01. The
day count of a date is years, then months, then days; the way back peels the
400-, 100-, 4- and 1-year cycles off a day number (`yearOfDays`), then the
months of that year (`locate`).

* `yearOfDays_eq_iff`: a day lies in the one year whose first day is at or before
  it and whose successor starts after it.
* `ofDays_toDays`, `toDays_ofDays`: dates and day numbers are in bijection, so
  carrying a time of day across midnight, a month end or a year end is addition
  on day numbers.
* `toDays_lt_iff`, `le_toDays_iff`: comparing a date's year is comparing its day
  number.
-/
import Mathlib

namespace CountingSheep.Theory.Gregorian

set_option autoImplicit false

/-! ## Positions in consecutive segments -/

/-- The segment that offset `n` falls in, and the offset within it. -/
def locate : List Nat → Nat → Nat × Nat
  | [], n => (0, n)
  | len :: rest, n =>
      if n < len then (0, n)
      else ((locate rest (n - len)).1 + 1, (locate rest (n - len)).2)

theorem locate_spec {lens : List Nat} {n : Nat} (inside : n < lens.sum) :
    (locate lens n).2 < lens.getD (locate lens n).1 0 ∧
      (lens.take (locate lens n).1).sum + (locate lens n).2 = n := by
  induction lens generalizing n with
  | nil => simp at inside
  | cons len rest ih =>
      by_cases here : n < len
      · simp [locate, here]
      · obtain ⟨below, total⟩ := ih (n := n - len) (by simp at inside; omega)
        simp only [locate, here, if_false, List.getD_cons_succ, List.take_succ_cons, List.sum_cons]
        exact ⟨below, by omega⟩

theorem segment_lt_sum {lens : List Nat} {i r : Nat} (inside : r < lens.getD i 0) :
    (lens.take i).sum + r < lens.sum := by
  induction lens generalizing i with
  | nil => simp at inside
  | cons len rest ih =>
      cases i with
      | zero => simp at inside ⊢; omega
      | succ i =>
          have := ih (i := i) (by simpa using inside)
          simp only [List.take_succ_cons, List.sum_cons]
          omega

/-! ## Years -/

def isLeap (year : Int) : Bool :=
  year % 4 = 0 && (year % 100 ≠ 0 || year % 400 = 0)

def yearLength (year : Int) : Int := if isLeap year then 366 else 365

/-- Days from 0001-01-01 to January 1 of `year`. -/
def daysBeforeYear (year : Int) : Int :=
  365 * (year - 1) + (year - 1) / 4 - (year - 1) / 100 + (year - 1) / 400

theorem daysBeforeYear_succ (year : Int) :
    daysBeforeYear (year + 1) = daysBeforeYear year + yearLength year := by
  simp only [daysBeforeYear, yearLength, isLeap, Bool.and_eq_true, Bool.or_eq_true,
    decide_eq_true_eq]
  split <;> omega

theorem daysBeforeYear_strictMono : StrictMono daysBeforeYear :=
  strictMono_int_of_lt_succ fun year => by
    rw [daysBeforeYear_succ, yearLength]
    split <;> omega

/-- Years by their 400-, 100-, 4- and 1-year cycles. -/
theorem daysBeforeYear_cycles {a b c d : Int} (hb : 0 ≤ b ∧ b ≤ 3) (hc : 0 ≤ c ∧ c ≤ 24)
    (hd : 0 ≤ d ∧ d ≤ 3) : daysBeforeYear (400 * a + 100 * b + 4 * c + d + 1) =
      146097 * a + 36524 * b + 1461 * c + 365 * d := by
  have q4 : (400 * a + 100 * b + 4 * c + d) / 4 = 100 * a + 25 * b + c := by omega
  have q100 : (400 * a + 100 * b + 4 * c + d) / 100 = 4 * a + b := by omega
  have q400 : (400 * a + 100 * b + 4 * c + d) / 400 = a := by omega
  rw [daysBeforeYear, add_sub_cancel_right, q4, q100, q400]
  omega

/-- The year a day number falls in. The last day of a 100-year or a 1-year run
of a longer cycle belongs to its fourth part, hence the two `min`s. -/
def yearOfDays (days : Int) : Int :=
  let century := min 3 (days % 146097 / 36524)
  let inCentury := days % 146097 - 36524 * century
  let year := min 3 (inCentury % 1461 / 365)
  400 * (days / 146097) + 100 * century + 4 * (inCentury / 1461) + year + 1

theorem yearOfDays_spec (days : Int) :
    daysBeforeYear (yearOfDays days) ≤ days ∧ days < daysBeforeYear (yearOfDays days + 1) := by
  simp only [yearOfDays]
  generalize hb : min 3 (days % 146097 / 36524) = b
  generalize hr : days % 146097 - 36524 * b = r
  generalize hd : min 3 (r % 1461 / 365) = d
  have hb' : 0 ≤ b ∧ b ≤ 3 ∧ 0 ≤ r ∧ r ≤ 36524 ∧ (b < 3 → r < 36524) := by omega
  have hd' : 0 ≤ d ∧ d ≤ 3 ∧ 365 * d ≤ r % 1461 ∧ (d < 3 → r % 1461 < 365 * d + 365) := by omega
  have hc : 0 ≤ r / 1461 ∧ r / 1461 ≤ 24 := by omega
  generalize hq : days / 146097 = a at *
  generalize hqc : r / 1461 = c at *
  have days_eq : days = 146097 * a + 36524 * b + 1461 * c + r % 1461 := by omega
  have before := daysBeforeYear_cycles (a := a) ⟨hb'.1, hb'.2.1⟩ hc ⟨hd'.1, hd'.2.1⟩
  refine ⟨by omega, ?_⟩
  rw [daysBeforeYear_succ, before, yearLength]
  simp only [isLeap, Bool.and_eq_true, Bool.or_eq_true, decide_eq_true_eq]
  split <;> omega

theorem lt_daysBeforeYear_iff {days year : Int} :
    days < daysBeforeYear year ↔ yearOfDays days < year := by
  obtain ⟨lower, upper⟩ := yearOfDays_spec days
  constructor
  · intro h
    exact daysBeforeYear_strictMono.lt_iff_lt.mp (lt_of_le_of_lt lower h)
  · intro h
    exact lt_of_lt_of_le upper (daysBeforeYear_strictMono.monotone (by omega))

theorem daysBeforeYear_le_iff {days year : Int} :
    daysBeforeYear year ≤ days ↔ year ≤ yearOfDays days := by
  rw [← not_lt, lt_daysBeforeYear_iff, not_lt]

theorem yearOfDays_eq_iff {days year : Int} :
    yearOfDays days = year ↔ daysBeforeYear year ≤ days ∧ days < daysBeforeYear (year + 1) := by
  rw [daysBeforeYear_le_iff, lt_daysBeforeYear_iff]
  omega

/-! ## Months -/

def monthLengths (leap : Bool) : List Nat :=
  [31, if leap then 29 else 28, 31, 30, 31, 30, 31, 31, 30, 31, 30, 31]

theorem monthLengths_sum (year : Int) :
    ((monthLengths (isLeap year)).sum : Int) = yearLength year := by
  unfold yearLength
  cases isLeap year <;> rfl

def monthLength (leap : Bool) (month : Nat) : Nat := (monthLengths leap).getD (month - 1) 0

def daysBeforeMonth (leap : Bool) (month : Nat) : Nat := ((monthLengths leap).take (month - 1)).sum

/-- A day of the calendar. A month past December has no days. -/
def ValidDay (year : Int) (month day : Nat) : Prop :=
  1 ≤ month ∧ 1 ≤ day ∧ day ≤ monthLength (isLeap year) month

instance (year : Int) (month day : Nat) : Decidable (ValidDay year month day) :=
  inferInstanceAs (Decidable (_ ∧ _ ∧ _))

theorem ValidDay.bounds {year : Int} {month day : Nat} (valid : ValidDay year month day) :
    month ≤ 12 ∧ day ≤ 31 := by
  obtain ⟨first, someDay, within⟩ := valid
  have lengths : ∀ leap, ∀ n < 12, (monthLengths leap).getD n 0 ≤ 31 := by decide
  have inside : month ≤ 12 := by
    by_contra past
    have none : monthLength (isLeap year) month = 0 := by
      rw [monthLength, List.getD_eq_default]
      simp only [monthLengths, List.length_cons, List.length_nil]
      omega
    omega
  have length : monthLength (isLeap year) month ≤ 31 := lengths _ (month - 1) (by omega)
  omega

/-! ## Dates and day numbers -/

@[ext] structure Civil where
  year : Int
  month : Nat
  day : Nat
  valid : ValidDay year month day

namespace Civil

/-- Days since 0001-01-01. -/
def toDays (c : Civil) : Int :=
  daysBeforeYear c.year + daysBeforeMonth (isLeap c.year) c.month + (c.day - 1 : Nat)

/-- Months of `days`' year already past, and days of the current month already past. -/
def position (days : Int) : Nat × Nat :=
  locate (monthLengths (isLeap (yearOfDays days))) (days - daysBeforeYear (yearOfDays days)).toNat

theorem position_spec (days : Int) :
    (position days).2 < (monthLengths (isLeap (yearOfDays days))).getD (position days).1 0 ∧
      ((monthLengths (isLeap (yearOfDays days))).take (position days).1).sum + (position days).2 =
        (days - daysBeforeYear (yearOfDays days)).toNat := by
  apply locate_spec
  have length := monthLengths_sum (yearOfDays days)
  have bounds := yearOfDays_spec days
  rw [daysBeforeYear_succ] at bounds
  omega

def ofDays (days : Int) : Civil where
  year := yearOfDays days
  month := (position days).1 + 1
  day := (position days).2 + 1
  valid := ⟨by omega, by omega, (position_spec days).1⟩

@[simp] theorem ofDays_year (days : Int) : (ofDays days).year = yearOfDays days := rfl

theorem toDays_ofDays (days : Int) : (ofDays days).toDays = days := by
  have total := (position_spec days).2
  have bounds := yearOfDays_spec days
  simp only [toDays, ofDays, daysBeforeMonth, Nat.add_sub_cancel]
  omega

theorem day_index_lt (c : Civil) :
    c.day - 1 < (monthLengths (isLeap c.year)).getD (c.month - 1) 0 := by
  obtain ⟨-, day_pos, day_le⟩ := c.valid
  simp only [monthLength] at day_le
  omega

theorem yearOfDays_toDays (c : Civil) : yearOfDays c.toDays = c.year := by
  have inside := segment_lt_sum c.day_index_lt
  have length := monthLengths_sum c.year
  rw [yearOfDays_eq_iff, daysBeforeYear_succ, toDays, daysBeforeMonth]
  omega

theorem toDays_lt_iff {c : Civil} {year : Int} :
    c.toDays < daysBeforeYear year ↔ c.year < year := by
  rw [lt_daysBeforeYear_iff, c.yearOfDays_toDays]

theorem le_toDays_iff {c : Civil} {year : Int} :
    daysBeforeYear year ≤ c.toDays ↔ year ≤ c.year := by
  rw [daysBeforeYear_le_iff, c.yearOfDays_toDays]

end Civil

end CountingSheep.Theory.Gregorian
