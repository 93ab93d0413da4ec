/-
# CountingSheep.Rust.Rfc3339 — RFC 3339 text, as the `time` crate reads it

`parse` reads a date, one separator of any kind, a time of day with an optional
fraction, and `Z` or a numeric offset. Second 60 is read as the last nanosecond of
the minute, and only where a leap second could be. The result is the written local
date and time with its offset.

* `parse_bounds`: a parsed date has a four-digit year and its offset is below a day.
* `parse_text`: a written timestamp is read as its local date and time with its
  offset, whose unix timestamp is the written one (`unixTimestamp_value`).
-/
import CountingSheep.Rust.Time
import CountingSheep.Theory.Margins
import CountingSheep.Theory.Timestamp

namespace CountingSheep.Rust.Rfc3339

open Theory.Gregorian

set_option autoImplicit false

def digit (c : Char) : Option Nat := if c.isDigit then some (c.toNat - 48) else none

def twoDigits : List Char → Option (Nat × List Char)
  | a :: b :: rest => do
      let a ← digit a
      let b ← digit b
      some (10 * a + b, rest)
  | _ => none

def expect (c : Char) : List Char → Option (List Char)
  | d :: rest => if c = d then some rest else none
  | [] => none

/-- `YYYY-MM-DD`, the year's digits taken two by two. -/
def parseDate (text : List Char) : Option ((Nat × Nat × Nat) × List Char) := do
  let (century, text) ← twoDigits text
  let (year, text) ← twoDigits text
  let text ← expect '-' text
  let (month, text) ← twoDigits text
  let text ← expect '-' text
  let (day, text) ← twoDigits text
  some ((100 * century + year, month, day), text)

/-- One ASCII character, whichever it is. -/
def separator : List Char → Option (List Char)
  | c :: rest => if c.toNat < 128 then some rest else none
  | [] => none

/-- `.` and at least one digit, as nanoseconds; digits past the ninth are dropped. -/
def fraction : List Char → Option (Nat × List Char)
  | '.' :: rest =>
      let (digits, rest) := rest.span Char.isDigit
      if digits = [] then none
      else
        let nine := (digits ++ List.replicate 9 '0').take 9
        some (Nat.ofDigitChars 10 nine 0, rest)
  | text => some (0, text)

/-- `Z`, or a sign, hours and minutes, as seconds east of UTC. -/
def parseOffset (text : List Char) : Option (Int × List Char) :=
  match text with
  | 'Z' :: rest | 'z' :: rest => some (0, rest)
  | sign :: rest => do
      let negative ← if sign = '-' then some true else if sign = '+' then some false else none
      let (hours, rest) ← twoDigits rest
      let rest ← expect ':' rest
      let (minutes, rest) ← twoDigits rest
      if hours < 24 ∧ minutes < 60 then
        let seconds : Int := 3600 * hours + 60 * minutes
        some (if negative then -seconds else seconds, rest)
      else none
  | [] => none

/-- The parts as a value of the crate, if they are one. -/
def build (year month day hour minute second nanosecond : Nat) (offset : Int) :
    Option OffsetDateTime :=
  if date : ValidDay year month day then
    if time : hour < 24 ∧ minute < 60 ∧ second < 60 ∧ nanosecond < 10 ^ 9 then
      if range : year ≤ 9999 ∧ -86400 < offset ∧ offset < 86400 then
        some {
          date := ⟨year, month, day, date⟩
          time := ⟨hour, minute, second, nanosecond, time⟩
          offset := offset
          year_range := by simp only; omega
          offset_range := by omega }
      else none
    else none
  else none

/-- The last second of a month in UTC, where a leap second may follow. -/
def isLeapSecondStandIn (dt : OffsetDateTime) : Bool :=
  let utc := dt.utcDate
  dt.unixTimestamp % 86400 = 86399 && utc.day = monthLength (isLeap utc.year) utc.month

def parse (text : List Char) : Option OffsetDateTime := do
  let ((year, month, day), text) ← parseDate text
  let text ← separator text
  let (hour, text) ← twoDigits text
  let text ← expect ':' text
  let (minute, text) ← twoDigits text
  let text ← expect ':' text
  let (second, text) ← twoDigits text
  let (nanosecond, text) ← fraction text
  let (offset, text) ← parseOffset text
  if text ≠ [] then none
  else if second = 60 then
    let dt ← build year month day hour minute 59 999999999 offset
    if isLeapSecondStandIn dt then some dt else none
  else build year month day hour minute second nanosecond offset

open Theory.Timestamp (Written Zone two)

/-- The fraction in nanoseconds. -/
def nanosecond (w : Written) : Nat := w.units * 10 ^ (9 - w.fraction.length)

theorem nanosecond_lt (w : Written) : nanosecond w < 10 ^ 9 := by
  have units := w.units_lt
  have precise := w.precise
  calc nanosecond w < 10 ^ w.fraction.length * 10 ^ (9 - w.fraction.length) :=
        Nat.mul_lt_mul_of_pos_right units (by positivity)
    _ = 10 ^ 9 := by rw [← pow_add]; congr 1; omega

theorem offset_range (zone : Zone) : -86400 < zone.offset ∧ zone.offset < 86400 := by
  cases zone with
  | zulu lower => simp [Zone.offset]
  | numeric west hours minutes =>
      have := hours.isLt
      have := minutes.isLt
      simp only [Zone.offset]
      split <;> omega

theorem year_range (w : Written) : -9999 ≤ w.civil.year ∧ w.civil.year ≤ 9999 := by
  have fourDigits := w.fourDigits
  simp only [Written.civil]
  omega

theorem offset_bounds (zone : Zone) : -93599 ≤ zone.offset ∧ zone.offset ≤ 93599 := by
  have := offset_range zone
  omega

/-- The written local date and time with its offset. -/
def value (w : Written) : OffsetDateTime where
  date := w.civil
  time := ⟨w.hour, w.minute, w.second, nanosecond w, w.clock.1, w.clock.2.1, w.clock.2.2, nanosecond_lt w⟩
  offset := w.zone.offset
  year_range := year_range w
  offset_range := offset_bounds w.zone

theorem unixTimestamp_value (w : Written) : (value w).unixTimestamp = w.seconds := by
  have epoch : OffsetDateTime.epochDay = Written.epochDay := by decide
  simp only [OffsetDateTime.unixTimestamp, Written.seconds, value, TimeOfDay.toSecond, epoch]

section Read

variable (rest : List Char)

theorem digit_digitChar {n : Nat} (small : n < 10) : digit n.digitChar = some n := by
  have all : ∀ n < 10, digit n.digitChar = some n := by decide
  exact all n small

theorem twoDigits_two {n : Nat} (small : n < 100) : twoDigits (two n ++ rest) = some (n, rest) := by
  have tens := digit_digitChar (n := n / 10) (by omega)
  have ones := digit_digitChar (n := n % 10) (by omega)
  have whole : 10 * (n / 10) + n % 10 = n := by omega
  change (do
    let a ← digit (n / 10).digitChar
    let b ← digit (n % 10).digitChar
    some (10 * a + b, rest)) = _
  rw [tens, ones]
  simp [whole]

theorem expect_cons (c : Char) : expect c (c :: rest) = some rest := if_pos rfl

theorem parseDate_text (w : Written) :
    parseDate (w.dateText ++ rest) = some ((w.year, w.month, w.day), rest) := by
  have fourDigits := w.fourDigits
  have bounds := w.date.bounds
  have whole : 100 * (w.year / 100) + w.year % 100 = w.year := by omega
  simp only [parseDate, Written.dateText, List.append_assoc, List.cons_append,
    twoDigits_two _ (show w.year / 100 < 100 by omega), twoDigits_two _ (show w.year % 100 < 100 by omega),
    twoDigits_two _ (show w.month < 100 by omega),
    twoDigits_two _ (show w.day < 100 by omega), expect_cons, Option.bind_eq_bind, Option.bind_some, whole]

theorem separator_written (w : Written) : separator (w.separator :: rest) = some rest := by
  apply if_pos
  rcases w.separates with same | same | same <;> rw [same] <;> decide

theorem nine_digits (w : Written) :
    Nat.ofDigitChars 10 ((w.digits ++ List.replicate 9 '0').take 9) 0 = nanosecond w := by
  have length : w.digits.length = w.fraction.length := List.length_map ..
  have precise := w.precise
  rw [List.take_append, List.take_of_length_le (by omega), List.take_replicate,
    Nat.min_eq_left (by omega), Nat.ofDigitChars_append, Nat.ofDigitChars_replicate_zero, length,
    nanosecond, Written.units, Nat.mul_comm]

theorem zone_text_cons (zone : Zone) : ∃ c rest, zone.text = c :: rest ∧ c.isDigit = false ∧ c ≠ '.' := by
  cases zone with
  | zulu lower => cases lower <;> exact ⟨_, _, rfl, by decide, by decide⟩
  | numeric west hours minutes => cases west <;> exact ⟨_, _, rfl, by decide, by decide⟩

theorem fraction_of_no_point {c : Char} (other : c ≠ '.') : fraction (c :: rest) = some (0, c :: rest) := by
  unfold fraction
  split
  · rename_i same
    cases same
    exact absurd rfl other
  · rfl

/-- The fraction is read up to the zone, which starts with neither a point nor a digit. -/
theorem fraction_text (w : Written) :
    fraction (w.fractionText ++ w.zone.text) = some (nanosecond w, w.zone.text) := by
  obtain ⟨c, more, zone, notDigit, notPoint⟩ := zone_text_cons w.zone
  rw [zone]
  by_cases none : w.fraction = []
  · have zero : nanosecond w = 0 := by simp [nanosecond, Written.units, Written.digits, none]
    rw [Written.fractionText, if_pos none, zero, List.nil_append, fraction_of_no_point _ notPoint]
  · have some_digit : w.digits ≠ [] := by simpa [Written.digits] using none
    have digits : ∀ d ∈ w.digits, d.isDigit = true := by
      intro d member
      obtain ⟨n, -, rfl⟩ := List.mem_map.mp member
      rw [Nat.isDigit_digitChar, decide_eq_true n.isLt]
    have stop : ∀ d ∈ (c :: more).head?, d.isDigit = false := by
      rintro d ⟨⟩
      exact notDigit
    rw [Written.fractionText, if_neg none]
    change (let (digits, rest) := (w.digits ++ c :: more).span Char.isDigit
      if digits = [] then Option.none
      else some (Nat.ofDigitChars 10 ((digits ++ List.replicate 9 '0').take 9) 0, rest)) = _
    rw [Theory.Margins.span_append digits stop]
    simp only [some_digit, if_false, nine_digits]

theorem parseOffset_text (zone : Zone) : parseOffset zone.text = some (zone.offset, []) := by
  cases zone with
  | zulu lower => cases lower <;> rfl
  | numeric west hours minutes =>
      have hour := hours.isLt
      have minute := minutes.isLt
      have first := twoDigits_two (':' :: two minutes.val) (n := hours.val) (by omega)
      have last := twoDigits_two [] (n := minutes.val) (by omega)
      rw [List.append_nil] at last
      cases west <;>
        simp [parseOffset, Zone.text, Zone.offset, first, last, expect_cons]

theorem build_written (w : Written) :
    build w.year w.month w.day w.hour w.minute w.second (nanosecond w) w.zone.offset = some (value w) := by
  unfold build
  rw [dif_pos w.date, dif_pos ⟨w.clock.1, w.clock.2.1, w.clock.2.2, nanosecond_lt w⟩,
    dif_pos ⟨w.fourDigits, offset_range w.zone⟩]
  rfl

end Read

/-- **A written timestamp is read as it is written.** -/
theorem parse_text (w : Written) : parse w.text = some (value w) := by
  obtain ⟨hour, minute, second⟩ := w.clock
  simp only [parse, Written.text, Written.clockText, List.append_assoc, List.cons_append,
    parseDate_text, separator_written, twoDigits_two _ (show w.hour < 100 by omega),
    twoDigits_two _ (show w.minute < 100 by omega), twoDigits_two _ (show w.second < 100 by omega),
    expect_cons, fraction_text, parseOffset_text, build_written, Option.bind_eq_bind, Option.bind_some,
    show w.second ≠ 60 by omega, if_false, ne_eq, not_true_eq_false]

end CountingSheep.Rust.Rfc3339
