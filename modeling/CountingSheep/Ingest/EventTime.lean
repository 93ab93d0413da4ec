/-
# CountingSheep.Ingest.EventTime — the published `time` is the written instant

An event's `time` is a text in any offset; the message carries unix seconds. Between
them are the crate's parser, which is assumed to read a timestamp as it is written
(`ParsesAsWritten`), the conversion to UTC, which keeps the instant, and the floor to
whole seconds.

* `payload_written`: the payload is the text of the event's members with the floor of
  the written instant for their `time`.
* `published_time_faithful`: so that integer is monotone, and the spelling of an instant
  does not reach the message.
-/
import CountingSheep.Ingest.Decode
import CountingSheep.Theory.Timestamp

namespace CountingSheep.Ingest

open Rust
open Theory.Json (Value)
open Theory.Timestamp (Written)

set_option autoImplicit false

/-- The parser yields the written local date and time with its offset. -/
def ParsesAsWritten (crates : Crates) : Prop :=
  ∀ w : Written, crates.parseRfc3339 (.ofList w.text) = some (Rfc3339.value w)

/-- `obj` has this timestamp for its `time`. -/
def TimedAt (obj : Members) (w : Written) : Prop :=
  obj.lookup "time" = some (.string (.ofList w.text))

def Untimed (obj : Members) : Prop := obj.lookup "time" = none ∨ obj.lookup "time" = some .null

section Faithful

variable {crates : Crates} {obj obj' : Members} {sheep sheep' : Sheep} {w w' : Written}

theorem text_written : text (some (.string (.ofList w.text))) = some (.ofList w.text) := by
  apply text_eq_some_iff.mpr
  refine ⟨rfl, ?_⟩
  intro empty
  have none : w.text = [] := by rw [← String.toList_ofList (l := w.text), empty]; rfl
  simp [Written.text] at none

theorem timeOf_written (parses : ParsesAsWritten crates) :
    timeOf crates (some (.string (.ofList w.text))) = some <$> crates.toOffset (Rfc3339.value w) := by
  unfold timeOf
  rw [text_written, Option.bind_some, parses w]

/-- An accepted event keeps the instant of its time. -/
theorem time_written (parses : ParsesAsWritten crates) (accepted : Accepts crates (.object obj) sheep)
    (timed : TimedAt obj w) : ∃ utc, sheep.time = some utc ∧ utc.unixTimestamp = w.seconds := by
  obtain ⟨time, converted, -, rfl⟩ := (validate_object_accepts_iff crates).mp accepted
  rw [timed, timeOf_written parses] at converted
  cases kept : crates.toOffset (Rfc3339.value w) with
  | error panic =>
      rw [kept] at converted
      cases converted
  | ok utc =>
      rw [kept] at converted
      cases converted
      refine ⟨utc, rfl, ?_⟩
      rw [OffsetDateTime.unixTimestamp_toOffsetUtc (Crates.toOffset_eq_ok_iff.mp kept),
        Rfc3339.unixTimestamp_value]

/-- **The published `time` is the floor of the written instant.** -/
theorem payload_written (parses : ParsesAsWritten crates)
    (accepted : Accepts crates (.object obj) sheep) (timed : TimedAt obj w) (now : OffsetDateTime) :
    (messageAt crates now sheep).payload = crates.toVec (payloadOf obj ⌊w.instant⌋) := by
  obtain ⟨utc, held, same⟩ := time_written parses accepted timed
  rw [payload_messageAt (holding_of_accepts accepted), held, Option.getD_some, same, w.floor_instant]

theorem untimed_sheep (accepted : Accepts crates (.object obj) sheep) (untimed : Untimed obj) :
    sheep.time = none := by
  obtain ⟨time, converted, -, rfl⟩ := (validate_object_accepts_iff crates).mp accepted
  have none : text (obj.lookup "time") = none := by
    rcases untimed with missing | null
    · rw [missing]; rfl
    · rw [null]; rfl
  rw [timeOf, none] at converted
  cases converted
  rfl

/-- **The published event time is faithful to the instant, whatever its spelling.** The `time` of the
payload is the floor of the instant, on either side of 1970, so it is monotone; and two spellings of
one instant in otherwise equal events give one message. An event without a time is published at its
receipt. -/
theorem published_time_faithful (parses : ParsesAsWritten crates)
    (accepted : Accepts crates (.object obj) sheep) (accepted' : Accepts crates (.object obj') sheep') :
    (∀ now, TimedAt obj w →
      (messageAt crates now sheep).payload = crates.toVec (payloadOf obj ⌊w.instant⌋) ∧
      0 ≤ w.instant - ⌊w.instant⌋ ∧ w.instant - ⌊w.instant⌋ < 1) ∧
    (∀ now now', TimedAt obj w → TimedAt obj' w' → w.instant ≤ w'.instant →
      ∃ time time', (messageAt crates now sheep).payload = crates.toVec (payloadOf obj time) ∧
        (messageAt crates now' sheep').payload = crates.toVec (payloadOf obj' time') ∧
        time ≤ time') ∧
    (∀ now, TimedAt obj w → TimedAt obj' w' → w.instant = w'.instant →
      (∀ name, name ≠ "time" → obj.lookup name = obj'.lookup name) →
        messageAt crates now sheep = messageAt crates now sheep') ∧
    ∀ now, Untimed obj → (messageAt crates now sheep).payload =
      crates.toVec (payloadOf obj (messageAt crates now sheep).receivedAtUnix) := by
  refine ⟨?_, ?_, ?_, ?_⟩
  · intro now timed
    exact ⟨payload_written parses accepted timed now, Int.fract_nonneg w.instant,
      Int.fract_lt_one w.instant⟩
  · intro now now' timed timed' earlier
    exact ⟨_, _, payload_written parses accepted timed now, payload_written parses accepted' timed' now',
      Int.floor_le_floor earlier⟩
  · intro now timed timed' equal same
    obtain ⟨utc, held, second⟩ := time_written parses accepted timed
    obtain ⟨utc', held', second'⟩ := time_written parses accepted' timed'
    apply messageAt_of_published accepted accepted' fun name _ other => same name other
    rw [held, held', Option.getD_some, Option.getD_some, second, second', ← w.floor_instant,
      ← w'.floor_instant, equal]
  · intro now untimed
    rw [payload_messageAt (holding_of_accepts accepted), untimed_sheep accepted untimed,
      Option.getD_none]
    rfl

end Faithful

/-! ## One instant, two spellings -/

theorem reference_parses : ParsesAsWritten reference := by
  intro w
  change Rfc3339.parse (String.ofList w.text).toList = _
  rw [String.toList_ofList]
  exact Rfc3339.parse_text w

/-- 1970-01-01T00:30:00.5+01:00 -/
def afterMidnight : Written where
  year := 1970
  month := 1
  day := 1
  hour := 0
  minute := 30
  second := 0
  fraction := [5]
  zone := .numeric false 1 0
  separator := 'T'
  fourDigits := by decide
  date := by decide
  clock := by decide
  precise := by decide
  separates := by decide

/-- 1969-12-31T23:30:00.500Z -/
def beforeMidnight : Written where
  year := 1969
  month := 12
  day := 31
  hour := 23
  minute := 30
  second := 0
  fraction := [5, 0, 0]
  zone := .zulu false
  separator := 'T'
  fourDigits := by decide
  date := by decide
  clock := by decide
  precise := by decide
  separates := by decide

theorem instant_midnight : beforeMidnight.instant = afterMidnight.instant := by
  have seconds : beforeMidnight.seconds = afterMidnight.seconds := by decide
  have before : beforeMidnight.units = 500 := by decide
  have after : afterMidnight.units = 5 := by decide
  rw [Written.instant, Written.instant, seconds, before, after]
  norm_num [beforeMidnight, afterMidnight]

theorem floor_midnight : ⌊afterMidnight.instant⌋ = -1800 := by
  rw [Written.floor_instant]
  decide

theorem timedAt_fullEvent (data : Value) (w : Written) :
    TimedAt (fullEvent data (.ofList w.text)) w := by
  simp only [TimedAt, fullEvent, List.lookup]
  rfl

theorem written_accepted {crates : Crates} (parses : ParsesAsWritten crates) {w : Written}
    (inRange : (Rfc3339.value w).InRange) {data : Value} (present : data.isNull = false) :
    ∃ utc, Accepts crates (.object (fullEvent data (.ofList w.text))) (fullSheep data utc) := by
  have converts : (Rfc3339.value w).toOffsetUtc ≠ none := by
    rw [ne_eq, OffsetDateTime.toOffsetUtc_eq_none_iff, not_not]
    exact inRange
  obtain ⟨utc, kept⟩ := Option.ne_none_iff_exists'.mp converts
  exact ⟨utc, fullEvent_accepted present (text_eq_some_iff.mp text_written).2 (parses w) kept⟩

/-- The day, the month and the year differ; the second is before the epoch. -/
theorem published_time_faithful_midnight :
    ∃ sheep sheep',
      Accepts reference (.object (fullEvent steadyData (.ofList beforeMidnight.text))) sheep ∧
      Accepts reference (.object (fullEvent steadyData (.ofList afterMidnight.text))) sheep' ∧
      (messageAt reference .epoch sheep).payload = reference.toVec (.object [
        ("data", steadyData), ("id", .string "1"), ("source", .string "/meadow"),
        ("subject", .string "flock-7"), ("time", .number (.int (-1800))),
        ("type", .string "sheep.counted")]) ∧
      messageAt reference .epoch sheep = messageAt reference .epoch sheep' := by
  have present : steadyData.isNull = false := rfl
  obtain ⟨utc, accepted⟩ := written_accepted reference_parses (w := beforeMidnight) (by decide) present
  obtain ⟨utc', accepted'⟩ := written_accepted reference_parses (w := afterMidnight) (by decide) present
  obtain ⟨published, -, spelled, -⟩ := published_time_faithful reference_parses accepted accepted'
  refine ⟨_, _, accepted, accepted', ?_, ?_⟩
  · rw [(published .epoch (timedAt_fullEvent _ _)).1, instant_midnight, floor_midnight]
    simp only [payloadOf, eventData, fullEvent, List.lookup]
    rfl
  · apply spelled .epoch (timedAt_fullEvent _ _) (timedAt_fullEvent _ _) instant_midnight
    intro name other
    have different : (name == "time") = false := by simpa using other
    simp only [fullEvent, List.lookup, different]

end CountingSheep.Ingest
