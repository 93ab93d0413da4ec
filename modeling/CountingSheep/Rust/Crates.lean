/-
# CountingSheep.Rust.Crates — what the service calls and does not contain

The service leaves JSON text, RFC 3339 text and HTTP body buffering to other
crates. A `Crates` is any choice of those functions; every definition of the
service takes one, and a result that relies on how they behave names the
behaviour it relies on.
-/
import CountingSheep.Rust.Std
import CountingSheep.Rust.Time
import CountingSheep.Theory.Json

namespace CountingSheep.Rust

open Theory.Json (Value)

set_option autoImplicit false

abbrev Bytes := List UInt8

structure Crates where
  /-- `serde_json::from_slice`, `none` for a text it refuses. -/
  fromSlice : Bytes → Option Value
  /-- `serde_json::to_vec`, which cannot fail on a `Value`. -/
  toVec : Value → Bytes
  /-- `OffsetDateTime::parse(_, &Rfc3339)`: the written local date-time and
  offset. -/
  parseRfc3339 : String → Option OffsetDateTime
  /-- What `to_offset` says when it panics. -/
  toOffsetPanic : String
  /-- What the `Bytes` extractor answers to a body over its limit. -/
  lengthLimitText : String
  /-- What it answers to a body that breaks off with this error. -/
  unknownBodyText : String → String

/-- `to_offset(UtcOffset::UTC)`. -/
def Crates.toOffset (crates : Crates) (dt : OffsetDateTime) : Exec OffsetDateTime :=
  match dt.toOffsetUtc with
  | some utc => .ok utc
  | none => .error ⟨crates.toOffsetPanic⟩

namespace Crates

variable {crates : Crates} {dt utc : OffsetDateTime} {panic : Panic}

theorem toOffset_eq_ok_iff : crates.toOffset dt = .ok utc ↔ dt.toOffsetUtc = some utc := by
  unfold toOffset
  cases dt.toOffsetUtc <;> simp only [Except.ok.injEq, Option.some.injEq, reduceCtorEq]

theorem toOffset_eq_error_iff :
    crates.toOffset dt = .error panic ↔ ¬ dt.InRange ∧ panic = ⟨crates.toOffsetPanic⟩ := by
  rw [← dt.toOffsetUtc_eq_none_iff]
  unfold toOffset
  cases dt.toOffsetUtc <;> simp only [Except.error.injEq, reduceCtorEq, false_and, true_and,
    eq_comm]

end Crates

end CountingSheep.Rust
