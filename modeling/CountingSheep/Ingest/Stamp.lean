/-
# CountingSheep.Ingest.Stamp — the two timestamps, and the message they end up in

`stamp` adds `occurred_at` and `received_at` to a validated event, with the clock
reading as an argument; `serializeFlattened` turns the result into the message
handed to the producer. `messageAt` is the message of an event at a clock reading.
-/
import CountingSheep.Ingest.Sheep

namespace CountingSheep.Ingest

open Rust
open Theory.Json (Value)

set_option autoImplicit false

/-- A validated sheep carrying two guaranteed, non-optional timestamps. -/
structure AcceptedSheep where
  sheep : Sheep
  occurredAt : OffsetDateTime
  receivedAt : OffsetDateTime

def stamp (sheep : Sheep) (now : OffsetDateTime) : AcceptedSheep where
  sheep := sheep
  occurredAt := sheep.time.getD now
  receivedAt := now

/-- One message ready for Kafka: partition key, serialized value, and the two
attributes carried as headers. -/
@[ext] structure ProducedMessage where
  key : String
  payload : Bytes
  specversion : String
  receivedAtUnix : Int
  deriving DecidableEq

/-- The flat JSON object of the payload. -/
def flatten (accepted : AcceptedSheep) : Value :=
  .objectOf [
    ("id", .string accepted.sheep.id),
    ("type", .string accepted.sheep.type),
    ("source", .string accepted.sheep.source),
    ("subject", .string accepted.sheep.subject),
    ("time", .number (.int accepted.occurredAt.unixTimestamp)),
    ("data", accepted.sheep.data.getD .null)]

def serializeFlattened (crates : Crates) (accepted : AcceptedSheep) : ProducedMessage where
  key := accepted.sheep.subject
  payload := crates.toVec (flatten accepted)
  specversion := accepted.sheep.specversion
  receivedAtUnix := accepted.receivedAt.unixTimestamp

/-- The message an event becomes when it is published at clock reading `now`. -/
abbrev messageAt (crates : Crates) (now : OffsetDateTime) (sheep : Sheep) : ProducedMessage :=
  serializeFlattened crates (stamp sheep now)

/-- An event that carries its own time has one payload, whenever it is published. -/
theorem messageAt_payload_of_time {crates : Crates} {sheep : Sheep} (own : sheep.time ≠ none)
    (now later : OffsetDateTime) :
    (messageAt crates now sheep).payload = (messageAt crates later sheep).payload := by
  obtain ⟨occurred, own⟩ := Option.ne_none_iff_exists'.mp own
  simp only [serializeFlattened, stamp, flatten, own, Option.getD_some]

end CountingSheep.Ingest
