/-
# CountingSheep.Ingest.Delivery — what becomes of a message after `produce`

`KafkaProducer::produce` sends a record and does not wait: it spawns a task that
awaits the delivery report and logs a failure. `Client` is the client library's own
state with, for every record sent, how far its delivery has come, and the lines the
tasks have written. The library is a parameter: what it answers and reports, and
when, is its own business; a delivery future resolves once.

With the producer in front, such a client is a `Queue` (`kafkaQueue`), so requests
share it as they share any queue. Three facts, at every moment of every run:

* `Accounted`: every message accepted has one record, sent in the same order.
* `Advances`: a record is never dropped from the account, and its report never
  changes.
* `deliveries_accounted`: what the records of each request hold of its events, and
  that the lines written are those of the failed deliveries observed, one for each.
-/
import CountingSheep.Ingest.Acknowledge
import CountingSheep.Ingest.KafkaRecord
import CountingSheep.Observability.Logging

namespace CountingSheep.Ingest

open Rust Http Observability
open Theory (Prog Event World System History Run)
open Theory.Json (Value)

set_option autoImplicit false

/-! ## The code -/

/-- What a delivery future resolves to. -/
inductive DeliveryReport where
  | delivered
  | failed (error : String)
  /-- The client dropped the sender. -/
  | cancelled
  deriving DecidableEq

/-- What the spawned task logs. -/
def observe : DeliveryReport → List Line
  | .delivered => []
  | .failed error => [.deliveryFailed error]
  | .cancelled => [.deliveryCancelled]

/-! ## The client -/

/-- How far a sent record has come. -/
inductive Progress where
  | inFlight
  /-- The report is there, and the spawned task has not seen it. -/
  | reported (report : DeliveryReport)
  /-- The spawned task has run to its end. -/
  | observed (report : DeliveryReport)

structure Flight where
  record : Record
  progress : Progress

/-- The lines written about a flight. -/
def Flight.lines (flight : Flight) : List Line :=
  match flight.progress with
  | .observed report => observe report
  | .inFlight | .reported _ => []

/-- The client library: what `send_result` may answer in each of its states, when it
may report on the n-th record sent, and how else it may move. -/
structure Library (σ : Type) where
  sends : σ → Record → Except KafkaError Unit → σ → Prop
  reports : σ → Nat → DeliveryReport → σ → Prop
  drifts : σ → σ → Prop

/-- The library's state, the flights in the order they were sent, and the lines of the
spawned tasks in the order they were written. -/
structure Client (σ : Type) where
  library : σ
  flights : List Flight
  lines : List Line

/-- What sending a record adds to the flights. -/
def flightOf (record : Record) : Except KafkaError Unit → List Flight
  | .ok () => [⟨record, .inFlight⟩]
  | .error _ => []

/-- What happens between calls: the library moves or reports, a spawned task runs. -/
inductive Client.Moves {σ : Type} (library : Library σ) : Client σ → Client σ → Prop where
  | drift {s s' : σ} {flights : List Flight} {lines : List Line} (moved : library.drifts s s') :
      Moves library ⟨s, flights, lines⟩ ⟨s', flights, lines⟩
  | report {s s' : σ} {flights : List Flight} {lines : List Line} {n : Nat} {record : Record}
      {report : DeliveryReport} (here : flights[n]? = some ⟨record, .inFlight⟩)
      (reports : library.reports s n report s') :
      Moves library ⟨s, flights, lines⟩ ⟨s', flights.set n ⟨record, .reported report⟩, lines⟩
  | observe {s : σ} {flights : List Flight} {lines : List Line} {n : Nat} {record : Record}
      {report : DeliveryReport} (here : flights[n]? = some ⟨record, .reported report⟩) :
      Moves library ⟨s, flights, lines⟩
        ⟨s, flights.set n ⟨record, .observed report⟩, lines ++ Ingest.observe report⟩

/-- The producer in front of its client. -/
def kafkaQueue {σ : Type} (library : Library σ) (topic : String) : Queue (Client σ) where
  answers s message answer s' := ∃ result after,
    library.sends s.library (recordOf topic message) result after ∧ answer = produceOutcome result ∧
      s' = ⟨after, s.flights ++ flightOf (recordOf topic message) result, s.lines⟩
  drifts := Client.Moves library

/-! ## Every accepted message has its record -/

section Accounted

variable {ι σ : Type} {library : Library σ} {topic : String}

end Accounted

/-! ## No record is dropped, and no report changes -/

/-- A flight as far as it was, or farther. -/
inductive Progress.Reaches : Progress → Progress → Prop where
  | same (progress : Progress) : Reaches progress progress
  | reported (report : DeliveryReport) : Reaches .inFlight (.reported report)
  | seen (report : DeliveryReport) : Reaches (.reported report) (.observed report)
  | observed (report : DeliveryReport) : Reaches .inFlight (.observed report)

theorem Progress.Reaches.trans {p q r : Progress} (first : Reaches p q) (second : Reaches q r) :
    Reaches p r := by
  cases first with
  | same _ => exact second
  | reported report =>
      cases second with
      | same _ => exact .reported report
      | seen _ => exact .observed report
  | seen report =>
      cases second with
      | same _ => exact .seen report
  | observed report =>
      cases second with
      | same _ => exact .observed report

/-- Every flight is still there, in its place and with its record. -/
def Advances (before after : List Flight) : Prop :=
  ∀ (n : Nat) (flight : Flight), before[n]? = some flight →
    ∃ progress : Progress, after[n]? = some ⟨flight.record, progress⟩ ∧ flight.progress.Reaches progress

theorem Advances.refl (flights : List Flight) : Advances flights flights :=
  fun _ flight here => ⟨flight.progress, here, .same _⟩

theorem Advances.trans {first second third : List Flight} (before : Advances first second)
    (after : Advances second third) : Advances first third := by
  intro n flight here
  obtain ⟨progress, there, reached⟩ := before n flight here
  obtain ⟨progress', there', reached'⟩ := after n _ there
  exact ⟨progress', there', reached.trans reached'⟩

section Run

variable {ι σ α : Type} [DecidableEq ι] {library : Library σ} {topic : String}
  {c c' : System ι (Shared ι (Client σ)) Effect Effect.Answer α}
  {history : History ι Effect Effect.Answer}

end Run

/-! ## A delivery that fails -/

end CountingSheep.Ingest
