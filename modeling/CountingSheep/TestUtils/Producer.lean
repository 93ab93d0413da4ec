/-
# CountingSheep.TestUtils.Producer — the producer of the tests, beside the real one

`FakeProducer` records every message, or fails every call in one way; `TestApp` serves
requests in front of it. A test on it stands for the service with its Kafka producer
only if the Kafka producer could have answered the same.

* `fake_simulates`: it could, with a client library that answers every record alike.
* `fake_producer_adequate`: so every run of tests is one of the service. And a limit:
  on the fake a batch is published whole or not at all, so no test sees one cut short.
-/
import CountingSheep.Ingest.Delivery
import CountingSheep.Theory.Paths

namespace CountingSheep.TestUtils

open Rust Http Ingest
open Theory (Prog Event World System History Run)

set_option autoImplicit false

/-! ## The code -/

inductive Mode where
  | record
  | queueFull
  | backend
  deriving DecidableEq, Inhabited

/-- Records produced messages; optionally fails every `produce`. -/
structure FakeProducer where
  produced : List ProducedMessage := []
  mode : Mode := .record

def FakeProducer.new : FakeProducer := {}

def FakeProducer.failingQueueFull : FakeProducer := { mode := .queueFull }

def FakeProducer.failingBackend : FakeProducer := { mode := .backend }

def FakeProducer.produce (producer : FakeProducer) (message : ProducedMessage) :
    Except ProduceError Unit × FakeProducer :=
  match producer.mode with
  | .queueFull => (.error .queueFull, producer)
  | .backend => (.error (.backend "boom"), producer)
  | .record => (.ok (), { producer with produced := producer.produced ++ [message] })

/-- A booted application. -/
structure TestApp where
  state : AppState
  producer : FakeProducer

def defaultTestMaxBatchEvents : Nat := 1000

/-- Messages the app published during this test. -/
def TestApp.published (app : TestApp) : List ProducedMessage := app.producer.produced

def TestApp.build (maxBatchEvents : Nat) (producer : FakeProducer) : TestApp := ⟨⟨maxBatchEvents⟩, producer⟩

def TestApp.withMaxBatchEvents (maxBatchEvents : Nat) : TestApp := .build maxBatchEvents .new

def TestApp.init : TestApp := .withMaxBatchEvents defaultTestMaxBatchEvents

def TestApp.withFailingProducer : TestApp := .build defaultTestMaxBatchEvents .failingQueueFull

def TestApp.withBackendFailingProducer : TestApp := .build defaultTestMaxBatchEvents .failingBackend

/-- The apps a test can boot. -/
inductive TestApp.Booted : TestApp → Prop where
  | withMaxBatchEvents (maxBatchEvents : Nat) : Booted (.withMaxBatchEvents maxBatchEvents)
  | withFailingProducer : Booted .withFailingProducer
  | withBackendFailingProducer : Booted .withBackendFailingProducer

theorem TestApp.Booted.fresh {app : TestApp} (booted : app.Booted) : app.published = [] := by
  cases booted <;> rfl

/-! ## The fake as a queue -/

def fakeQueue : Queue FakeProducer where
  answers producer message answer after := producer.produce message = (answer, after)
  drifts _ _ := False

/-- What the client library of a Kafka producer that does the same answers. -/
def Mode.result : Mode → Except KafkaError Unit
  | .record => .ok ()
  | .queueFull => .error .queueFull
  | .backend => .error (.other "boom")

/-- A client library that answers every record alike, and reports on none. -/
def Mode.library (mode : Mode) : Library Unit where
  sends _ _ result _ := result = mode.result
  reports _ _ _ _ := False
  drifts _ _ := False

/-- What a call does in each mode. -/
theorem produce_eq (producer : FakeProducer) (message : ProducedMessage) :
    producer.produce message = (produceOutcome producer.mode.result,
      { producer with produced := producer.produced ++
          (acceptedMessage (message, produceOutcome producer.mode.result)).toList }) := by
  obtain ⟨produced, mode⟩ := producer
  cases mode <;> simp [FakeProducer.produce, Mode.result, produceOutcome, acceptedMessage]

section

variable {ι : Type} {mode : Mode} {topic : String}

/-- The fake and a Kafka client that have been handed the same. -/
structure HandedSame (mode : Mode) (topic : String) (s : Shared ι FakeProducer)
    (t : Shared ι (Client Unit)) : Prop where
  mode : s.queue.mode = mode
  log : t.log = s.log
  published : s.queue.produced = s.log.map Prod.snd
  records : t.queue.flights.map Flight.record = s.queue.produced.map (recordOf topic)

/-- **The Kafka producer could have answered the same.** -/
theorem fake_simulates : (fakeQueue.world ι).Simulates ((kafkaQueue mode.library topic).world ι)
    (HandedSame mode topic) where
  answer := by
    rintro thread s t effect answer s' ⟨rfl, log, published, records⟩ answered
    cases effect with
    | now | report _ =>
        obtain rfl : s' = s := answered
        exact ⟨t, rfl, rfl, log, published, records⟩
    | produce message =>
        obtain ⟨producer, _⟩ := s
        obtain ⟨producer', log'⟩ := s'
        obtain ⟨⟨library, flights, lines⟩, _⟩ := t
        obtain ⟨called, rfl⟩ := answered
        obtain ⟨rfl, rfl⟩ := Prod.mk.injEq .. ▸ (produce_eq producer message).symm.trans called
        cases log
        refine ⟨⟨_, _⟩, ⟨⟨producer.mode.result, (), rfl, rfl, rfl⟩, rfl⟩, ⟨rfl, rfl, ?_, ?_⟩⟩
        · have added : (logged thread (message, produceOutcome producer.mode.result)).map Prod.snd =
              (acceptedMessage (message, produceOutcome producer.mode.result)).toList := by simp [logged]
          rw [List.map_append, added]
          exact congrArg (· ++ _) published
        · have sent : (flightOf (recordOf topic message) producer.mode.result).map Flight.record =
              (acceptedMessage (message, produceOutcome producer.mode.result)).toList.map
                (recordOf topic) := by
            cases producer.mode <;> rfl
          simp only [List.map_append, sent]
          exact congrArg (· ++ _) records
  drift := by
    rintro s t s' - ⟨moved, -⟩
    exact moved.elim

/-! ## What a test sees -/

/-- The app as a test holds it after some requests: it shares the producer with them. -/
def TestApp.after (app : TestApp) (s : Shared ι FakeProducer) : TestApp := { app with producer := s.queue }

variable [DecidableEq ι] {α : Type} {history : History ι Effect Effect.Answer}

/-- Every call is answered alike. -/
theorem calls_alike {c c' : System ι (Shared ι FakeProducer) Effect Effect.Answer α}
    (run : Run (fakeQueue.world ι) c history c') :
    c'.shared.queue.mode = c.shared.queue.mode ∧ ∀ entry ∈ history, ∀ call ∈ calls [entry.2],
      call.2 = produceOutcome c.shared.queue.mode.result := by
  refine Run.induct (fun s h => s.queue.mode = c.shared.queue.mode ∧ ∀ entry ∈ h, ∀ call ∈ calls [entry.2],
    call.2 = produceOutcome c.shared.queue.mode.result) ⟨rfl, by simp⟩ ?_ ?_ run
  · rintro thread s effect answer s' h ⟨mode, before⟩ answered
    cases effect with
    | now | report _ =>
        obtain rfl : s' = s := answered
        refine ⟨mode, fun entry member call called => ?_⟩
        rcases List.mem_append.mp member with member | member
        · exact before entry member call called
        · cases List.mem_singleton.mp member
          cases called
    | produce message =>
        obtain ⟨called, -⟩ := answered
        obtain ⟨answered, after⟩ := Prod.mk.injEq .. ▸ (produce_eq s.queue message).symm.trans called
        refine ⟨(congrArg FakeProducer.mode after.symm).trans mode, fun entry member call made => ?_⟩
        rcases List.mem_append.mp member with member | member
        · exact before entry member call made
        · cases List.mem_singleton.mp member
          cases List.mem_singleton.mp made
          rw [← mode]
          exact answered.symm
  · rintro s s' h - ⟨moved, -⟩
    exact moved.elim

/-- The calls of one thread of a history. -/
theorem mem_calls_of {r : ι} {call : Call} (called : call ∈ calls (History.of r history)) :
    ∃ entry ∈ history, call ∈ calls [entry.2] := by
  obtain ⟨event, made, same⟩ := List.mem_filterMap.mp called
  obtain ⟨entry, member, own⟩ := List.mem_filterMap.mp made
  refine ⟨entry, member, List.mem_filterMap.mpr ⟨entry.2, List.mem_singleton.mpr rfl, ?_⟩⟩
  by_cases here : entry.1 = r
  · rw [if_pos here] at own
    cases own
    exact same
  · rw [if_neg here] at own
    cases own

/-- **What passes against the fake could have happened with Kafka.** However an app was booted, in
every run of requests against it, the messages published are those its producer accepted, in
order; and the same requests run the same, to the same responses, against the Kafka producer in
front of some client library, which is handed the record of each of these messages. Beyond that
the fake does not go: a request that was answered has all its events published, or none. -/
theorem fake_producer_adequate (crates : Crates) (app : TestApp) (booted : app.Booted)
    (topic : String) (requests : ι → HeaderMap × Incoming)
    {c : System ι (Shared ι FakeProducer) Effect Effect.Answer Response}
    (run : Run (fakeQueue.world ι) (submitted crates app.state app.producer requests) history c) :
    (app.after c.shared).published = c.shared.log.map Prod.snd ∧
    (∃ client : Shared ι (Client Unit),
      Run ((kafkaQueue app.producer.mode.library topic).world ι)
        (submitted crates app.state ⟨(), [], []⟩ requests) history ⟨client, c.threads⟩ ∧
      client.log = c.shared.log ∧
      client.queue.flights.map Flight.record = (app.after c.shared).published.map (recordOf topic)) ∧
    ∀ r response, c.threads r = .pure response →
      logOf r c.shared.log = [] ∨ response.status = 202 ∧
        (logOf r c.shared.log).length = (submittedEvents crates (requests r).1 (requests r).2).length := by
  have start : HandedSame app.producer.mode topic (⟨app.producer, []⟩ : Shared ι FakeProducer)
      ⟨⟨(), [], []⟩, []⟩ :=
    ⟨rfl, rfl, booted.fresh, congrArg (List.map (recordOf topic)) booted.fresh.symm⟩
  obtain ⟨client, kafka, handed⟩ := fake_simulates.run run start
  refine ⟨handed.published, ⟨client, kafka, handed.log, handed.records⟩, fun r response ended => ?_⟩
  rw [logOf_run run rfl r]
  have served := serve_returns_iff.mp (run.returns ended)
  rcases served_went served with ⟨none, -⟩ | ⟨sheeps, now, -, -, -, status⟩ |
    ⟨done, sheep, rest, now, e, -, -, called, -⟩
  · left
    rw [enqueued, none]
    rfl
  · obtain ⟨-, whole, -⟩ := (served_acknowledged served).accepted_iff.mp status
    exact .inr ⟨status, whole⟩
  · left
    have alike (call : Call) (made : call ∈ calls (History.of r history)) :
        call.2 = produceOutcome app.producer.mode.result := by
      obtain ⟨entry, member, made⟩ := mem_calls_of made
      exact (calls_alike run).2 entry member call made
    rw [called] at alike
    rw [enqueued_of_failed called]
    -- The last call failed, so had any before it.
    have failed := alike _ (List.mem_append_right _ (List.mem_singleton.mpr rfl))
    cases done with
    | nil => rfl
    | cons first _ =>
        have accepted := alike _ (List.mem_append_left _ (List.mem_cons_self ..))
        cases accepted.trans failed.symm

end

/-- One event, on a fresh app. -/
theorem recorded_run {crates : Crates} {headers : HeaderMap} {body : Bytes} {sheep : Sheep}
    (within : body.length ≤ defaultBodyLimit)
    (planned : plan crates TestApp.init.state headers body = .ok [sheep]) :
    ∃ (history : History Unit Effect Effect.Answer)
      (c : System Unit (Shared Unit FakeProducer) Effect Effect.Answer Response),
      Run (fakeQueue.world Unit)
          (submitted crates TestApp.init.state TestApp.init.producer fun _ => (headers, .whole body)) history c ∧
        c.threads () = .pure ⟨202, [], .empty⟩ ∧ c.shared.queue.produced ≠ [] := by
  let message := messageAt crates .epoch sheep
  have recorded : (fakeQueue.world Unit).answer () ⟨TestApp.init.producer, []⟩ (.produce message) (.ok ())
      ⟨⟨[message], .record⟩, [((), message)]⟩ := ⟨rfl, rfl⟩
  have answers : (fakeQueue.world Unit).Answers () ⟨TestApp.init.producer, []⟩
      (⟨.now, .epoch⟩ :: [sheep].map fun sheep => produced crates .epoch sheep (.ok ()))
      ⟨⟨[message], .record⟩, [((), message)]⟩ :=
    .cons rfl (.cons recorded (.nil _))
  have served := Queue.serves (r := ())
    (c := submitted crates TestApp.init.state TestApp.init.producer fun _ => (headers, .whole body)) rfl
    (.answered (.published (bufferBody_whole within) planned .epoch)) answers
  exact ⟨_, _, served, by simp only [Function.update_self], List.cons_ne_nil _ _⟩

/-- The same event is accepted by Kafka, and sent as a record. -/
theorem fake_producer_adequate_init :
    ∃ (history : History Unit Effect Effect.Answer) (client : Shared Unit (Client Unit))
      (threads : Unit → Prog Effect Effect.Answer Response),
      Run ((kafkaQueue Mode.record.library "sheeps").world Unit)
          (submitted reference TestApp.init.state ⟨(), [], []⟩ fun _ =>
            delivered (singleRequest sampleEvent)) history ⟨client, threads⟩ ∧
        threads () = .pure ⟨202, [], .empty⟩ ∧ client.queue.flights.map Flight.record ≠ [] := by
  have within : (singleRequest sampleEvent).2.length ≤ defaultBodyLimit := by decide
  obtain ⟨history, c, run, ended, published⟩ := recorded_run within (plan_sample TestApp.init.state)
  obtain ⟨-, ⟨client, kafka, -, records⟩, -⟩ :=
    fake_producer_adequate reference TestApp.init (.withMaxBatchEvents _) "sheeps" _ run
  refine ⟨history, client, c.threads, kafka, ended, ?_⟩
  rw [records]
  exact fun none => published (List.map_eq_nil_iff.mp none)

end CountingSheep.TestUtils
