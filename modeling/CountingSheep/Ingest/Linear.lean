/-
# CountingSheep.Ingest.Linear — the order in which requests took effect

A request touches the queue only where it calls `produce`; reading the clock and
reporting an exception are private to it. So a request with one event takes effect
at one moment, and requests of that kind might have been served one at a time
(`Theory.Serial`). A batch takes effect event by event, and other requests may come
between; what is left of the order then is real time.

* `requests_ordered`: both, for every interleaving on every queue.
-/
import CountingSheep.Ingest.Acknowledge
import CountingSheep.Theory.Serial

namespace CountingSheep.Ingest

open Rust Http
open Theory (Prog Event World System History Run Serializes)

set_option autoImplicit false

section Private

variable {ι σ : Type} {queue : Queue σ}

/-- Only `produce` touches the queue. -/
def touchesQueue : Effect → Bool
  | .produce _ => true
  | .now | .report _ => false

theorem private_of_not_touches (effect : Effect) (untouched : touchesQueue effect = false) :
    (queue.world ι).Private effect := by
  cases effect with
  | produce message => cases untouched
  | now | report _ => exact ⟨fun _ _ _ _ answered => answered, fun _ _ _ _ _ => rfl⟩

theorem touches_eq_calls (trace : List (Event Effect Effect.Answer)) :
    (trace.filter fun event => touchesQueue event.1).length = (calls trace).length := by
  induction trace with
  | nil => rfl
  | cons event rest ih =>
      obtain ⟨effect, answer⟩ := event
      cases effect with
      | produce message => exact congrArg (· + 1) ih
      | now | report _ => exact ih

/-- A request that publishes at most one event calls `produce` at most once. -/
theorem calls_le_one {crates : Crates} {state : AppState} {headers : HeaderMap} {incoming : Incoming}
    {trace : List (Event Effect Effect.Answer)} {response : Response}
    (single : ∀ sheeps, PlannedAs crates state headers incoming sheeps → sheeps.length ≤ 1)
    (served : Serves crates state headers incoming trace response) : (calls trace).length ≤ 1 := by
  rcases served_went served with ⟨none, -⟩ | ⟨sheeps, now, planned, -, called, -⟩ |
    ⟨done, sheep, rest, now, e, planned, -, called, -⟩
  · rw [none]
    decide
  · rw [called, List.length_map]
    exact single sheeps planned
  · have one := single _ planned
    rw [List.length_append, List.length_cons] at one
    rw [called, List.length_append, List.length_map, List.length_singleton]
    omega

end Private

section Log

variable {ι σ α : Type} [DecidableEq ι] {queue : Queue σ}
  {c c' : System ι (Shared ι σ) Effect Effect.Answer α} {history : History ι Effect Effect.Answer}

/-- What an entry of a history adds to the log. -/
def entryLog (entry : ι × Event Effect Effect.Answer) : List (ι × ProducedMessage) :=
  (calls [entry.2]).flatMap (logged entry.1)

theorem log_of_run (run : Run (queue.world ι) c history c') :
    c'.shared.log = c.shared.log ++ history.flatMap entryLog := by
  refine Run.induct (fun s h => s.log = c.shared.log ++ h.flatMap entryLog) ?_ ?_ ?_ run
  · simp
  · intro thread s effect answer s' h same answered
    rw [Queue.world_logs answered, same, List.flatMap_append, List.append_assoc]
    simp [entryLog]
  · intro s s' h same moved
    rw [moved.2]
    exact same

omit [DecidableEq ι] in
theorem entryLog_eq (thread : ι) (event : Event Effect Effect.Answer) :
    entryLog (thread, event) = (enqueued [event]).map fun message => (thread, message) := by
  obtain ⟨effect, answer⟩ := event
  cases effect with
  | now | report _ => rfl
  | produce message => rcases answer with e | ⟨⟩ <;> rfl

/-- What a block adds to the log: the messages it got accepted. -/
theorem entryLog_block (thread : ι) (history : History ι Effect Effect.Answer) :
    (History.block thread history).flatMap entryLog =
      (enqueued (History.of thread history)).map fun message => (thread, message) := by
  unfold History.block
  generalize History.of thread history = events
  induction events with
  | nil => rfl
  | cons event rest ih =>
      have split : enqueued (event :: rest) = enqueued [event] ++ enqueued rest :=
        @enqueued_append [event] rest
      rw [List.map_cons, List.flatMap_cons, entryLog_eq, ih, split, List.map_append]

/-- The log of a serialized run is the threads' messages, thread by thread. -/
theorem log_of_serial {order : List ι} (serial : Serializes (queue.world ι) c history c' order)
    (run : Run (queue.world ι) c history c') (empty : c.shared.log = []) :
    c'.shared.log = order.flatMap fun thread =>
      (logOf thread c'.shared.log).map fun message => (thread, message) := by
  have each := log_of_run serial.run
  rw [empty, List.nil_append, History.sequential, List.flatMap_assoc] at each
  rw [each]
  refine List.flatMap_congr fun thread _ => ?_
  rw [entryLog_block, ← each, logOf_run run empty]

/-- What a thread put in the queue before another began comes before all that one put in. -/
theorem log_real_time (run : Run (queue.world ι) c history c') (empty : c.shared.log = [])
    {first second : ι} (before : History.Precedes history first second) :
    ∃ front back, c'.shared.log = front ++ back ∧ logOf first back = [] ∧ logOf second front = [] := by
  obtain ⟨early, late, rfl, ended, fresh⟩ := before
  obtain ⟨m, head, tail⟩ := run.split
  have whole := log_of_run tail
  refine ⟨m.shared.log, _, whole, ?_, ?_⟩
  · have all := logOf_run run empty first
    rw [whole, logOf_append, logOf_run head empty, History.of_append, enqueued_append, ended] at all
    exact List.append_cancel_left all
  · rw [logOf_run head empty, fresh]
    rfl

end Log

variable {ι σ : Type} [DecidableEq ι]

/-- **The order in which requests took effect.** For any requests on any queue: if one was through
before another began, all its messages precede all of the other's. If each publishes at most one
event, they might have been served whole, one after another, in an order that respects real time:
with the same answers from the queue, to the same responses, queue and log, which holds the
requests' messages in that order. -/
theorem requests_ordered (crates : Crates) (state : AppState) (queue : Queue σ) (start : σ)
    (requests : ι → HeaderMap × Incoming) {history : History ι Effect Effect.Answer}
    {c : System ι (Shared ι σ) Effect Effect.Answer Response}
    (run : Run (queue.world ι) (submitted crates state start requests) history c) :
    (∀ r r', History.Precedes history r r' →
      ∃ front back, c.shared.log = front ++ back ∧ logOf r back = [] ∧ logOf r' front = []) ∧
    ((∀ r sheeps, PlannedAs crates state (requests r).1 (requests r).2 sheeps → sheeps.length ≤ 1) →
      ∃ order, Serializes (queue.world ι) (submitted crates state start requests) history c order ∧
        c.shared.log = order.flatMap fun r => (logOf r c.shared.log).map fun message => (r, message)) := by
  refine ⟨fun r r' before => log_real_time run rfl before, fun single => ?_⟩
  have once (r : ι) : ((History.of r history).filter fun event => touchesQueue event.1).length ≤ 1 := by
    obtain ⟨later, response, whole⟩ := (run.steps r).extends
    have few := calls_le_one (single r) (serve_returns_iff.mp whole)
    rw [calls_append, List.length_append] at few
    rw [touches_eq_calls]
    omega
  obtain ⟨order, serial⟩ := run.serial private_of_not_touches once
  exact ⟨order, serial, log_of_serial serial run rfl⟩

/-- The same event in two requests, with one slot between them: the request that got the slot
was served first. -/
theorem requests_ordered_one_slot :
    ∃ (history : History Bool Effect Effect.Answer)
      (c : System Bool (Shared Bool Nat) Effect Effect.Answer Response) (order : List Bool),
      Run ((boundedQueue 1).world Bool) (submitted reference ⟨100⟩ 0 fun _ =>
          delivered (singleRequest sampleEvent)) history c ∧
        Serializes ((boundedQueue 1).world Bool)
          (submitted reference ⟨100⟩ 0 fun _ => delivered (singleRequest sampleEvent)) history c order := by
  have within : (singleRequest sampleEvent).2.length ≤ defaultBodyLimit := by decide
  obtain ⟨history, c, run, -⟩ := one_slot_run within (plan_sample ⟨100⟩)
  obtain ⟨-, ordered⟩ := requests_ordered reference ⟨100⟩ (boundedQueue 1) 0 _ run
  obtain ⟨order, serial, -⟩ := ordered fun r sheeps planned => by
    obtain ⟨body, buffered, planned⟩ := planned
    cases (bufferBody_eq_ok_iff.mp buffered).1
    have planned := (plan_sample ⟨100⟩).symm.trans planned
    rw [Except.ok.injEq] at planned
    subst planned
    exact Nat.le_refl 1
  exact ⟨history, c, order, run, serial⟩

end CountingSheep.Ingest
