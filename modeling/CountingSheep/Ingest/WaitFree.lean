/-
# CountingSheep.Ingest.WaitFree — every request comes to its end

`produce` does not block, so a queue has an answer to every call (`Queue.Total`), if
only that it is full. A request reads the clock once, calls `produce` at most once for
each of its events, of which there are no more than the cap allows, and reports at most
one fault.

* `served_length`: so it has a bounded number of steps, whatever its body.
* `requests_wait_free`: and no request waits for another, and every run ends.
-/
import CountingSheep.Ingest.Acknowledge
import CountingSheep.Theory.Progress

namespace CountingSheep.Ingest

open Rust Http
open Theory (Prog Event World System History Run Step)

set_option autoImplicit false

/-- Whatever it is handed, the queue answers. -/
def Queue.Total {σ : Type} (queue : Queue σ) : Prop :=
  ∀ s message, ∃ answer s', queue.answers s message answer s'

theorem Queue.Total.world {ι σ : Type} {queue : Queue σ} (total : queue.Total) : (queue.world ι).Total := by
  intro thread s effect
  cases effect with
  | now => exact ⟨.epoch, s, rfl⟩
  | report report => exact ⟨(), s, rfl⟩
  | produce message =>
      obtain ⟨answer, s', answered⟩ := total s.queue message
      exact ⟨answer, ⟨s', s.log ++ logged thread (message, answer)⟩, answered, rfl⟩

/-- The most steps a request can take. -/
def requestBound (state : AppState) : Nat := max 1 state.maxBatchEvents + 2

section

variable {crates : Crates} {state : AppState} {headers : HeaderMap} {incoming : Incoming}

/-- The cap holds of what is published. -/
theorem plan_length {body : Bytes} {sheeps : List Sheep} (planned : plan crates state headers body = .ok sheeps) :
    sheeps.length ≤ max 1 state.maxBatchEvents := by
  unfold plan at planned
  split_ifs at planned
  · obtain ⟨value, sheep, -, -, rfl⟩ := (planSingle_eq_ok_iff crates).mp planned
    exact Nat.le_max_left _ _
  · obtain ⟨events, -, -, capped, accepted⟩ := (planBatch_eq_ok_iff crates).mp planned
    rw [← accepted.length_eq]
    exact Nat.le_trans capped (Nat.le_max_right _ _)

theorem reports_length (e : AppError) : e.reports.length ≤ 1 := by
  unfold AppError.reports
  cases e.exceptionReport <;> simp

theorem served_length {trace : List (Event Effect Effect.Answer)} {response : Response}
    (served : Serves crates state headers incoming trace response) : trace.length ≤ requestBound state := by
  unfold requestBound
  cases served with
  | answered ending =>
      cases ending with
      | rejected unbuffered => exact Nat.zero_le _
      | @refused _ _ e planned =>
          have one := reports_length e
          omega
      | published buffered planned now =>
          have capped := plan_length planned
          simp only [List.length_cons, List.length_map]
          omega
      | @failed _ _ done rest sheep planned now e =>
          have capped := plan_length planned
          have one := reports_length (publishError e)
          simp only [List.length_append, List.length_cons, List.length_map] at capped ⊢
          omega
  | caught ending =>
      cases ending with
      | panicked buffered planned =>
          simp only [List.length_append, List.length_nil, List.length_singleton]
          omega

theorem serve_bounded : (serve crates state (sheepsRequest headers incoming)).Bounded (requestBound state) := by
  intro events q steps
  obtain ⟨later, response, whole⟩ := steps.extends
  have bound := served_length (serve_returns_iff.mp whole)
  rw [List.length_append] at bound
  omega

end

section Run

variable {ι σ : Type} [DecidableEq ι]

/-- **No request waits for another, and every run ends.** Over any queue that answers, at every
moment of every run: a request has taken no more steps than the cap allows, and can be run to its
response from there, within that bound, without a step of any other; a run of finitely many
requests is no longer than their bounds together; and one that cannot go on has answered all. -/
theorem requests_wait_free (crates : Crates) (state : AppState) (queue : Queue σ) (total : queue.Total)
    (start : σ) (requests : ι → HeaderMap × Incoming) {history : History ι Effect Effect.Answer}
    {c : System ι (Shared ι σ) Effect Effect.Answer Response}
    (run : Run (queue.world ι) (submitted crates state start requests) history c) :
    (∀ r, ∃ (events : List (Event Effect Effect.Answer))
        (d : System ι (Shared ι σ) Effect Effect.Answer Response) (response : Response),
      Run (queue.world ι) c (events.map fun event => (r, event)) d ∧ d.threads r = .pure response ∧
        (History.of r history).length + events.length ≤ requestBound state) ∧
    (∀ [Fintype ι], history.length ≤ Fintype.card ι * requestBound state) ∧
    ((∀ made d, Step (queue.world ι) c made d → made = []) →
      ∀ r, ∃ response, c.threads r = .pure response) := by
  refine ⟨fun r => run.completes total.world r serve_bounded, ?_, ?_⟩
  · intro finite
    have bound := run.length_le fun r => @serve_bounded crates state (requests r).1 (requests r).2
    simpa using bound
  · exact fun stuck => Theory.ended_of_stuck total.world stuck

end Run

theorem boundedQueue_total (capacity : Nat) : (boundedQueue capacity).Total := by
  intro n message
  by_cases room : n < capacity
  · exact ⟨.ok (), n + 1, room, rfl⟩
  · exact ⟨.error .queueFull, n, room, rfl, rfl⟩

/-- Two requests at one slot: the one that was turned away had an answer all the same. -/
theorem requests_wait_free_one_slot :
    ∃ (history : History Bool Effect Effect.Answer)
      (c d : System Bool (Shared Bool Nat) Effect Effect.Answer Response)
      (events : List (Event Effect Effect.Answer)) (response : Response),
      Run ((boundedQueue 1).world Bool)
          (submitted reference ⟨100⟩ 0 fun _ => delivered (singleRequest sampleEvent)) history c ∧
        c.threads false = .pure (publishError .queueFull).rendered ∧ history.length ≤ 2 * 102 ∧
        Run ((boundedQueue 1).world Bool) c (events.map fun event => (true, event)) d ∧
        d.threads true = .pure response := by
  have within : (singleRequest sampleEvent).2.length ≤ defaultBodyLimit := by decide
  obtain ⟨history, c, run, refused⟩ := one_slot_run within (plan_sample ⟨100⟩)
  obtain ⟨alone, bound, -⟩ :=
    requests_wait_free reference ⟨100⟩ (boundedQueue 1) (boundedQueue_total 1) 0 _ run
  obtain ⟨events, d, response, later, ended, -⟩ := alone true
  exact ⟨history, c, d, events, response, run, refused, bound, later, ended⟩

end CountingSheep.Ingest
