/-
# CountingSheep.Ingest.Queue — the queue that requests share, and who put what in it

A `Queue` is any state machine that may answer a `produce` call either way and may
move on its own in between. `Queue.world` adds a log of what was appended, and by
which thread; the log is what "ends up in the queue" means below.

* `logOf_run`: in any run, what the log holds of a thread is exactly what that
  thread's own calls got accepted, in the order of the calls.
* `calls_produced`: the calls of a publishing loop.
-/
import CountingSheep.Http.Router

namespace CountingSheep.Ingest

open Rust Http
open Theory (Prog Event World System History Run)

set_option autoImplicit false

/-! ## What a trace called and enqueued -/

/-- A `produce` call and its answer. -/
abbrev Call := ProducedMessage × Except ProduceError Unit

def asCall : Event Effect Effect.Answer → Option Call
  | ⟨.produce message, answer⟩ => some (message, answer)
  | ⟨.now, _⟩ | ⟨.report _, _⟩ => none

/-- The message of a call, if it was accepted. -/
def acceptedMessage : Call → Option ProducedMessage
  | (message, .ok ()) => some message
  | (_, .error _) => none

def asReading : Event Effect Effect.Answer → Option OffsetDateTime
  | ⟨.now, now⟩ => some now
  | ⟨.produce _, _⟩ | ⟨.report _, _⟩ => none

/-- The `produce` calls of a trace, in order. -/
def calls (trace : List (Event Effect Effect.Answer)) : List Call := trace.filterMap asCall

/-- The messages a trace got accepted, in order. -/
def enqueued (trace : List (Event Effect Effect.Answer)) : List ProducedMessage :=
  (calls trace).filterMap acceptedMessage

/-- The clock readings of a trace. -/
def readings (trace : List (Event Effect Effect.Answer)) : List OffsetDateTime :=
  trace.filterMap asReading

section

variable {first later : List (Event Effect Effect.Answer)}

@[simp] theorem calls_append : calls (first ++ later) = calls first ++ calls later :=
  List.filterMap_append

@[simp] theorem enqueued_append : enqueued (first ++ later) = enqueued first ++ enqueued later := by
  rw [enqueued, calls_append, List.filterMap_append]
  rfl

@[simp] theorem readings_append : readings (first ++ later) = readings first ++ readings later :=
  List.filterMap_append

end

@[simp] theorem calls_reports (e : AppError) : calls e.reports = [] := by
  unfold AppError.reports
  cases e.exceptionReport <;> rfl

@[simp] theorem readings_reports (e : AppError) : readings e.reports = [] := by
  unfold AppError.reports
  cases e.exceptionReport <;> rfl

/-- The calls of a publishing loop that got as far as `sheeps`. -/
theorem calls_produced (crates : Crates) (now : OffsetDateTime) (sheeps : List Sheep) :
    calls (sheeps.map fun sheep => produced crates now sheep (.ok ())) =
      sheeps.map fun sheep => (messageAt crates now sheep, .ok ()) := by
  induction sheeps with
  | nil => rfl
  | cons sheep rest ih => exact congrArg _ ih

theorem readings_produced (crates : Crates) (now : OffsetDateTime) (sheeps : List Sheep) :
    readings (sheeps.map fun sheep => produced crates now sheep (.ok ())) = [] := by
  induction sheeps with
  | nil => rfl
  | cons sheep rest ih => exact ih

theorem acceptedMessages_map_ok (messages : List ProducedMessage) :
    (messages.map fun message => ((message, .ok ()) : Call)).filterMap acceptedMessage = messages := by
  induction messages with
  | nil => rfl
  | cons message rest ih => exact congrArg _ ih

/-! ## The shared queue -/

/-- A stateful queue: how it may answer a `produce` call, and how it may move
between calls. -/
structure Queue (σ : Type) where
  answers : σ → ProducedMessage → Except ProduceError Unit → σ → Prop
  drifts : σ → σ → Prop

/-- The queue's own state, and everything ever appended, with who appended it. -/
structure Shared (ι σ : Type) where
  queue : σ
  log : List (ι × ProducedMessage)

/-- What an answered call adds to the log. -/
def logged {ι : Type} (thread : ι) (call : Call) : List (ι × ProducedMessage) :=
  (acceptedMessage call).toList.map fun message => (thread, message)

/-- Threads sharing a queue. Only `produce` reaches it, one call at a time. -/
def Queue.world {σ : Type} (queue : Queue σ) (ι : Type) :
    World ι (Shared ι σ) Effect Effect.Answer where
  answer thread s effect answer s' := match effect, answer with
    | .produce message, answer =>
        queue.answers s.queue message answer s'.queue ∧ s'.log = s.log ++ logged thread (message, answer)
    | .now, _ | .report _, _ => s' = s
  drift s s' := queue.drifts s.queue s'.queue ∧ s'.log = s.log

/-- What the log holds of one thread. -/
def logOf {ι : Type} [DecidableEq ι] (thread : ι) (log : List (ι × ProducedMessage)) :
    List ProducedMessage :=
  log.filterMap fun entry => if entry.1 = thread then some entry.2 else none

section Run

variable {ι σ α : Type} [DecidableEq ι] {queue : Queue σ}
  {c c' : System ι (Shared ι σ) Effect Effect.Answer α} {history : History ι Effect Effect.Answer}

theorem logOf_append (thread : ι) (log more : List (ι × ProducedMessage)) :
    logOf thread (log ++ more) = logOf thread log ++ logOf thread more :=
  List.filterMap_append

omit [DecidableEq ι] in
/-- What an event adds to the log: the message of an accepted call. -/
theorem Queue.world_logs {thread : ι} {s s' : Shared ι σ} {effect : Effect} {answer : effect.Answer}
    (answered : (queue.world ι).answer thread s effect answer s') :
    s'.log = s.log ++ (calls [⟨effect, answer⟩]).flatMap (logged thread) := by
  cases effect with
  | produce message =>
      rw [answered.2]
      exact congrArg _ (List.append_nil _).symm
  | now =>
      have unchanged : s' = s := answered
      rw [unchanged]
      exact (List.append_nil _).symm
  | report report =>
      have unchanged : s' = s := answered
      rw [unchanged]
      exact (List.append_nil _).symm

theorem logOf_logged (thread other : ι) (event : Event Effect Effect.Answer) :
    logOf thread ((calls [event]).flatMap (logged other)) =
      enqueued (History.of thread [(other, event)]) := by
  obtain ⟨effect, answer⟩ := event
  by_cases here : other = thread
  · subst here
    rw [History.of_single_self]
    cases effect with
    | produce message => rcases answer with e | ⟨⟩ <;> simp [calls, asCall, enqueued, logged,
        acceptedMessage, logOf]
    | now => rfl
    | report report => rfl
  · rw [History.of_single_ne here]
    cases effect with
    | produce message => rcases answer with e | ⟨⟩ <;> simp [calls, asCall, enqueued, logged,
        acceptedMessage, logOf, here]
    | now => rfl
    | report report => rfl

/-- **The log of a thread is what the thread's own calls got accepted.** -/
theorem logOf_run (run : Run (queue.world ι) c history c') (empty : c.shared.log = [])
    (thread : ι) : logOf thread c'.shared.log = enqueued (History.of thread history) := by
  refine Run.induct (fun s h => logOf thread s.log = enqueued (History.of thread h)) ?_ ?_ ?_ run
  · rw [empty]
    rfl
  · intro other s effect answer s' h same answered
    rw [Queue.world_logs answered, logOf_append, logOf_logged, same, History.of_append,
      enqueued_append]
  · intro s s' h same moved
    rw [moved.2]
    exact same

end Run

/-- A waiting request is served alone, as long as the queue answers it. -/
theorem Queue.serves {ι σ : Type} [DecidableEq ι] {queue : Queue σ} {crates : Crates}
    {state : AppState} {headers : HeaderMap} {incoming : Incoming}
    {trace : List (Event Effect Effect.Answer)} {response : Response} {r : ι} {s : Shared ι σ}
    {c : System ι (Shared ι σ) Effect Effect.Answer Response}
    (waiting : c.threads r = serve crates state (sheepsRequest headers incoming))
    (served : Serves crates state headers incoming trace response)
    (answers : (queue.world ι).Answers r c.shared trace s) :
    Run (queue.world ι) c (trace.map fun event => (r, event))
      ⟨s, Function.update c.threads r (.pure response)⟩ := by
  apply Run.alone _ answers
  rw [waiting]
  exact serve_returns_iff.mpr served

end CountingSheep.Ingest
