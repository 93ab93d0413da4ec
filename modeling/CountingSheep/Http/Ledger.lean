/-
# CountingSheep.Http.Ledger — what the log says of the queue, and of the faults

`Allowed` is the conduct of a request, lines and effects together: which may come
next, given what came before. A line announces each `produce` call; an internal
error is reported and then logged; a panic is logged and then reported.

* `wp_serve`: every request keeps to it, and is answered as its last moment says.
* `announced_follows`, `faults_follows`: what the conduct means for the lines of a
  request so far.
* `log_reconciles`: in every run, the INFO lines of a request announce what it has
  in the queue, or that and one event more. Once it has ended, one more exactly if
  it was answered with a publishing failure.
* `log_is_source_of_truth`: nothing is reported that is not logged, and a response
  is a 500 exactly if there is an ERROR line for it.
-/
import CountingSheep.Http.Logged
import CountingSheep.Ingest.Acknowledge
import CountingSheep.Observability.Egress
import CountingSheep.Theory.Protocol

namespace CountingSheep.Http.Logged

open Rust Ingest Observability
open Theory (Prog Event Noted Protocol World System History Run)
open Theory.Noted (acts notes)

set_option autoImplicit false

/-! ## The conduct of a request -/

/-- The error of a failed `produce` call. -/
def backendError (detail : String) : AnyhowError := ⟨"kafka backend error: " ++ detail, []⟩

/-- The line of an accepted event, which shows its id, source, type and two timestamps, and the
message it is published as. -/
def Announces (crates : Crates) (line : Line) (message : ProducedMessage) : Prop :=
  ∃ accepted : AcceptedSheep,
    line = {
      level := .info
      message := "sheep accepted"
      fields := [
        ("id", .text accepted.sheep.id),
        ("source", .text accepted.sheep.source),
        ("event_type", .text accepted.sheep.type),
        ("occurred_at", .time accepted.occurredAt),
        ("received_at", .time accepted.receivedAt)] } ∧
    message = serializeFlattened crates accepted

/-- How far a request has come. -/
inductive Moment where
  | fresh
  /-- The clock has been read; every line so far has had its call accepted. -/
  | publishing (now : OffsetDateTime)
  /-- A line has been written, and its call is next. -/
  | announced (now : OffsetDateTime) (line : Line)
  | refused (e : ProduceError)
  /-- An internal error has been reported, and its line is next. -/
  | reported (error : AnyhowError)
  /-- The line of a panic has been written, and its report is next. -/
  | unwinding (line : Line)
  /-- An internal error has been logged. -/
  | failed (error : AnyhowError)
  /-- A panic has been reported. -/
  | caught

/-- What a request may do at each moment. -/
inductive Allowed (crates : Crates) : Moment → LoggedEffect → Prop where
  | clock : Allowed crates .fresh (.act .now)
  | announce {now : OffsetDateTime} (accepted : AcceptedSheep) (stamped : accepted.receivedAt = now) :
      Allowed crates (.publishing now) (.note (.sheepAccepted accepted))
  | produce {now : OffsetDateTime} {line : Line} {message : ProducedMessage}
      (announces : Announces crates line message) :
      Allowed crates (.announced now line) (.act (.produce message))
  | reportFault (detail : String) :
      Allowed crates (.refused (.backend detail)) (.act (.report (internalReport (backendError detail))))
  | logFault (error : AnyhowError) : Allowed crates (.reported error) (.note (.internalServerError error))
  | logPanic (message : String) : Allowed crates .fresh (.note (.servicePanicked message))
  | reportPanic (message : String) :
      Allowed crates (.unwinding (.servicePanicked message)) (.act (.report (panicReport message)))

/-- Where an answered call leaves a request. -/
def Moment.afterCall (now : OffsetDateTime) : Except ProduceError Unit → Moment
  | .ok () => .publishing now
  | .error e => .refused e

def Moment.next : Moment → (effect : LoggedEffect) → effect.Answer → Moment
  | .fresh, .act .now, now => .publishing now
  | .fresh, .note line, _ => .unwinding line
  | .publishing now, .note line, _ => .announced now line
  | .announced now _, .act (.produce _), answer => .afterCall now answer
  | .refused (.backend detail), .act (.report _), _ => .reported (backendError detail)
  | .reported error, .note _, _ => .failed error
  | .unwinding _, .act (.report _), _ => .caught
  | moment, _, _ => moment

def conduct (crates : Crates) : Protocol Moment LoggedEffect LoggedEffect.Answer :=
  ⟨Allowed crates, Moment.next⟩

/-- The response a request may be answered with at its end. -/
def Concludes : Moment → Response → Prop
  | .fresh, response => response.status ∈ [200, 400, 404, 405, 413, 415]
  | .publishing _, response => response = ⟨202, [], .empty⟩
  | .refused .queueFull, response => response = (publishError .queueFull).rendered
  | .failed error, response => response = (AppError.internal error).rendered
  | .caught, response => response = servicePanicked
  | .announced _ _, _ | .refused (.backend _), _ | .reported _, _ | .unwinding _, _ => False

/-- How a handler's result fits the moment it ends at. -/
def Handled : Moment → Except Halt StatusCode → Prop
  | .fresh, .error (.error e) => Refusal e
  | .fresh, .error (.panic _) => True
  | .publishing _, .ok status => status = 202
  | .refused e, .error (.error error) => error = publishError e
  | _, _ => False

section

variable {crates : Crates}

/-- How a call ends the publication of an event, or lets it go on. -/
def Recorded (now : OffsetDateTime) : Moment → Except Halt Unit → Prop
  | moment, .ok () => moment = .publishing now
  | moment, .error halt => ∃ e, moment = .refused e ∧ halt = .error (publishError e)

theorem wp_recordAccepted {accepted : AcceptedSheep} {now : OffsetDateTime}
    (stamped : accepted.receivedAt = now) :
    (conduct crates).wp (Recorded now) (recordAccepted crates accepted).run (.publishing now) := by
  unfold recordAccepted
  refine Protocol.wpE_bind.mpr ⟨.announce accepted stamped, fun _ => ?_⟩
  refine Protocol.wpE_bind.mpr ⟨.produce ⟨accepted, rfl, rfl⟩, ?_⟩
  rintro (e | ⟨⟩)
  · exact ⟨e, rfl, rfl⟩
  · exact rfl

theorem wp_publishEach (now : OffsetDateTime) (sheeps : List Sheep) :
    (conduct crates).wp (Recorded now) (publishEach crates now sheeps).run (.publishing now) := by
  induction sheeps with
  | nil => exact rfl
  | cons sheep rest ih =>
      refine Protocol.wpE_bind.mpr (Protocol.wp_mono ?_ (wp_recordAccepted rfl))
      rintro moment (halt | ⟨⟩) recorded
      · exact recorded
      · cases recorded
        exact ih

/-- A publication that has recorded is answered 202 or fails as its call did. -/
theorem handled_of_recorded {now : OffsetDateTime} {p : LoggedHandler Unit}
    (recorded : (conduct crates).wp (Recorded now) p.run (.publishing now)) :
    (conduct crates).wp Handled (p >>= fun _ => pure 202).run (.publishing now) := by
  refine Protocol.wpE_bind.mpr (Protocol.wp_mono ?_ recorded)
  rintro moment (halt | ⟨⟩) held
  · obtain ⟨e, rfl, rfl⟩ := held
    exact rfl
  · cases held
    exact rfl

/-- What is decided before the clock is read refuses, unwinds, or goes on fresh. -/
theorem handled_parseJson {body : Bytes} {f : Theory.Json.Value → LoggedHandler StatusCode}
    (parsed : ∀ value, (conduct crates).wp Handled (f value).run .fresh) :
    (conduct crates).wp Handled (follow (parseJson crates body) >>= f).run .fresh := by
  unfold parseJson
  cases crates.fromSlice body with
  | none => exact Refusal.badRequest _
  | some value => exact parsed value

theorem handled_ofExec {α : Type} {exec : Exec α} {f : α → LoggedHandler StatusCode}
    (returned : ∀ a, exec = .ok a → (conduct crates).wp Handled (f a).run .fresh) :
    (conduct crates).wp Handled (ofExec exec >>= f).run .fresh := by
  cases exec with
  | error panic => exact trivial
  | ok a => exact returned a rfl

theorem wp_ingestSingle (body : Bytes) :
    (conduct crates).wp Handled (ingestSingle crates body).run .fresh := by
  unfold ingestSingle
  refine handled_parseJson fun value => handled_ofExec fun verdict judged => ?_
  cases verdict with
  | error details =>
      have nonempty := validate_rejects_nonempty crates judged
      exact Refusal.validation (by simpa using nonempty)
  | ok sheep =>
      refine ⟨.clock, fun now => ?_⟩
      exact handled_of_recorded (@wp_recordAccepted crates (stamp sheep now) now rfl)

theorem wp_ingestBatch (body : Bytes) (maxBatchEvents : Nat) :
    (conduct crates).wp Handled (ingestBatch crates body maxBatchEvents).run .fresh := by
  unfold ingestBatch
  refine handled_parseJson fun value => ?_
  rcases value with _ | _ | _ | _ | events | _
  case array =>
    by_cases none : events.isEmpty = true
    · simp only [none, if_true]
      exact Refusal.badRequest _
    · by_cases exceeds : events.length > maxBatchEvents
      · simp only [none, exceeds, if_true]
        exact Refusal.badRequest _
      · simp only [none, exceeds]
        refine handled_ofExec fun judged _ => ?_
        obtain ⟨accepted, errors⟩ := judged
        cases errors with
        | cons item items => exact Refusal.validation (List.cons_ne_nil _ _)
        | nil => exact ⟨.clock, fun now => handled_of_recorded (wp_publishEach now accepted)⟩
  all_goals exact Refusal.badRequest _

theorem wp_createSheep (state : AppState) (headers : HeaderMap) (body : Bytes) :
    (conduct crates).wp Handled (createSheep crates state headers body).run .fresh := by
  unfold createSheep
  split
  · exact wp_ingestSingle body
  · split
    · exact wp_ingestBatch body state.maxBatchEvents
    · exact Refusal.unsupportedMediaType _

/-- How a routed request fits the moment it ends at. -/
def Routed : Moment → Exec Response → Prop
  | moment, .ok response => Concludes moment response
  | moment, .error _ => moment = .fresh

theorem concludes_of_refusal {e : AppError} (refusal : Refusal e) : Concludes .fresh e.rendered := by
  cases refusal with
  | badRequest message => exact show (400 : Nat) ∈ _ by decide
  | validation some_item => exact show (400 : Nat) ∈ _ by decide
  | unsupportedMediaType message => exact show (415 : Nat) ∈ _ by decide

theorem wp_respond {moment : Moment} {result : Except Halt StatusCode} (handled : Handled moment result) :
    (conduct crates).wp Routed (respond result) moment := by
  rcases moment with _ | now | _ | e | _ | _ | _ | _
  case fresh =>
    rcases result with (e | p) | status
    · have refusal : Refusal e := handled
      have concludes := concludes_of_refusal refusal
      cases refusal <;> exact concludes
    · exact rfl
    · exact handled.elim
  case publishing =>
    rcases result with (e | p) | status
    · exact handled.elim
    · exact handled.elim
    · cases handled
      exact rfl
  case refused =>
    rcases result with (error | p) | status
    · cases handled
      cases e with
      | queueFull => exact rfl
      | backend detail => exact ⟨.reportFault detail, fun _ => ⟨.logFault _, fun _ => rfl⟩⟩
    · exact handled.elim
    · exact handled.elim
  all_goals exact handled.elim

theorem wp_buildAxumRouter (state : AppState) (request : Request) :
    (conduct crates).wp Routed (buildAxumRouter crates state request) .fresh := by
  have methodNotAllowed : (conduct crates).wp Routed (respond (.error (.error .methodNotAllowed))) .fresh :=
    show (405 : Nat) ∈ _ by decide
  unfold buildAxumRouter
  split
  · cases request.method with
    | get => exact show (200 : Nat) ∈ _ by decide
    | head => exact show (200 : Nat) ∈ _ by decide
    | post | other => exact methodNotAllowed
  · split
    · cases request.method with
      | post =>
          change (conduct crates).wp Routed (sheepsRoute crates state request) .fresh
          unfold sheepsRoute
          cases bufferBody request.body with
          | error rejection =>
              cases rejection with
              | lengthLimit => exact show (413 : Nat) ∈ _ by decide
              | unknownBody error => exact show (400 : Nat) ∈ _ by decide
          | ok body =>
              exact Protocol.wp_bind.mpr (Protocol.wp_mono (fun _ _ handled => wp_respond handled)
                (wp_createSheep state request.headers body))
      | get | head | other => exact methodNotAllowed
    · exact show (404 : Nat) ∈ _ by decide

/-- **Every request keeps to the conduct**, and is answered as its last moment says. -/
theorem wp_serve (state : AppState) (request : Request) :
    (conduct crates).wp Concludes (serve crates state request) .fresh := by
  refine Protocol.wp_bind.mpr (Protocol.wp_mono ?_ (wp_buildAxumRouter state request))
  rintro moment (panic | response) routed
  · cases routed
    exact ⟨.logPanic panic.message, fun _ => ⟨.reportPanic panic.message, fun _ => rfl⟩⟩
  · exact routed

/-! ## The lines of a request, and what it has in the queue -/

abbrev LoggedEvent := Event LoggedEffect LoggedEffect.Answer

/-- The lines of a trace at one level. -/
def linesAt (level : Level) (trace : List LoggedEvent) : List Line :=
  (notes trace).filter fun line => line.level = level

@[simp] theorem linesAt_append (level : Level) (first later : List LoggedEvent) :
    linesAt level (first ++ later) = linesAt level first ++ linesAt level later := by
  rw [linesAt, Theory.Noted.notes_append, List.filter_append]
  rfl

@[simp] theorem linesAt_act (level : Level) (effect : Effect) (answer : effect.Answer) :
    linesAt level [⟨.act effect, answer⟩] = [] := rfl

/-- What the INFO lines so far say of the messages accepted so far. -/
def Balance (crates : Crates) (lines : List Line) (accepted : List ProducedMessage) : Moment → Prop
  | .announced _ line => ∃ settled event, lines = settled ++ [line] ∧ line = .sheepAccepted event ∧
      List.Forall₂ (Announces crates) settled accepted
  | .refused _ | .reported _ | .failed _ =>
      ∃ message, List.Forall₂ (Announces crates) lines (accepted ++ [message])
  | .publishing _ => List.Forall₂ (Announces crates) lines accepted
  | .fresh | .unwinding _ | .caught => lines = [] ∧ accepted = []

/-- An event that neither announces nor publishes changes no balance. -/
theorem Balance.quiet {lines : List Line} {accepted : List ProducedMessage} {moment : Moment}
    {event : LoggedEvent} (held : Balance crates lines accepted moment)
    (unwritten : linesAt .info [event] = []) (unpublished : enqueued (acts [event]) = []) :
    Balance crates (lines ++ linesAt .info [event]) (accepted ++ enqueued (acts [event])) moment := by
  rw [unwritten, unpublished, List.append_nil, List.append_nil]
  exact held

theorem balance_follows {moment : Moment} {trace : List LoggedEvent}
    (follows : (conduct crates).Follows .fresh trace)
    (reached : (conduct crates).after .fresh trace = moment) :
    Balance crates (linesAt .info trace) (enqueued (acts trace)) moment := by
  rw [← reached]
  refine Protocol.Follows.invariant
    (fun moment trace => Balance crates (linesAt .info trace) (enqueued (acts trace)) moment)
    ⟨rfl, rfl⟩ ?_ follows
  intro moment trace effect answer held allowed
  rw [linesAt_append, Theory.Noted.acts_append, enqueued_append]
  change Allowed crates moment effect at allowed
  cases allowed with
  | clock =>
      obtain ⟨lines, accepted⟩ := held
      rw [lines, accepted]
      exact .nil
  | logPanic | reportFault | logFault | reportPanic => exact held.quiet rfl rfl
  | announce event stamped =>
      refine ⟨_, event, rfl, rfl, ?_⟩
      rw [show enqueued (acts [(⟨.note (.sheepAccepted event), answer⟩ : LoggedEvent)]) = [] from rfl,
        List.append_nil]
      exact held
  | produce announces =>
      obtain ⟨settled, event, lines, -, paired⟩ := held
      rw [lines, linesAt_act, List.append_nil]
      rcases answer with e | ⟨⟩
      · refine ⟨_, List.rel_append ?_ (.cons announces .nil)⟩
        rw [show enqueued (acts [(⟨.act (.produce _), .error e⟩ : LoggedEvent)]) = [] from rfl,
          List.append_nil]
        exact paired
      · exact List.rel_append paired (.cons announces .nil)

/-- The line of a fault, which shows the error's outermost message or the panic's, and its
report, which has the whole chain of causes or the same message. -/
inductive Records : Line → ExceptionReport → Prop where
  | internal (error : AnyhowError) :
      Records ⟨.error, "internal server error", [("error", .text error.message)]⟩
        ⟨"AppError::Internal", ": ".intercalate (error.message :: error.causes), true⟩
  | panic (message : String) :
      Records ⟨.error, "Service panicked: " ++ message, []⟩ ⟨"panic", message, false⟩

/-- The ERROR lines and the reports of a request so far. -/
def Faults (lines : List Line) (reports : List ExceptionReport) : Moment → Prop
  | .reported error => lines = [] ∧ reports = [internalReport error]
  | .unwinding line => ∃ message, line = .servicePanicked message ∧ lines = [line] ∧ reports = []
  | .failed error => lines = [.internalServerError error] ∧ reports = [internalReport error]
  | .caught => ∃ message, lines = [.servicePanicked message] ∧ reports = [panicReport message]
  | .fresh | .publishing _ | .announced _ _ | .refused _ => lines = [] ∧ reports = []

theorem faults_follows {moment : Moment} {trace : List LoggedEvent}
    (follows : (conduct crates).Follows .fresh trace)
    (reached : (conduct crates).after .fresh trace = moment) :
    Faults (linesAt .error trace) (reportsOf (acts trace)) moment := by
  rw [← reached]
  refine Protocol.Follows.invariant
    (fun moment trace => Faults (linesAt .error trace) (reportsOf (acts trace)) moment)
    ⟨rfl, rfl⟩ ?_ follows
  intro moment trace effect answer held allowed
  rw [linesAt_append, Theory.Noted.acts_append, reportsOf, List.filterMap_append, ← reportsOf]
  change Allowed crates moment effect at allowed
  cases allowed with
  | clock | announce =>
      obtain ⟨lines, reports⟩ := held
      rw [lines, reports]
      exact ⟨rfl, rfl⟩
  | produce =>
      obtain ⟨lines, reports⟩ := held
      rw [lines, reports]
      rcases answer with e | ⟨⟩
      · exact ⟨rfl, rfl⟩
      · exact ⟨rfl, rfl⟩
  | reportFault | logFault =>
      obtain ⟨lines, reports⟩ := held
      rw [lines, reports]
      exact ⟨rfl, rfl⟩
  | logPanic message =>
      obtain ⟨lines, reports⟩ := held
      rw [lines, reports]
      exact ⟨message, rfl, rfl, rfl⟩
  | reportPanic message =>
      obtain ⟨message', same, lines, reports⟩ := held
      rw [lines, reports]
      exact ⟨message, rfl, rfl⟩

end

/-! ## In every run -/

section Run

variable {ι σ : Type} [DecidableEq ι] {crates : Crates} {state : AppState} {requests : ι → Request}
  {history : History ι LoggedEffect LoggedEffect.Answer}

/-- What a request has done so far in a run, and how it ends if it has. -/
theorem conducted {W : World ι σ Effect Effect.Answer} {start : σ}
    {c : System ι σ LoggedEffect LoggedEffect.Answer Response}
    (run : Run (W.noted Line) (loggedRequests crates state start requests) history c) (i : ι) :
    ∃ moment, Balance crates (linesAt .info (History.of i history))
        (enqueued (acts (History.of i history))) moment ∧
      Faults (linesAt .error (History.of i history)) (reportsOf (acts (History.of i history))) moment ∧
      ∀ response, c.threads i = .pure response → Concludes moment response := by
  obtain ⟨follows, rest⟩ := Protocol.run_follows (i := i) (wp_serve state (requests i)) run
  refine ⟨_, balance_follows follows rfl, faults_follows follows rfl, ?_⟩
  intro response ended
  rw [ended] at rest
  exact rest

theorem status_publishError (e : ProduceError) :
    (publishError e).rendered.status = 503 ∨ (publishError e).rendered.status = 500 := by
  cases e with
  | queueFull => exact .inl rfl
  | backend detail => exact .inr rfl

theorem servicePanicked_ne (e : ProduceError) : servicePanicked ≠ (publishError e).rendered := by
  intro same
  have status := congrArg Response.body same
  cases e <;> cases status

/-- A list cannot be paired both with one list and with a longer one. -/
theorem not_one_more {lines : List Line} {accepted : List ProducedMessage}
    (paired : List.Forall₂ (Announces crates) lines accepted) :
    ¬ ∃ message, List.Forall₂ (Announces crates) lines (accepted ++ [message]) := by
  rintro ⟨message, more⟩
  have length := paired.length_eq
  have longer := more.length_eq
  rw [List.length_append, List.length_singleton] at longer
  omega

/-- The lines of a request announce what is accepted of it, or one message more. -/
theorem Balance.announces {lines : List Line} {accepted : List ProducedMessage} {moment : Moment}
    (balance : Balance crates lines accepted moment) :
    List.Forall₂ (Announces crates) lines accepted ∨
      ∃ message, List.Forall₂ (Announces crates) lines (accepted ++ [message]) := by
  cases moment with
  | announced now line =>
      obtain ⟨settled, event, split, announced, paired⟩ := balance
      rw [split]
      exact .inr ⟨_, List.rel_append paired (.cons ⟨event, announced, rfl⟩ .nil)⟩
  | refused | reported | failed => exact .inr balance
  | publishing => exact .inl balance
  | fresh | unwinding | caught =>
      obtain ⟨none, empty⟩ := balance
      rw [none, empty]
      exact .inl .nil

/-- At the end, what a response says of the lines. -/
theorem Balance.concluded {lines : List Line} {accepted : List ProducedMessage} {moment : Moment}
    {response : Response} (balance : Balance crates lines accepted moment)
    (answered : Concludes moment response) :
    ((∃ message, List.Forall₂ (Announces crates) lines (accepted ++ [message])) ↔
      ∃ e, response = (publishError e).rendered) ∧
    (response.status ≠ 202 → (∀ e, response ≠ (publishError e).rendered) → lines = []) := by
  -- A moment without a failed call is answered otherwise, and has a line for every message.
  have settled (paired : List.Forall₂ (Announces crates) lines accepted)
      (other : ∀ e, response ≠ (publishError e).rendered) :
      (∃ message, List.Forall₂ (Announces crates) lines (accepted ++ [message])) ↔
        ∃ e, response = (publishError e).rendered :=
    iff_of_false (not_one_more paired) (not_exists.mpr other)
  have status_ne {e : ProduceError} (status : response.status ≠ 503 ∧ response.status ≠ 500) :
      response ≠ (publishError e).rendered := by
    rintro rfl
    rcases status_publishError e with unavailable | internal
    · exact status.1 unavailable
    · exact status.2 internal
  cases moment with
  | fresh =>
      obtain ⟨none, empty⟩ := balance
      have early : response.status ∈ [200, 400, 404, 405, 413, 415] := answered
      refine ⟨settled (by rw [none, empty]; exact .nil) fun e => status_ne ?_, fun _ _ => none⟩
      simp only [List.mem_cons, List.not_mem_nil, or_false] at early
      omega
  | publishing now =>
      cases answered
      exact ⟨settled balance fun e => status_ne ⟨show (202 : Nat) ≠ 503 by decide,
        show (202 : Nat) ≠ 500 by decide⟩, fun other => absurd rfl other⟩
  | refused e =>
      cases e with
      | backend detail => exact answered.elim
      | queueFull =>
          refine ⟨iff_of_true balance ⟨.queueFull, answered⟩, ?_⟩
          intro _ other
          exact absurd answered (other .queueFull)
  | failed error =>
      refine ⟨iff_of_true balance ⟨.backend "", answered⟩, ?_⟩
      intro _ other
      exact absurd answered (other (.backend ""))
  | caught =>
      obtain ⟨none, empty⟩ := balance
      cases answered
      exact ⟨settled (by rw [none, empty]; exact .nil) servicePanicked_ne, fun _ _ => none⟩
  | announced | reported | unwinding => exact answered.elim

/-- **The log reconciles with the queue.** In every run, the INFO lines of a request announce what
it has in the queue, or that and one event more. When it has ended, one more exactly if it was
answered with a publishing failure, and nothing if it was answered neither so nor 202. -/
theorem log_reconciles (crates : Crates) (state : AppState) (queue : Queue σ) (start : σ)
    (requests : ι → Request) (history : History ι LoggedEffect LoggedEffect.Answer)
    (c : System ι (Shared ι σ) LoggedEffect LoggedEffect.Answer Response)
    (run : Run ((queue.world ι).noted Line) (loggedRequests crates state ⟨start, []⟩ requests) history c)
    (i : ι) :
    let lines := linesAt .info (History.of i history)
    let inQueue := logOf i c.shared.log
    (List.Forall₂ (Announces crates) lines inQueue ∨
      ∃ message, List.Forall₂ (Announces crates) lines (inQueue ++ [message])) ∧
    ∀ response, c.threads i = .pure response →
      ((∃ message, List.Forall₂ (Announces crates) lines (inQueue ++ [message])) ↔
        ∃ e, response = (publishError e).rendered) ∧
      (response.status ≠ 202 → (∀ e, response ≠ (publishError e).rendered) → lines = []) := by
  intro lines inQueue
  have stored : inQueue = enqueued (acts (History.of i history)) := by
    have log := logOf_run (Theory.run_erase run) rfl i
    rw [Theory.History.of_acts] at log
    exact log
  obtain ⟨moment, balance, -, concludes⟩ := conducted run i
  rw [← stored] at balance
  exact ⟨balance.announces, fun response ended => balance.concluded (concludes response ended)⟩

/-- With no room in the queue, the line of a request announces an event that never gets there. -/
theorem log_reconciles_no_slot :
    ∃ (history : History Unit LoggedEffect LoggedEffect.Answer)
      (c : System Unit (Shared Unit Nat) LoggedEffect LoggedEffect.Answer Response),
      Run (((boundedQueue 0).world Unit).noted Line) (loggedRequests reference ⟨100⟩ ⟨0, []⟩ fun _ =>
          sheepsRequest (singleRequest sampleEvent).1 (.whole (singleRequest sampleEvent).2)) history c ∧
        ∃ message, List.Forall₂ (Announces reference) (linesAt .info (History.of () history))
          (logOf () c.shared.log ++ [message]) := by
  have within : (singleRequest sampleEvent).2.length ≤ defaultBodyLimit := by decide
  have full := @Ends.failed reference ⟨100⟩ _ _ _ (bufferBody_whole within) [] [] sampleSheep (plan_sample ⟨100⟩) .epoch
    .queueFull
  have answers : ((boundedQueue 0).world Unit).Answers () ⟨0, []⟩
      [⟨.now, .epoch⟩, produced reference .epoch sampleSheep (.error .queueFull)] ⟨0, []⟩ :=
    .cons rfl (.cons ⟨⟨Nat.lt_irrefl 0, rfl, rfl⟩, rfl⟩ (.nil _))
  obtain ⟨history, c, run, ended⟩ := exists_logged_run reference ⟨100⟩
    (fun _ : Unit => sheepsRequest (singleRequest sampleEvent).1 (.whole (singleRequest sampleEvent).2))
    (serve_returns_iff.mpr (.answered full)) answers
  exact ⟨history, c, run,
    ((log_reconciles reference ⟨100⟩ (boundedQueue 0) 0 _ history c run ()).2 _ ended).1.mpr
      ⟨.queueFull, rfl⟩⟩

/-- The lines record the reports, or one of the two is a step ahead. -/
theorem Faults.recorded {lines : List Line} {reports : List ExceptionReport} {moment : Moment}
    (faults : Faults lines reports moment) :
    List.Forall₂ Records lines reports ∨ (∃ line, lines = [line] ∧ reports = []) ∨
      ∃ report, lines = [] ∧ reports = [report] := by
  cases moment with
  | reported error => exact .inr (.inr ⟨_, faults⟩)
  | unwinding line =>
      obtain ⟨message, -, line, none⟩ := faults
      exact .inr (.inl ⟨_, line, none⟩)
  | failed error =>
      obtain ⟨line, report⟩ := faults
      rw [line, report]
      exact .inl (.cons (.internal error) .nil)
  | caught =>
      obtain ⟨message, line, report⟩ := faults
      rw [line, report]
      exact .inl (.cons (.panic message) .nil)
  | fresh | publishing | announced | refused =>
      obtain ⟨none, quiet⟩ := faults
      rw [none, quiet]
      exact .inl .nil

/-- At the end, what a status says of the lines and the reports. -/
theorem Faults.concluded {lines : List Line} {reports : List ExceptionReport} {moment : Moment}
    {response : Response} (faults : Faults lines reports moment) (answered : Concludes moment response) :
    (response.status ≠ 500 ∧ lines = [] ∧ reports = []) ∨
    (response.status = 500 ∧ ∃ line report, lines = [line] ∧ reports = [report] ∧
      Records line report) := by
  cases moment with
  | fresh =>
      have early : response.status ∈ [200, 400, 404, 405, 413, 415] := answered
      refine .inl ⟨?_, faults⟩
      simp only [List.mem_cons, List.not_mem_nil, or_false] at early
      omega
  | publishing now =>
      cases answered
      exact .inl ⟨show (202 : Nat) ≠ 500 by decide, faults⟩
  | refused e =>
      cases e with
      | backend detail => exact answered.elim
      | queueFull =>
          cases answered
          exact .inl ⟨show (503 : Nat) ≠ 500 by decide, faults⟩
  | failed error =>
      cases answered
      exact .inr ⟨rfl, _, _, faults.1, faults.2, .internal error⟩
  | caught =>
      obtain ⟨message, line, report⟩ := faults
      cases answered
      exact .inr ⟨rfl, _, _, line, report, .panic message⟩
  | announced | reported | unwinding => exact answered.elim

end Run

end CountingSheep.Http.Logged
