/-
# CountingSheep.Http.Logged — a request with the lines it logs

The request path once more, now with its `tracing` calls in the places where the
source has them: `recordAccepted` logs before it enqueues, `intoResponse` reports
and then logs, `handlePanic` logs and then reports.

* `erase_serve`: without the lines it is `serve`, as a program. So everything the
  other modules say of `serve` is said of this one.
* `logging_is_transparent`: beside any other requests and over any queue, the runs
  of the logged service without their lines are the runs of the plain one.
-/
import CountingSheep.Http.Router
import CountingSheep.Ingest.Queue
import CountingSheep.Observability.Logging
import CountingSheep.Theory.Annotated

namespace CountingSheep.Http.Logged

open Rust Ingest Observability
open Theory (Prog Event Noted World System History Run)
open Theory.Noted (erase eraseE erase_bind eraseE_bind eraseE_run)
open Theory.Json (Value)

set_option autoImplicit false

/-- The effects of a request, and its lines. -/
abbrev LoggedEffect := Noted Effect Line

abbrev LoggedEffect.Answer : LoggedEffect → Type := Noted.Answer Line Effect.Answer

abbrev Written := Prog LoggedEffect LoggedEffect.Answer

abbrev LoggedHandler := ExceptT Halt Written

/-- A `tracing` macro. -/
def log (line : Line) : LoggedHandler PUnit := ExceptT.lift (.op (.note line) .pure)

def perform (effect : Effect) : LoggedHandler effect.Answer :=
  ExceptT.lift (.op (.act effect) .pure)

/-- The `?` operator. -/
def follow {α : Type} (result : Except Halt α) : LoggedHandler α := ExceptT.mk (.pure result)

/-- Continue with a computation's value, or unwind with its panic. -/
def ofExec {α : Type} : Exec α → LoggedHandler α
  | .ok a => pure a
  | .error p => throw (.panic p)

section

variable (crates : Crates)

/-! ## The code -/

/-- The seam: log an accepted sheep, then publish it. -/
def recordAccepted (accepted : AcceptedSheep) : LoggedHandler Unit := do
  let _ ← log (.sheepAccepted accepted)
  match ← perform (.produce (serializeFlattened crates accepted)) with
  | .ok () => pure ()
  | .error e => throw (.error (publishError e))

/-- Validate and accept one event. -/
def ingestSingle (body : Bytes) : LoggedHandler StatusCode := do
  let value ← follow (parseJson crates body)
  let sheep ← match ← ofExec (validate crates value) with
    | .ok sheep => pure sheep
    | .error details => throw (.error (.ofDetails details))
  let now ← perform .now
  let accepted := stamp sheep now
  recordAccepted crates accepted
  return 202

/-- The publishing loop. -/
def publishEach (now : OffsetDateTime) : List Sheep → LoggedHandler Unit
  | [] => pure ()
  | sheep :: rest => do
      recordAccepted crates (stamp sheep now)
      publishEach now rest

/-- Validate and accept a batch array. -/
def ingestBatch (body : Bytes) (maxBatchEvents : Nat) : LoggedHandler StatusCode := do
  let .array events ← follow (parseJson crates body)
    | throw (.error (.badRequest "batch body must be a JSON array"))
  if events.isEmpty then
    throw (.error (.badRequest "batch must contain at least one event"))
  if events.length > maxBatchEvents then
    throw (.error (.badRequest ("batch has " ++ toString events.length ++
      " events, but the maximum is " ++ toString maxBatchEvents)))
  let (accepted, errors) ← ofExec (validateEach crates 0 events [] [])
  if !errors.isEmpty then
    throw (.error (.validation errors))
  let now ← perform .now
  publishEach crates now accepted
  return 202

/-- Accept usage events, single or batch. -/
def createSheep (state : AppState) (headers : HeaderMap) (body : Bytes) : LoggedHandler StatusCode :=
  if eqIgnoreAsciiCase (mediaType headers) cloudeventsJson.toList then
    ingestSingle crates body
  else if eqIgnoreAsciiCase (mediaType headers) cloudeventsBatchJson.toList then
    ingestBatch crates body state.maxBatchEvents
  else
    throw (.error (.unsupportedMediaType
      ("Content-Type must be " ++ cloudeventsJson ++ " or " ++ cloudeventsBatchJson)))

/-- The `match self` of `into_response`: an internal error is logged as it is rendered. -/
def render (error : AppError) : Written Response :=
  match error with
  | .internal cause => .op (.note (.internalServerError cause)) fun _ => .pure error.rendered
  | .badRequest _ | .validation _ | .unsupportedMediaType _ | .serviceUnavailable _ | .notFound
  | .methodNotAllowed => .pure error.rendered

/-- Report a server-side fault, then render. -/
def intoResponse (error : AppError) : Written Response :=
  match error.exceptionReport with
  | some report => .op (.act (.report report)) fun _ => render error
  | none => render error

def respond : Except Halt StatusCode → Written (Exec Response)
  | .ok status => .pure (.ok ⟨status, [], .empty⟩)
  | .error (.error e) => (intoResponse e).bind fun response => .pure (.ok response)
  | .error (.panic p) => .pure (.error p)

def sheepsRoute (state : AppState) (request : Request) : Written (Exec Response) :=
  match bufferBody request.body with
  | .error rejection => .pure (.ok (rejection.response crates))
  | .ok body => (createSheep crates state request.headers body).run.bind respond

def buildAxumRouter (state : AppState) (request : Request) : Written (Exec Response) :=
  if request.path = "/health" then
    match request.method with
    | .get => .pure (.ok health)
    | .head => .pure (.ok { health with body := .empty })
    | _ => respond (.error (.error .methodNotAllowed))
  else if request.path = "/api/v1/sheeps" then
    match request.method with
    | .post => sheepsRoute crates state request
    | _ => respond (.error (.error .methodNotAllowed))
  else respond (.error (.error .notFound))

/-- Log a caught panic, report it, then answer for it. -/
def handlePanic (panic : Panic) : Written Response :=
  .op (.note (.servicePanicked panic.message)) fun _ =>
    .op (.act (.report (panicReport panic.message))) fun _ => .pure servicePanicked

def applyAxumMiddleware (router : Written (Exec Response)) : Written Response :=
  router.bind fun
    | .ok response => .pure response
    | .error panic => handlePanic panic

/-- The application's handler for one request. -/
def serve (state : AppState) (request : Request) : Written Response :=
  applyAxumMiddleware (buildAxumRouter crates state request)

/-! ## Without its lines -/

theorem eraseE_then {α β : Type} {p : LoggedHandler α} {q : Handler α} {f : α → LoggedHandler β}
    {g : α → Handler β} (first : eraseE p = q) (later : ∀ a, eraseE (f a) = g a) :
    eraseE (p >>= f) = q >>= g := by
  rw [eraseE_bind, first]
  exact congrArg _ (funext later)

theorem erase_log (line : Line) : eraseE (log line) = pure ⟨⟩ := by
  apply ExceptT.ext
  change erase (.op (.note line) _) = _
  rw [Theory.Noted.erase_note]
  exact Theory.Noted.erase_pure _

theorem erase_perform (effect : Effect) : eraseE (perform effect) = Handler.perform effect := by
  apply ExceptT.ext
  change erase (.op (.act effect) _) = _
  rw [Theory.Noted.erase_act]
  rfl

theorem erase_follow {α : Type} (result : Except Halt α) :
    eraseE (follow result) = Ingest.follow result :=
  ExceptT.ext (Theory.Noted.erase_pure (L := Line) result)

theorem erase_ofExec {α : Type} (exec : Exec α) : eraseE (ofExec exec) = Handler.ofExec exec := by
  cases exec with
  | ok a => exact Theory.Noted.eraseE_pure a
  | error p => exact Theory.Noted.eraseE_throw _

theorem erase_recordAccepted (accepted : AcceptedSheep) :
    eraseE (recordAccepted crates accepted) = Ingest.recordAccepted crates accepted := by
  unfold recordAccepted
  rw [eraseE_bind, erase_log, pure_bind]
  refine eraseE_then (erase_perform _) ?_
  rintro (e | ⟨⟩)
  · exact Theory.Noted.eraseE_throw _
  · exact Theory.Noted.eraseE_pure _

theorem erase_publishEach (now : OffsetDateTime) (sheeps : List Sheep) :
    eraseE (publishEach crates now sheeps) = Ingest.publishEach crates now sheeps := by
  induction sheeps with
  | nil => exact Theory.Noted.eraseE_pure _
  | cons sheep rest ih => exact eraseE_then (erase_recordAccepted crates _) fun _ => ih

theorem erase_ingestSingle (body : Bytes) :
    eraseE (ingestSingle crates body) = Ingest.ingestSingle crates body := by
  unfold ingestSingle Ingest.ingestSingle
  refine eraseE_then (erase_follow _) fun value => ?_
  refine eraseE_then (erase_ofExec _) fun verdict => ?_
  have publishes (sheep : Sheep) : eraseE (perform .now >>= fun now =>
      recordAccepted crates (stamp sheep now) >>= fun _ => pure 202) =
      nowUtc >>= fun now => Ingest.recordAccepted crates (stamp sheep now) >>= fun _ => pure 202 :=
    eraseE_then (erase_perform _) fun now =>
      eraseE_then (erase_recordAccepted crates _) fun _ => Theory.Noted.eraseE_pure _
  cases verdict with
  | error details => exact eraseE_then (Theory.Noted.eraseE_throw _) publishes
  | ok sheep => exact eraseE_then (Theory.Noted.eraseE_pure _) publishes

theorem erase_ingestBatch (body : Bytes) (maxBatchEvents : Nat) :
    eraseE (ingestBatch crates body maxBatchEvents) = Ingest.ingestBatch crates body maxBatchEvents := by
  unfold ingestBatch Ingest.ingestBatch
  refine eraseE_then (erase_follow _) fun value => ?_
  rcases value with _ | _ | _ | _ | events | _
  case array =>
    by_cases none : events.isEmpty = true
    · simp only [none, if_true]
      exact Theory.Noted.eraseE_throw _
    · by_cases exceeds : events.length > maxBatchEvents
      · simp only [none, exceeds, if_true]
        exact Theory.Noted.eraseE_throw _
      · simp only [none, exceeds]
        refine eraseE_then (erase_ofExec _) fun judged => ?_
        obtain ⟨accepted, errors⟩ := judged
        cases errors with
        | cons item items => exact Theory.Noted.eraseE_throw _
        | nil =>
            refine eraseE_then (erase_perform _) fun now => ?_
            exact eraseE_then (erase_publishEach crates now accepted) fun _ => Theory.Noted.eraseE_pure _
  all_goals exact Theory.Noted.eraseE_throw _

theorem erase_createSheep (state : AppState) (headers : HeaderMap) (body : Bytes) :
    eraseE (createSheep crates state headers body) = Ingest.createSheep crates state headers body := by
  unfold createSheep Ingest.createSheep
  split
  · exact erase_ingestSingle crates body
  · split
    · exact erase_ingestBatch crates body state.maxBatchEvents
    · exact Theory.Noted.eraseE_throw _

theorem erase_intoResponse (error : AppError) : erase (intoResponse error) = error.intoResponse := by
  cases error with
  | internal cause =>
      change erase (.op (.act (.report (internalReport cause))) fun _ => render (.internal cause)) = _
      rw [Theory.Noted.erase_act]
      simp only [render, Theory.Noted.erase_note, Theory.Noted.erase_pure]
      rfl
  | badRequest | validation | unsupportedMediaType | serviceUnavailable | notFound
  | methodNotAllowed => exact Theory.Noted.erase_pure _

theorem erase_respond (result : Except Halt StatusCode) :
    erase (respond result) = Http.respond result := by
  rcases result with (e | p) | status
  · simp only [respond, Http.respond, erase_bind, erase_intoResponse, Theory.Noted.erase_pure]
  · exact Theory.Noted.erase_pure _
  · exact Theory.Noted.erase_pure _

theorem erase_sheepsRoute (state : AppState) (request : Request) :
    erase (sheepsRoute crates state request) = Http.sheepsRoute crates state request := by
  unfold sheepsRoute Http.sheepsRoute
  cases bufferBody request.body with
  | error rejection => exact Theory.Noted.erase_pure _
  | ok body =>
      simp only [erase_bind, ← eraseE_run, erase_createSheep, erase_respond]

theorem erase_buildAxumRouter (state : AppState) (request : Request) :
    erase (buildAxumRouter crates state request) = Http.buildAxumRouter crates state request := by
  unfold buildAxumRouter Http.buildAxumRouter
  split
  · cases request.method with
    | get | head => exact Theory.Noted.erase_pure _
    | post | other => exact erase_respond _
  · split
    · cases request.method with
      | post => exact erase_sheepsRoute crates state request
      | get | head | other => exact erase_respond _
    · exact erase_respond _

/-- **Without its lines, the logged service is the plain one**, as a program. -/
theorem erase_serve (state : AppState) (request : Request) :
    erase (serve crates state request) = Http.serve crates state request := by
  unfold serve Http.serve applyAxumMiddleware Http.applyAxumMiddleware
  rw [erase_bind, erase_buildAxumRouter]
  congr 1
  funext out
  cases out with
  | error panic => simp only [handlePanic, Theory.Noted.erase_note, Theory.Noted.erase_act,
      Theory.Noted.erase_pure, Http.handlePanic]
  | ok response => exact Theory.Noted.erase_pure _

end

/-! ## Beside other requests -/

section Run

variable {ι σ : Type} [DecidableEq ι] (crates : Crates) (state : AppState)

/-- Logged requests before their first step. -/
def loggedRequests (start : σ) (requests : ι → Request) :
    System ι σ LoggedEffect LoggedEffect.Answer Response :=
  ⟨start, fun i => serve crates state (requests i)⟩

/-- The same requests, nothing logged. -/
def plainRequests (start : σ) (requests : ι → Request) : System ι σ Effect Effect.Answer Response :=
  ⟨start, fun i => Http.serve crates state (requests i)⟩

omit [DecidableEq ι] in
theorem erase_loggedRequests (start : σ) (requests : ι → Request) :
    (loggedRequests crates state start requests).erase = plainRequests crates state start requests := by
  unfold loggedRequests plainRequests System.erase
  simp only [erase_serve]

/-- A request that may be answered so is, alone, in a world that answers its effects. -/
theorem exists_logged_run {W : World ι σ Effect Effect.Answer} {start s : σ}
    (requests : ι → Request) {i : ι} {trace : List (Event Effect Effect.Answer)} {response : Response}
    (returned : Prog.Returns (Http.serve crates state (requests i)) trace response)
    (answers : W.Answers i start trace s) :
    ∃ history c, Run (W.noted Line) (loggedRequests crates state start requests) history c ∧
      c.threads i = .pure response := by
  rw [← erase_serve] at returned
  obtain ⟨events, rfl, noted⟩ := Theory.Noted.erase_returns_iff.mp returned
  have run := Run.alone (c := loggedRequests crates state start requests) noted
    (Theory.answers_noted answers)
  exact ⟨_, _, run, Function.update_self ..⟩

/-- **Logging is transparent.** Whatever answers the requests, the runs of the logged service
without their lines are exactly the runs of the plain one: the same effects in the same order, the
same shared state, and the same responses. -/
theorem logging_is_transparent (W : World ι σ Effect Effect.Answer) (start : σ)
    (requests : ι → Request) :
    (∀ history c, Run (W.noted Line) (loggedRequests crates state start requests) history c →
      Run W (plainRequests crates state start requests) (History.acts history) c.erase) ∧
    ∀ plain d, Run W (plainRequests crates state start requests) plain d →
      ∃ history c, Run (W.noted Line) (loggedRequests crates state start requests) history c ∧
        History.acts history = plain ∧ c.erase = d := by
  rw [← erase_loggedRequests]
  exact ⟨fun _ _ run => Theory.run_erase run, fun _ _ run => Theory.exists_run_of_erase run⟩

end Run

end CountingSheep.Http.Logged
