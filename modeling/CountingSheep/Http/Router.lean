/-
# CountingSheep.Http.Router — routing, middleware, and every way a request can end

`buildAxumRouter` is the router with its extractors and fallbacks, ending in a
response or a panic; `applyAxumMiddleware` catches the panic. A body arrives whole or
breaks off (`Incoming`), and the extractor buffers it or rejects the request itself
(`bufferBody`). The timeout,
tracing and compression layers act on the connection and are not here: the
handler has no await point after its extractors, so no timeout falls inside it
(`Http.Connection` has the timeout).

`Ends` lists the five ways a `POST /api/v1/sheeps` can go, with all its effects
and its response; `serve_returns_iff` says these are all its traces. Results
about requests are case analyses on `Ends`.
-/
import CountingSheep.Ingest.Handler

namespace CountingSheep.Http

open Rust Ingest Observability
open Theory (Prog Event)
open Theory.Json (Value)

set_option autoImplicit false

inductive Method where
  | get
  | head
  | post
  | other (name : String)
  deriving DecidableEq

/-- What the connection delivers of a body: all of it, or what arrived before it broke off
with an error. -/
inductive Incoming where
  | whole (body : Bytes)
  | broken (arrived : Bytes) (error : String)

def Incoming.arrived : Incoming → Bytes
  | .whole body => body
  | .broken arrived _ => arrived

structure Request where
  method : Method
  path : String
  headers : HeaderMap
  body : Incoming

def textResponse (status : StatusCode) (s : String) : Response where
  status := status
  headers := [("content-type", "text/plain; charset=utf-8")]
  body := .text s

/-! ## The body -/

/-- The default limit of the `Bytes` extractor, unless a layer changes it. -/
def defaultBodyLimit : Nat := 2097152

/-- Why the `Bytes` extractor refuses a request. -/
inductive Rejection where
  | lengthLimit
  | unknownBody (error : String)

/-- The `Bytes` extractor: a byte over the limit ends it, whatever would follow. -/
def bufferBody (incoming : Incoming) : Except Rejection Bytes :=
  if incoming.arrived.length > defaultBodyLimit then .error .lengthLimit
  else
    match incoming with
    | .whole body => .ok body
    | .broken _ error => .error (.unknownBody error)

theorem bufferBody_exceeding {incoming : Incoming} (exceeds : incoming.arrived.length > defaultBodyLimit) :
    bufferBody incoming = .error .lengthLimit := if_pos exceeds

theorem bufferBody_whole {body : Bytes} (within : body.length ≤ defaultBodyLimit) :
    bufferBody (.whole body) = .ok body := if_neg (Nat.not_lt.mpr within)

theorem bufferBody_broken {arrived : Bytes} (within : arrived.length ≤ defaultBodyLimit) (error : String) :
    bufferBody (.broken arrived error) = .error (.unknownBody error) := if_neg (Nat.not_lt.mpr within)

theorem bufferBody_eq_ok_iff {incoming : Incoming} {body : Bytes} :
    bufferBody incoming = .ok body ↔ incoming = .whole body ∧ body.length ≤ defaultBodyLimit := by
  constructor
  · intro buffered
    by_cases exceeds : incoming.arrived.length > defaultBodyLimit
    · rw [bufferBody_exceeding exceeds] at buffered
      cases buffered
    · have within := Nat.not_lt.mp exceeds
      cases incoming with
      | whole sent =>
          cases (bufferBody_whole within).symm.trans buffered
          exact ⟨rfl, within⟩
      | broken arrived error => cases (bufferBody_broken within error).symm.trans buffered
  · rintro ⟨rfl, within⟩
    exact bufferBody_whole within

/-! ## The router -/

section

variable (crates : Crates)

/-- The extractor's own answer, in plain text. -/
def Rejection.response : Rejection → Response
  | .lengthLimit => textResponse 413 crates.lengthLimitText
  | .unknownBody error => textResponse 400 (crates.unknownBodyText error)

def health : Response := textResponse 200 "ok"

/-- A handler's result as a response, a panic passing through. -/
def respond : Except Halt StatusCode → Prog Effect Effect.Answer (Exec Response)
  | .ok status => .pure (.ok ⟨status, [], .empty⟩)
  | .error (.error e) => e.intoResponse.bind fun response => .pure (.ok response)
  | .error (.panic p) => .pure (.error p)

/-- `create_sheep` behind its extractors: a request that they reject never reaches it. -/
def sheepsRoute (state : AppState) (request : Request) :
    Prog Effect Effect.Answer (Exec Response) :=
  match bufferBody request.body with
  | .error rejection => .pure (.ok (rejection.response crates))
  | .ok body => (createSheep crates state request.headers body).run.bind respond

def buildAxumRouter (state : AppState) (request : Request) :
    Prog Effect Effect.Answer (Exec Response) :=
  if request.path = "/health" then
    match request.method with
    | .get => .pure (.ok health)
    | .head => .pure (.ok { health with body := .empty })
    | _ => respond (.error (.error .methodNotAllowed))
  else if request.path = "/api/v1/sheeps" then
    match request.method with
    | .post => sheepsRoute crates state request
    | _ => respond (.error (.error .methodNotAllowed))
  else respond (.error (.error .notFound))

/-- A rejection is the client's error. -/
theorem Rejection.status (rejection : Rejection) : (rejection.response crates).status ≠ 202 ∧
    (rejection.response crates).status ≠ 503 ∧ 400 ≤ (rejection.response crates).status ∧
    (rejection.response crates).status < 500 := by
  cases rejection with
  | lengthLimit =>
      exact show (413 : Nat) ≠ 202 ∧ (413 : Nat) ≠ 503 ∧ 400 ≤ 413 ∧ 413 < 500 by decide
  | unknownBody error =>
      exact show (400 : Nat) ≠ 202 ∧ (400 : Nat) ≠ 503 ∧ 400 ≤ 400 ∧ 400 < 500 by decide

/-! ## The middleware -/

def servicePanicked : Response := textResponse 500 "Service panicked"

/-- Report a caught panic, then answer for it. -/
def handlePanic (panic : Panic) : Prog Effect Effect.Answer Response :=
  .op (.report (panicReport panic.message)) fun _ => .pure servicePanicked

def applyAxumMiddleware (router : Prog Effect Effect.Answer (Exec Response)) :
    Prog Effect Effect.Answer Response :=
  router.bind fun
    | .ok response => .pure response
    | .error panic => handlePanic panic

/-- The application's handler for one request. -/
def serve (state : AppState) (request : Request) : Prog Effect Effect.Answer Response :=
  applyAxumMiddleware (buildAxumRouter crates state request)

/-! ## Every way a request to the ingestion route can end -/

def sheepsRequest (headers : HeaderMap) (body : Incoming) : Request :=
  ⟨.post, "/api/v1/sheeps", headers, body⟩

/-- The events a submission carries, none if its body breaks off. -/
def submittedEvents (headers : HeaderMap) : Incoming → List Value
  | .whole body => requestEvents crates headers body
  | .broken _ _ => []

theorem submittedEvents_of_buffered (headers : HeaderMap) {incoming : Incoming} {body : Bytes}
    (buffered : bufferBody incoming = .ok body) :
    submittedEvents crates headers incoming = requestEvents crates headers body := by
  obtain ⟨rfl, -⟩ := bufferBody_eq_ok_iff.mp buffered
  rfl

/-- One way a `POST /api/v1/sheeps` can go: its effects, and its end. -/
inductive Ends (state : AppState) (headers : HeaderMap) (incoming : Incoming) :
    List (Event Effect Effect.Answer) → Exec Response → Prop where
  | rejected {rejection : Rejection} (unbuffered : bufferBody incoming = .error rejection) :
      Ends state headers incoming [] (.ok (rejection.response crates))
  | refused {body : Bytes} (buffered : bufferBody incoming = .ok body) {e : AppError}
      (planned : plan crates state headers body = .error (.error e)) :
      Ends state headers incoming e.reports (.ok e.rendered)
  | panicked {body : Bytes} (buffered : bufferBody incoming = .ok body) {panic : Panic}
      (planned : plan crates state headers body = .error (.panic panic)) :
      Ends state headers incoming [] (.error panic)
  | published {body : Bytes} (buffered : bufferBody incoming = .ok body) {sheeps : List Sheep}
      (planned : plan crates state headers body = .ok sheeps) (now : OffsetDateTime) :
      Ends state headers incoming
        (⟨.now, now⟩ :: sheeps.map fun sheep => produced crates now sheep (.ok ()))
        (.ok ⟨202, [], .empty⟩)
  | failed {body : Bytes} (buffered : bufferBody incoming = .ok body) {done rest : List Sheep}
      {sheep : Sheep} (planned : plan crates state headers body = .ok (done ++ sheep :: rest))
      (now : OffsetDateTime) (e : ProduceError) :
      Ends state headers incoming
        (⟨.now, now⟩ :: (done.map fun sheep => produced crates now sheep (.ok ())) ++
          produced crates now sheep (.error e) :: (publishError e).reports)
        (.ok (publishError e).rendered)

/-- The same once panics are caught: a panic is reported and answered. -/
inductive Serves (state : AppState) (headers : HeaderMap) (incoming : Incoming) :
    List (Event Effect Effect.Answer) → Response → Prop where
  | answered {events : List (Event Effect Effect.Answer)} {response : Response}
      (ending : Ends crates state headers incoming events (.ok response)) :
      Serves state headers incoming events response
  | caught {events : List (Event Effect Effect.Answer)} {panic : Panic}
      (ending : Ends crates state headers incoming events (.error panic)) :
      Serves state headers incoming (events ++ [⟨.report (panicReport panic.message), ()⟩])
        servicePanicked

variable {crates} {state : AppState} {headers : HeaderMap} {incoming : Incoming} {body : Bytes}
  {events : List (Event Effect Effect.Answer)}

theorem respond_error_returns_iff {e : AppError} {out : Exec Response} :
    Prog.Returns (respond (.error (.error e))) events out ↔
      events = e.reports ∧ out = .ok e.rendered := by
  rw [respond, Prog.bind_returns_iff]
  simp only [AppError.intoResponse_returns_iff, Prog.pure_returns_iff]
  constructor
  · rintro ⟨first, later, response, rfl, ⟨rfl, rfl⟩, rfl, rfl⟩
    exact ⟨by simp, rfl⟩
  · rintro ⟨rfl, rfl⟩
    exact ⟨_, [], _, by simp, ⟨rfl, rfl⟩, rfl, rfl⟩

theorem createSheep_returns_iff {out : Except Halt StatusCode} :
    Prog.Returns (createSheep crates state headers body).run events out ↔
      (∃ halt, plan crates state headers body = .error halt ∧ events = [] ∧ out = .error halt) ∨
      ∃ sheeps, plan crates state headers body = .ok sheeps ∧
        Prog.Returns (publishAll crates sheeps).run events out := by
  rw [createSheep_eq]
  exact planned_returns_iff crates

theorem sheepsRoute_of_rejected {rejection : Rejection} (unbuffered : bufferBody incoming = .error rejection) :
    buildAxumRouter crates state (sheepsRequest headers incoming) =
      .pure (.ok (rejection.response crates)) := by
  change sheepsRoute crates state (sheepsRequest headers incoming) = _
  simp only [sheepsRoute, sheepsRequest, unbuffered]

theorem sheepsRoute_of_buffered (buffered : bufferBody incoming = .ok body) :
    buildAxumRouter crates state (sheepsRequest headers incoming) =
      (createSheep crates state headers body).run.bind respond := by
  change sheepsRoute crates state (sheepsRequest headers incoming) = _
  simp only [sheepsRoute, sheepsRequest, buffered]

/-- **The traces of the ingestion route are `Ends`.** -/
theorem sheepsRoute_returns_iff {out : Exec Response} :
    Prog.Returns (buildAxumRouter crates state (sheepsRequest headers incoming)) events out ↔
      Ends crates state headers incoming events out := by
  constructor
  · intro ended
    cases buffered : bufferBody incoming with
    | error rejection =>
        rw [sheepsRoute_of_rejected buffered] at ended
        obtain ⟨rfl, rfl⟩ := Prog.pure_returns_iff.mp ended
        exact .rejected buffered
    | ok body =>
        rw [sheepsRoute_of_buffered buffered] at ended
        obtain ⟨first, later, handled, rfl, created, responded⟩ := Prog.bind_returns_iff.mp ended
        rcases createSheep_returns_iff.mp created with
          ⟨e | panic, planned, rfl, rfl⟩ | ⟨sheeps, planned, published⟩
        · obtain ⟨rfl, rfl⟩ := respond_error_returns_iff.mp responded
          exact .refused buffered planned
        · obtain ⟨rfl, rfl⟩ := Prog.pure_returns_iff.mp responded
          exact .panicked buffered planned
        · obtain ⟨now, calls, stopped, rfl, looped, rfl⟩ := (publishAll_returns_iff crates).mp published
          rcases (publishEach_returns_iff crates).mp looped with
            ⟨rfl, rfl⟩ | ⟨done, sheep, rest, e, rfl, rfl, rfl⟩
          · obtain ⟨rfl, rfl⟩ := Prog.pure_returns_iff.mp responded
            rw [List.append_nil]
            exact .published buffered planned now
          · obtain ⟨rfl, rfl⟩ := respond_error_returns_iff.mp responded
            have ending : Ends crates state headers incoming _ _ := .failed buffered planned now e
            simpa using ending
  · intro ending
    cases ending with
    | rejected unbuffered =>
        rw [sheepsRoute_of_rejected unbuffered]
        exact Prog.pure_returns_iff.mpr ⟨rfl, rfl⟩
    | refused buffered planned =>
        rw [sheepsRoute_of_buffered buffered]
        exact Prog.bind_returns_iff.mpr ⟨[], _, _, rfl,
          createSheep_returns_iff.mpr (.inl ⟨_, planned, rfl, rfl⟩),
          respond_error_returns_iff.mpr ⟨rfl, rfl⟩⟩
    | panicked buffered planned =>
        rw [sheepsRoute_of_buffered buffered]
        exact Prog.bind_returns_iff.mpr ⟨[], [], _, rfl,
          createSheep_returns_iff.mpr (.inl ⟨_, planned, rfl, rfl⟩),
          Prog.pure_returns_iff.mpr ⟨rfl, rfl⟩⟩
    | @published body buffered sheeps planned now =>
        rw [sheepsRoute_of_buffered buffered]
        have looped : Prog.Returns (publishEach crates now sheeps).run _ _ :=
          (publishEach_returns_iff crates).mpr (.inl ⟨rfl, rfl⟩)
        exact Prog.bind_returns_iff.mpr ⟨_, [], _, (List.append_nil _).symm,
          createSheep_returns_iff.mpr (.inr ⟨_, planned,
            (publishAll_returns_iff crates).mpr ⟨now, _, _, rfl, looped, rfl⟩⟩),
          Prog.pure_returns_iff.mpr ⟨rfl, rfl⟩⟩
    | @failed body buffered done rest sheep planned now e =>
        rw [sheepsRoute_of_buffered buffered]
        have looped : Prog.Returns (publishEach crates now (done ++ sheep :: rest)).run _ _ :=
          (publishEach_returns_iff crates).mpr (.inr ⟨done, sheep, rest, e, rfl, rfl, rfl⟩)
        exact Prog.bind_returns_iff.mpr ⟨_, (publishError e).reports, _, by simp,
          createSheep_returns_iff.mpr (.inr ⟨_, planned,
            (publishAll_returns_iff crates).mpr ⟨now, _, _, rfl, looped, rfl⟩⟩),
          respond_error_returns_iff.mpr ⟨rfl, rfl⟩⟩

/-- A request to the ingestion route. -/
def Submits (request : Request) : Prop :=
  request.method = .post ∧ request.path = "/api/v1/sheeps"

/-- What a request to anywhere else is answered. -/
inductive Elsewhere (request : Request) : Response → Prop where
  | health (path : request.path = "/health") (get : request.method = .get) : Elsewhere request health
  | headHealth (path : request.path = "/health") (head : request.method = .head) :
      Elsewhere request { health with body := .empty }
  | methodNotAllowed (other : ¬ Submits request) :
      Elsewhere request AppError.methodNotAllowed.rendered
  | notFound (other : ¬ Submits request) : Elsewhere request AppError.notFound.rendered

theorem Elsewhere.not_submits {request : Request} {response : Response}
    (elsewhere : Elsewhere request response) : ¬ Submits request := by
  cases elsewhere with
  | health path _ | headHealth path _ =>
      intro submits
      rw [submits.2] at path
      exact absurd path (by decide)
  | methodNotAllowed other | notFound other => exact other

/-- **Every trace of the router, by route.** -/
theorem router_returns {request : Request} {out : Exec Response}
    (returned : Prog.Returns (buildAxumRouter crates state request) events out) :
    (∃ response, out = .ok response ∧ events = [] ∧ Elsewhere request response) ∨
      (Submits request ∧ Ends crates state request.headers request.body events out) := by
  obtain ⟨method, path, headers, body⟩ := request
  by_cases healthy : path = "/health"
  · subst healthy
    have elsewhere : ¬ Submits ⟨method, "/health", headers, body⟩ := by
      intro submits
      exact absurd (show "/health" = "/api/v1/sheeps" from submits.2) (by decide)
    cases method with
    | get =>
        obtain ⟨none, same⟩ := Prog.pure_returns_iff.mp returned
        exact .inl ⟨_, same, none, .health rfl rfl⟩
    | head =>
        obtain ⟨none, same⟩ := Prog.pure_returns_iff.mp returned
        exact .inl ⟨_, same, none, .headHealth rfl rfl⟩
    | post | other =>
        obtain ⟨none, same⟩ := respond_error_returns_iff.mp returned
        exact .inl ⟨_, same, none, .methodNotAllowed elsewhere⟩
  · by_cases sheeps : path = "/api/v1/sheeps"
    · subst sheeps
      cases method with
      | post => exact .inr ⟨⟨rfl, rfl⟩, sheepsRoute_returns_iff.mp returned⟩
      | get | head | other =>
          obtain ⟨none, same⟩ := respond_error_returns_iff.mp returned
          exact .inl ⟨_, same, none, .methodNotAllowed fun submits => Method.noConfusion submits.1⟩
    · have missing : buildAxumRouter crates state ⟨method, path, headers, body⟩ =
          respond (.error (.error .notFound)) := by
        simp only [buildAxumRouter, healthy, sheeps, if_false]
      rw [missing] at returned
      obtain ⟨none, same⟩ := respond_error_returns_iff.mp returned
      exact .inl ⟨_, same, none, .notFound fun submits => sheeps submits.2⟩

theorem serve_returns_iff {response : Response} :
    Prog.Returns (serve crates state (sheepsRequest headers incoming)) events response ↔
      Serves crates state headers incoming events response := by
  unfold serve applyAxumMiddleware
  rw [Prog.bind_returns_iff]
  simp only [sheepsRoute_returns_iff]
  constructor
  · rintro ⟨first, later, panic | answer, rfl, ending, caught⟩
    · obtain ⟨⟨⟩, rest, rfl, answered⟩ := Prog.op_returns_iff.mp caught
      obtain ⟨rfl, rfl⟩ := Prog.pure_returns_iff.mp answered
      exact .caught ending
    · obtain ⟨rfl, rfl⟩ := Prog.pure_returns_iff.mp caught
      rw [List.append_nil]
      exact .answered ending
  · rintro (⟨ending⟩ | ⟨ending⟩)
    · exact ⟨_, [], _, (List.append_nil _).symm, ending, Prog.pure_returns_iff.mpr ⟨rfl, rfl⟩⟩
    · exact ⟨_, _, _, rfl, ending, Prog.op_returns_iff.mpr ⟨(), [], rfl, .refl _⟩⟩

end

end CountingSheep.Http
