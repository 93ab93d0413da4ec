/-
# CountingSheep.Http.Error — the application's effects, its error type, and its responses

What a request does to the world outside its own task is an `Effect`: reading the
clock, one `produce` call, one exception report. A handler is a program over them
that may halt early, with an `AppError` or by unwinding.

`AppError.intoResponse` reports first and renders second, as the source does.
`rendered` is the response alone; `intoResponse_returns_iff` says the report is
made exactly for internal errors and never changes the response.
-/
import CountingSheep.Ingest.Stamp
import CountingSheep.Observability.ErrorTracking
import CountingSheep.Theory.Interleaving

namespace CountingSheep.Http

open Rust Ingest Observability
open Theory (Prog Event)
open Theory.Json (Value)

set_option autoImplicit false

/-! ## Effects -/

/-- Why a synchronous enqueue failed. -/
inductive ProduceError where
  /-- The local producer queue is full. -/
  | queueFull
  /-- Any other enqueue-time error from the client. -/
  | backend (detail : String)
  deriving DecidableEq

inductive Effect where
  /-- `OffsetDateTime::now_utc()`. -/
  | now
  /-- `Producer::produce`. -/
  | produce (message : ProducedMessage)
  /-- `error_tracking::report_exception`. -/
  | report (report : ExceptionReport)

@[reducible] def Effect.Answer : Effect → Type
  | .now => OffsetDateTime
  | .produce _ => Except ProduceError Unit
  | .report _ => Unit

/-- Any answer will do to finish a program; the clock is at the epoch. -/
instance : ∀ effect : Effect, Nonempty effect.Answer
  | .now => ⟨.epoch⟩
  | .produce _ => ⟨.ok ()⟩
  | .report _ => ⟨()⟩

/-! ## Responses -/

abbrev StatusCode := Nat

/-- A response body before compression. -/
inductive Body where
  | empty
  | text (s : String)
  | json (v : Value)

structure Response where
  status : Nat
  headers : List (String × String)
  body : Body

/-! ## Errors -/

/-- A single validation failure; `index` is its position within a batch. -/
structure ValidationItem where
  index : Option Nat
  detail : String
  deriving DecidableEq

/-- A failure tied to event `index` within a batch submission. -/
def ValidationItem.at (index : Nat) (detail : String) : ValidationItem := ⟨some index, detail⟩

/-- A failure with no batch position. -/
def ValidationItem.ofString (detail : String) : ValidationItem := ⟨none, detail⟩

inductive AppError where
  | badRequest (message : String)
  | validation (items : List ValidationItem)
  | unsupportedMediaType (message : String)
  | notFound
  | methodNotAllowed
  | serviceUnavailable (message : String)
  | internal (error : AnyhowError)

/-- Why a handler stopped before its end. -/
inductive Halt where
  | error (e : AppError)
  | panic (p : Panic)

abbrev Handler := ExceptT Halt (Prog Effect Effect.Answer)

/-- Continue with a computation's value, or unwind with its panic. -/
def Handler.ofExec {α : Type} : Exec α → Handler α
  | .ok a => pure a
  | .error p => throw (.panic p)

/-- Perform one effect and go on with its answer. -/
def Handler.perform (effect : Effect) : Handler effect.Answer := ExceptT.lift (Prog.perform effect)

theorem Handler.perform_returns_iff {effect : Effect} {events : List (Event Effect Effect.Answer)}
    {out : Except Halt effect.Answer} :
    Prog.Returns (Handler.perform effect).run events out ↔
      ∃ answer, events = [⟨effect, answer⟩] ∧ out = .ok answer := by
  rw [Handler.perform, Prog.lift_returns_iff]
  constructor
  · rintro ⟨answer, rfl, performed⟩
    exact ⟨answer, Prog.perform_returns_iff.mp performed, rfl⟩
  · rintro ⟨answer, performed, rfl⟩
    exact ⟨answer, rfl, Prog.perform_returns_iff.mpr performed⟩

namespace AppError

/-- A `Validation` error from plain details, for the single-event path. -/
def ofDetails (details : List String) : AppError := .validation (details.map ValidationItem.ofString)

/-- A single detail as `{ "detail": ... }`. -/
def detail (message : String) : Value := .objectOf [("detail", .string message)]

/-- A validation item, with `index` only when it carries one. -/
def renderValidationItem (item : ValidationItem) : Value :=
  match item.index with
  | some index =>
      .objectOf [("index", .number (.int index)), ("detail", .string item.detail)]
  | none => .objectOf [("detail", .string item.detail)]

/-- An item with a position lists its detail first, then its `index`. -/
theorem renderValidationItem_indexed (index : Nat) (detail : String) :
    renderValidationItem ⟨some index, detail⟩ =
      .object [("detail", .string detail), ("index", .number (.int index))] := by
  have first : "detail" < "index" := by decide
  simp only [renderValidationItem, Value.objectOf, List.foldl_cons, List.foldl_nil,
    Theory.Json.insert, first, if_true]

/-- The report for an error, or `none` when it must not be tracked. -/
def exceptionReport : AppError → Option ExceptionReport
  | .internal cause => some (internalReport cause)
  | .badRequest _ | .validation _ | .unsupportedMediaType _ | .serviceUnavailable _ | .notFound
  | .methodNotAllowed => none

/-- Status and error list of an error's response. -/
def statusAndErrors : AppError → StatusCode × List Value
  | .badRequest message => (400, [detail message])
  | .validation items => (400, items.map renderValidationItem)
  | .unsupportedMediaType message => (415, [detail message])
  | .serviceUnavailable message => (503, [detail message])
  | .notFound => (404, [detail "not found"])
  | .methodNotAllowed => (405, [detail "method not allowed"])
  | .internal _ => (500, [detail "internal server error"])

def addRetryAfter : AppError → Bool
  | .serviceUnavailable _ => true
  | _ => false

/-- The response alone: status, the JSON envelope, and `Retry-After` on a 503. -/
def rendered (error : AppError) : Response where
  status := error.statusAndErrors.1
  headers := ("content-type", "application/json") ::
    if error.addRetryAfter then [("retry-after", "1")] else []
  body := .json (.objectOf [("errors", .array error.statusAndErrors.2)])

/-- Report a server-side fault, then render. -/
def intoResponse (error : AppError) : Prog Effect Effect.Answer Response :=
  match error.exceptionReport with
  | some report => .op (.report report) fun _ => .pure error.rendered
  | none => .pure error.rendered

/-- The reports an error makes on its way to a response. -/
def reports (error : AppError) : List (Event Effect Effect.Answer) :=
  error.exceptionReport.toList.map fun report => ⟨.report report, ()⟩

theorem intoResponse_returns_iff {error : AppError} {events : List (Event Effect Effect.Answer)}
    {response : Response} : Prog.Returns error.intoResponse events response ↔
      events = error.reports ∧ response = error.rendered := by
  cases reported : error.exceptionReport with
  | none => simp [intoResponse, reports, reported]
  | some report =>
      simp only [intoResponse, reports, reported, Prog.op_returns_iff, Prog.pure_returns_iff]
      constructor
      · rintro ⟨⟨⟩, rest, rfl, rfl, rfl⟩
        exact ⟨rfl, rfl⟩
      · rintro ⟨rfl, rfl⟩
        exact ⟨(), [], rfl, rfl, rfl⟩

end AppError

end CountingSheep.Http
