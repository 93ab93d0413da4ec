/-
# CountingSheep.Observability.ErrorTracking — exception reports and where they go

An `ExceptionReport` is built at one of two seams, an internal error or a caught
panic, and handed to the process-wide sink. A sink acts on the events PostHog has
been handed so far, and may panic; `dispatch` contains that panic.

* `buildExceptionEvent_eq`: the event of a report, member by member.
* `reportException_returns`: a report returns, whatever the sink does.
-/
import CountingSheep.Rust.Std
import CountingSheep.Theory.Json

namespace CountingSheep.Observability

open Rust
open Theory.Json (Value)

set_option autoImplicit false

/-- A normalized exception ready to report. -/
structure ExceptionReport where
  kind : String
  value : String
  /-- `false` for panics, `true` for caught 5xx. -/
  handled : Bool
  deriving DecidableEq, Repr

/-- An error with its causes, outermost first. -/
structure AnyhowError where
  message : String
  causes : List String
  deriving DecidableEq, Repr

/-- The whole chain on one line, as `{:#}` renders it. -/
def AnyhowError.render (error : AnyhowError) : String :=
  ": ".intercalate (error.message :: error.causes)

/-- The exception report for a 5xx server fault. -/
def internalReport (error : AnyhowError) : ExceptionReport where
  kind := "AppError::Internal"
  value := error.render
  handled := true

/-- The exception report for a caught panic. -/
def panicReport (message : String) : ExceptionReport where
  kind := "panic"
  value := message
  handled := false

/-! ## Sinks -/

/-- A PostHog event: its name, whom it is about, and its properties. -/
structure PosthogEvent where
  name : String
  distinctId : String
  properties : List (String × Value)

def serviceDistinctId : String := "countingsheep-backend"

/-- The `$exception` event of a report, in PostHog's own schema. -/
def buildExceptionEvent (report : ExceptionReport) : PosthogEvent where
  name := "$exception"
  distinctId := serviceDistinctId
  properties := [
    ("$exception_list", .array [.objectOf [
      ("type", .string report.kind),
      ("value", .string report.value),
      ("mechanism", .objectOf [
        ("type", .string "generic"),
        ("handled", .bool report.handled),
        ("synthetic", .bool false)])]]),
    ("$exception_level", .string "error")]

theorem buildExceptionEvent_eq (report : ExceptionReport) :
    buildExceptionEvent report = ⟨"$exception", "countingsheep-backend",
      [("$exception_list", .array [.object [
          ("mechanism", .object [("handled", .bool report.handled), ("synthetic", .bool false),
            ("type", .string "generic")]),
          ("type", .string report.kind), ("value", .string report.value)]]),
        ("$exception_level", .string "error")]⟩ := by
  have valueType : ¬ "value" < "type" := by decide
  have mechanismType : "mechanism" < "type" := by decide
  have handledType : "handled" < "type" := by decide
  have syntheticHandled : ¬ "synthetic" < "handled" := by decide
  have syntheticType : "synthetic" < "type" := by decide
  simp [buildExceptionEvent, serviceDistinctId, Value.objectOf, Theory.Json.insert, valueType,
    mechanismType, handledType, syntheticHandled, syntheticType]

/-- Where reported exceptions go: whether a report returns or panics, and what PostHog
has been handed by then. -/
structure ExceptionSink where
  report : ExceptionReport → List PosthogEvent → Exec Unit × List PosthogEvent

/-- Drops every report. -/
def noopSink : ExceptionSink := ⟨fun _ captured => (.ok (), captured)⟩

/-- Hands every report to PostHog's global client. -/
def posthogSink : ExceptionSink :=
  ⟨fun report captured => (.ok (), captured ++ [buildExceptionEvent report])⟩

/-- Hand a report to a sink, catching its panic. -/
def dispatch (sink : ExceptionSink) (report : ExceptionReport) (captured : List PosthogEvent) :
    Exec Unit × List PosthogEvent :=
  match sink.report report captured with
  | (.ok (), captured') => (.ok (), captured')
  | (.error _, captured') => (.ok (), captured')

/-- Report through the global sink. A no-op until one is set. -/
def reportException (sink : Option ExceptionSink) (report : ExceptionReport)
    (captured : List PosthogEvent) : Exec Unit × List PosthogEvent :=
  match sink with
  | some sink => dispatch sink report captured
  | none => (.ok (), captured)

theorem dispatch_returns (sink : ExceptionSink) (report : ExceptionReport)
    (captured : List PosthogEvent) : (dispatch sink report captured).1 = .ok () := by
  unfold dispatch
  split
  · rfl
  · rfl

/-- **A report returns, whatever the sink does.** -/
theorem reportException_returns (sink : Option ExceptionSink) (report : ExceptionReport)
    (captured : List PosthogEvent) : (reportException sink report captured).1 = .ok () := by
  cases sink with
  | none => rfl
  | some sink => exact dispatch_returns sink report captured

theorem reportException_posthog (report : ExceptionReport) (captured : List PosthogEvent) :
    (reportException (some posthogSink) report captured).2 =
      captured ++ [buildExceptionEvent report] := rfl

end CountingSheep.Observability
