/-
# CountingSheep.Observability.Logging — the lines the service logs

A `Line` is what a `tracing` macro is handed: its level, its message, and the
fields shown with `%`. How a subscriber prints it is not the service's business, so
a displayed timestamp stays a timestamp.
-/
import CountingSheep.Config.PostHog
import CountingSheep.Ingest.Stamp
import CountingSheep.Observability.ErrorTracking

namespace CountingSheep.Observability

open Rust Ingest Config

set_option autoImplicit false

inductive Level where
  | error
  | warn
  | info
  deriving DecidableEq

/-- A displayed value. -/
inductive Shown where
  | text (s : String)
  | time (t : OffsetDateTime)

structure Line where
  level : Level
  message : String
  fields : List (String × Shown)

namespace Line

/-! ## The lines of a request -/

/-- `record_accepted`, before it enqueues. -/
def sheepAccepted (accepted : AcceptedSheep) : Line where
  level := .info
  message := "sheep accepted"
  fields := [
    ("id", .text accepted.sheep.id),
    ("source", .text accepted.sheep.source),
    ("event_type", .text accepted.sheep.type),
    ("occurred_at", .time accepted.occurredAt),
    ("received_at", .time accepted.receivedAt)]

/-- `into_response` of an internal error: `%error` shows the outermost message only. -/
def internalServerError (error : AnyhowError) : Line where
  level := .error
  message := "internal server error"
  fields := [("error", .text error.message)]

/-- `handle_panic`. -/
def servicePanicked (message : String) : Line where
  level := .error
  message := "Service panicked: " ++ message
  fields := []

/-! ## The lines of `init` -/

def trackingEnabled (host : String) : Line where
  level := .info
  message := "error tracking enabled"
  fields := [("host", .text host)]

def trackingFailed (error : String) : Line where
  level := .warn
  message := "PostHog initialization failed; error tracking disabled"
  fields := [("error", .text error)]

def trackingDisabled (level : Level) (reason : String) : Line where
  level := level
  message := "error tracking disabled"
  fields := [("reason", .text reason)]

def repeatInit : Line where
  level := .warn
  message := "error tracking already initialized; ignoring repeat init"
  fields := []

/-! ## The lines of a delivery -/

def deliveryFailed (error : String) : Line where
  level := .warn
  message := "kafka delivery failed"
  fields := [("err", .text error)]

def deliveryCancelled : Line where
  level := .warn
  message := "kafka delivery future cancelled"
  fields := []

end Line

/-! ## The reasons shown -/

/-- Operator misconfiguration, rather than an intentional disable. -/
def isMisconfiguration : DisabledReason → Bool
  | .invalidEnabledValue _ => true
  | .killswitch | .noApiKey => false

/-- `Display` of a reason; `debug` quotes a string. -/
def showReason (debug : String → String) : DisabledReason → String
  | .killswitch => "POSTHOG_ENABLED=false"
  | .noApiKey => "POSTHOG_API_KEY not set"
  | .invalidEnabledValue raw => "POSTHOG_ENABLED must be one of true/false/1/0/yes/no/on/off, got " ++
      debug raw ++ "; treating error tracking as disabled"

end CountingSheep.Observability
