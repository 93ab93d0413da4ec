/-
# CountingSheep.Config.Server — the server's settings, read from the environment

The address to bind, the port, the batch cap, and the settings of PostHog and of
Kafka. A setting that is there must be readable and parse; the first that is not
ends the start, with an error that names it.

* `fromEnvironment_eq_ok_iff`: the settings a server starts with, variable by
  variable.
* `fromEnvironment_blames`: a refused start blames a variable.
* `server_settings`: both, and what the cap does to a batch.
-/
import CountingSheep.Config.Kafka
import CountingSheep.Config.PostHog
import CountingSheep.Ingest.Handler
import CountingSheep.Rust.ParseInt

namespace CountingSheep.Config

open Rust Observability

set_option autoImplicit false

structure Ipv4Addr where
  octets : UInt8 × UInt8 × UInt8 × UInt8
  deriving DecidableEq

namespace Ipv4Addr

/-- All interfaces. -/
def unspecified : Ipv4Addr := ⟨0, 0, 0, 0⟩

/-- Loopback only. -/
def localhost : Ipv4Addr := ⟨127, 0, 0, 1⟩

end Ipv4Addr

def defaultPort : Nat := 8888
def defaultMaxBatchEvents : Nat := 1000

structure Server where
  ip : Ipv4Addr
  port : Nat
  /-- Maximum number of events accepted in a single batch submission. -/
  maxBatchEvents : Nat
  posthog : PostHogConfig
  kafka : KafkaConfig

def bindIp (exposeExternally : Bool) : Ipv4Addr :=
  if exposeExternally then .unspecified else .localhost

/-- `anyhow::Context`: the message goes in front of the error it explains. -/
def context (message : String) : Except ParseIntError Nat → Except AnyhowError Nat
  | .ok n => .ok n
  | .error e => .error ⟨message, [e.text]⟩

/-- Parses the `PORT` value as a `u16`. -/
def parsePort (raw : String) : Except AnyhowError Nat :=
  context "PORT must be a valid port number" (parseUnsigned (2 ^ 16) raw.toList)

/-- Parses the `MAX_BATCH_EVENTS` value as a `usize`. A cap below `1` would reject
every batch. -/
def parseMaxBatchEvents (raw : String) : Except AnyhowError Nat := do
  let value ← context "MAX_BATCH_EVENTS must be a non-negative integer"
    (parseUnsigned (2 ^ 64) raw.toList)
  if value < 1 then
    throw ⟨"MAX_BATCH_EVENTS must be at least 1", []⟩
  return value

/-- A setting that is there is parsed, and one that is not has its default. -/
def parseOr (parse : String → Except AnyhowError Nat) (otherwise : Nat) :
    Option String → Except AnyhowError Nat
  | some raw => parse raw
  | none => .ok otherwise

section

variable (unreadable : VarError → AnyhowError)

/-- Builds the server configuration from environment variables. `unreadable` is
what an error in reading one becomes. -/
def Server.fromEnvironment (exposeExternally : Bool) (env : Environment) : Except AnyhowError Server := do
  let ip := bindIp exposeExternally
  let port ← parseOr parsePort defaultPort (← (var env "PORT").mapError unreadable)
  let maxBatchEvents ← parseOr parseMaxBatchEvents defaultMaxBatchEvents
    (← (var env "MAX_BATCH_EVENTS").mapError unreadable)
  let posthog ← (PostHogConfig.fromEnvironment env).mapError unreadable
  let kafka := KafkaConfig.fromEnvironment env
  return { ip, port, maxBatchEvents, posthog, kafka }

/-! ## The numbers -/

theorem bind_eq_ok_iff {ε α β : Type} {x : Except ε α} {f : α → Except ε β} {b : β} :
    (x >>= f) = .ok b ↔ ∃ a, x = .ok a ∧ f a = .ok b := by
  cases x <;> simp [bind, Except.bind]

theorem mapError_eq_ok_iff {ε ε' α : Type} {x : Except ε α} {f : ε → ε'} {a : α} :
    x.mapError f = .ok a ↔ x = .ok a := by
  cases x <;> simp [Except.mapError]

/-- `raw` spells `n`: decimal digits, after a `+` or not. -/
def Spells (raw : String) (n : Nat) : Prop :=
  ∃ digits, (raw.toList = digits ∨ raw.toList = '+' :: digits) ∧ digits ≠ [] ∧
    (∀ c ∈ digits, c.isDigit = true) ∧ Nat.ofDigitChars 10 digits 0 = n

theorem parseUnsigned_spells {bound n : Nat} (positive : 0 < bound) {raw : String} :
    parseUnsigned bound raw.toList = .ok n ↔ Spells raw n ∧ n < bound := by
  rw [parseUnsigned_eq_ok_iff positive]
  constructor
  · rintro ⟨digits, spelled, nonempty, all, value, within⟩
    exact ⟨⟨digits, spelled, nonempty, all, value⟩, within⟩
  · rintro ⟨⟨digits, spelled, nonempty, all, value⟩, within⟩
    exact ⟨digits, spelled, nonempty, all, value, within⟩

theorem context_eq_ok_iff {message : String} {result : Except ParseIntError Nat} {n : Nat} :
    context message result = .ok n ↔ result = .ok n := by
  cases result <;> simp [context]

theorem parsePort_eq_ok_iff {raw : String} {n : Nat} :
    parsePort raw = .ok n ↔ Spells raw n ∧ n < 2 ^ 16 := by
  rw [parsePort, context_eq_ok_iff, parseUnsigned_spells (by decide)]

theorem parseMaxBatchEvents_eq_ok_iff {raw : String} {n : Nat} :
    parseMaxBatchEvents raw = .ok n ↔ Spells raw n ∧ 1 ≤ n ∧ n < 2 ^ 64 := by
  unfold parseMaxBatchEvents
  rw [bind_eq_ok_iff]
  simp only [context_eq_ok_iff, parseUnsigned_spells (show 0 < 2 ^ 64 by decide)]
  constructor
  · rintro ⟨value, ⟨spelled, within⟩, rest⟩
    by_cases below : value < 1
    · simp [below, throw, throwThe, MonadExceptOf.throw, bind, Except.bind] at rest
    · simp only [below, if_false, pure, Except.pure, Except.ok.injEq] at rest
      subst rest
      exact ⟨spelled, by omega, within⟩
  · rintro ⟨spelled, least, within⟩
    refine ⟨n, ⟨spelled, within⟩, ?_⟩
    rw [if_neg (by omega)]
    rfl

/-- A numeric setting: unset and at its default, or readable and spelled out in range. -/
def Numbered (env : Environment) (key : String) (otherwise : Nat) (range : Nat → Prop) (n : Nat) : Prop :=
  (env key = .error .notPresent ∧ n = otherwise) ∨ ∃ raw, env key = .ok raw ∧ Spells raw n ∧ range n

theorem var_eq_none_iff {env : Environment} {key : String} :
    var env key = .ok none ↔ env key = .error .notPresent := by
  unfold var
  split <;> simp_all

theorem var_eq_some_iff {env : Environment} {key raw : String} :
    var env key = .ok (some raw) ↔ env key = .ok raw := by
  unfold var
  split <;> simp_all

theorem parseOr_eq_ok_iff {env : Environment} {key : String} {parse : String → Except AnyhowError Nat}
    {range : Nat → Prop} {otherwise n : Nat}
    (parses : ∀ raw m, parse raw = .ok m ↔ Spells raw m ∧ range m) :
    (∃ value, var env key = .ok value ∧ parseOr parse otherwise value = .ok n) ↔
      Numbered env key otherwise range n := by
  constructor
  · rintro ⟨_ | raw, read, parsed⟩
    · cases parsed
      exact .inl ⟨var_eq_none_iff.mp read, rfl⟩
    · exact .inr ⟨raw, var_eq_some_iff.mp read, (parses raw n).mp parsed⟩
  · rintro (⟨unset, rfl⟩ | ⟨raw, read, spelled⟩)
    · exact ⟨none, var_eq_none_iff.mpr unset, rfl⟩
    · exact ⟨some raw, var_eq_some_iff.mpr read, (parses raw n).mpr spelled⟩

/-! ## What a server starts with -/

variable {unreadable} {exposeExternally : Bool} {env : Environment} {server : Server}

/-- **The settings a server starts with**, variable by variable. -/
theorem fromEnvironment_eq_ok_iff :
    Server.fromEnvironment unreadable exposeExternally env = .ok server ↔
      server.ip = bindIp exposeExternally ∧
      Numbered env "PORT" defaultPort (· < 2 ^ 16) server.port ∧
      Numbered env "MAX_BATCH_EVENTS" defaultMaxBatchEvents (fun n => 1 ≤ n ∧ n < 2 ^ 64)
        server.maxBatchEvents ∧
      PostHogConfig.fromEnvironment env = .ok server.posthog ∧
      server.kafka = KafkaConfig.fromEnvironment env := by
  rw [← parseOr_eq_ok_iff fun raw m => parsePort_eq_ok_iff,
    ← parseOr_eq_ok_iff fun raw m => parseMaxBatchEvents_eq_ok_iff]
  unfold Server.fromEnvironment
  simp only [bind_eq_ok_iff, mapError_eq_ok_iff, pure, Except.pure, Except.ok.injEq]
  constructor
  · rintro ⟨portValue, readPort, port, parsedPort, capValue, readCap, cap, parsedCap, posthog, read, rfl⟩
    exact ⟨rfl, ⟨portValue, readPort, parsedPort⟩, ⟨capValue, readCap, parsedCap⟩, read, rfl⟩
  · obtain ⟨ip, port, cap, posthog, kafka⟩ := server
    rintro ⟨rfl, ⟨portValue, readPort, parsedPort⟩, ⟨capValue, readCap, parsedCap⟩, read, rfl⟩
    exact ⟨portValue, readPort, port, parsedPort, capValue, readCap, cap, parsedCap, posthog, read, rfl⟩

/-- The variables an unreadable value of which ends the start. -/
def readVariables : List String :=
  ["PORT", "MAX_BATCH_EVENTS", "POSTHOG_API_KEY", "POSTHOG_ENABLED", "POSTHOG_HOST"]

/-- An error blames a variable: it could not be read, or its text does not parse. -/
inductive Blames (unreadable : VarError → AnyhowError) (env : Environment) : AnyhowError → Prop where
  | unreadable {key : String} (read : key ∈ readVariables) {problem : VarError}
      (held : env key = .error problem) (there : problem ≠ .notPresent) :
      Blames unreadable env (unreadable problem)
  | port {raw : String} (held : env "PORT" = .ok raw) {cause : ParseIntError}
      (failed : parseUnsigned (2 ^ 16) raw.toList = .error cause) :
      Blames unreadable env ⟨"PORT must be a valid port number", [cause.text]⟩
  | cap {raw : String} (held : env "MAX_BATCH_EVENTS" = .ok raw) {cause : ParseIntError}
      (failed : parseUnsigned (2 ^ 64) raw.toList = .error cause) :
      Blames unreadable env ⟨"MAX_BATCH_EVENTS must be a non-negative integer", [cause.text]⟩
  | capZero {raw : String} (held : env "MAX_BATCH_EVENTS" = .ok raw) (zero : Spells raw 0) :
      Blames unreadable env ⟨"MAX_BATCH_EVENTS must be at least 1", []⟩

theorem bind_eq_error_iff {ε α β : Type} {x : Except ε α} {f : α → Except ε β} {e : ε} :
    (x >>= f) = .error e ↔ x = .error e ∨ ∃ a, x = .ok a ∧ f a = .error e := by
  cases x <;> simp [bind, Except.bind]

theorem mapError_eq_error_iff {ε ε' α : Type} {x : Except ε α} {f : ε → ε'} {e : ε'} :
    x.mapError f = .error e ↔ ∃ problem, x = .error problem ∧ f problem = e := by
  cases x <;> simp [Except.mapError]

theorem var_eq_error {key : String} {problem : VarError} (failed : var env key = .error problem) :
    env key = .error problem ∧ problem ≠ .notPresent := by
  unfold var at failed
  split at failed
  · cases failed
  · cases failed
  · next other held =>
      cases failed
      exact ⟨held, other⟩

theorem parsePort_blames {raw : String} {error : AnyhowError} (held : env "PORT" = .ok raw)
    (failed : parsePort raw = .error error) : Blames unreadable env error := by
  unfold parsePort context at failed
  split at failed
  · cases failed
  · next cause refused =>
      cases failed
      exact .port held refused

theorem parseMaxBatchEvents_blames {raw : String} {error : AnyhowError}
    (held : env "MAX_BATCH_EVENTS" = .ok raw) (failed : parseMaxBatchEvents raw = .error error) :
    Blames unreadable env error := by
  unfold parseMaxBatchEvents at failed
  rcases bind_eq_error_iff.mp failed with failed | ⟨value, parsed, failed⟩
  · unfold context at failed
    split at failed
    · cases failed
    · next cause refused =>
        cases failed
        exact .cap held refused
  · rw [context_eq_ok_iff, parseUnsigned_spells (by decide)] at parsed
    by_cases below : value < 1
    · obtain rfl : value = 0 := by omega
      cases failed
      exact .capZero held parsed.1
    · rw [if_neg below] at failed
      cases failed

theorem posthog_blames {problem : VarError} (failed : PostHogConfig.fromEnvironment env = .error problem) :
    Blames unreadable env (unreadable problem) := by
  unfold PostHogConfig.fromEnvironment at failed
  simp only [bind_eq_error_iff, pure, Except.pure, reduceCtorEq, and_false, exists_false, or_false] at failed
  rcases failed with failed | ⟨_, -, failed | ⟨_, -, failed⟩⟩
  all_goals
    obtain ⟨held, there⟩ := var_eq_error failed
    exact .unreadable (by decide) held there

/-- **A refused start blames a variable.** -/
theorem fromEnvironment_blames {error : AnyhowError}
    (refused : Server.fromEnvironment unreadable exposeExternally env = .error error) :
    Blames unreadable env error := by
  unfold Server.fromEnvironment at refused
  simp only [bind_eq_error_iff, mapError_eq_error_iff, mapError_eq_ok_iff, pure, Except.pure,
    reduceCtorEq, and_false, exists_false, or_false] at refused
  rcases refused with ⟨problem, failed, rfl⟩ | ⟨port, readPort, failed |
    ⟨_, -, ⟨problem, failed, rfl⟩ | ⟨cap, readCap, failed | ⟨_, -, problem, failed, rfl⟩⟩⟩⟩
  · obtain ⟨held, there⟩ := var_eq_error failed
    exact .unreadable (by decide) held there
  · cases port with
    | none => cases failed
    | some raw => exact parsePort_blames (var_eq_some_iff.mp readPort) failed
  · obtain ⟨held, there⟩ := var_eq_error failed
    exact .unreadable (by decide) held there
  · cases cap with
    | none => cases failed
    | some raw => exact parseMaxBatchEvents_blames (var_eq_some_iff.mp readCap) failed
  · exact posthog_blames failed

theorem cap_positive
    (started : Server.fromEnvironment unreadable exposeExternally env = .ok server) :
    1 ≤ server.maxBatchEvents := by
  obtain ⟨-, -, ⟨-, default⟩ | ⟨raw, -, -, least, -⟩, -⟩ := fromEnvironment_eq_ok_iff.mp started
  · rw [default]
    decide
  · exact least

/-- **A server starts with what its variables spell, or says which one does not.** Its batch cap is
at least one, and a batch of valid events is planned exactly if it is not empty and within it. -/
theorem server_settings (unreadable : VarError → AnyhowError) (exposeExternally : Bool)
    (env : Environment) (crates : Crates) :
    (∀ server, Server.fromEnvironment unreadable exposeExternally env = .ok server ↔
      server.ip = bindIp exposeExternally ∧
      Numbered env "PORT" 8888 (· < 65536) server.port ∧
      Numbered env "MAX_BATCH_EVENTS" 1000 (fun n => 1 ≤ n ∧ n < 18446744073709551616)
        server.maxBatchEvents ∧
      PostHogConfig.fromEnvironment env = .ok server.posthog ∧
      server.kafka = KafkaConfig.fromEnvironment env) ∧
    (∀ error, Server.fromEnvironment unreadable exposeExternally env = .error error →
      Blames unreadable env error) ∧
    ∀ server, Server.fromEnvironment unreadable exposeExternally env = .ok server →
      1 ≤ server.maxBatchEvents ∧
      ∀ body events sheeps, crates.fromSlice body = some (.array events) →
        List.Forall₂ (Ingest.Accepts crates) events sheeps →
        (Ingest.planBatch crates body server.maxBatchEvents = .ok sheeps ↔
          events ≠ [] ∧ events.length ≤ server.maxBatchEvents) := by
  refine ⟨fun server => fromEnvironment_eq_ok_iff, fun error refused => fromEnvironment_blames refused, ?_⟩
  intro server started
  refine ⟨cap_positive started, ?_⟩
  intro body events sheeps read accepted
  rw [Ingest.planBatch_eq_ok_iff]
  constructor
  · rintro ⟨events', read', nonempty, within, -⟩
    rw [read, Option.some.injEq, Theory.Json.Value.array.injEq] at read'
    subst read'
    exact ⟨nonempty, within⟩
  · rintro ⟨nonempty, within⟩
    exact ⟨events, read, nonempty, within, accepted⟩

end

end CountingSheep.Config
