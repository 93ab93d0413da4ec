/-
# CountingSheep.Bin.Server — the process, from its environment to its exit

`main` as a program over what it does to the outside world: set up logging, create
the Kafka client, build the runtime, initialise error tracking, bind, serve until a
signal, drain. What it logs and prints stands between the effects. `process` is the
real environment; `load` is whatever a `.env` file makes of it.

* `itinerary`: the effects of a start with these settings, in order.
* `wp_main`: `main` keeps to it, and its exit code says how far it came.
* `boot_itinerary`: at every moment `main` has performed a prefix of it; once it has
  served, it drains whatever serving came to; the address it binds is a matter of
  the real environment alone.
-/
import CountingSheep.Config.Server
import CountingSheep.Ingest.KafkaProducer
import CountingSheep.Observability.InitLog
import CountingSheep.Theory.Protocol

namespace CountingSheep.Bin

open Rust Config Ingest Observability
open Theory (Prog Event Noted Protocol)
open Theory.Noted (acts notes)

set_option autoImplicit false

/-! ## Effects and output -/

inductive BootEffect where
  /-- The global `tracing` subscriber, in JSON or compact. -/
  | subscribe (json : Bool)
  /-- `ClientConfig::create`. -/
  | createClient (settings : ClientConfig)
  | buildRuntime
  /-- An effect of `error_tracking::init`. -/
  | tracking (effect : TaskEffect)
  | bind (ip : Ipv4Addr) (port : Nat)
  | localAddr
  /-- `axum::serve` until a signal has been received and requests have drained. -/
  | serve (state : AppState) (topic : String)
  /-- `error_tracking::shutdown`. -/
  | shutdownTracking
  /-- `Producer::flush`. -/
  | flush (seconds : Nat)

@[reducible] def BootEffect.Answer : BootEffect → Type
  | .subscribe _ | .shutdownTracking | .flush _ => Unit
  | .createClient _ | .buildRuntime | .bind _ _ | .serve _ _ => Except AnyhowError Unit
  | .localAddr => Except AnyhowError String
  | .tracking effect => effect.Answer

/-- What `main` writes: a log line, or a line on standard output. -/
inductive Output where
  | line (line : Line)
  | print (text : String)

abbrev NotedEffect := Noted BootEffect Output

abbrev NotedEffect.Answer : NotedEffect → Type := Noted.Answer Output BootEffect.Answer

abbrev Boot := ExceptT AnyhowError (Prog NotedEffect NotedEffect.Answer)

def perform (effect : BootEffect) : Boot effect.Answer := ExceptT.lift (.op (.act effect) .pure)

def print (text : String) : Boot PUnit := ExceptT.lift (.op (.note (.print text)) .pure)

/-- The `?` operator. -/
def follow {α : Type} (result : Except AnyhowError α) : Boot α := ExceptT.mk (.pure result)

/-! ## The code -/

/-- `var_os(key).is_some()`: any value counts, readable or not. -/
def isSet (env : Environment) (key : String) : Bool := env key ≠ .error .notPresent

/-- Exposure is a deployment signal. -/
def exposeExternally (process : Environment) : Bool := isSet process "HEROKU" || isSet process "DEV_DOCKER"

/-- JSON logs are asked for; an unreadable `RUST_LOG_FORMAT` falls back to compact ones. -/
def logsJson (env : Environment) : Bool := (var env "RUST_LOG_FORMAT").toOption.join = some "json"

section

variable (unreadable : VarError → AnyhowError) (debug : String → String) (defaultHost : String)

/-- `error_tracking::init`, as part of the process. -/
def initTracking (config : PostHogConfig) : Boot Unit :=
  ExceptT.lift ((loggedInit debug defaultHost config).embed (Theory.Noted.widen .tracking .line)
    (Theory.Noted.widenBack fun _ => id))

/-- The settings of a start: what is read from the environment, and the settings the
Kafka client will be created from, with its topic. -/
def settingsOf (expose : Bool) (env : Environment) :
    Except AnyhowError (Server × KafkaProducer ClientConfig) := do
  let config ← Server.fromEnvironment unreadable expose env
  let producer ← KafkaProducer.fromConfig .ok debug config.kafka
  return (config, producer)

variable (load : Environment → Environment)

def main (process : Environment) : Boot Unit := do
  let expose := exposeExternally process
  let env := load process
  let _ ← perform (.subscribe (logsJson env))
  let config ← follow (Server.fromEnvironment unreadable expose env)
  let producer ← follow (KafkaProducer.fromConfig .ok debug config.kafka)
  follow (← perform (.createClient producer.client))
  follow (← perform .buildRuntime)
  initTracking debug defaultHost config.posthog
  follow (← perform (.bind config.ip config.port))
  let addr ← follow (← perform .localAddr)
  let _ ← print ("Listening at http://" ++ addr)
  let result ← perform (.serve ⟨config.maxBatchEvents⟩ producer.topic)
  let _ ← perform .shutdownTracking
  let _ ← perform (.flush 30)
  follow result
  let _ ← print "Server has gracefully shut down!"

/-! ## The itinerary -/

/-- The effects of a start, in order, those of the tracker aside. -/
def itinerary (process : Environment) : List BootEffect :=
  .subscribe (logsJson (load process)) ::
    match settingsOf unreadable debug (exposeExternally process) (load process) with
    | .error _ => []
    | .ok (config, producer) => [.createClient producer.client, .buildRuntime,
        .bind config.ip config.port, .localAddr, .serve ⟨config.maxBatchEvents⟩ producer.topic,
        .shutdownTracking, .flush 30]

/-- How far `main` has come: the effects of the itinerary it has performed, the error
one of them ended it with, and what serving came to. -/
structure Stage where
  passed : Nat
  failed : Option AnyhowError
  served : Option (Except AnyhowError Unit)

/-- The error an answer ends `main` with. Serving does not: it is drained first. -/
def failure : (effect : BootEffect) → effect.Answer → Option AnyhowError
  | .createClient _, .error e | .buildRuntime, .error e | .bind _ _, .error e | .localAddr, .error e =>
      some e
  | _, _ => none

def outcomeOf : (effect : BootEffect) → effect.Answer → Option (Except AnyhowError Unit)
  | .serve _ _, result => some result
  | _, _ => none

def isTracking : BootEffect → Bool
  | .tracking _ => true
  | _ => false

/-- What may be done at a stage: the tracker is set up between the runtime and the
address, everything else in its place. -/
def Stage.allows (plan : List BootEffect) (s : Stage) : NotedEffect → Prop
  | .note _ => True
  | .act effect => s.failed = none ∧
      if isTracking effect then s.passed = 3 else plan[s.passed]? = some effect

def Stage.next (s : Stage) : (effect : NotedEffect) → effect.Answer → Stage
  | .note _, _ => s
  | .act effect, answer =>
      if isTracking effect then s
      else ⟨s.passed + 1, failure effect answer, s.served.or (outcomeOf effect answer)⟩

/-- `main` goes by the plan. -/
def travel (plan : List BootEffect) : Protocol Stage NotedEffect NotedEffect.Answer :=
  ⟨Stage.allows plan, Stage.next⟩

variable {unreadable : VarError → AnyhowError} {debug : String → String} {defaultHost : String}
  {load : Environment → Environment} {process : Environment}

theorem settingsOf_eq_ok_iff {expose : Bool} {env : Environment} {config : Server}
    {producer : KafkaProducer ClientConfig} :
    settingsOf unreadable debug expose env = .ok (config, producer) ↔
      Server.fromEnvironment unreadable expose env = .ok config ∧
        KafkaProducer.fromConfig .ok debug config.kafka = .ok producer := by
  unfold settingsOf
  simp only [bind_eq_ok_iff, pure, Except.pure, Except.ok.injEq, Prod.mk.injEq]
  constructor
  · rintro ⟨config', started, producer', built, rfl, rfl⟩
    exact ⟨started, built⟩
  · rintro ⟨started, built⟩
    exact ⟨config, started, producer, built, rfl, rfl⟩

variable (unreadable debug load process) in
/-- How `main` ends at a stage: with the error it met, with the settings it could not
read, or, the whole plan behind it, with what serving came to. -/
def Arrives (s : Stage) (result : Except AnyhowError Unit) : Prop :=
  (∃ e, s.failed = some e ∧ s.served = none ∧ result = .error e) ∨
  (s.failed = none ∧ s.served = none ∧ ∃ e, result = .error e ∧
    settingsOf unreadable debug (exposeExternally process) (load process) = .error e) ∨
  (s.failed = none ∧ s.served = some result ∧
    s.passed = (itinerary unreadable debug load process).length)

/-- The tracker is set up in passing. -/
theorem wp_initTracking {plan : List BootEffect} {config : PostHogConfig}
    {post : Stage → Except AnyhowError Unit → Prop} (onward : post ⟨3, none, none⟩ (.ok ())) :
    (travel plan).wp post (initTracking debug defaultHost config).run ⟨3, none, none⟩ := by
  have setting (sink : ExceptionSink) : (travel plan).wp post
      (ExceptT.lift ((setSink sink).embed (Theory.Noted.widen .tracking .line)
        (Theory.Noted.widenBack fun _ => id)) : Boot Unit).run ⟨3, none, none⟩ := by
    refine ⟨⟨rfl, rfl⟩, fun free => ?_⟩
    cases free with
    | true => exact onward
    | false => exact ⟨trivial, fun _ => onward⟩
  unfold initTracking loggedInit
  cases config.active with
  | none => exact ⟨trivial, fun _ => setting noopSink⟩
  | some active => exact ⟨⟨rfl, rfl⟩, fun result => ⟨trivial, fun _ => setting (sinkAfter result)⟩⟩

/-- **`main` goes by its itinerary.** -/
theorem wp_main : (travel (itinerary unreadable debug load process)).wp
    (Arrives unreadable debug load process)
    (main unreadable debug defaultHost load process).run ⟨0, none, none⟩ := by
  unfold main
  refine Protocol.wpE_bind.mpr ⟨⟨rfl, rfl⟩, fun _ => ?_⟩
  cases started : Server.fromEnvironment unreadable (exposeExternally process) (load process) with
  | error e =>
      have refused : settingsOf unreadable debug (exposeExternally process) (load process) = .error e := by
        simp [settingsOf, started, bind, Except.bind]
      exact .inr (.inl ⟨rfl, rfl, e, rfl, refused⟩)
  | ok config =>
      cases built : KafkaProducer.fromConfig .ok debug config.kafka with
      | error e =>
          have refused : settingsOf unreadable debug (exposeExternally process) (load process) = .error e := by
            simp [settingsOf, started, built, bind, Except.bind]
          refine Protocol.wpE_bind.mpr ?_
          refine Protocol.wpE_bind.mpr ?_
          rw [built]
          exact .inr (.inl ⟨rfl, rfl, e, rfl, refused⟩)
      | ok producer =>
          have settled := settingsOf_eq_ok_iff.mpr ⟨started, built⟩
          -- The plan, and with it the next effect of each stage.
          generalize planned : itinerary unreadable debug load process = plan
          simp only [itinerary, settled] at planned
          have finished {result : Except AnyhowError Unit} :
              Arrives unreadable debug load process ⟨8, none, some result⟩ result := by
            refine .inr (.inr ⟨rfl, rfl, ?_⟩)
            simp only [itinerary, settled]
            rfl
          subst planned
          refine Protocol.wpE_bind.mpr ?_
          refine Protocol.wpE_bind.mpr ?_
          rw [built]
          refine Protocol.wpE_bind.mpr ⟨⟨rfl, rfl⟩, ?_⟩
          rintro (e | ⟨⟩)
          · exact .inl ⟨e, rfl, rfl, rfl⟩
          refine Protocol.wpE_bind.mpr ⟨⟨rfl, rfl⟩, ?_⟩
          rintro (e | ⟨⟩)
          · exact .inl ⟨e, rfl, rfl, rfl⟩
          refine Protocol.wpE_bind.mpr (Protocol.wpE_bind.mpr (wp_initTracking ?_))
          refine Protocol.wpE_bind.mpr ⟨⟨rfl, rfl⟩, ?_⟩
          rintro (e | ⟨⟩)
          · exact .inl ⟨e, rfl, rfl, rfl⟩
          refine Protocol.wpE_bind.mpr ⟨⟨rfl, rfl⟩, ?_⟩
          rintro (e | addr)
          · exact .inl ⟨e, rfl, rfl, rfl⟩
          refine Protocol.wpE_bind.mpr ⟨trivial, fun _ => ?_⟩
          refine Protocol.wpE_bind.mpr ⟨⟨rfl, rfl⟩, fun result => ?_⟩
          refine Protocol.wpE_bind.mpr ⟨⟨rfl, rfl⟩, fun _ => ?_⟩
          refine Protocol.wpE_bind.mpr ⟨⟨rfl, rfl⟩, fun _ => ?_⟩
          rcases result with e | ⟨⟩
          · exact finished
          · exact ⟨trivial, fun _ => finished⟩

/-! ## What it means for a run -/

abbrev BootEvent := Event NotedEffect NotedEffect.Answer

/-- The effects performed, in order, those of the tracker aside. -/
def performed (events : List BootEvent) : List BootEffect :=
  ((acts events).map Sigma.fst).filter fun effect => !isTracking effect

theorem performed_append (first later : List BootEvent) :
    performed (first ++ later) = performed first ++ performed later := by
  simp [performed]

/-- What serving came to, each time. -/
def outcomes (events : List BootEvent) : List (Except AnyhowError Unit) :=
  (acts events).filterMap fun event => outcomeOf event.1 event.2

theorem outcomes_append (first later : List BootEvent) :
    outcomes (first ++ later) = outcomes first ++ outcomes later := by
  simp [outcomes]

/-- A stage of the plan, and what has been performed when it is reached. -/
structure Reached (plan : List BootEffect) (s : Stage) (events : List BootEvent) : Prop where
  performed : performed events = plan.take s.passed
  passed : s.passed ≤ plan.length
  served : s.served = (outcomes events).head?

theorem reached_of_follows {plan : List BootEffect} {events : List BootEvent}
    (follows : (travel plan).Follows ⟨0, none, none⟩ events) :
    Reached plan ((travel plan).after ⟨0, none, none⟩ events) events := by
  refine Protocol.Follows.invariant (Reached plan) ⟨rfl, Nat.zero_le _, rfl⟩ ?_ follows
  intro s h effect answer reached allowed
  obtain ⟨done, within, served⟩ := reached
  cases effect with
  | note output =>
      refine ⟨?_, within, ?_⟩
      · rw [performed_append, done]
        exact List.append_nil _
      · rw [outcomes_append]
        exact served.trans (congrArg _ (List.append_nil _).symm)
  | act effect =>
      obtain ⟨-, allowed⟩ := allowed
      change Reached plan (s.next (.act effect) answer) _
      cases tracks : isTracking effect with
      | true =>
          have stays : s.next (.act effect) answer = s := if_pos tracks
          have quiet : outcomeOf effect answer = none := by
            cases effect <;> first | rfl | cases tracks
          rw [stays]
          refine ⟨?_, within, ?_⟩
          · rw [performed_append, done]
            simp [performed, tracks]
          · rw [outcomes_append, served]
            simp [outcomes, quiet]
      | false =>
          have moves : s.next (.act effect) answer =
              ⟨s.passed + 1, failure effect answer, s.served.or (outcomeOf effect answer)⟩ :=
            if_neg (by simp [tracks])
          rw [if_neg (by simp [tracks])] at allowed
          obtain ⟨inside, here⟩ := List.getElem?_eq_some_iff.mp allowed
          rw [moves]
          refine ⟨?_, inside, ?_⟩
          · rw [performed_append, done, List.take_add_one, allowed]
            simp [performed, tracks]
          · rw [outcomes_append, List.head?_append, ← served]
            cases came : outcomeOf effect answer <;> simp [outcomes, came]

theorem exposeExternally_iff : exposeExternally process = true ↔
    process "HEROKU" ≠ .error .notPresent ∨ process "DEV_DOCKER" ≠ .error .notPresent := by
  simp [exposeExternally, isSet]

/-- The itinerary binds the address of the settings, if there are any. -/
theorem bind_of_itinerary {ip : Ipv4Addr} {port : Nat}
    (planned : .bind ip port ∈ itinerary unreadable debug load process) :
    ip = bindIp (exposeExternally process) ∧ ∃ config,
      Server.fromEnvironment unreadable (exposeExternally process) (load process) = .ok config ∧
        port = config.port := by
  unfold itinerary at planned
  split at planned
  · simp at planned
  · next config producer settled =>
      obtain ⟨started, -⟩ := settingsOf_eq_ok_iff.mp settled
      obtain ⟨ip_eq, -⟩ := fromEnvironment_eq_ok_iff.mp started
      simp only [List.mem_cons, reduceCtorEq, false_or, BootEffect.bind.injEq, List.not_mem_nil,
        or_false] at planned
      obtain ⟨rfl, rfl⟩ := planned
      exact ⟨ip_eq, config, started, rfl⟩

theorem bindIp_eq_unspecified_iff {expose : Bool} : bindIp expose = .unspecified ↔ expose = true := by
  cases expose <;> decide

/-- **The process goes by its itinerary.** At every moment it has performed a prefix of it. An
address it binds is the unspecified one exactly if the real environment asks for exposure,
whatever a `.env` file says. When it ends, it has either not served and failed, or been through
the whole itinerary, drain included, and exits with what serving came to. -/
theorem boot_itinerary (unreadable : VarError → AnyhowError) (debug : String → String)
    (defaultHost : String) (load : Environment → Environment) (process : Environment)
    (events : List BootEvent) (rest : Prog NotedEffect NotedEffect.Answer (Except AnyhowError Unit))
    (steps : Prog.Steps (main unreadable debug defaultHost load process).run events rest) :
    performed events <+: itinerary unreadable debug load process ∧
    (∀ ip port, .bind ip port ∈ performed events →
      (ip = .unspecified ↔
        process "HEROKU" ≠ .error .notPresent ∨ process "DEV_DOCKER" ≠ .error .notPresent) ∧
      (ip = .unspecified ∨ ip = .localhost)) ∧
    ∀ result, rest = .pure result →
      (outcomes events = [] ∧ ∃ e, result = .error e) ∨
      (performed events = itinerary unreadable debug load process ∧
        (outcomes events).head? = some result) := by
  obtain ⟨follows, onward⟩ := Protocol.wp_steps wp_main steps
  obtain ⟨done, within, served⟩ := reached_of_follows follows
  refine ⟨?_, ?_, ?_⟩
  · rw [done]
    exact List.take_prefix _ _
  · intro ip port bound
    rw [done] at bound
    obtain ⟨address, -⟩ := bind_of_itinerary (List.mem_of_mem_take bound)
    rw [address]
    refine ⟨bindIp_eq_unspecified_iff.trans exposeExternally_iff, ?_⟩
    cases exposeExternally process with
    | false => exact .inr rfl
    | true => exact .inl rfl
  · rintro result rfl
    change Arrives unreadable debug load process _ result at onward
    rcases onward with ⟨e, -, none, rfl⟩ | ⟨-, none, e, rfl, -⟩ | ⟨-, some, whole⟩
    · rw [none] at served
      exact .inl ⟨List.head?_eq_none_iff.mp served.symm, e, rfl⟩
    · rw [none] at served
      exact .inl ⟨List.head?_eq_none_iff.mp served.symm, e, rfl⟩
    · rw [some] at served
      rw [whole, List.take_length] at done
      exact .inr ⟨done, served.symm⟩

/-- The least environment that starts. -/
def oneBroker : Environment := readable fun key =>
  if key = "KAFKA_BROKERS" then some "localhost:9092" else none

/-- An outside world in which everything works, until serving fails. -/
def servingFails : (effect : NotedEffect) → Unit → effect.Answer × Unit
  | .note _, _ => (⟨⟩, ())
  | .act effect, _ => match effect with
    | .subscribe _ | .shutdownTracking | .flush _ => ((), ())
    | .createClient _ | .buildRuntime | .bind _ _ => (.ok (), ())
    | .localAddr => (.ok "127.0.0.1:8888", ())
    | .serve _ _ => (.error ⟨"accept failed", []⟩, ())
    | .tracking (.setSink _) => (true, ())
    | .tracking (.initGlobal _) => (.ok (), ())
    | .tracking (.serving .now) => (.epoch, ())
    | .tracking (.serving (.produce _)) => (.ok (), ())
    | .tracking (.serving (.report _)) => ((), ())

/-- When serving fails, the process drains all the same, and exits with that failure. -/
theorem boot_itinerary_serving_fails :
    ∃ events, Prog.Returns (main (fun _ => ⟨"unreadable", []⟩) id "https://localhost" id oneBroker).run
        events (.error ⟨"accept failed", []⟩) ∧
      performed events = itinerary (fun _ => ⟨"unreadable", []⟩) id id oneBroker ∧
      (outcomes events).head? = some (.error ⟨"accept failed", []⟩) := by
  let start := (main (fun _ => ⟨"unreadable", []⟩) id "https://localhost" id oneBroker).run
  have returned := Prog.interp_returns servingFails start ()
  have failed : (start.interp servingFails ()).1 = .error ⟨"accept failed", []⟩ := by decide +kernel
  have served : outcomes (start.interp servingFails ()).2.1 ≠ [] := by decide +kernel
  rw [failed] at returned
  obtain ⟨-, -, ends⟩ := boot_itinerary _ _ _ _ _ _ _ returned
  rcases ends _ rfl with ⟨none, -⟩ | drained
  · exact absurd none served
  · exact ⟨_, returned, drained⟩

end

end CountingSheep.Bin
