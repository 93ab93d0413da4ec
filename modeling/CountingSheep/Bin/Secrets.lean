/-
# CountingSheep.Bin.Secrets — what the secrets in the environment can influence

Two starts of the process whose environments differ only in what
`POSTHOG_API_KEY` and `KAFKA_SASL_PASSWORD` are, both set to readable text in
either. `Alike` says what of an effect may be told apart: everything but the
password in the settings of the Kafka client, and the key of the PostHog client.

* `main_matched`: the two starts run in lockstep.
* `secrets_kept`: every run of one is a run of the other with the same answers.
  What is logged and printed, what is bound and served, and the error the process
  exits with are the same; the secrets reach the two clients and nobody else.
-/
import CountingSheep.Bin.Server
import CountingSheep.Theory.Matched

namespace CountingSheep.Bin

open Rust Config Ingest Observability
open Theory (Prog Event Noted)
open Theory.Prog (Matched SameExit SameEvent NotedAlike sameAnswer exists_sameAnswer notes_eq_of_same)
open Theory.Noted (notes)

set_option autoImplicit false

/-- The variables whose values are secret. -/
def secrets : List String := ["POSTHOG_API_KEY", "KAFKA_SASL_PASSWORD"]

/-- The same settings, but for what the secrets are. -/
def SameButSecrets (env env' : Environment) : Prop :=
  ∀ key, env key = env' key ∨
    (key ∈ secrets ∧ (∃ value, Configured env key value) ∧ ∃ value, Configured env' key value)

/-! ## What may be told apart -/

/-- Effects that differ at most in a secret. -/
inductive Alike : BootEffect → BootEffect → Prop where
  | same (effect : BootEffect) : Alike effect effect
  | createClient {settings settings' : ClientConfig}
      (rest : ∀ key, key ≠ "sasl.password" → settings.get key = settings'.get key) :
      Alike (.createClient settings) (.createClient settings')
  | initGlobal {active active' : ActivePostHog} (host : active.host = active'.host) :
      Alike (.tracking (.initGlobal active)) (.tracking (.initGlobal active'))

theorem Alike.typed (effect effect' : BootEffect) (alike : Alike effect effect') :
    effect.Answer = effect'.Answer := by
  cases alike <;> rfl

/-! ## The settings -/

/-- Settings that differ at most in the key. -/
structure PostHogAlike (config config' : PostHogConfig) : Prop where
  enabled : config.enabled = config'.enabled
  host : config.host = config'.host
  apiKey : config.apiKey.isSome = config'.apiKey.isSome

/-- Settings that differ at most in the password. -/
structure KafkaAlike (config config' : KafkaConfig) : Prop where
  rest : { config with saslPassword := none } = { config' with saslPassword := none }
  saslPassword : config.saslPassword.isSome = config'.saslPassword.isSome

structure ServerAlike (config config' : Server) : Prop where
  ip : config.ip = config'.ip
  port : config.port = config'.port
  maxBatchEvents : config.maxBatchEvents = config'.maxBatchEvents
  posthog : PostHogAlike config.posthog config'.posthog
  kafka : KafkaAlike config.kafka config'.kafka

section Settings

variable {env env' : Environment}

theorem SameButSecrets.eq (same : SameButSecrets env env') (key : String) (shown : key ∉ secrets) :
    env key = env' key := by
  rcases same key with same | ⟨secret, -⟩
  · exact same
  · exact absurd secret shown

theorem SameButSecrets.var (same : SameButSecrets env env') (key : String) (shown : key ∉ secrets) :
    var env key = var env' key := by
  unfold Config.var
  rw [same.eq key shown]

theorem SameButSecrets.setting (same : SameButSecrets env env') (key : String) (shown : key ∉ secrets) :
    setting env key = setting env' key := by
  rw [Config.setting, Config.setting, same.var key shown]

theorem isSome_of_configured {key value : String} (configured : Configured env key value) :
    ∃ content, Config.var env key = .ok content ∧ (nonBlank content).isSome = true := by
  obtain ⟨held, notBlank⟩ := configured
  refine ⟨some value, var_eq_some_iff.mpr held, ?_⟩
  rw [nonBlank_eq_some_iff.mpr ⟨rfl, notBlank⟩]
  rfl

/-- A variable is unreadable in both, blank in both, or readable and not blank in both. -/
theorem SameButSecrets.var_secret (same : SameButSecrets env env') (key : String) :
    SameExit (fun value value' => (nonBlank value).isSome = (nonBlank value').isSome)
      (Config.var env key) (Config.var env' key) := by
  rcases same key with same | ⟨-, ⟨value, configured⟩, value', configured'⟩
  · have read : Config.var env key = Config.var env' key := by
      unfold Config.var
      rw [same]
    rw [read]
    cases Config.var env' key with
    | error e => exact .error e
    | ok value => exact .ok rfl
  · obtain ⟨content, read, there⟩ := isSome_of_configured configured
    obtain ⟨content', read', there'⟩ := isSome_of_configured configured'
    rw [read, read']
    exact .ok (there.trans there'.symm)

theorem setting_isSome {key : String}
    (same : SameExit (fun value value' => (nonBlank value).isSome = (nonBlank value').isSome)
      (Config.var env key) (Config.var env' key)) :
    (Config.setting env key).isSome = (Config.setting env' key).isSome := by
  unfold Config.setting
  generalize Config.var env key = read at same ⊢
  generalize Config.var env' key = read' at same ⊢
  cases same with
  | error e => rfl
  | ok there => exact there

theorem posthog_alike (same : SameButSecrets env env') :
    SameExit PostHogAlike (PostHogConfig.fromEnvironment env) (PostHogConfig.fromEnvironment env') := by
  unfold PostHogConfig.fromEnvironment
  rw [same.var "POSTHOG_ENABLED" (by decide), same.var "POSTHOG_HOST" (by decide)]
  refine (same.var_secret "POSTHOG_API_KEY").bind fun value value' key => ?_
  cases var env' "POSTHOG_ENABLED" with
  | error e => exact .error e
  | ok flag =>
      cases var env' "POSTHOG_HOST" with
      | error e => exact .error e
      | ok host => exact .ok ⟨rfl, rfl, key⟩

theorem kafka_alike (same : SameButSecrets env env') :
    KafkaAlike (KafkaConfig.fromEnvironment env) (KafkaConfig.fromEnvironment env') := by
  constructor
  · simp only [KafkaConfig.fromEnvironment, same.setting "KAFKA_BROKERS" (by decide),
      same.setting "KAFKA_TOPIC" (by decide), same.setting "KAFKA_CLIENT_ID" (by decide),
      same.setting "KAFKA_SECURITY_PROTOCOL" (by decide),
      same.setting "KAFKA_SASL_MECHANISM" (by decide), same.setting "KAFKA_SASL_USERNAME" (by decide)]
  · exact setting_isSome (same.var_secret "KAFKA_SASL_PASSWORD")

theorem server_alike {unreadable : VarError → AnyhowError} {expose : Bool} (same : SameButSecrets env env') :
    SameExit ServerAlike (Server.fromEnvironment unreadable expose env)
      (Server.fromEnvironment unreadable expose env') := by
  unfold Server.fromEnvironment
  rw [same.var "PORT" (by decide), same.var "MAX_BATCH_EVENTS" (by decide)]
  apply SameExit.bind_same _
  intro portValue
  apply SameExit.bind_same _
  intro port
  apply SameExit.bind_same _
  intro capValue
  apply SameExit.bind_same _
  intro cap
  refine ((posthog_alike same).mapError unreadable).bind fun posthog posthog' alike => ?_
  exact .ok ⟨rfl, rfl, rfl, alike, kafka_alike same⟩

/-! ## The Kafka client -/

/-- Credentials that differ at most in the password. -/
inductive SaslAlike : Option (String × String × String) → Option (String × String × String) → Prop where
  | none : SaslAlike none none
  | some (mechanism username password password' : String) :
      SaslAlike (some (mechanism, username, password)) (some (mechanism, username, password'))

theorem sasl_alike {config config' : KafkaConfig} (alike : KafkaAlike config config') :
    SaslAlike config.sasl config'.sasl := by
  obtain ⟨brokers, topic, clientId, protocol, mechanism, username, password⟩ := config
  obtain ⟨brokers', topic', clientId', protocol', mechanism', username', password'⟩ := config'
  obtain ⟨rest, there⟩ := alike
  simp only [KafkaConfig.mk.injEq, and_true] at rest
  obtain ⟨-, -, -, -, rfl, rfl⟩ := rest
  cases mechanism with
  | none => exact .none
  | some mechanism =>
      cases username with
      | none => exact .none
      | some username =>
          cases password with
          | none =>
              cases password' with
              | none => exact .none
              | some password' => cases there
          | some password =>
              cases password' with
              | none => cases there
              | some password' => exact .some mechanism username password password'

theorem baseSettings_alike {config config' : KafkaConfig} (alike : KafkaAlike config config') :
    baseSettings config = baseSettings config' := by
  have rest := alike.rest
  simp only [KafkaConfig.mk.injEq, and_true] at rest
  obtain ⟨brokers, -, clientId, protocol, -, -⟩ := rest
  rw [baseSettings, baseSettings, brokers, clientId, protocol]

theorem withCredentials_get {settings : ClientConfig} {mechanism username password password' key : String}
    (shown : key ≠ "sasl.password") :
    (withCredentials settings mechanism username password).get key =
      (withCredentials settings mechanism username password').get key := by
  simp only [withCredentials, ClientConfig.get_set, if_neg shown]

/-- Producers whose clients' settings differ at most in the password. -/
structure ProducerAlike (producer producer' : KafkaProducer ClientConfig) : Prop where
  settings : ∀ key, key ≠ "sasl.password" → producer.client.get key = producer'.client.get key
  topic : producer.topic = producer'.topic

theorem fromConfig_alike {debug : String → String} {config config' : KafkaConfig}
    (alike : KafkaAlike config config') :
    SameExit ProducerAlike (KafkaProducer.fromConfig .ok debug config)
      (KafkaProducer.fromConfig .ok debug config') := by
  have rest := alike.rest
  simp only [KafkaConfig.mk.injEq, and_true] at rest
  obtain ⟨brokers, topic, -, protocol, -, -⟩ := rest
  have credentials := sasl_alike alike
  unfold KafkaProducer.fromConfig
  rw [brokers, protocol, topic, baseSettings_alike alike]
  by_cases empty : config'.brokers = ""
  · rw [if_pos empty, if_pos empty]
    exact .error _
  · rw [if_neg empty, if_neg empty]
    generalize config.sasl = sasl at credentials ⊢
    generalize config'.sasl = sasl' at credentials ⊢
    cases credentials with
    | none => exact .ok ⟨fun _ _ => rfl, rfl⟩
    | some mechanism username password password' =>
        cases fits : namesSasl config'.securityProtocol with
        | false => exact .error _
        | true => exact .ok ⟨fun key shown => withCredentials_get shown, rfl⟩

end Settings

/-! ## The two starts -/

section

variable {unreadable : VarError → AnyhowError} {debug : String → String} {defaultHost : String}

/-- Two starts in lockstep. -/
abbrev Lockstep {α β : Type} (ends : α → β → Prop) (p : Boot α) (q : Boot β) : Prop :=
  Matched (NotedAlike Alike) sameAnswer (SameExit ends) p.run q.run

theorem perform_same (effect : BootEffect) : Lockstep Eq (perform effect) (perform effect) :=
  .op (.act (.same _)) fun _ _ same => .pure (.ok (eq_of_heq same))

theorem print_same (text : String) : Lockstep Eq (print text) (print text) :=
  .op (.note _) fun _ _ _ => .pure (.ok rfl)

theorem createClient_matched {settings settings' : ClientConfig}
    (alike : ∀ key, key ≠ "sasl.password" → settings.get key = settings'.get key) :
    Lockstep Eq (perform (.createClient settings)) (perform (.createClient settings')) :=
  .op (.act (.createClient alike)) fun _ _ same => .pure (.ok (eq_of_heq same))

theorem follow_same {α : Type} (result : Except AnyhowError α) :
    Lockstep Eq (follow result) (follow result) := by
  cases result with
  | error e => exact .pure (.error e)
  | ok a => exact .pure (.ok rfl)

/-- A call of `SINK.set`, as part of the process. -/
def setSinkTracking (sink : ExceptionSink) : Boot Unit :=
  ExceptT.lift ((setSink sink).embed (Theory.Noted.widen .tracking .line)
    (Theory.Noted.widenBack fun _ => id))

theorem setSink_same (sink : ExceptionSink) :
    Lockstep Eq (setSinkTracking sink) (setSinkTracking sink) := by
  refine .op (.act (.same _)) fun free free' same => ?_
  obtain rfl := eq_of_heq same
  cases free with
  | true => exact .pure (.ok rfl)
  | false => exact .op (.note _) fun _ _ _ => .pure (.ok rfl)

theorem disabledLine_alike {config config' : PostHogConfig} (alike : PostHogAlike config config') :
    disabledLine debug config = disabledLine debug config' := by
  obtain ⟨enabled, -, key⟩ := alike
  have none : config.apiKey.isNone = config'.apiKey.isNone := by
    rw [← Option.not_isSome, ← Option.not_isSome, key]
  rw [disabledLine, disabledLine, PostHogConfig.disabledReason, PostHogConfig.disabledReason, enabled, none]

/-- Wanted in both or in neither. -/
inductive ActiveAlike : Option ActivePostHog → Option ActivePostHog → Prop where
  | none : ActiveAlike none none
  | some {active active' : ActivePostHog} (host : active.host = active'.host) :
      ActiveAlike (some active) (some active')

theorem active_alike {config config' : PostHogConfig} (alike : PostHogAlike config config') :
    ActiveAlike config.active config'.active := by
  obtain ⟨apiKey, enabled, host⟩ := config
  obtain ⟨apiKey', enabled', host'⟩ := config'
  obtain ⟨rfl, rfl, key⟩ := alike
  by_cases on : enabled = .on
  · subst on
    cases apiKey with
    | none =>
        cases apiKey' with
        | none => exact .none
        | some key' => cases key
    | some key =>
        cases apiKey' with
        | none => cases key
        | some key' => exact .some rfl
  · rw [PostHogConfig.active, PostHogConfig.active, if_pos on, if_pos on]
    exact .none

theorem initTracking_matched {config config' : PostHogConfig} (alike : PostHogAlike config config') :
    Lockstep Eq (initTracking debug defaultHost config) (initTracking debug defaultHost config') := by
  have wanted := active_alike alike
  unfold initTracking loggedInit
  rw [disabledLine_alike alike]
  generalize config.active = active at wanted ⊢
  generalize config'.active = active' at wanted ⊢
  cases wanted with
  | none => exact .op (.note _) fun _ _ _ => setSink_same noopSink
  | @some active active' same =>
      obtain ⟨apiKey, host⟩ := active
      obtain ⟨apiKey', host'⟩ := active'
      obtain rfl : host = host' := same
      refine .op (.act (.initGlobal rfl)) fun result result' same => ?_
      obtain rfl := eq_of_heq same
      -- The status line shows the host, and no key.
      rcases result with error | ⟨⟩
      · exact .op (.note _) fun _ _ _ => setSink_same noopSink
      · exact .op (.note _) fun _ _ _ => setSink_same posthogSink

/-- **The two starts run in lockstep.** -/
theorem main_matched {process process' : Environment} {load load' : Environment → Environment}
    (same : SameButSecrets process process') (loaded : SameButSecrets (load process) (load' process')) :
    Lockstep Eq (main unreadable debug defaultHost load process)
      (main unreadable debug defaultHost load' process') := by
  have expose : exposeExternally process = exposeExternally process' := by
    rw [exposeExternally, exposeExternally, isSet, isSet, same.eq "HEROKU" (by decide),
      same.eq "DEV_DOCKER" (by decide)]
    rfl
  have json : logsJson (load process) = logsJson (load' process') := by
    rw [logsJson, logsJson, loaded.var "RUST_LOG_FORMAT" (by decide)]
  unfold main
  simp only [expose]
  rw [json]
  refine (perform_same _).bindE fun _ _ _ => ?_
  refine Matched.bindE (.pure (server_alike loaded)) fun config config' alike => ?_
  refine Matched.bindE (.pure (fromConfig_alike alike.kafka)) fun producer producer' built => ?_
  rw [alike.ip, alike.port, alike.maxBatchEvents, built.topic]
  refine (createClient_matched built.settings).bindE ?_
  rintro created _ rfl
  refine (follow_same created).bindE fun _ _ _ => ?_
  refine (perform_same _).bindE ?_
  rintro running _ rfl
  refine (follow_same running).bindE fun _ _ _ => ?_
  refine (initTracking_matched alike.posthog).bindE fun _ _ _ => ?_
  refine (perform_same _).bindE ?_
  rintro bound _ rfl
  refine (follow_same bound).bindE fun _ _ _ => ?_
  refine (perform_same _).bindE ?_
  rintro address _ rfl
  refine (follow_same address).bindE ?_
  rintro addr _ rfl
  refine (print_same _).bindE fun _ _ _ => ?_
  refine (perform_same _).bindE ?_
  rintro result _ rfl
  refine (perform_same _).bindE fun _ _ _ => ?_
  refine (perform_same _).bindE fun _ _ _ => ?_
  refine (follow_same result).bindE fun _ _ _ => ?_
  refine (print_same _).bindE fun _ _ _ => .pure (.ok rfl)

/-- **The secrets reach nobody but the two clients.** Whatever one start does, the other does with
the same answers: it writes the same lines, and exits exactly when that one does, with the same
result. An effect of one differs from that of the other at most in the password the Kafka client
is created with, or in the key the PostHog client is built with. -/
theorem secrets_kept (unreadable : VarError → AnyhowError) (debug : String → String)
    (defaultHost : String) (load load' : Environment → Environment) (process process' : Environment)
    (same : SameButSecrets process process') (loaded : SameButSecrets (load process) (load' process'))
    (events : List BootEvent) (rest : Prog NotedEffect NotedEffect.Answer (Except AnyhowError Unit))
    (steps : Prog.Steps (main unreadable debug defaultHost load process).run events rest) :
    ∃ events' rest', Prog.Steps (main unreadable debug defaultHost load' process').run events' rest' ∧
      List.Forall₂ (SameEvent (NotedAlike Alike) sameAnswer) events events' ∧ notes events = notes events' ∧
      ∀ result, rest = .pure result ↔ rest' = .pure result := by
  obtain ⟨events', rest', steps', events_same, ends⟩ :=
    (main_matched same loaded).steps (exists_sameAnswer (NotedAlike.typed Alike.typed)) steps
  refine ⟨events', rest', steps', events_same, notes_eq_of_same events_same, fun result => ?_⟩
  cases ends with
  | op _ _ => simp
  | pure ended =>
      cases ended with
      | error stop => rfl
      | ok ended =>
          cases ended
          rfl

/-- Credentials over TLS, with these secrets. -/
def withSecrets (apiKey password : String) : Environment := readable fun key =>
  if key = "POSTHOG_API_KEY" then some apiKey
  else if key = "KAFKA_SASL_PASSWORD" then some password
  else if key = "KAFKA_BROKERS" then some "broker:9096"
  else if key = "KAFKA_SECURITY_PROTOCOL" then some "SASL_SSL"
  else if key = "KAFKA_SASL_MECHANISM" then some "SCRAM-SHA-512"
  else if key = "KAFKA_SASL_USERNAME" then some "sheep"
  else none

theorem withSecrets_same {apiKey password apiKey' password' : String} (key : ¬ Blank apiKey)
    (secret : ¬ Blank password) (key' : ¬ Blank apiKey') (secret' : ¬ Blank password') :
    SameButSecrets (withSecrets apiKey password) (withSecrets apiKey' password') := by
  intro name
  by_cases apiName : name = "POSTHOG_API_KEY"
  · subst apiName
    exact .inr ⟨by decide, ⟨apiKey, rfl, key⟩, apiKey', rfl, key'⟩
  by_cases passwordName : name = "KAFKA_SASL_PASSWORD"
  · subst passwordName
    exact .inr ⟨by decide, ⟨password, rfl, secret⟩, password', rfl, secret'⟩
  · left
    simp only [withSecrets, readable, if_neg apiName, if_neg passwordName]

/-- A start that serves until serving fails, with other secrets. -/
theorem secrets_kept_serving_fails :
    ∃ events events', Prog.Returns (main (fun _ => ⟨"unreadable", []⟩) id "https://localhost" id
        (withSecrets "phc_key" "wool")).run events (.error ⟨"accept failed", []⟩) ∧
      Prog.Returns (main (fun _ => ⟨"unreadable", []⟩) id "https://localhost" id
        (withSecrets "phc_other" "fleece")).run events' (.error ⟨"accept failed", []⟩) ∧
      notes events = notes events' := by
  let start := (main (fun _ => ⟨"unreadable", []⟩) id "https://localhost" id
    (withSecrets "phc_key" "wool")).run
  have returned := Prog.interp_returns servingFails start ()
  have failed : (start.interp servingFails ()).1 = .error ⟨"accept failed", []⟩ := by decide +kernel
  rw [failed] at returned
  have notBlank (s : String) (c : Char) (member : c ∈ s.toList) (ink : isWhitespace c = false) :
      ¬ Blank s := fun blank => by simp [blank c member] at ink
  have same := withSecrets_same (notBlank "phc_key" 'p' (by decide) (by decide))
    (notBlank "wool" 'w' (by decide) (by decide)) (notBlank "phc_other" 'p' (by decide) (by decide))
    (notBlank "fleece" 'f' (by decide) (by decide))
  obtain ⟨events', rest', steps', -, written, ends⟩ :=
    secrets_kept _ _ _ id id _ _ same same _ _ returned
  obtain rfl := (ends _).mp rfl
  exact ⟨_, events', returned, steps', written⟩

end

end CountingSheep.Bin
