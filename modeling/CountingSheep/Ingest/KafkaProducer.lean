/-
# CountingSheep.Ingest.KafkaProducer — building the producer from its settings

`fromConfig` refuses an empty broker list, and credentials whose protocol would
ignore them; otherwise it hands librdkafka a map of settings. Creating a client
from that map is another crate's work and a parameter here, and so is how a string
is quoted in an error message.

* `clientSettings`: the map, with the credentials if there are any.
* `fromConfig_eq_ok_iff`: a producer is built exactly when both checks pass and a
  client is created from that map.
* `sasl_all_or_nothing`: over every environment, the client gets the three
  credentials that were set, or none.
-/
import CountingSheep.Config.Kafka
import CountingSheep.Observability.ErrorTracking
import CountingSheep.Theory.Json

namespace CountingSheep.Ingest

open Rust Config Observability

set_option autoImplicit false

/-- `rdkafka::ClientConfig`: a client's settings by name. -/
structure ClientConfig where
  settings : List (String × String)

namespace ClientConfig

def new : ClientConfig := ⟨[]⟩

def set (config : ClientConfig) (key value : String) : ClientConfig :=
  ⟨Theory.Json.insert key value config.settings⟩

def get (config : ClientConfig) (key : String) : Option String := config.settings.lookup key

@[simp] theorem get_new (key : String) : new.get key = none := rfl

theorem get_set (config : ClientConfig) (key query value : String) :
    (config.set key value).get query = if query = key then some value else config.get query :=
  Theory.Json.lookup_insert key query value config.settings

end ClientConfig

structure KafkaProducer (Client : Type) where
  client : Client
  topic : String

/-- The security protocol names SASL, in any ASCII case. -/
def namesSasl (securityProtocol : String) : Bool :=
  "sasl".toList <:+: securityProtocol.toList.map Char.toLower

/-- The settings every client gets. -/
def baseSettings (config : KafkaConfig) : ClientConfig :=
  ClientConfig.new
    |>.set "bootstrap.servers" config.brokers
    |>.set "client.id" config.clientId
    |>.set "security.protocol" config.securityProtocol
    |>.set "enable.idempotence" "true"
    |>.set "acks" "all"
    |>.set "compression.type" "lz4"
    |>.set "message.timeout.ms" "30000"

def withCredentials (settings : ClientConfig) (mechanism username password : String) : ClientConfig :=
  settings
    |>.set "sasl.mechanism" mechanism
    |>.set "sasl.username" username
    |>.set "sasl.password" password

section

variable {Client : Type} (create : ClientConfig → Except AnyhowError Client) (debug : String → String)

/-- Build the producer from config. -/
def KafkaProducer.fromConfig (config : KafkaConfig) : Except AnyhowError (KafkaProducer Client) := do
  if config.brokers = "" then
    throw ⟨"KAFKA_BROKERS must be set", []⟩
  let settings ← match config.sasl with
    | some (mechanism, username, password) =>
        if namesSasl config.securityProtocol then
          pure (withCredentials (baseSettings config) mechanism username password)
        else throw ⟨"KAFKA_SASL_* is set but KAFKA_SECURITY_PROTOCOL is " ++
          debug config.securityProtocol ++ "; set it to sasl_ssl or sasl_plaintext or librdkafka " ++
          "ignores the credentials", []⟩
    | none => pure (baseSettings config)
  let client ← create settings
  return ⟨client, config.topic⟩

/-- The settings a client is created from, once the checks have passed. -/
def clientSettings (config : KafkaConfig) : ClientConfig :=
  match config.sasl with
  | some (mechanism, username, password) =>
      withCredentials (baseSettings config) mechanism username password
  | none => baseSettings config

/-- Any credentials come with a protocol that uses them. -/
def ProtocolFits (config : KafkaConfig) : Prop :=
  ∀ credentials, config.sasl = some credentials → namesSasl config.securityProtocol = true

variable {create debug} {config : KafkaConfig} {producer : KafkaProducer Client}

theorem fromConfig_eq_ok_iff :
    KafkaProducer.fromConfig create debug config = .ok producer ↔
      config.brokers ≠ "" ∧ ProtocolFits config ∧
        create (clientSettings config) = .ok producer.client ∧ producer.topic = config.topic := by
  obtain ⟨client, topic⟩ := producer
  have finish : ∀ settings, ((fun client => KafkaProducer.mk client config.topic) <$> create settings) =
      Except.ok ⟨client, topic⟩ ↔ create settings = .ok client ∧ topic = config.topic := by
    intro settings
    cases create settings with
    | error e => simp [Functor.map, Except.map]
    | ok built => simp [Functor.map, Except.map, eq_comm]
  unfold KafkaProducer.fromConfig clientSettings ProtocolFits
  by_cases empty : config.brokers = ""
  · simp [empty, throw, throwThe, MonadExceptOf.throw, bind, Except.bind]
  · rw [if_neg empty]
    rcases config.sasl with _ | ⟨mechanism, username, password⟩
    · simpa [empty] using finish (baseSettings config)
    · by_cases sasl : namesSasl config.securityProtocol = true
      · simpa [empty, sasl] using finish (withCredentials (baseSettings config) mechanism username password)
      · simp [sasl, throw, throwThe, MonadExceptOf.throw, bind, Except.bind]

theorem fromConfig_of_no_brokers (empty : config.brokers = "") :
    KafkaProducer.fromConfig create debug config = .error ⟨"KAFKA_BROKERS must be set", []⟩ :=
  if_pos empty

theorem fromConfig_of_misfit (misfit : ¬ ProtocolFits config) :
    ∃ error, KafkaProducer.fromConfig create debug config = .error error := by
  cases built : KafkaProducer.fromConfig create debug config with
  | error e => exact ⟨e, rfl⟩
  | ok producer => exact absurd (fromConfig_eq_ok_iff.mp built).2.1 misfit

/-! ## The credentials a client gets -/

/-- The mechanism, user name and password a client is given. -/
def ClientConfig.credentials (settings : ClientConfig) : Option String × Option String × Option String :=
  (settings.get "sasl.mechanism", settings.get "sasl.username", settings.get "sasl.password")

theorem clientSettings_bootstrap (config : KafkaConfig) :
    (clientSettings config).get "bootstrap.servers" = some config.brokers := by
  unfold clientSettings
  split <;> simp [withCredentials, baseSettings, ClientConfig.get_set]

theorem clientSettings_protocol (config : KafkaConfig) :
    (clientSettings config).get "security.protocol" = some config.securityProtocol := by
  unfold clientSettings
  split <;> simp [withCredentials, baseSettings, ClientConfig.get_set]

theorem clientSettings_of_sasl {mechanism username password : String}
    (sasl : config.sasl = some (mechanism, username, password)) :
    (clientSettings config).credentials = (some mechanism, some username, some password) := by
  simp [clientSettings, sasl, ClientConfig.credentials, withCredentials, ClientConfig.get_set]

theorem clientSettings_of_no_sasl (sasl : config.sasl = none) :
    (clientSettings config).credentials = (none, none, none) := by
  simp [clientSettings, sasl, ClientConfig.credentials, baseSettings, ClientConfig.get_set]

/-! ## From the environment to the client -/

variable (create debug)

/-- `KafkaConfig::from_environment` followed by `KafkaProducer::from_config`. -/
def start (env : Environment) : Except AnyhowError (KafkaProducer Client) :=
  KafkaProducer.fromConfig create debug (KafkaConfig.fromEnvironment env)

variable {create debug}

theorem protocolFits_iff {env : Environment} :
    ProtocolFits (KafkaConfig.fromEnvironment env) ↔
      ∀ mechanism username password, CredentialsConfigured env mechanism username password →
        namesSasl (KafkaConfig.fromEnvironment env).securityProtocol = true := by
  simp only [ProtocolFits, Prod.forall, sasl_fromEnvironment_iff]

theorem start_eq_ok_iff {env : Environment} :
    start create debug env = .ok producer ↔ (∃ brokers, Configured env "KAFKA_BROKERS" brokers) ∧
      ProtocolFits (KafkaConfig.fromEnvironment env) ∧
        create (clientSettings (KafkaConfig.fromEnvironment env)) = .ok producer.client ∧
          producer.topic = (KafkaConfig.fromEnvironment env).topic := by
  rw [start, fromConfig_eq_ok_iff, brokers_ne_empty_iff]

theorem bootstrap_of_configured {env : Environment} {brokers : String}
    (configured : Configured env "KAFKA_BROKERS" brokers) :
    (clientSettings (KafkaConfig.fromEnvironment env)).get "bootstrap.servers" = some brokers := by
  have list : (KafkaConfig.fromEnvironment env).brokers = brokers := by
    change (setting env "KAFKA_BROKERS").getD "" = brokers
    rw [setting_eq_some_iff.mpr configured, Option.getD_some]
  rw [clientSettings_bootstrap, list]

theorem start_of_no_brokers {env : Environment}
    (none : ∀ brokers, ¬ Configured env "KAFKA_BROKERS" brokers) :
    start create debug env = .error ⟨"KAFKA_BROKERS must be set", []⟩ := by
  apply fromConfig_of_no_brokers
  by_contra someBroker
  obtain ⟨brokers, configured⟩ := brokers_ne_empty_iff.mp someBroker
  exact none brokers configured

variable (create debug)

/-- **The client gets all the credentials that were configured, or none.** An unreadable or blank
variable counts as unset. -/
theorem sasl_all_or_nothing (env : Environment) :
    (∀ producer, start create debug env = .ok producer → ∃ brokers settings,
      Configured env "KAFKA_BROKERS" brokers ∧ create settings = .ok producer.client ∧
        settings.get "bootstrap.servers" = some brokers ∧
        (∀ mechanism username password, CredentialsConfigured env mechanism username password →
          settings.credentials = (some mechanism, some username, some password) ∧
            ∃ protocol, settings.get "security.protocol" = some protocol ∧ namesSasl protocol = true) ∧
        ((∀ mechanism username password, ¬ CredentialsConfigured env mechanism username password) →
          settings.credentials = (none, none, none))) ∧
    ((∀ brokers, ¬ Configured env "KAFKA_BROKERS" brokers) →
      start create debug env = .error ⟨"KAFKA_BROKERS must be set", []⟩) ∧
    (∀ mechanism username password, CredentialsConfigured env mechanism username password →
      namesSasl (KafkaConfig.fromEnvironment env).securityProtocol = false →
        ∃ error, start create debug env = .error error) ∧
    ((∀ settings, ∃ client, create settings = .ok client) →
      ∀ brokers, Configured env "KAFKA_BROKERS" brokers →
        ((∀ key ∈ saslVariables, ∀ value, ¬ Configured env key value) ∨
          (∃ mechanism username password, CredentialsConfigured env mechanism username password) ∧
            namesSasl (KafkaConfig.fromEnvironment env).securityProtocol = true) →
        ∃ producer, start create debug env = .ok producer) := by
  refine ⟨?_, start_of_no_brokers, ?_, ?_⟩
  · intro producer started
    obtain ⟨⟨brokers, configured⟩, fits, created, -⟩ := start_eq_ok_iff.mp started
    refine ⟨brokers, _, configured, created, bootstrap_of_configured configured, ?_, ?_⟩
    · intro mechanism username password whole
      exact ⟨clientSettings_of_sasl (sasl_fromEnvironment_iff.mpr whole), _, clientSettings_protocol _,
        protocolFits_iff.mp fits _ _ _ whole⟩
    · intro incomplete
      exact clientSettings_of_no_sasl (sasl_fromEnvironment_eq_none_iff.mpr incomplete)
  · intro mechanism username password whole misfit
    apply fromConfig_of_misfit
    intro fits
    have named := protocolFits_iff.mp fits _ _ _ whole
    rw [misfit] at named
    cases named
  · intro accepts brokers configured complete
    obtain ⟨client, created⟩ := accepts (clientSettings (KafkaConfig.fromEnvironment env))
    refine ⟨⟨client, _⟩, start_eq_ok_iff.mpr ⟨⟨brokers, configured⟩, ?_, created, rfl⟩⟩
    rw [protocolFits_iff]
    intro mechanism username password whole
    rcases complete with none | ⟨-, named⟩
    · exact absurd whole (not_credentialsConfigured none)
    · exact named

end

/-! ## Two environments -/

/-- A broker, a mechanism and a user name, and this protocol and password. -/
def scramEnvironment (protocol password : Except VarError String) : Environment := fun name =>
  if name = "KAFKA_BROKERS" then .ok "localhost:9092"
  else if name = "KAFKA_SECURITY_PROTOCOL" then protocol
  else if name = "KAFKA_SASL_MECHANISM" then .ok "SCRAM-SHA-256"
  else if name = "KAFKA_SASL_USERNAME" then .ok "user"
  else if name = "KAFKA_SASL_PASSWORD" then password
  else .error .notPresent

/-- A client that is its settings, and quotes around a string. -/
abbrev startPlain (env : Environment) : Except AnyhowError (KafkaProducer ClientConfig) :=
  start Except.ok (fun s => "\"" ++ s ++ "\"") env

theorem not_blank_of_mem {s : String} {c : Char} (member : c ∈ s.toList) (visible : isWhitespace c = false) :
    ¬ Blank s := by
  intro blank
  rw [blank c member] at visible
  cases visible

theorem scram_brokers (protocol password : Except VarError String) :
    Configured (scramEnvironment protocol password) "KAFKA_BROKERS" "localhost:9092" :=
  ⟨rfl, not_blank_of_mem (c := 'l') (by decide) (by decide)⟩

theorem scram_mechanism (protocol password : Except VarError String) :
    Configured (scramEnvironment protocol password) "KAFKA_SASL_MECHANISM" "SCRAM-SHA-256" :=
  ⟨rfl, not_blank_of_mem (c := 'S') (by decide) (by decide)⟩

theorem scram_username (protocol password : Except VarError String) :
    Configured (scramEnvironment protocol password) "KAFKA_SASL_USERNAME" "user" :=
  ⟨rfl, not_blank_of_mem (c := 'u') (by decide) (by decide)⟩

theorem scram_protocol (password : Except VarError String) :
    namesSasl (KafkaConfig.fromEnvironment (scramEnvironment (.ok "SASL_SSL") password)).securityProtocol =
      true := by
  have held : setting (scramEnvironment (.ok "SASL_SSL") password) "KAFKA_SECURITY_PROTOCOL" =
      some "SASL_SSL" :=
    setting_eq_some_iff.mpr ⟨rfl, not_blank_of_mem (c := 'S') (by decide) (by decide)⟩
  change namesSasl ((setting _ "KAFKA_SECURITY_PROTOCOL").getD _) = true
  rw [held]
  decide

/-- Over SASL, with a password. -/
abbrev secretEnvironment : Environment := scramEnvironment (.ok "SASL_SSL") (.ok "secret")

theorem sasl_all_or_nothing_scram : ∃ producer, startPlain secretEnvironment = .ok producer ∧
    producer.client.credentials = (some "SCRAM-SHA-256", some "user", some "secret") := by
  have password : Configured secretEnvironment "KAFKA_SASL_PASSWORD" "secret" :=
    ⟨rfl, not_blank_of_mem (c := 's') (by decide) (by decide)⟩
  have whole : CredentialsConfigured secretEnvironment "SCRAM-SHA-256" "user" "secret" :=
    ⟨scram_mechanism _ _, scram_username _ _, password⟩
  obtain ⟨gets, -, -, starts⟩ := sasl_all_or_nothing (@Except.ok AnyhowError ClientConfig)
    (fun s => "\"" ++ s ++ "\"") secretEnvironment
  obtain ⟨producer, started⟩ := starts (fun settings => ⟨settings, rfl⟩) _ (scram_brokers _ _)
    (.inr ⟨⟨_, _, _, whole⟩, scram_protocol _⟩)
  obtain ⟨brokers, settings, -, created, -, credentials, -⟩ := gets producer started
  cases created
  exact ⟨producer, started, (credentials _ _ _ whole).1⟩

/-- In plain text by default, with a password that is not Unicode. -/
abbrev unreadableEnvironment : Environment :=
  scramEnvironment (.error .notPresent) (.error (.notUnicode [0xFF]))

/-- A password that is not Unicode leaves a client without credentials, and starts. -/
theorem unreadable_password_starts :
    (∃ producer, startPlain unreadableEnvironment = .ok producer ∧
      producer.client.get "security.protocol" = some "plaintext" ∧
      producer.client.credentials = (none, none, none)) ∧
    Configured unreadableEnvironment "KAFKA_SASL_MECHANISM" "SCRAM-SHA-256" ∧
    Configured unreadableEnvironment "KAFKA_SASL_USERNAME" "user" := by
  have incomplete : ∀ mechanism username password,
      ¬ CredentialsConfigured unreadableEnvironment mechanism username password := by
    intro mechanism username password whole
    cases whole.2.2.1
  refine ⟨⟨⟨clientSettings (.fromEnvironment unreadableEnvironment), _⟩,
    start_eq_ok_iff.mpr ⟨⟨_, scram_brokers _ _⟩, ?_, rfl, rfl⟩, ?_, ?_⟩, scram_mechanism _ _,
    scram_username _ _⟩
  · rw [protocolFits_iff]
    intro mechanism username password whole
    exact absurd whole (incomplete mechanism username password)
  · exact clientSettings_protocol (.fromEnvironment unreadableEnvironment)
  · exact clientSettings_of_no_sasl (sasl_fromEnvironment_eq_none_iff.mpr incomplete)

end CountingSheep.Ingest
