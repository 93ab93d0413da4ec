/-
# CountingSheep.Config.Kafka — the producer's settings, read from the environment

A variable counts when it is readable and not blank (`setting_eq_some_iff`);
anything else falls back to a default, and an unset broker list to the empty
string, which the producer rejects. Credentials are there only as a whole
(`sasl_eq_some_iff`).
-/
import CountingSheep.Config.Environment

namespace CountingSheep.Config

set_option autoImplicit false

def defaultTopic : String := "sheeps"
def defaultClientId : String := "countingsheep"
def defaultSecurityProtocol : String := "plaintext"

structure KafkaConfig where
  brokers : String
  topic : String
  clientId : String
  securityProtocol : String
  saslMechanism : Option String
  saslUsername : Option String
  saslPassword : Option String

/-- A variable that is neither unset, unreadable nor blank. -/
def setting (env : Environment) (key : String) : Option String :=
  nonBlank (var env key).toOption.join

/-- Reads the `KAFKA_*` variables. An error in reading one counts as missing. -/
def KafkaConfig.fromEnvironment (env : Environment) : KafkaConfig where
  brokers := (setting env "KAFKA_BROKERS").getD ""
  topic := (setting env "KAFKA_TOPIC").getD defaultTopic
  clientId := (setting env "KAFKA_CLIENT_ID").getD defaultClientId
  securityProtocol := (setting env "KAFKA_SECURITY_PROTOCOL").getD defaultSecurityProtocol
  saslMechanism := setting env "KAFKA_SASL_MECHANISM"
  saslUsername := setting env "KAFKA_SASL_USERNAME"
  saslPassword := setting env "KAFKA_SASL_PASSWORD"

/-- SASL credentials `(mechanism, username, password)`, present only when all
three are configured. -/
def KafkaConfig.sasl (config : KafkaConfig) : Option (String × String × String) :=
  match config.saslMechanism, config.saslUsername, config.saslPassword with
  | some mechanism, some username, some password => some (mechanism, username, password)
  | _, _, _ => none

theorem setting_eq_some_iff {env : Environment} {key s : String} :
    setting env key = some s ↔ Configured env key s := by
  rw [setting, nonBlank_eq_some_iff, Configured]
  apply and_congr_left
  intro _
  unfold var
  cases env key with
  | ok content => simp [Except.toOption]
  | error e => cases e <;> simp [Except.toOption]

def saslVariables : List String :=
  ["KAFKA_SASL_MECHANISM", "KAFKA_SASL_USERNAME", "KAFKA_SASL_PASSWORD"]

/-- All three credentials are configured. -/
def CredentialsConfigured (env : Environment) (mechanism username password : String) : Prop :=
  Configured env "KAFKA_SASL_MECHANISM" mechanism ∧ Configured env "KAFKA_SASL_USERNAME" username ∧
    Configured env "KAFKA_SASL_PASSWORD" password

theorem KafkaConfig.sasl_eq_some_iff {config : KafkaConfig} {mechanism username password : String} :
    config.sasl = some (mechanism, username, password) ↔ config.saslMechanism = some mechanism ∧
      config.saslUsername = some username ∧ config.saslPassword = some password := by
  obtain ⟨brokers, topic, clientId, securityProtocol, m, u, p⟩ := config
  cases m <;> cases u <;> cases p <;> simp [sasl]

theorem sasl_fromEnvironment_iff {env : Environment} {mechanism username password : String} :
    (KafkaConfig.fromEnvironment env).sasl = some (mechanism, username, password) ↔
      CredentialsConfigured env mechanism username password := by
  rw [KafkaConfig.sasl_eq_some_iff, CredentialsConfigured]
  simp only [← setting_eq_some_iff]
  rfl

theorem sasl_fromEnvironment_eq_none_iff {env : Environment} :
    (KafkaConfig.fromEnvironment env).sasl = none ↔
      ∀ mechanism username password, ¬ CredentialsConfigured env mechanism username password := by
  rw [Option.eq_none_iff_forall_ne_some]
  simp only [Prod.forall, ne_eq, sasl_fromEnvironment_iff]

theorem not_credentialsConfigured {env : Environment} {mechanism username password : String}
    (none : ∀ key ∈ saslVariables, ∀ value, ¬ Configured env key value) :
    ¬ CredentialsConfigured env mechanism username password := by
  intro whole
  exact none "KAFKA_SASL_MECHANISM" List.mem_cons_self mechanism whole.1

/-- The broker list is empty exactly when no broker is configured. -/
theorem brokers_ne_empty_iff {env : Environment} :
    (KafkaConfig.fromEnvironment env).brokers ≠ "" ↔
      ∃ brokers, Configured env "KAFKA_BROKERS" brokers := by
  simp only [← setting_eq_some_iff]
  change (setting env "KAFKA_BROKERS").getD "" ≠ "" ↔ _
  cases held : setting env "KAFKA_BROKERS" with
  | none => simp
  | some brokers =>
      have notBlank := (setting_eq_some_iff.mp held).2
      simp only [Option.getD_some, Option.some.injEq, exists_eq', iff_true]
      rintro rfl
      exact notBlank fun c member => absurd member (by simp)

end CountingSheep.Config
