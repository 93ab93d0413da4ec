/-
# CountingSheep.Config.PostHog — when exception capture is asked for

The resolved settings of the error tracker: a key, a flag that may be malformed,
and a host. `active` is the kill-switch: capture is wanted only with the flag on
and a key present. `disabledReason` says why it is not.

Two normalisers read the environment. The key and the host go through `nonBlank`;
the flag goes through `parseEnabled`, which takes a blank for a malformed value.
So the settings resolve as documented for every environment without a blank flag,
and for no other (`resolves_as_documented_iff`).
-/
import CountingSheep.Config.Environment

namespace CountingSheep.Config

open Rust

set_option autoImplicit false

/-- Whether `POSTHOG_ENABLED` asked capture to run. -/
inductive Enablement where
  | on
  | off
  /-- An unparseable value, treated as disabled. -/
  | invalid (raw : String)
  deriving DecidableEq

structure PostHogConfig where
  apiKey : Option String
  enabled : Enablement
  host : Option String

/-- The settings of a tracker that should run. -/
structure ActivePostHog where
  apiKey : String
  host : Option String

/-- The resolved settings when capture should run: enabled and a key present. -/
def PostHogConfig.active (config : PostHogConfig) : Option ActivePostHog :=
  if config.enabled ≠ .on then none
  else config.apiKey.map fun apiKey => ⟨apiKey, config.host⟩

theorem PostHogConfig.active_eq_some_iff {config : PostHogConfig} {active : ActivePostHog} :
    config.active = some active ↔ config.enabled = .on ∧ config.apiKey = some active.apiKey ∧
      config.host = active.host := by
  obtain ⟨apiKey, host⟩ := active
  unfold PostHogConfig.active
  by_cases on : config.enabled = .on
  · simp [on]
  · simp [on]

/-- Why error tracking is not running. -/
inductive DisabledReason where
  /-- `POSTHOG_ENABLED=false`, the explicit kill-switch. -/
  | killswitch
  /-- `POSTHOG_API_KEY` is unset or blank. -/
  | noApiKey
  /-- `POSTHOG_ENABLED` held an unparseable value. -/
  | invalidEnabledValue (raw : String)
  deriving DecidableEq

/-- Why capture is off. The flag takes precedence over a missing key. -/
def PostHogConfig.disabledReason (config : PostHogConfig) : Option DisabledReason :=
  match config.enabled with
  | .off => some .killswitch
  | .invalid raw => some (.invalidEnabledValue raw)
  | .on => if config.apiKey.isNone then some .noApiKey else none

/-- Trimmed and in ASCII lower case. -/
def flagText (raw : String) : String := .ofList ((trim raw.toList).map Char.toLower)

def truthy : List String := ["true", "1", "yes", "on"]
def falsey : List String := ["false", "0", "no", "off"]

def parseEnabled (raw : String) : Enablement :=
  if flagText raw ∈ truthy then .on
  else if flagText raw ∈ falsey then .off
  else .invalid raw

/-- The flag, on when unset. -/
def enabledFlag : Option String → Enablement
  | some raw => parseEnabled raw
  | none => .on

/-- Reads `POSTHOG_API_KEY`, `POSTHOG_ENABLED` and `POSTHOG_HOST`. -/
def PostHogConfig.fromEnvironment (env : Environment) : Except VarError PostHogConfig := do
  let apiKey := nonBlank (← var env "POSTHOG_API_KEY")
  let enabled := enabledFlag (← var env "POSTHOG_ENABLED")
  let host := nonBlank (← var env "POSTHOG_HOST")
  return { apiKey, enabled, host }

/-! ## Exactly one of the two -/

theorem PostHogConfig.disabledReason_eq_none_iff {config : PostHogConfig} :
    config.disabledReason = none ↔ ∃ active, config.active = some active := by
  obtain ⟨apiKey, enabled, host⟩ := config
  cases enabled with
  | on => cases apiKey <;> simp [disabledReason, active]
  | off | invalid raw => simp [disabledReason, active]

/-! ## Resolution -/

/-- What readable settings resolve to. -/
def resolved (settings : String → Option String) : PostHogConfig where
  apiKey := nonBlank (settings "POSTHOG_API_KEY")
  enabled := enabledFlag (settings "POSTHOG_ENABLED")
  host := nonBlank (settings "POSTHOG_HOST")

theorem fromEnvironment_readable (settings : String → Option String) :
    PostHogConfig.fromEnvironment (readable settings) = .ok (resolved settings) := by
  simp only [PostHogConfig.fromEnvironment, var_readable]
  rfl

theorem resolved_enabled {settings : String → Option String} {raw : String}
    (held : settings "POSTHOG_ENABLED" = some raw) :
    (resolved settings).enabled = parseEnabled raw := by
  change enabledFlag (settings "POSTHOG_ENABLED") = _
  rw [held, enabledFlag]

/-- The flag is not set to a blank value. -/
def FlagNotBlank (settings : String → Option String) : Prop :=
  ∀ raw, settings "POSTHOG_ENABLED" = some raw → ¬ Blank raw

/-- What the settings promise of the configuration they resolve to. -/
structure AsDocumented (settings : String → Option String) (config : PostHogConfig) : Prop where
  blankIsUnset : ∀ settings', BlanksUnset settings settings' → ∃ config',
    PostHogConfig.fromEnvironment (readable settings') = .ok config' ∧
      config'.active = config.active ∧ config'.disabledReason = config.disabledReason
  active : ∀ active, config.active = some active ↔
    (settings "POSTHOG_API_KEY" = some active.apiKey ∧ ¬ Blank active.apiKey) ∧
      (∀ host, active.host = some host ↔ settings "POSTHOG_HOST" = some host ∧ ¬ Blank host) ∧
      ∀ raw, settings "POSTHOG_ENABLED" = some raw → Blank raw ∨ flagText raw ∈ truthy
  exclusive : config.disabledReason = none ↔ ∃ active, config.active = some active
  killswitch : ∀ raw, settings "POSTHOG_ENABLED" = some raw → flagText raw ∈ falsey →
    config.disabledReason = some .killswitch
  malformed : ∀ raw, settings "POSTHOG_ENABLED" = some raw → ¬ Blank raw →
    flagText raw ∉ truthy → flagText raw ∉ falsey →
      config.disabledReason = some (.invalidEnabledValue raw)
  missingKey : (∀ key, settings "POSTHOG_API_KEY" = some key → Blank key) →
    (∀ raw, settings "POSTHOG_ENABLED" = some raw → Blank raw ∨ flagText raw ∈ truthy) →
      config.disabledReason = some .noApiKey

/-! ## The flag -/

theorem parseEnabled_eq_on_iff {raw : String} : parseEnabled raw = .on ↔ flagText raw ∈ truthy := by
  unfold parseEnabled
  split_ifs with on off
  · simp [on]
  · simp [on]
  · simp [on]

theorem parseEnabled_of_falsey {raw : String} (off : flagText raw ∈ falsey) : parseEnabled raw = .off := by
  have disjoint : ∀ word ∈ falsey, word ∉ truthy := by decide
  rw [parseEnabled, if_neg (disjoint _ off), if_pos off]

theorem parseEnabled_of_malformed {raw : String} (on : flagText raw ∉ truthy)
    (off : flagText raw ∉ falsey) : parseEnabled raw = .invalid raw := by
  rw [parseEnabled, if_neg on, if_neg off]

theorem disabledReason_of_malformed {settings : String → Option String} {raw : String}
    (held : settings "POSTHOG_ENABLED" = some raw) (on : flagText raw ∉ truthy)
    (off : flagText raw ∉ falsey) :
    (resolved settings).disabledReason = some (.invalidEnabledValue raw) := by
  have enabled := (resolved_enabled held).trans (parseEnabled_of_malformed on off)
  simp only [PostHogConfig.disabledReason, enabled]

/-- A blank flag is malformed, not unset. -/
theorem disabledReason_of_blank {settings : String → Option String} {raw : String}
    (held : settings "POSTHOG_ENABLED" = some raw) (blank : Blank raw) :
    (resolved settings).disabledReason = some (.invalidEnabledValue raw) := by
  have empty : flagText raw = "" := by rw [flagText, trim_eq_nil_iff.mpr blank]; rfl
  apply disabledReason_of_malformed held
  · rw [empty]
    decide
  · rw [empty]
    decide

theorem enabledFlag_eq_on_iff {settings : String → Option String} (flag : FlagNotBlank settings) :
    enabledFlag (settings "POSTHOG_ENABLED") = .on ↔
      ∀ raw, settings "POSTHOG_ENABLED" = some raw → Blank raw ∨ flagText raw ∈ truthy := by
  cases held : settings "POSTHOG_ENABLED" with
  | none => simp [enabledFlag]
  | some raw =>
      have notBlank := flag raw held
      simp [enabledFlag, parseEnabled_eq_on_iff, notBlank]

/-! ## Resolution as documented -/

theorem resolved_of_blanksUnset {settings settings' : String → Option String}
    (flag : FlagNotBlank settings) (unset : BlanksUnset settings settings') :
    resolved settings' = resolved settings := by
  have same : settings' "POSTHOG_ENABLED" = settings "POSTHOG_ENABLED" := by
    rcases unset "POSTHOG_ENABLED" with same | ⟨-, raw, held, blank⟩
    · exact same
    · exact absurd blank (flag raw held)
  rw [resolved, resolved, unset.nonBlank, unset.nonBlank, same]

theorem asDocumented_of_flag {settings : String → Option String} (flag : FlagNotBlank settings) :
    AsDocumented settings (resolved settings) where
  blankIsUnset settings' unset := by
    refine ⟨resolved settings', fromEnvironment_readable settings', ?_⟩
    rw [resolved_of_blanksUnset flag unset]
    exact ⟨rfl, rfl⟩
  active active := by
    rw [PostHogConfig.active_eq_some_iff, ← enabledFlag_eq_on_iff flag, ← nonBlank_eq_some_iff]
    simp only [← nonBlank_eq_some_iff, resolved]
    constructor
    · rintro ⟨on, key, host⟩
      exact ⟨key, fun h => by rw [host], on⟩
    · rintro ⟨key, host, on⟩
      exact ⟨on, key, Option.ext fun h => (host h).symm⟩
  exclusive := PostHogConfig.disabledReason_eq_none_iff
  killswitch raw held off := by
    have enabled := (resolved_enabled held).trans (parseEnabled_of_falsey off)
    simp only [PostHogConfig.disabledReason, enabled]
  malformed _ held _ on off := disabledReason_of_malformed held on off
  missingKey key on := by
    have enabled : (resolved settings).enabled = .on := (enabledFlag_eq_on_iff flag).mpr on
    have none : (resolved settings).apiKey = none := nonBlank_eq_none_iff.mpr key
    simp only [PostHogConfig.disabledReason, enabled, none, Option.isNone_none, if_true]

/-- **When the settings resolve as documented.** For readable variables, reading them succeeds and
gives what the documentation promises, if and only if the flag is not set to a blank value. -/
theorem resolves_as_documented_iff (settings : String → Option String) :
    (∃ config, PostHogConfig.fromEnvironment (readable settings) = .ok config ∧
      AsDocumented settings config) ↔ FlagNotBlank settings := by
  constructor
  · rintro ⟨config, read, documented⟩ raw held blank
    rw [fromEnvironment_readable] at read
    cases read
    -- With the flag unset, the reason names the key or nothing at all.
    have unset : BlanksUnset settings (Function.update settings "POSTHOG_ENABLED" none) := by
      intro key
      by_cases flag : key = "POSTHOG_ENABLED"
      · subst flag
        exact .inr ⟨Function.update_self .., raw, held, blank⟩
      · exact .inl (Function.update_of_ne flag ..)
    obtain ⟨config', read', -, same⟩ := documented.blankIsUnset _ unset
    rw [fromEnvironment_readable] at read'
    cases read'
    have on : (resolved (Function.update settings "POSTHOG_ENABLED" none)).enabled = .on := by
      change enabledFlag (Function.update settings "POSTHOG_ENABLED" none "POSTHOG_ENABLED") = _
      rw [Function.update_self, enabledFlag]
    rw [disabledReason_of_blank held blank] at same
    simp only [PostHogConfig.disabledReason, on] at same
    split_ifs at same
    cases same
  · intro flag
    exact ⟨_, fromEnvironment_readable settings, asDocumented_of_flag flag⟩

/-- A key, and the flag left blank. -/
def blankFlag (name : String) : Option String :=
  if name = "POSTHOG_API_KEY" then some "phc_key"
  else if name = "POSTHOG_ENABLED" then some " "
  else none

/-- A blank flag is reported as malformed, and not taken for unset. -/
theorem blankFlag_disables :
    (∃ config, PostHogConfig.fromEnvironment (readable blankFlag) = .ok config ∧
      config.active.isNone ∧ config.disabledReason = some (.invalidEnabledValue " ")) ∧
    ¬ ∃ config, PostHogConfig.fromEnvironment (readable blankFlag) = .ok config ∧
      AsDocumented blankFlag config := by
  have held : blankFlag "POSTHOG_ENABLED" = some " " := by decide
  have blank : Blank " " := List.all_eq_true.mp (show " ".toList.all isWhitespace = true by decide)
  have reason := disabledReason_of_blank held blank
  have inactive : (resolved blankFlag).active = none := by
    by_contra some_active
    rw [PostHogConfig.disabledReason_eq_none_iff.mpr (Option.ne_none_iff_exists'.mp some_active)] at reason
    cases reason
  constructor
  · refine ⟨_, fromEnvironment_readable blankFlag, ?_, reason⟩
    rw [inactive]
    rfl
  · rw [resolves_as_documented_iff]
    intro flag
    exact flag " " held blank

end CountingSheep.Config
