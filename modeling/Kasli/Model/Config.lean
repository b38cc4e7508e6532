import Kasli.Core.Types

/-! What is taken from the environment: where the socket and the audit file are by default
(`app/default_paths.cpp`), and which model the daemon asks (`model/model_config.cpp`). The model is
named by three variables; one that is empty counts as not set, and the rest is filled in from the
defaults of the provider. The environment and the runtime directory of the user are parameters. -/

namespace Kasli.App

/-- The value of a variable of the environment. -/
abbrev EnvLookup := Bytes → Option Bytes

/-- `operator/` of two paths -/
def joinPath (left right : Bytes) : Bytes :=
  if right.head? = some (chr '/') ∨ left = [] then right
  else if left.getLast? = some (chr '/') then left ++ right
  else left ++ chr '/' :: right

/-- `getenv_value`: an empty variable counts as none. -/
def getenvValue (getenv : EnvLookup) : EnvLookup := fun key => (getenv key).filter (· ≠ [])

def defaultSocketPathFromEnv (env : EnvLookup) (runtimeDir : Option Bytes) : Bytes :=
  match (env (ascii "XDG_RUNTIME_DIR")).filter (· ≠ []), runtimeDir with
  | some dir, _ => joinPath dir (ascii "kaslid.sock")
  | none, some dir => joinPath dir (ascii "kaslid.sock")
  | none, none => ascii "kaslid.sock"

def defaultAuditLogPathFromEnv (env : EnvLookup) : Bytes :=
  match env (ascii "XDG_STATE_HOME"), env (ascii "HOME") with
  | some stateHome, _ => joinPath (joinPath stateHome (ascii "kasli")) (ascii "audit.jsonl")
  | none, some home =>
    joinPath (joinPath (joinPath (joinPath home (ascii ".local")) (ascii "state")) (ascii "kasli"))
      (ascii "audit.jsonl")
  | none, none => ascii "kasli-audit.jsonl"

def defaultSocketPath (getenv : EnvLookup) (runtimeDir : Option Bytes) : Bytes :=
  defaultSocketPathFromEnv (getenvValue getenv) runtimeDir

def defaultAuditLogPath (getenv : EnvLookup) : Bytes :=
  defaultAuditLogPathFromEnv (getenvValue getenv)

end Kasli.App

namespace Kasli.Model

open App Core

inductive ModelProviderKind
  | ollama
  | openAICompatible
  deriving DecidableEq

structure ModelConfig where
  provider : ModelProviderKind
  endpoint : Bytes
  model : Bytes
  deriving DecidableEq

/-- `model_provider_kind_to_string` -/
def ModelProviderKind.toString : ModelProviderKind → Bytes
  | .ollama => ascii "ollama"
  | .openAICompatible => ascii "openai-compatible"

/-- What is said of a name that is no provider's. -/
def unknownProvider (name : Bytes) : Bytes :=
  whatOf (ascii "unknown model provider '" ++ name ++
    ascii "' (expected 'ollama' or 'openai-compatible')")

def providerFromName (name : Bytes) : Except Bytes ModelProviderKind :=
  if name = ascii "ollama" then .ok .ollama
  else if name = ascii "openai-compatible" then .ok .openAICompatible
  else .error (unknownProvider name)

def defaultModelConfig : ModelConfig :=
  { provider := .ollama, endpoint := ascii "http://127.0.0.1:11434", model := ascii "gemma4" }

/-- The value of a variable that has one (`has_value`). -/
def valueOf (env : EnvLookup) (key : Bytes) : Option Bytes := (env key).filter (· ≠ [])

def providerKey : Bytes := ascii "KASLI_MODEL_PROVIDER"

def endpointKey : Bytes := ascii "KASLI_MODEL_ENDPOINT"

def modelKey : Bytes := ascii "KASLI_MODEL_NAME"

/-- The configuration of the provider that is named, before the other variables are read. -/
def providerConfig : Option Bytes → Except Bytes ModelConfig
  | none => .ok defaultModelConfig
  | some name =>
    match providerFromName name with
    | .error what => .error what
    | .ok .openAICompatible =>
      .ok { provider := .openAICompatible, endpoint := ascii "http://127.0.0.1:1234/v1",
            model := ascii "local-model" }
    | .ok .ollama => .ok { defaultModelConfig with provider := .ollama }

def modelConfigFromEnv (env : EnvLookup) : Except Bytes ModelConfig :=
  match providerConfig (valueOf env providerKey) with
  | .error what => .error what
  | .ok config =>
    .ok { config with
      endpoint := (valueOf env endpointKey).getD config.endpoint
      model := (valueOf env modelKey).getD config.model }

/-- The environment that names a configuration. -/
def configEnv (config : ModelConfig) : EnvLookup := fun key =>
  if key = providerKey then some config.provider.toString
  else if key = endpointKey then some config.endpoint
  else if key = modelKey then some config.model
  else none

/-! ### Names and values -/

theorem providerFromName_eq_ok {name : Bytes} {kind : ModelProviderKind} :
    providerFromName name = .ok kind ↔ name = kind.toString := by
  unfold providerFromName
  split_ifs with hollama hopenai
  · cases kind with
    | ollama => simp [hollama, ModelProviderKind.toString]
    | openAICompatible => simp [hollama, ModelProviderKind.toString]; decide
  · cases kind with
    | ollama => simp [hopenai, ModelProviderKind.toString]; decide
    | openAICompatible => simp [hopenai, ModelProviderKind.toString]
  · cases kind with
    | ollama => simpa [ModelProviderKind.toString] using hollama
    | openAICompatible => simpa [ModelProviderKind.toString] using hopenai

theorem providerFromName_eq_error {name what : Bytes} :
    providerFromName name = .error what ↔
      (∀ kind : ModelProviderKind, name ≠ kind.toString) ∧ what = unknownProvider name := by
  cases h : providerFromName name with
  | ok kind =>
    have hname := providerFromName_eq_ok.mp h
    simp only [reduceCtorEq, false_iff, not_and]
    exact fun hne => absurd hname (hne kind)
  | error what' =>
    have hne : ∀ kind : ModelProviderKind, name ≠ kind.toString := by
      intro kind hname
      rw [providerFromName_eq_ok.mpr hname] at h
      cases h
    have hwhat : what' = unknownProvider name := by
      unfold providerFromName at h
      split_ifs at h
      exact (Except.error.inj h).symm
    rw [hwhat]
    exact ⟨fun heq => ⟨hne, (Except.error.inj heq).symm⟩, fun h => congrArg Except.error h.2.symm⟩

theorem valueOf_eq_some {env : EnvLookup} {key value : Bytes} :
    valueOf env key = some value ↔ env key = some value ∧ value ≠ [] := by
  rw [valueOf, Option.filter_eq_some_iff, decide_eq_true_eq]

theorem getD_valueOf_ne_nil {env : EnvLookup} {key value : Bytes} (h : value ≠ []) :
    (valueOf env key).getD value ≠ [] := by
  cases hv : valueOf env key with
  | none => exact h
  | some given => exact (valueOf_eq_some.mp hv).2

theorem providerConfig_ne_nil {name : Option Bytes} {config : ModelConfig}
    (h : providerConfig name = .ok config) : config.endpoint ≠ [] ∧ config.model ≠ [] := by
  unfold providerConfig at h
  split at h
  · cases h
    decide
  · split at h
    · cases h
    · cases h
      dsimp only
      decide
    · cases h
      decide

theorem providerConfig_toString (kind : ModelProviderKind) :
    ∃ config, providerConfig (some kind.toString) = .ok config ∧ config.provider = kind := by
  cases kind with
  | ollama => exact ⟨_, rfl, rfl⟩
  | openAICompatible => exact ⟨_, rfl, rfl⟩

theorem providerConfig_eq_error {name : Option Bytes} {what : Bytes} :
    providerConfig name = .error what ↔
      ∃ given, name = some given ∧ providerFromName given = .error what := by
  cases name with
  | none => simp [providerConfig]
  | some given =>
    simp only [providerConfig, Option.some.injEq, exists_eq_left']
    cases providerFromName given with
    | error what' => simp
    | ok kind => cases kind <;> simp

/-- Every configuration with an endpoint and a model can be named, and no other is ever used.
Whatever the environment, it is refused for a provider that is not known only, and the complaint
names it. -/
theorem modelConfigFromEnv_spec :
    (∀ config, modelConfigFromEnv (configEnv config) = .ok config ↔
      config.endpoint ≠ [] ∧ config.model ≠ []) ∧
    (∀ env config, modelConfigFromEnv env = .ok config →
      config.endpoint ≠ [] ∧ config.model ≠ []) ∧
    ∀ env what, modelConfigFromEnv env = .error what ↔
      ∃ name, env providerKey = some name ∧ name ≠ [] ∧
        (∀ kind : ModelProviderKind, name ≠ kind.toString) ∧ what = unknownProvider name := by
  have hnonempty : ∀ env config, modelConfigFromEnv env = .ok config →
      config.endpoint ≠ [] ∧ config.model ≠ [] := by
    intro env config h
    unfold modelConfigFromEnv at h
    split at h
    · cases h
    next named hnamed =>
      cases h
      have hdefaults := providerConfig_ne_nil hnamed
      exact ⟨getD_valueOf_ne_nil hdefaults.1, getD_valueOf_ne_nil hdefaults.2⟩
  refine ⟨fun config => ⟨hnonempty _ config, fun h => ?_⟩, hnonempty, fun env what => ?_⟩
  · obtain ⟨kind, endpoint, model⟩ := config
    have hprovider : valueOf (configEnv ⟨kind, endpoint, model⟩) providerKey = some kind.toString :=
      valueOf_eq_some.mpr ⟨if_pos rfl, by cases kind <;> decide⟩
    have hendpoint : valueOf (configEnv ⟨kind, endpoint, model⟩) endpointKey = some endpoint :=
      valueOf_eq_some.mpr ⟨rfl, h.1⟩
    have hmodel : valueOf (configEnv ⟨kind, endpoint, model⟩) modelKey = some model :=
      valueOf_eq_some.mpr ⟨rfl, h.2⟩
    obtain ⟨named, hnamed, hkind⟩ := providerConfig_toString kind
    simp only [modelConfigFromEnv, hprovider, hnamed, hendpoint, hmodel, Option.getD_some, hkind]
  · have herror : modelConfigFromEnv env = .error what ↔
        providerConfig (valueOf env providerKey) = .error what := by
      unfold modelConfigFromEnv
      cases providerConfig (valueOf env providerKey) <;> simp
    rw [herror, providerConfig_eq_error]
    simp only [valueOf_eq_some, providerFromName_eq_error, and_assoc]

end Kasli.Model
