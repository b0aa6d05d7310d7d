import Mathlib.Data.Rat.Defs
import Direclaw.Lib.Disk
import Direclaw.Lib.Text
import Direclaw.Orchestration.Settings

/-!
# Global settings

The settings of `config/settings.rs` that are checked before they are saved and after
they are loaded, with the sections that have checks of their own.
-/

namespace Direclaw.Config

open Direclaw.Lib Direclaw.Orchestration

/-! ## The data -/

structure SharedWorkspaceConfig where
  path : String
  description : String
deriving DecidableEq, Repr

structure GlobalOrchestrator extends SettingsOrchestrator where
  sharedAccess : List String := []
deriving DecidableEq, Repr

inductive SlackInboundMode : Type where
  | poll
  | hybrid
  | socket
deriving DecidableEq, Repr

structure ChannelConfig where
  enabled : Bool := false
  inboundMode : SlackInboundMode := .socket
  historyBackfillEnabled : Bool := true
  allowlistedChannels : List String := []
  socketReconnectBackoffMs : ℕ := 1000
  socketIdleTimeoutMs : ℕ := 30000
  historyBackfillIntervalSeconds : ℕ := 300
deriving DecidableEq, Repr

structure AuthSyncSource where
  backend : String
  reference : String
  destination : String
deriving DecidableEq, Repr

structure AuthSyncConfig where
  enabled : Bool := false
  sources : List (String × AuthSyncSource) := []
deriving DecidableEq, Repr

structure MemoryConfig where
  enabled : Bool := true
  topN : ℕ := 20
  rrfK : ℕ := 60
  maxFileSizeMb : ℕ := 25
  workerIntervalSeconds : ℕ := 30
  crossOrchestrator : Bool := false
deriving DecidableEq, Repr

/-- A floating point number as far as comparisons tell. -/
inductive FloatValue : Type where
  | nan
  | infinite (negative : Bool)
  | finite (value : ℚ)
deriving DecidableEq

/-- `(0.0..=1.0).contains`. -/
def FloatValue.inUnit : FloatValue → Bool
  | .finite value => 0 ≤ value ∧ value ≤ 1
  | _ => false

def FloatValue.isNegative : FloatValue → Bool
  | .finite value => value < 0
  | .infinite negative => negative
  | .nan => false

structure LocalLlmConfig where
  repo : String := "unsloth/Qwen3.5-0.8B-GGUF"
  file : String := "Qwen3.5-0.8B-UD-IQ2_M.gguf"
  maxInputChars : ℕ := 8000
  maxOutputChars : ℕ := 3000
  maxNewTokens : ℕ := 256
  maxGenerationMillis : ℕ := 1500
  temperature : FloatValue := .finite (1 / 5)
  topP : FloatValue := .finite (9 / 10)
  contextDedupSimilarityThreshold : FloatValue := .finite (22 / 25)
  bulletinDedupSimilarityThreshold : FloatValue := .finite (22 / 25)
deriving DecidableEq

structure GlobalSettings where
  workspacesPath : String
  sharedWorkspaces : List (String × SharedWorkspaceConfig) := []
  orchestrators : List (String × GlobalOrchestrator) := []
  channelProfiles : List (String × ChannelProfile) := []
  channels : List (String × ChannelConfig) := []
  /-- `monitoring.heartbeat_interval`. -/
  heartbeatInterval : Option ℕ := none
  authSync : AuthSyncConfig := {}
  memory : MemoryConfig := {}
  localLlm : LocalLlmConfig := {}
deriving DecidableEq

/-- What routing reads of the settings. -/
def GlobalSettings.routing (settings : GlobalSettings) : Settings where
  workspacesPath := settings.workspacesPath
  orchestrators := settings.orchestrators.map fun entry => (entry.1, entry.2.toSettingsOrchestrator)
  channelProfiles := settings.channelProfiles

/-! ## The checks -/

/-- A check with its error. -/
def ensureSettings (holds : Bool) (reason : String) : Except ConfigError Unit :=
  if holds then .ok () else .error (.settings reason)

def notBlank (text : String) : Bool := !Text.isBlank text.toList

def MemoryConfig.validate (memory : MemoryConfig) : Except ConfigError Unit := do
  ensureSettings (memory.topN != 0) "memory.retrieval.top_n must be >= 1"
  ensureSettings (memory.rrfK != 0) "memory.retrieval.rrf_k must be >= 1"
  ensureSettings (memory.maxFileSizeMb != 0) "memory.ingest.max_file_size_mb must be >= 1"
  ensureSettings (memory.workerIntervalSeconds != 0) "memory.worker_interval_seconds must be >= 1"
  ensureSettings (!memory.crossOrchestrator)
    "memory.scope.cross_orchestrator=true is not supported in v1; expected false"

def LocalLlmConfig.validate (llm : LocalLlmConfig) : Except ConfigError Unit := do
  ensureSettings (notBlank llm.repo) "local_llm.model.repo must be non-empty"
  ensureSettings (notBlank llm.file) "local_llm.model.file must be non-empty"
  ensureSettings (llm.maxInputChars != 0) "local_llm.inference.max_input_chars must be >= 1"
  ensureSettings (llm.maxOutputChars != 0) "local_llm.inference.max_output_chars must be >= 1"
  ensureSettings (llm.maxNewTokens != 0) "local_llm.inference.max_new_tokens must be >= 1"
  ensureSettings (llm.maxGenerationMillis != 0)
    "local_llm.inference.max_generation_millis must be >= 1"
  ensureSettings (llm.topP.inUnit && llm.topP != .finite 0)
    "local_llm.inference.top_p must be in (0.0, 1.0]"
  ensureSettings (!llm.temperature.isNegative) "local_llm.inference.temperature must be >= 0.0"
  ensureSettings llm.contextDedupSimilarityThreshold.inUnit
    "local_llm.inference.context_dedup_similarity_threshold must be in [0.0, 1.0]"
  ensureSettings llm.bulletinDedupSimilarityThreshold.inUnit
    "local_llm.inference.bulletin_dedup_similarity_threshold must be in [0.0, 1.0]"

structure ValidationOptions where
  requireSharedPathsExist : Bool := true

namespace GlobalSettings

def validateSharedWorkspaces (options : ValidationOptions) (fs : FileSystem) :
    List (String × SharedWorkspaceConfig) → Except ConfigError Unit
  | [] => .ok ()
  | (key, shared) :: rest => do
      ensureSettings (notBlank key) "`shared_workspaces` keys must be non-empty"
      ensureSettings (notBlank shared.description)
        s!"shared workspace `{key}` description must be non-empty"
      ensureSettings (isAbsolutePath shared.path)
        s!"shared workspace `{key}` must use an absolute path"
      ensureSettings
        (!options.requireSharedPathsExist || (fs.canonicalize (.parse shared.path)).toBool)
        s!"shared workspace `{key}` path `{shared.path}` is missing or invalid"
      validateSharedWorkspaces options fs rest

def validateGrants (sharedKeys : List String) (orchestratorId : String) :
    List String → Except ConfigError Unit
  | [] => .ok ()
  | grant :: grants => do
      ensureSettings (decide (grant ∈ sharedKeys))
        s!"orchestrator `{orchestratorId}` references unknown shared workspace `{grant}`"
      validateGrants sharedKeys orchestratorId grants

def validateOrchestrators (sharedKeys : List String) :
    List (String × GlobalOrchestrator) → Except ConfigError Unit
  | [] => .ok ()
  | (orchestratorId, orchestrator) :: rest => do
      (validateIdentifierValue "orchestrator id" orchestratorId).mapError .settings
      validateGrants sharedKeys orchestratorId orchestrator.sharedAccess
      validateOrchestrators sharedKeys rest

def validateProfiles (settings : GlobalSettings) :
    List (String × ChannelProfile) → Except ConfigError Unit
  | [] => .ok ()
  | (profileId, profile) :: rest => do
      ensureSettings (notBlank profileId) "channel profile id must be non-empty"
      ensureSettings (settings.orchestrators.lookup profile.orchestratorId).isSome
        s!"channel profile `{profileId}` references unknown orchestrator `{profile.orchestratorId}`"
      validateProfiles settings rest

def validateSlack (slack : ChannelConfig) : Except ConfigError Unit := do
  ensureSettings (slack.allowlistedChannels.all notBlank)
    "channels.slack.allowlisted_channels entries must be non-empty"
  ensureSettings (slack.socketReconnectBackoffMs != 0)
    "channels.slack.socket_reconnect_backoff_ms must be > 0"
  ensureSettings (slack.socketIdleTimeoutMs != 0)
    "channels.slack.socket_idle_timeout_ms must be > 0"
  ensureSettings (slack.historyBackfillIntervalSeconds != 0)
    "channels.slack.history_backfill_interval_seconds must be > 0"

def validateSources : List (String × AuthSyncSource) → Except ConfigError Unit
  | [] => .ok ()
  | (sourceId, source) :: rest => do
      ensureSettings (notBlank sourceId) "`auth_sync.sources` keys must be non-empty"
      ensureSettings (notBlank source.backend)
        s!"auth sync source `{sourceId}` requires non-empty `backend`"
      ensureSettings (Text.trimmed source.backend == "onepassword")
        s!"auth sync source `{sourceId}` has unsupported backend `{source.backend}`"
      ensureSettings (notBlank source.reference)
        s!"auth sync source `{sourceId}` requires non-empty `reference`"
      ensureSettings
        (isAbsolutePath source.destination || "~/".toList.isPrefixOf source.destination.toList)
        (s!"auth sync source `{sourceId}` destination `{source.destination}` " ++
          "must be absolute or start with `~/`")
      validateSources rest

def validate (settings : GlobalSettings) (options : ValidationOptions) (fs : FileSystem) :
    Except ConfigError Unit := do
  ensureSettings (isAbsolutePath settings.workspacesPath)
    "`workspaces_path` must be an absolute path"
  validateSharedWorkspaces options fs settings.sharedWorkspaces
  validateOrchestrators (settings.sharedWorkspaces.map (·.1)) settings.orchestrators
  validateProfiles settings settings.channelProfiles
  match settings.channels.lookup "slack" with
  | some slack => validateSlack slack
  | none => .ok ()
  if settings.authSync.enabled then
    ensureSettings (!settings.authSync.sources.isEmpty)
      "`auth_sync.sources` must be non-empty when `auth_sync.enabled=true`"
    validateSources settings.authSync.sources
  settings.memory.validate
  settings.localLlm.validate

end GlobalSettings

end Direclaw.Config
