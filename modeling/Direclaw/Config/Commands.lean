import Direclaw.Config.Save
import Direclaw.Config.Templates

/-!
# Configuration commands

The `orchestrator` and `orchestrator-agent` commands (`app/command_handlers/orchestrators.rs`,
`agents.rs`) over the two kinds of files they change: the global settings, and an
`orchestrator.yaml` for each private workspace. Calls of the file system succeed; what comes
of the mounts after a save is a parameter, as something else may stand in the way of a mount.
-/

namespace Direclaw.Config

open Direclaw.Lib Direclaw.Orchestration

/-! ## The files -/

/-- The mounts that could not be set, with the reason. -/
structure MountFailure where
  what : String
  err : OrchestratorError

def MountFailure.display (failure : MountFailure) : String :=
  (ConfigError.settings s!"failed to reconcile {failure.what}: {failure.err.display}").display

/-- `P` are the places of `orchestrator.yaml` files. Two paths of workspaces may lead to the
same place. -/
structure ConfigSystem (P : Type) where
  place : String → P
  /-- The mounts of all orchestrators, after the settings were written. -/
  settingsMounts : GlobalSettings → Except MountFailure Unit
  /-- The mounts of one orchestrator, after its configuration was written. -/
  orchestratorMounts : GlobalSettings → String → Except MountFailure Unit
  fs : FileSystem

/-- What is in the files; of an `orchestrator.yaml` that cannot be read or parsed, the
reason. -/
structure ConfigStore (P : Type) where
  settings : GlobalSettings
  files : P → Except String OrchestratorConfig

def GlobalSettings.withOrchestrator (settings : GlobalSettings) (id : String)
    (entry : GlobalOrchestrator) : GlobalSettings :=
  { settings with orchestrators := OrderedMap.set id entry settings.orchestrators }

abbrev CommandM (P α : Type) := EStateM String (ConfigStore P) α

namespace Command

variable {P : Type} (sys : ConfigSystem P)

def check {α : Type} (x : Except ConfigError α) : CommandM P α :=
  ofResult (x.mapError ConfigError.display)

def require (holds : Bool) (otherwise : String) : CommandM P Unit :=
  ofResult (if holds then .ok () else .error otherwise)

/-! ## Loading and saving -/

def checkedSettings (settings : GlobalSettings) : Except ConfigError Unit :=
  settings.validate ⟨false⟩ sys.fs

def loadSettings : CommandM P GlobalSettings := do
  let s ← get
  check (checkedSettings sys s.settings)
  return s.settings

def loadOrchestratorConfig (settings : GlobalSettings) (orchestratorId : String)
    (files : P → Except String OrchestratorConfig) : Except String OrchestratorConfig :=
  if (settings.orchestrators.lookup orchestratorId).isNone then
    .error (ConfigError.missingOrchestrator orchestratorId).display
  else do
    let workspace ←
      (settings.routing.resolvePrivateWorkspace orchestratorId).mapError ConfigError.display
    let config ← files (sys.place workspace)
    (config.validate settings.routing orchestratorId).mapError ConfigError.display
    return config

def loadOrchestratorOrErr (settings : GlobalSettings) (orchestratorId : String) :
    CommandM P OrchestratorConfig := do
  let s ← get
  ofResult (loadOrchestratorConfig sys settings orchestratorId s.files)

def validateOrchestrators (settings : GlobalSettings)
    (files : P → Except String OrchestratorConfig) : List String → Except String Unit
  | [] => .ok ()
  | orchestratorId :: rest => do
      let _ ← loadOrchestratorConfig sys settings orchestratorId files
      validateOrchestrators settings files rest

def validateAllOrchestrators (settings : GlobalSettings)
    (files : P → Except String OrchestratorConfig) : Except String Unit :=
  validateOrchestrators sys settings files (settings.orchestrators.map (·.1))

def saveSettings (settings : GlobalSettings) : CommandM P Unit := do
  check (checkedSettings sys settings)
  modify fun s => { s with settings }
  ofResult ((sys.settingsMounts settings).mapError MountFailure.display)

/-- `ensure_step_prompt` refuses the path of a prompt, or of the context beside it. -/
def checkStepPrompt (step : WorkflowStepConfig) : Except String Unit :=
  if isPromptTemplateReference step.prompt then do
    let promptRel := Text.trimmed step.prompt
    let _ ← parseRelativePromptPath promptRel
    let _ ← parseRelativePromptPath (contextPathForPromptReference promptRel)
    return ()
  else .ok ()

def checkPrompts (config : OrchestratorConfig) : Except ConfigError Unit :=
  ((config.workflows.flatMap (·.steps)).forM checkStepPrompt).mapError .orchestrator

variable [DecidableEq P]

def saveOrchestratorConfig (settings : GlobalSettings) (orchestratorId : String)
    (config : OrchestratorConfig) : CommandM P String := do
  check (config.validate settings.routing orchestratorId)
  let workspace ← check (settings.routing.resolvePrivateWorkspace orchestratorId)
  check (checkPrompts config)
  modify fun s => { s with files := Function.update s.files (sys.place workspace) (.ok config) }
  ofResult ((sys.orchestratorMounts settings orchestratorId).mapError MountFailure.display)
  return joinPath workspace "orchestrator.yaml"

def removeOrchestratorConfig (settings : GlobalSettings) (orchestratorId : String) :
    CommandM P Unit := do
  let workspace ← check (settings.routing.resolvePrivateWorkspace orchestratorId)
  modify fun s =>
    { s with files := Function.update s.files (sys.place workspace) (.error "no such file") }

/-! ## `orchestrator` -/

def defaultOrchestratorConfig (id : String) : OrchestratorConfig :=
  initialConfig id .anthropic "sonnet" .minimal

def orchestratorList : CommandM P String := do
  let settings ← loadSettings sys
  return "\n".intercalate (settings.orchestrators.map (·.1))

def orchestratorAdd (id : String) : CommandM P String := do
  let settings ← loadSettings sys
  require (settings.orchestrators.lookup id).isNone s!"orchestrator `{id}` already exists"
  let settings :=
    { settings with orchestrators := OrderedMap.insert id {} settings.orchestrators }
  saveSettings sys settings
  let workspace ← check (settings.routing.resolvePrivateWorkspace id)
  let path ← saveOrchestratorConfig sys settings id (defaultOrchestratorConfig id)
  return s!"orchestrator added\nid={id}\nprivate_workspace={workspace}\nconfig={path}"

def unknownOrchestrator (id : String) : String := s!"unknown orchestrator `{id}`"

def entryOf (settings : GlobalSettings) (id : String) : CommandM P GlobalOrchestrator :=
  ofResult (match settings.orchestrators.lookup id with
    | some entry => .ok entry
    | none => .error (unknownOrchestrator id))

def orchestratorShow (id : String) : CommandM P String := do
  let settings ← loadSettings sys
  let entry ← entryOf settings id
  let workspace ← check (settings.routing.resolvePrivateWorkspace id)
  return s!"id={id}\nprivate_workspace={workspace}\nshared_access=" ++
    ",".intercalate entry.sharedAccess

/-- The file is looked for where the changed settings say. -/
def orchestratorRemove (id : String) : CommandM P String := do
  let settings ← loadSettings sys
  require (settings.orchestrators.lookup id).isSome (unknownOrchestrator id)
  let settings := { settings with orchestrators := OrderedMap.remove id settings.orchestrators }
  saveSettings sys settings
  removeOrchestratorConfig sys settings id
  return s!"orchestrator removed\nid={id}"

def orchestratorSetPrivateWorkspace (id path : String) : CommandM P String := do
  let settings ← loadSettings sys
  let orchestrator ← loadOrchestratorOrErr sys settings id
  require (isAbsolutePath path) "private workspace path must be absolute"
  let entry ← entryOf settings id
  let settings := settings.withOrchestrator id { entry with privateWorkspace := some path }
  saveSettings sys settings
  let _ ← saveOrchestratorConfig sys settings id orchestrator
  return s!"orchestrator updated\nid={id}\nprivate_workspace={path}"

def grant (entry : GlobalOrchestrator) (key : String) : GlobalOrchestrator :=
  if key ∈ entry.sharedAccess then entry
  else { entry with sharedAccess := entry.sharedAccess ++ [key] }

def revoke (entry : GlobalOrchestrator) (key : String) : GlobalOrchestrator :=
  { entry with sharedAccess := entry.sharedAccess.filter (· != key) }

def orchestratorGrantSharedAccess (id key : String) : CommandM P String := do
  let settings ← loadSettings sys
  require (settings.sharedWorkspaces.lookup key).isSome s!"invalid shared key `{key}`"
  let entry ← entryOf settings id
  saveSettings sys (settings.withOrchestrator id (grant entry key))
  return s!"shared access granted\nid={id}\nshared_key={key}"

def orchestratorRevokeSharedAccess (id key : String) : CommandM P String := do
  let settings ← loadSettings sys
  let entry ← entryOf settings id
  saveSettings sys (settings.withOrchestrator id (revoke entry key))
  return s!"shared access revoked\nid={id}\nshared_key={key}"

/-- The commands that change one `orchestrator.yaml`. -/
def editOrchestratorConfig (id : String)
    (edit : OrchestratorConfig → Except String OrchestratorConfig) (report : String) :
    CommandM P String := do
  let settings ← loadSettings sys
  let orchestrator ← loadOrchestratorOrErr sys settings id
  let orchestrator ← ofResult (edit orchestrator)
  let _ ← saveOrchestratorConfig sys settings id orchestrator
  return report

def withSelector (agentId : String) (config : OrchestratorConfig) :
    Except String OrchestratorConfig :=
  if (config.agents.lookup agentId).isNone then .error s!"unknown agent `{agentId}`"
  else .ok { config with selectorAgent := agentId }

def withDefaultWorkflow (workflowId : String) (config : OrchestratorConfig) :
    Except String OrchestratorConfig :=
  if !config.workflows.any (·.id == workflowId) then
    .error s!"invalid workflow id `{workflowId}`"
  else .ok { config with defaultWorkflow := workflowId }

/-- The count is looked at before the orchestrator is loaded. -/
def parseCount (count : String) : Except String ℕ :=
  match Text.parseU32 count.toList with
  | none => .error "count must be a positive integer"
  | some 0 => .error "count must be >= 1"
  | some count => .ok count

def withRetries (count : ℕ) (config : OrchestratorConfig) : Except String OrchestratorConfig :=
  .ok { config with selectionMaxRetries := count }

def orchestratorSetSelectionMaxRetries (id count : String) : CommandM P String := do
  let _ ← loadSettings sys
  let parsed ← ofResult (parseCount count)
  editOrchestratorConfig sys id (withRetries parsed)
    s!"selection retries updated\nid={id}\ncount={parsed}"

def usage {α : Type} (text : String) : CommandM P α := ofResult (.error s!"usage: {text}")

def cmdOrchestrator : List String → CommandM P String
  | [] => usage ("orchestrator <list|add|show|remove|set-private-workspace|grant-shared-access|" ++
      "revoke-shared-access|set-selector-agent|set-default-workflow|set-selection-max-retries> ...")
  | "list" :: _ => orchestratorList sys
  | ["add", id] => orchestratorAdd sys id
  | "add" :: _ => usage "orchestrator add <orchestrator_id>"
  | ["show", id] => orchestratorShow sys id
  | "show" :: _ => usage "orchestrator show <orchestrator_id>"
  | ["remove", id] => orchestratorRemove sys id
  | "remove" :: _ => usage "orchestrator remove <orchestrator_id>"
  | ["set-private-workspace", id, path] => orchestratorSetPrivateWorkspace sys id path
  | "set-private-workspace" :: _ =>
    usage "orchestrator set-private-workspace <orchestrator_id> <abs_path>"
  | ["grant-shared-access", id, key] => orchestratorGrantSharedAccess sys id key
  | "grant-shared-access" :: _ =>
    usage "orchestrator grant-shared-access <orchestrator_id> <shared_key>"
  | ["revoke-shared-access", id, key] => orchestratorRevokeSharedAccess sys id key
  | "revoke-shared-access" :: _ =>
    usage "orchestrator revoke-shared-access <orchestrator_id> <shared_key>"
  | ["set-selector-agent", id, agentId] =>
    editOrchestratorConfig sys id (withSelector agentId)
      s!"selector updated\nid={id}\nselector_agent={agentId}"
  | "set-selector-agent" :: _ =>
    usage "orchestrator set-selector-agent <orchestrator_id> <agent_id>"
  | ["set-default-workflow", id, workflowId] =>
    editOrchestratorConfig sys id (withDefaultWorkflow workflowId)
      s!"default workflow updated\nid={id}\ndefault_workflow={workflowId}"
  | "set-default-workflow" :: _ =>
    usage "orchestrator set-default-workflow <orchestrator_id> <workflow_id>"
  | ["set-selection-max-retries", id, count] => orchestratorSetSelectionMaxRetries sys id count
  | "set-selection-max-retries" :: _ =>
    usage "orchestrator set-selection-max-retries <orchestrator_id> <count>"
  | other :: _ => ofResult (.error s!"unknown orchestrator subcommand `{other}`")

/-! ## `orchestrator-agent` -/

def agentList (id : String) : CommandM P String := do
  let settings ← loadSettings sys
  let orchestrator ← loadOrchestratorOrErr sys settings id
  return "\n".intercalate (orchestrator.agents.map (·.1))

def agentShow (id agentId : String) : CommandM P String := do
  let settings ← loadSettings sys
  let orchestrator ← loadOrchestratorOrErr sys settings id
  let agent ← ofResult (match orchestrator.agents.lookup agentId with
    | some agent => .ok agent
    | none => .error s!"unknown agent `{agentId}`")
  return s!"id={agentId}\nprovider={providerText agent.provider}\nmodel={agent.model}\n" ++
    s!"can_orchestrate_workflows={agent.canOrchestrateWorkflows}"

def newAgent : AgentConfig := { model := "sonnet", provider := .anthropic }

def withNewAgent (agentId : String) (config : OrchestratorConfig) :
    Except String OrchestratorConfig :=
  if (config.agents.lookup agentId).isSome then .error s!"agent `{agentId}` already exists"
  else .ok { config with agents := OrderedMap.insert agentId newAgent config.agents }

def withoutAgent (agentId : String) (config : OrchestratorConfig) :
    Except String OrchestratorConfig :=
  if (config.agents.lookup agentId).isNone then .error s!"unknown agent `{agentId}`"
  else .ok { config with agents := OrderedMap.remove agentId config.agents }

def withResetAgent (agentId : String) (config : OrchestratorConfig) :
    Except String OrchestratorConfig :=
  if (config.agents.lookup agentId).isNone then .error s!"unknown agent `{agentId}`"
  else .ok { config with agents := OrderedMap.set agentId newAgent config.agents }

def cmdOrchestratorAgent : List String → CommandM P String
  | [] => usage "orchestrator-agent <list|add|show|remove|reset> ..."
  | ["list", id] => agentList sys id
  | "list" :: _ => usage "orchestrator-agent list <orchestrator_id>"
  | ["add", id, agentId] =>
    editOrchestratorConfig sys id (withNewAgent agentId)
      s!"agent added\norchestrator={id}\nagent={agentId}"
  | "add" :: _ => usage "orchestrator-agent add <orchestrator_id> <agent_id>"
  | ["show", id, agentId] => agentShow sys id agentId
  | "show" :: _ => usage "orchestrator-agent show <orchestrator_id> <agent_id>"
  | ["remove", id, agentId] =>
    editOrchestratorConfig sys id (withoutAgent agentId)
      s!"agent removed\norchestrator={id}\nagent={agentId}"
  | "remove" :: _ => usage "orchestrator-agent remove <orchestrator_id> <agent_id>"
  | ["reset", id, agentId] =>
    editOrchestratorConfig sys id (withResetAgent agentId)
      s!"agent reset\norchestrator={id}\nagent={agentId}"
  | "reset" :: _ => usage "orchestrator-agent reset <orchestrator_id> <agent_id>"
  | other :: _ => ofResult (.error s!"unknown orchestrator-agent subcommand `{other}`")

/-- A command line after the program's name. -/
inductive ConfigCommand : Type where
  | orchestrator (args : List String)
  | orchestratorAgent (args : List String)
deriving DecidableEq, Repr

def runCommand : ConfigCommand → CommandM P String
  | .orchestrator args => cmdOrchestrator sys args
  | .orchestratorAgent args => cmdOrchestratorAgent sys args

end Command

end Direclaw.Config
