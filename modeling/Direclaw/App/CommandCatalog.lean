import Direclaw.Lib.OrderedMap
import Direclaw.Orchestration.SelectorAuthority

/-!
# The catalog of functions

`app/command_catalog.rs`: the functions that are advertised, with their arguments, and the
catalog that `orchestration/function_registry.rs` makes of them.
-/

namespace Direclaw.App

open Direclaw.Lib Direclaw.Orchestration

structure FunctionArgDef where
  name : String
  argType : FunctionArgType
  required : Bool
  description : String
deriving DecidableEq, Repr

structure FunctionDef where
  functionId : String
  description : String
  args : List FunctionArgDef := []
  readOnly : Bool
deriving DecidableEq, Repr

/-! ## Arguments -/

def daemonSendArgs : List FunctionArgDef :=
  [{ name := "channelProfileId", argType := .string, required := true,
      description := "Target channel profile id" },
    { name := "message", argType := .string, required := true, description := "Message content" }]

def providerSetArgs : List FunctionArgDef :=
  [{ name := "provider", argType := .string, required := true,
      description := "Provider id: anthropic or openai" },
    { name := "model", argType := .string, required := false,
      description := "Optional model identifier" }]

def modelSetArgs : List FunctionArgDef :=
  [{ name := "model", argType := .string, required := true, description := "Model identifier" }]

def orchestratorIdArg : FunctionArgDef where
  name := "orchestratorId"
  argType := .string
  required := true
  description := "Target orchestrator id"

def agentIdArg : FunctionArgDef where
  name := "agentId"
  argType := .string
  required := true
  description := "Agent id"

def workflowIdArg : FunctionArgDef where
  name := "workflowId"
  argType := .string
  required := true
  description := "Workflow id"

def runIdArg : FunctionArgDef where
  name := "runId"
  argType := .string
  required := true
  description := "Workflow run id"

def profileIdArg : FunctionArgDef where
  name := "channelProfileId"
  argType := .string
  required := true
  description := "Channel profile id"

def jobIdArg : FunctionArgDef where
  name := "jobId"
  argType := .string
  required := true
  description := "Scheduler job id"

def agentOrchestratorArgs : List FunctionArgDef := [orchestratorIdArg, agentIdArg]

def workflowOrchestratorArgs : List FunctionArgDef := [orchestratorIdArg, workflowIdArg]

/-! ## Functions -/

/-- `V1_FUNCTIONS`. -/
def v1Functions : List FunctionDef :=
  [{ functionId := "daemon.start", description := "Start runtime workers", readOnly := false },
    { functionId := "daemon.stop", description := "Stop runtime workers", readOnly := false },
    { functionId := "daemon.restart",
      description := "Restart runtime workers", readOnly := false },
    { functionId := "daemon.status", description := "Read runtime status and worker health",
      readOnly := true },
    { functionId := "daemon.logs", description := "Read recent runtime logs", readOnly := true },
    { functionId := "daemon.setup", description := "Create default config and state root",
      readOnly := false },
    { functionId := "daemon.send", description := "Send message to channel profile",
      args := daemonSendArgs, readOnly := false },
    { functionId := "daemon.chat", readOnly := false,
      description := "Start local chat REPL for a local channel profile",
      args :=
        [{ name := "channelProfileId", argType := .string, required := true,
            description := "Local channel profile id" }] },
    { functionId := "channels.reset", description := "Reset channel state directories",
      readOnly := false },
    { functionId := "channels.slack_sync", description := "Run one Slack sync pass",
      readOnly := false },
    { functionId := "channels.slack_socket_status",
      description := "Read Slack socket connection health",
      readOnly := true },
    { functionId := "channels.slack_socket_reconnect",
      description := "Request Slack socket reconnect",
      readOnly := false },
    { functionId := "channels.slack_backfill_run",
      description := "Run one Slack history backfill pass",
      readOnly := false },
    { functionId := "provider.show", description := "Show current provider/model preferences",
      readOnly := true },
    { functionId := "provider.set", description := "Set provider preference and optional model",
      args := providerSetArgs, readOnly := false },
    { functionId := "model.show", description := "Show current model preference",
      readOnly := true },
    { functionId := "model.set", description := "Set model preference",
      args := modelSetArgs, readOnly := false },
    { functionId := "agent.list", description := "List orchestrator agent ids",
      args := [orchestratorIdArg], readOnly := true },
    { functionId := "agent.add", description := "Add orchestrator-local agent",
      args := agentOrchestratorArgs, readOnly := false },
    { functionId := "agent.show", description := "Show orchestrator-local agent",
      args := agentOrchestratorArgs, readOnly := true },
    { functionId := "agent.remove", description := "Remove orchestrator-local agent",
      args := agentOrchestratorArgs, readOnly := false },
    { functionId := "agent.reset", description := "Reset orchestrator-local agent defaults",
      args := agentOrchestratorArgs, readOnly := false },
    { functionId := "orchestrator.list",
      description := "List orchestrator ids", readOnly := true },
    { functionId := "orchestrator.add", readOnly := false,
      description := "Add orchestrator and bootstrap config",
      args :=
        [{ name := "orchestratorId", argType := .string, required := true,
            description := "Orchestrator id" }] },
    { functionId := "orchestrator.show",
      description := "Show one orchestrator configuration summary",
      args := [orchestratorIdArg], readOnly := true },
    { functionId := "orchestrator.remove", description := "Remove orchestrator from settings",
      args := [orchestratorIdArg], readOnly := false },
    { functionId := "orchestrator.set_private_workspace", readOnly := false,
      description := "Set orchestrator private workspace path",
      args :=
        [orchestratorIdArg,
          { name := "path", argType := .string, required := true,
            description := "Absolute private workspace path" }] },
    { functionId := "orchestrator.grant_shared_access", readOnly := false,
      description := "Grant shared workspace key to orchestrator",
      args :=
        [orchestratorIdArg,
          { name := "sharedKey", argType := .string, required := true,
            description := "Shared workspace key" }] },
    { functionId := "orchestrator.revoke_shared_access", readOnly := false,
      description := "Revoke shared workspace key from orchestrator",
      args :=
        [orchestratorIdArg,
          { name := "sharedKey", argType := .string, required := true,
            description := "Shared workspace key" }] },
    { functionId := "orchestrator.set_selector_agent", readOnly := false,
      description := "Set orchestrator selector agent id",
      args :=
        [orchestratorIdArg,
          { name := "agentId", argType := .string, required := true,
            description := "Selector agent id" }] },
    { functionId := "orchestrator.set_default_workflow",
      description := "Set orchestrator default workflow id",
      args := workflowOrchestratorArgs, readOnly := false },
    { functionId := "orchestrator.set_selection_max_retries", readOnly := false,
      description := "Set selector retry limit",
      args :=
        [orchestratorIdArg,
          { name := "count", argType := .integer, required := true,
            description := "Retry count >= 1" }] },
    { functionId := "workflow.list", description := "List workflows for an orchestrator",
      args := [orchestratorIdArg], readOnly := true },
    { functionId := "workflow.show", readOnly := true,
      description := "Show one workflow definition",
      args :=
        [orchestratorIdArg,
          { name := "workflowId", argType := .string, required := true,
            description := "Workflow id in orchestrator scope" }] },
    { functionId := "workflow.add", description := "Add workflow to orchestrator config",
      args := workflowOrchestratorArgs, readOnly := false },
    { functionId := "workflow.remove", description := "Remove workflow from orchestrator config",
      args := workflowOrchestratorArgs, readOnly := false },
    { functionId := "workflow.run", description := "Start a workflow run", readOnly := false,
      args :=
        [orchestratorIdArg,
          workflowIdArg,
          { name := "inputs", argType := .object, required := false,
            description := "Optional key/value workflow inputs" }] },
    { functionId := "workflow.status", description := "Read workflow run status summary",
      args := [runIdArg], readOnly := true },
    { functionId := "workflow.progress", description := "Read full workflow progress payload",
      args := [runIdArg], readOnly := true },
    { functionId := "workflow.cancel", description := "Cancel a workflow run",
      args := [runIdArg], readOnly := false },
    { functionId := "channel_profile.list", description := "List configured channel profile ids",
      readOnly := true },
    { functionId := "channel_profile.add", readOnly := false,
      description := "Add channel profile mapping",
      args :=
        [profileIdArg,
          { name := "channel", argType := .string, required := true,
            description := "Channel backend id" },
          orchestratorIdArg,
          { name := "slackAppUserId", argType := .string, required := false,
            description :=
              "Profile mention identity for channels that require provider-scoped user ids" },
          { name := "requireMentionInChannels", argType := .boolean, required := false,
            description := "Mention-gating policy for non-direct channel messages" },
          { name := "threadResponseMode", argType := .string, required := false,
            description := "Opportunistic reply policy: always_reply|selective_reply" }] },
    { functionId := "channel_profile.show", description := "Show one channel profile mapping",
      args := [profileIdArg], readOnly := true },
    { functionId := "channel_profile.remove", description := "Remove channel profile mapping",
      args := [profileIdArg], readOnly := false },
    { functionId := "channel_profile.set_orchestrator", readOnly := false,
      description := "Update channel profile orchestrator mapping",
      args :=
        [profileIdArg,
          { name := "orchestratorId", argType := .string, required := true,
            description := "Mapped orchestrator id" }] },
    { functionId := "schedule.create", readOnly := false,
      description := "Create scheduled automation job",
      args :=
        [orchestratorIdArg,
          { name := "scheduleType", argType := .string, required := true,
            description := "Schedule type: once|interval|cron" },
          { name := "schedule", argType := .object, required := true,
            description := "Schedule config object" },
          { name := "targetAction", argType := .object, required := true,
            description := "Target action object" },
          { name := "targetRef", argType := .object, required := false,
            description :=
              "Optional channel target descriptor (channel/channelProfile/postingMode/thread)" },
          { name := "misfirePolicy", argType := .string, required := false,
            description := "Misfire policy: fire_once_on_recovery|skip_missed" },
          { name := "allowOverlap", argType := .boolean, required := false,
            description := "Allow overlapping triggers" },
          { name := "createdBy", argType := .object, required := false,
            description := "Optional creator metadata" }] },
    { functionId := "schedule.list", description := "List scheduler jobs for an orchestrator",
      args := [orchestratorIdArg], readOnly := true },
    { functionId := "schedule.show", description := "Show one scheduler job",
      args := [jobIdArg], readOnly := true },
    { functionId := "schedule.update", description := "Update a scheduler job", readOnly := false,
      args :=
        [jobIdArg,
          { name := "patch", argType := .object, required := true,
            description := "Scheduler update patch object" }] },
    { functionId := "schedule.pause", description := "Pause a scheduler job",
      args := [jobIdArg], readOnly := false },
    { functionId := "schedule.resume", description := "Resume a scheduler job",
      args := [jobIdArg], readOnly := false },
    { functionId := "schedule.delete", description := "Delete a scheduler job",
      args := [jobIdArg], readOnly := false },
    { functionId := "schedule.run_now", description := "Trigger a scheduler job immediately",
      args := [jobIdArg], readOnly := false },
    { functionId := "update.check", description := "Check for updates", readOnly := true },
    { functionId := "update.apply", description := "Apply update (unsupported in this build)",
      readOnly := false },
    { functionId := "daemon.attach",
      description := "Attach to supervisor or return workflow summary",
      readOnly := true },
    { functionId := "daemon.doctor", description := "Run local environment and config checks",
      readOnly := true },
    { functionId := "auth.sync", description := "Sync provider auth from configured sources",
      readOnly := false }]

/-! ## The catalog of the registry -/

def FunctionArgDef.schema (arg : FunctionArgDef) : FunctionArgSchema where
  argType := arg.argType
  required := arg.required
  description := arg.description

def FunctionDef.schema (fn : FunctionDef) : FunctionSchema where
  functionId := fn.functionId
  description := fn.description
  args := OrderedMap.ofEntries (fn.args.map fun arg => (arg.name, arg.schema))
  readOnly := fn.readOnly

def v1Catalog : List (String × FunctionSchema) :=
  OrderedMap.ofEntries (v1Functions.map fun fn => (fn.functionId, fn.schema))

/-- The catalog has the functions under their ids, and nothing else. -/
theorem v1Catalog_lookup_iff {functionId : String} {schema : FunctionSchema} :
    v1Catalog.lookup functionId = some schema ↔
      ∃ fn ∈ v1Functions, fn.functionId = functionId ∧ fn.schema = schema := by
  have hids : (v1Functions.map (·.functionId)).Nodup := by decide
  constructor
  · intro h
    obtain ⟨fn, hfn, heq⟩ :=
      (OrderedMap.mem_ofEntries_map_iff hids).mp (OrderedMap.mem_of_lookup h)
    exact ⟨fn, hfn, Prod.mk.inj heq⟩
  · rintro ⟨fn, hfn, rfl, rfl⟩
    apply OrderedMap.lookup_of_mem (OrderedMap.sorted_ofEntries _).nodup
    exact (OrderedMap.mem_ofEntries_map_iff hids).mpr ⟨fn, hfn, rfl⟩

end Direclaw.App
