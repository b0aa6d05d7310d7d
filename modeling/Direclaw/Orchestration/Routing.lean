import Direclaw.Lib.Fallible
import Direclaw.Orchestration.RunStore
import Direclaw.Orchestration.SlackTarget
import Direclaw.Queue.Message

/-!
# Routing a queued message

`process_queued_message_with_runner_binaries_and_hook` of `orchestration/routing.rs`
with every decision that the message and the settings make: which orchestrator is
asked, whether the message is a scheduled trigger, a resume or a new request, and
when the caller's hook runs. What the files, the stores and the provider answer is
`RoutingEnv`, and nothing is assumed of it.
-/

namespace Direclaw.Orchestration

open Direclaw.Lib Direclaw.Queue

/-! ## Scheduled triggers -/

inductive TargetAction : Type where
  | workflowStart (workflowId : String) (inputs : List (String × Json))
  | commandInvoke (functionId : String) (functionArgs : List (String × Json))

structure ScheduledTriggerEnvelope where
  jobId : String
  executionId : String
  triggeredAt : Int64
  orchestratorId : String
  targetAction : TargetAction
  targetRef : Option Json := none

def TargetAction.decode (value : Json) : Option TargetAction := do
  let (variant, value) ← value.internallyTagged "type"
  if variant = "workflow_start" then
    let fields ← value.structFields ["workflow_id", "inputs"]
    return .workflowStart (← Json.requiredStr (Json.field fields "workflow_id"))
      (← Json.defaultMap (Json.field fields "inputs"))
  if variant = "command_invoke" then
    let fields ← value.structFields ["function_id", "function_args"]
    return .commandInvoke (← Json.requiredStr (Json.field fields "function_id"))
      (← Json.defaultMap (Json.field fields "function_args"))
  none

def ScheduledTriggerEnvelope.decode (value : Json) : Option ScheduledTriggerEnvelope := do
  let fields ← value.structFields
    ["jobId", "executionId", "triggeredAt", "orchestratorId", "targetAction", "targetRef"]
  let get := Json.field fields
  return {
    jobId := ← Json.requiredStr (get "jobId")
    executionId := ← Json.requiredStr (get "executionId")
    triggeredAt := ← Json.requiredI64 (get "triggeredAt")
    orchestratorId := ← Json.requiredStr (get "orchestratorId")
    targetAction := ← (get "targetAction").bind TargetAction.decode
    targetRef := Json.optionalValue (get "targetRef") }

/-- The normalized target is always an object, so only the parse can fail. -/
def validateTargetRef : Option Json → Except String Unit
  | none => .ok ()
  | some value => do
      let _ ← parseSlackTargetRef value "target_ref"
      return ()

/-- `serde_json` on texts: the value of a well-formed text, what the reader says
of a text it rejects, and the printers. -/
structure JsonText where
  fromStr : String → Option Json
  complaint : String → String
  toStringPretty : Json → String
  toString : Json → String := toStringPretty

def parseTriggerEnvelope (text : JsonText) (message : String) :
    Except String ScheduledTriggerEnvelope :=
  match (text.fromStr message).bind ScheduledTriggerEnvelope.decode with
  | none => .error s!"invalid scheduler trigger payload: {text.complaint message}"
  | some envelope => do
      validateTargetRef envelope.targetRef
      return envelope

/-- `targetRef` of an envelope, read by `parse_slack_target_ref`. -/
def ScheduledTriggerEnvelope.slackTarget (envelope : ScheduledTriggerEnvelope) :
    Except String (Option SlackTargetRef) :=
  match envelope.targetRef with
  | none => .ok none
  | some value => parseSlackTargetRef value "targetRef"

/-! ## Selection -/

inductive SelectorStatus : Type where
  | selected
  | failed
deriving DecidableEq, Repr

inductive SelectorAction : Type where
  | workflowStart
  | workflowStatus
  | commandInvoke
  | noResponse
deriving DecidableEq, Repr

structure SelectorResult where
  selectorId : String
  status : SelectorStatus
  action : Option SelectorAction := none
  selectedWorkflow : Option String := none
  functionId : Option String := none
  functionArgs : Option (List (String × Json)) := none
  reason : Option String := none

inductive RoutedSelectorAction : Type where
  | workflowStart (runId workflowId : String)
  | workflowStatus (runId : Option String) (progress : Option ProgressSnapshot) (message : String)
  | commandInvoke (result : Json)
  | noResponse (reason : String)

/-- What routing is answered from outside. -/
structure RoutingEnv where
  text : JsonText
  /-- `load_orchestrator_config`, then `verify_orchestrator_workspace_access`. -/
  openOrchestrator : String → Except OrchestratorError OrchestratorConfig
  /-- `WorkflowEngine::resume`: the id of the resumed run. -/
  resume : OrchestratorConfig → String → Except OrchestratorError String
  loadProgress : String → Except OrchestratorError ProgressSnapshot
  /-- The selector request and its resolution, after `enforce_no_response_policy`;
  `Err` where an artifact cannot be stored. -/
  select : OrchestratorConfig → IncomingMessage → Except OrchestratorError SelectorResult
  routeSelectorAction : OrchestratorConfig → SelectorResult →
    Except OrchestratorError RoutedSelectorAction
  completeScheduledExecution : String → String → Bool → Except String Unit

/-- Who handles a message: its channel profile decides, or for heartbeat and
scheduler messages without one the sender. -/
def resolveOrchestratorId (settings : Settings) (inbound : IncomingMessage) :
    Except OrchestratorError String :=
  let channelProfileId := inbound.channelProfileId.filter fun id => !Text.isBlank id.toList
  let fromSender (tag : String) : Option String :=
    ((Text.stripPrefix tag.toList inbound.sender.toList).map Text.trim).bind fun id =>
      if id ≠ [] ∧ (settings.orchestrators.lookup (String.ofList id)).isSome then
        some (String.ofList id)
      else none
  match channelProfileId with
  | some id =>
    match settings.channelProfiles.lookup id with
    | some profile => .ok profile.orchestratorId
    | none => .error (.unknownChannelProfileId id)
  | none =>
    let bySender :=
      if inbound.channel = "heartbeat" then fromSender "heartbeat:"
      else if inbound.channel = "scheduler" then fromSender "scheduler:"
      else none
    match bySender with
    | some id => .ok id
    | none => .error (.missingChannelProfileId inbound.messageId)

/-- `missing_run_for_io`, or the error itself. -/
def missingRunForIo (runId : String) : OrchestratorError → OrchestratorError
  | .io _ .notFound => .unknownRunId runId
  | err => err

/-- What `status` and `progress` commands are compared with. -/
def isStatusCommand (message : String) : Bool :=
  Text.toAsciiLowercase (Text.trim message.toList) ∈
    ["status".toList, "progress".toList, "/status".toList, "/progress".toList]

section Routing

variable (env : RoutingEnv) (settings : Settings) (inbound : IncomingMessage)

def runNotFound (runId : String) : RoutedSelectorAction :=
  .workflowStatus (some runId) none s!"workflow run `{runId}` was not found"

/-- A message that names a run resumes it and reports its progress. -/
def resumeInboundRun (orchestratorId runId : String) :
    Except OrchestratorError RoutedSelectorAction := do
  let orchestrator ← env.openOrchestrator orchestratorId
  match (env.resume orchestrator runId).mapError (missingRunForIo runId) with
  | .error (.unknownRunId _) => return runNotFound runId
  | .error err => throw err
  | .ok resumed =>
    match (env.loadProgress runId).mapError (missingRunForIo runId) with
    | .error (.unknownRunId _) => return runNotFound runId
    | .error err => throw err
    | .ok progress =>
      return .workflowStatus (some resumed) (some progress) "workflow progress loaded"

/-- The selector result that a trigger stands for. -/
def ScheduledTriggerEnvelope.selection (envelope : ScheduledTriggerEnvelope) : SelectorResult :=
  let reason :=
    s!"scheduled_trigger job_id={envelope.jobId} execution_id={envelope.executionId}"
  match envelope.targetAction with
  | .workflowStart workflowId _ =>
    { selectorId := s!"schedule-{envelope.executionId}", status := .selected
      action := some .workflowStart, selectedWorkflow := some workflowId, reason := some reason }
  | .commandInvoke functionId functionArgs =>
    { selectorId := s!"schedule-{envelope.executionId}", status := .selected
      action := some .commandInvoke, functionId := some functionId
      functionArgs := some functionArgs, reason := some reason }

def routeScheduledTrigger (orchestratorId : String) :
    Except OrchestratorError RoutedSelectorAction := do
  let envelope ← (parseTriggerEnvelope env.text inbound.message).mapError .selectorValidation
  if envelope.orchestratorId ≠ orchestratorId then
    throw (.selectorValidation (s!"scheduled trigger orchestrator mismatch: expected " ++
      s!"`{orchestratorId}`, got `{envelope.orchestratorId}`"))
  let slackTarget ← envelope.slackTarget.mapError .selectorValidation
  (validateProfileMapping settings orchestratorId slackTarget).mapError .selectorValidation
  let orchestrator ← env.openOrchestrator orchestratorId
  match env.routeSelectorAction orchestrator envelope.selection with
  | .ok action =>
    match env.completeScheduledExecution envelope.jobId envelope.executionId true with
    | .ok () => return action
    | .error reason =>
      throw (.scheduledExecutionCompletion envelope.jobId envelope.executionId reason)
  | .error err =>
    match env.completeScheduledExecution envelope.jobId envelope.executionId false with
    | .ok () => throw err
    | .error reason =>
      throw (.scheduledExecutionCompletion envelope.jobId envelope.executionId
        s!"routing error: {err.display}; completion error: {reason}")

/-- The workflow that `on_workflow_selected` is told about. -/
def SelectorResult.startedWorkflow (result : SelectorResult) : Option String :=
  if result.status = .selected ∧ result.action = some .workflowStart then
    result.selectedWorkflow.filter fun id => !Text.isBlank id.toList
  else none

def workflowStepCount (orchestrator : OrchestratorConfig) (workflowId : String) : ℕ :=
  match orchestrator.workflows.find? (·.id == workflowId) with
  | some workflow => workflow.steps.length
  | none => 0

variable {σ : Type*} (onWorkflowSelected : σ → String → ℕ → σ × Except OrchestratorError Unit)

/-- A new request: the selector chooses, the hook hears of a workflow that is
about to start, and the choice is carried out. -/
def routeSelection (orchestratorId : String) (s : σ) :
    σ × Except OrchestratorError RoutedSelectorAction :=
  match env.openOrchestrator orchestratorId with
  | .error err => (s, .error err)
  | .ok orchestrator =>
    match env.select orchestrator inbound with
    | .error err => (s, .error err)
    | .ok result =>
      match result.startedWorkflow with
      | none => (s, env.routeSelectorAction orchestrator result)
      | some workflowId =>
        match onWorkflowSelected s workflowId (workflowStepCount orchestrator workflowId) with
        | (s, .error err) => (s, .error err)
        | (s, .ok ()) => (s, env.routeSelectorAction orchestrator result)

/-- The run that an inbound message is about, unless it only asks for its status. -/
def inboundRunId : Option String :=
  if isStatusCommand inbound.message then none
  else inbound.workflowRunId.filter fun id => !Text.isBlank id.toList

def processQueuedMessage (s : σ) : σ × Except OrchestratorError RoutedSelectorAction :=
  match resolveOrchestratorId settings inbound with
  | .error err => (s, .error err)
  | .ok orchestratorId =>
    match settings.resolveOrchestratorRuntimeRoot orchestratorId with
    | .error err => (s, .error (.config err.display))
    | .ok _ =>
      if inbound.channel = "scheduler" then
        (s, routeScheduledTrigger env settings inbound orchestratorId)
      else
        match inboundRunId inbound with
        | some runId => (s, resumeInboundRun env orchestratorId runId)
        | none => routeSelection env inbound onWorkflowSelected orchestratorId s

end Routing

/-! ## What an accepted message has passed -/

section Accepted

variable {env : RoutingEnv} {settings : Settings} {inbound : IncomingMessage} {σ : Type*}
  {onWorkflowSelected : σ → String → ℕ → σ × Except OrchestratorError Unit} {s : σ}
  {action : RoutedSelectorAction}

/-- Only the hook changes the caller's state. -/
theorem processQueuedMessage_keeps {P : σ → Prop}
    (hhook : ∀ s workflowId count, P s → P (onWorkflowSelected s workflowId count).1) (hs : P s) :
    P (processQueuedMessage env settings inbound onWorkflowSelected s).1 := by
  unfold processQueuedMessage routeSelection
  split
  · exact hs
  split
  · exact hs
  split
  · exact hs
  split
  · exact hs
  split
  · exact hs
  split
  · exact hs
  split
  · exact hs
  next workflowId _ =>
    split
    all_goals
      next hcall => exact (congrArg (fun r => P r.1) hcall).mp (hhook s workflowId _ hs)

theorem processQueuedMessage_resolved
    (h : (processQueuedMessage env settings inbound onWorkflowSelected s).2 = .ok action) :
    ∃ orchestratorId root, resolveOrchestratorId settings inbound = .ok orchestratorId ∧
      settings.resolveOrchestratorRuntimeRoot orchestratorId = .ok root := by
  unfold processQueuedMessage at h
  split at h
  · cases h
  · next orchestratorId hid =>
      split at h
      · cases h
      · next root hroot => exact ⟨orchestratorId, root, hid, hroot⟩

/-- A trigger that was carried out has a target, and its profile maps to the
trigger's orchestrator. -/
theorem routeScheduledTrigger_target {orchestratorId : String}
    (h : routeScheduledTrigger env settings inbound orchestratorId = .ok action) :
    ∃ envelope target, parseTriggerEnvelope env.text inbound.message = .ok envelope ∧
      envelope.slackTarget = .ok target ∧
      validateProfileMapping settings envelope.orchestratorId target = .ok () := by
  obtain ⟨envelope, hparse, h⟩ := bind_eq_ok h
  have hparse := mapError_eq_ok hparse
  by_cases hid : envelope.orchestratorId = orchestratorId
  · simp only [ne_eq, hid, not_true, if_false] at h
    obtain ⟨target, htarget, h⟩ := bind_eq_ok h
    obtain ⟨_, hmapping, _⟩ := bind_eq_ok h
    rw [← hid] at hmapping
    exact ⟨envelope, target, hparse, mapError_eq_ok htarget, mapError_eq_ok hmapping⟩
  · simp only [ne_eq, hid, not_false_eq_true, if_true] at h
    cases h

theorem resolveOrchestratorId_profile {orchestratorId : String}
    (h : resolveOrchestratorId settings inbound = .ok orchestratorId)
    (hchannel : inbound.channel = "slack") :
    ∃ id, inbound.channelProfileId = some id ∧ Text.isBlank id.toList = false := by
  cases hid : inbound.channelProfileId with
  | none => simp [resolveOrchestratorId, hid, hchannel] at h
  | some id =>
    refine ⟨id, rfl, ?_⟩
    by_contra hblank
    rw [Bool.not_eq_false] at hblank
    simp [resolveOrchestratorId, hid, hchannel, hblank, Option.filter] at h

end Accepted

end Direclaw.Orchestration
