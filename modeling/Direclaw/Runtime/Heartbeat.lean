import Direclaw.Lib.Trimming
import Direclaw.Orchestration.Routing

/-!
# Heartbeats and the router

`build_heartbeat_incoming_message` of `runtime/heartbeat_worker.rs`, and what
`process_queued_message` does with its messages. The correlation of a heartbeat is put into
the field by which the router knows a resume; so every heartbeat resumes the run of that id.
-/

namespace Direclaw.Runtime

open Direclaw.Lib Direclaw.Orchestration Direclaw.Queue

/-! ## The message of a tick -/

def sanitizeComponent (raw : String) : String :=
  String.ofList (raw.toList.map fun ch =>
    if ch.isAlphanum || ch == '-' || ch == '_' then ch else '_')

def heartbeatCorrelation (orchestratorId agentId : String) (tickAt : Int64) : String :=
  "hb:" ++ s!"{sanitizeComponent orchestratorId}:{sanitizeComponent agentId}:{tickAt.toInt}"

def buildHeartbeatIncomingMessage (orchestratorId agentId prompt : String) (tickAt : Int64) :
    Except String IncomingMessage :=
  if Text.isBlank orchestratorId.toList then .error "heartbeat orchestrator id must be non-empty"
  else if Text.isBlank agentId.toList then .error "heartbeat agent id must be non-empty"
  else
    let safeOrchestratorId := sanitizeComponent orchestratorId
    let safeAgentId := sanitizeComponent agentId
    let correlation := heartbeatCorrelation orchestratorId agentId tickAt
    .ok
      { channel := "heartbeat"
        sender := "heartbeat:" ++ orchestratorId
        senderId := s!"heartbeat-{safeAgentId}"
        message := prompt
        timestamp := tickAt
        messageId := s!"heartbeat-{safeOrchestratorId}-{safeAgentId}-{tickAt.toInt}"
        conversationId := some correlation
        workflowRunId := some correlation
        workflowStepId := some "heartbeat_worker_check" }

/-- **The message reaches the selector**: whatever the stores hold and the provider answers,
the router hands it to the selector of the orchestrator it is for. -/
def ReachesSelector (settings : Settings) (message : IncomingMessage) : Prop :=
  ∀ (env : RoutingEnv) (σ : Type) (onWorkflowSelected : σ → String → ℕ →
      σ × Except OrchestratorError Unit) (s : σ) (orchestratorId root : String),
    resolveOrchestratorId settings message = .ok orchestratorId →
    settings.resolveOrchestratorRuntimeRoot orchestratorId = .ok root →
    processQueuedMessage env settings message onWorkflowSelected s =
      routeSelection env message onWorkflowSelected orchestratorId s

section Built

variable {settings : Settings} {orchestratorId agentId prompt : String} {tickAt : Int64}
  {message : IncomingMessage}

theorem built_fields
    (h : buildHeartbeatIncomingMessage orchestratorId agentId prompt tickAt = .ok message) :
    Text.isBlank orchestratorId.toList = false ∧ message.channel = "heartbeat" ∧
      message.channelProfileId = none ∧ message.sender = "heartbeat:" ++ orchestratorId ∧
      message.message = prompt ∧
      message.workflowRunId = some (heartbeatCorrelation orchestratorId agentId tickAt) := by
  rw [buildHeartbeatIncomingMessage] at h
  split at h
  · cases h
  · next hblank =>
      split at h
      · cases h
      · cases h
        exact ⟨by rwa [Bool.not_eq_true] at hblank, rfl, rfl, rfl, rfl, rfl⟩

theorem resolveOrchestratorId_built
    (h : buildHeartbeatIncomingMessage orchestratorId agentId prompt tickAt = .ok message) :
    resolveOrchestratorId settings message =
      if (settings.orchestrators.lookup (Text.trimmed orchestratorId)).isSome then
        .ok (Text.trimmed orchestratorId)
      else .error (.missingChannelProfileId message.messageId) := by
  obtain ⟨hblank, hchannel, hprofile, hsender, -, -⟩ := built_fields h
  have hstrip : Text.stripPrefix "heartbeat:".toList message.sender.toList =
      some orchestratorId.toList := by
    rw [hsender, String.toList_append, Text.stripPrefix_append]
  have hname : Text.trim orchestratorId.toList ≠ [] := by
    rw [ne_eq, Text.trim_eq_nil_iff, hblank]
    exact Bool.false_ne_true
  simp only [resolveOrchestratorId, hprofile, hchannel, hstrip, Option.filter_none, if_true,
    Option.map_some, Option.bind_some]
  have htrimmed : Text.trimmed orchestratorId =
      String.ofList (Text.trim orchestratorId.toList) := rfl
  rw [htrimmed]
  by_cases hlookup : (settings.orchestrators.lookup
      (String.ofList (Text.trim orchestratorId.toList))).isSome = true
  · rw [if_pos ⟨hname, hlookup⟩, if_pos hlookup]
  · rw [if_neg fun hboth => hlookup hboth.2, if_neg hlookup]

theorem correlation_not_blank :
    Text.isBlank (heartbeatCorrelation orchestratorId agentId tickAt).toList = false := by
  rw [heartbeatCorrelation, String.toList_append]
  exact List.all_eq_false.mpr ⟨'h', List.mem_append_left _ (by decide), by decide⟩

theorem inboundRunId_built
    (h : buildHeartbeatIncomingMessage orchestratorId agentId prompt tickAt = .ok message)
    (hstatus : isStatusCommand prompt = false) :
    inboundRunId message = some (heartbeatCorrelation orchestratorId agentId tickAt) := by
  obtain ⟨-, -, -, -, hmessage, hrun⟩ := built_fields h
  have hblank := @correlation_not_blank orchestratorId agentId tickAt
  generalize heartbeatCorrelation orchestratorId agentId tickAt = correlation at hrun hblank ⊢
  simp only [inboundRunId, hmessage, hstatus, hrun, Option.filter_some, hblank, Bool.not_false,
    if_true, Bool.false_eq_true, if_false]

variable {env : RoutingEnv}

theorem processQueuedMessage_built {σ : Type}
    {onWorkflowSelected : σ → String → ℕ → σ × Except OrchestratorError Unit} {s : σ}
    {handler root : String}
    (h : buildHeartbeatIncomingMessage orchestratorId agentId prompt tickAt = .ok message)
    (hstatus : isStatusCommand prompt = false)
    (hresolved : resolveOrchestratorId settings message = .ok handler)
    (hroot : settings.resolveOrchestratorRuntimeRoot handler = .ok root) :
    processQueuedMessage env settings message onWorkflowSelected s =
      (s, resumeInboundRun env handler (heartbeatCorrelation orchestratorId agentId tickAt)) := by
  obtain ⟨-, hchannel, -, -, -, -⟩ := built_fields h
  have hscheduler : message.channel ≠ "scheduler" := by
    rw [hchannel]
    decide
  simp only [processQueuedMessage, hresolved, hroot, inboundRunId_built h hstatus]
  rw [if_neg hscheduler]

/-- A run that does not exist is the answer. -/
theorem resumeInboundRun_missing {orchestrator : OrchestratorConfig} {handler runId path : String}
    (hopen : env.openOrchestrator handler = .ok orchestrator)
    (hmissing : env.resume orchestrator runId = .error (.io path .notFound)) :
    resumeInboundRun env handler runId = .ok (runNotFound runId) := by
  rw [resumeInboundRun, hopen]
  show Except.bind (.ok orchestrator) _ = _
  rw [Except.bind, hmissing]
  rfl

theorem lookup_of_runtimeRoot {root : String}
    (h : settings.resolveOrchestratorRuntimeRoot orchestratorId = .ok root) :
    (settings.orchestrators.lookup orchestratorId).isSome = true := by
  obtain ⟨-, entry, hentry, -⟩ := resolvePrivateWorkspace_ok_iff.mp h
  rw [hentry]
  rfl

theorem processQueuedMessage_missing {env : RoutingEnv} {σ : Type} {onWorkflowSelected :
      σ → String → ℕ → σ × Except OrchestratorError Unit} {s : σ}
    {orchestrator : OrchestratorConfig} {root path : String}
    (h : buildHeartbeatIncomingMessage orchestratorId agentId prompt tickAt = .ok message)
    (hstatus : isStatusCommand prompt = false)
    (hroot : settings.resolveOrchestratorRuntimeRoot (Text.trimmed orchestratorId) = .ok root)
    (hopen : env.openOrchestrator (Text.trimmed orchestratorId) = .ok orchestrator)
    (hmissing : env.resume orchestrator (heartbeatCorrelation orchestratorId agentId tickAt) =
      .error (.io path .notFound)) :
    processQueuedMessage env settings message onWorkflowSelected s =
      (s, .ok (runNotFound (heartbeatCorrelation orchestratorId agentId tickAt))) := by
  have hresolved : resolveOrchestratorId settings message = .ok (Text.trimmed orchestratorId) := by
    rw [resolveOrchestratorId_built h, if_pos (lookup_of_runtimeRoot hroot)]
  rw [processQueuedMessage_built h hstatus hresolved hroot,
    resumeInboundRun_missing hopen hmissing]

end Built

/-- A store without runs, and a selector that fails. -/
def withoutRuns (orchestrator : OrchestratorConfig) : RoutingEnv where
  text := { fromStr := fun _ => none, complaint := fun _ => "", toStringPretty := fun _ => "" }
  openOrchestrator _ := .ok orchestrator
  resume _ runId := .error (.io runId .notFound)
  loadProgress runId := .error (.io runId .notFound)
  select _ _ := .error (.selectorValidation "no selector")
  routeSelectorAction _ _ := .error (.selectorValidation "no selector")
  completeScheduledExecution _ _ _ := .ok ()

def bareOrchestrator : OrchestratorConfig where
  id := "eng"
  selectorAgent := "router"
  defaultWorkflow := "flow"
  agents := []
  workflows := []

/-- For every heartbeat that is built from a prompt that is no status command: it reaches the
selector only if the router refuses it before, for want of an orchestrator with a runtime
root; every other one resumes the run that its correlation names, and if the store has none
the answer is that there is none. -/
theorem heartbeat_reachesSelector_iff (settings : Settings) (orchestratorId agentId prompt : String)
    (tickAt : Int64) (message : IncomingMessage)
    (hbuilt : buildHeartbeatIncomingMessage orchestratorId agentId prompt tickAt = .ok message)
    (hstatus : isStatusCommand prompt = false) :
    (ReachesSelector settings message ↔
      ∀ root, settings.resolveOrchestratorRuntimeRoot (Text.trimmed orchestratorId) ≠ .ok root) ∧
    ∀ (env : RoutingEnv) (σ : Type) (onWorkflowSelected : σ → String → ℕ →
        σ × Except OrchestratorError Unit) (s : σ) (orchestrator : OrchestratorConfig)
        (root path : String),
      settings.resolveOrchestratorRuntimeRoot (Text.trimmed orchestratorId) = .ok root →
      env.openOrchestrator (Text.trimmed orchestratorId) = .ok orchestrator →
      env.resume orchestrator (heartbeatCorrelation orchestratorId agentId tickAt) =
        .error (.io path .notFound) →
      processQueuedMessage env settings message onWorkflowSelected s =
        (s, .ok (runNotFound (heartbeatCorrelation orchestratorId agentId tickAt))) := by
  refine ⟨⟨fun hreaches root hroot => ?_, fun hnone => ?_⟩, ?_⟩
  · -- without runs the one answers, and the other one fails
    have hresolved : resolveOrchestratorId settings message =
        .ok (Text.trimmed orchestratorId) := by
      rw [resolveOrchestratorId_built hbuilt, if_pos (lookup_of_runtimeRoot hroot)]
    have hsame := hreaches (withoutRuns bareOrchestrator) Unit (fun s _ _ => (s, .ok ())) ()
      _ root hresolved hroot
    have hopen : (withoutRuns bareOrchestrator).openOrchestrator (Text.trimmed orchestratorId) =
        .ok bareOrchestrator := rfl
    rw [processQueuedMessage_missing hbuilt hstatus hroot hopen rfl] at hsame
    cases congrArg Prod.snd hsame
  · intro env σ onWorkflowSelected s handler root hhandler hroot
    rw [resolveOrchestratorId_built hbuilt] at hhandler
    split at hhandler
    · obtain rfl := Except.ok.inj hhandler
      exact absurd hroot (hnone root)
    · cases hhandler
  · intro env σ onWorkflowSelected s orchestrator root path hroot hopen hmissing
    exact processQueuedMessage_missing hbuilt hstatus hroot hopen hmissing

/-! ### A heartbeat of one agent -/

def heartbeatSettings : Settings where
  workspacesPath := "/ws"
  orchestrators := [("eng", {})]

def workerHeartbeat : IncomingMessage where
  channel := "heartbeat"
  sender := "heartbeat:eng"
  senderId := "heartbeat-worker"
  message := "check the queue"
  timestamp := 1700000000
  messageId := "heartbeat-eng-worker-1700000000"
  conversationId := some "hb:eng:worker:1700000000"
  workflowRunId := some "hb:eng:worker:1700000000"
  workflowStepId := some "heartbeat_worker_check"

theorem workerHeartbeat_built :
    buildHeartbeatIncomingMessage "eng" "worker" "check the queue" 1700000000 =
      .ok workerHeartbeat := by
  decide

theorem heartbeat_reachesSelector_worker :
    ReachesSelector heartbeatSettings workerHeartbeat ↔
      ∀ root, heartbeatSettings.resolveOrchestratorRuntimeRoot (Text.trimmed "eng") ≠ .ok root :=
  (heartbeat_reachesSelector_iff heartbeatSettings "eng" "worker" "check the queue" 1700000000
    workerHeartbeat workerHeartbeat_built (by decide)).1

/-- The answer to the heartbeat is that there is no such run. -/
theorem worker_heartbeat_not_found :
    (processQueuedMessage (withoutRuns bareOrchestrator) heartbeatSettings workerHeartbeat
      (fun (s : Unit) _ _ => (s, .ok ())) ()).2 =
        .ok (.workflowStatus (some "hb:eng:worker:1700000000") none
          "workflow run `hb:eng:worker:1700000000` was not found") ∧
    ¬ ReachesSelector heartbeatSettings workerHeartbeat := by
  have hanswer : (processQueuedMessage (withoutRuns bareOrchestrator) heartbeatSettings
      workerHeartbeat (fun (s : Unit) _ _ => (s, .ok ())) ()).2 =
        .ok (.workflowStatus (some "hb:eng:worker:1700000000") none
          "workflow run `hb:eng:worker:1700000000` was not found") := by
    rfl
  refine ⟨hanswer, fun h => ?_⟩
  have hsame := h (withoutRuns bareOrchestrator) Unit (fun s _ _ => (s, .ok ())) () "eng" "/ws/eng"
    (by decide) (by decide)
  rw [hsame] at hanswer
  cases hanswer

end Direclaw.Runtime
