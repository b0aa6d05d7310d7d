import Direclaw.Orchestration.ConfigValidation
import Direclaw.Orchestration.Selector

/-!
# The authority of the selector

`resolve_selector_for_inbound` and `enforce_no_response_policy` of
`orchestration/routing.rs`, `route_selector_action` of `orchestration/transitions.rs` and
the function registry. Whatever the selector writes in whatever attempt, the action that is
carried out is one that the request, the orchestrator and the message allow.
-/

namespace Direclaw.Orchestration

open Direclaw.Lib Direclaw.Queue

/-! ## Choosing -/

inductive ResponseEligibility : Type where
  | notApplicable
  | mustReply
  | opportunistic
deriving DecidableEq, Repr

def isExplicitProfileMention (inbound : IncomingMessage) : Bool := inbound.isMentioned

def classifyResponseEligibility (inbound : IncomingMessage) : ResponseEligibility :=
  if inbound.isDirect || isExplicitProfileMention inbound then .mustReply else .opportunistic

structure SelectionResolution where
  result : SelectorResult
  retriesUsed : ℕ
  fellBackToDefaultWorkflow : Bool

section Choosing

variable (text : JsonText) (request : SelectorRequest) (nextAttempt : ℕ → Option String)

/-- A selected result that the attempt gives. -/
def selectedIn (attempt : ℕ) : Option SelectorResult :=
  match nextAttempt attempt with
  | none => none
  | some raw =>
    match parseAndValidateSelectorResult request text raw with
    | .error _ => none
    | .ok validated => if validated.status = .selected then some validated else none

/-- The loop of both resolutions: the first attempt with a selected result. -/
def firstSelected : List ℕ → Option SelectionResolution
  | [] => none
  | attempt :: attempts =>
    match selectedIn text request nextAttempt attempt with
    | some result =>
      some { result, retriesUsed := attempt, fellBackToDefaultWorkflow := false }
    | none => firstSelected attempts

def resolveSelectorWithRetries (orchestrator : OrchestratorConfig) : SelectionResolution :=
  let maxAttempts := Text.u32Succ orchestrator.selectionMaxRetries
  (firstSelected text request nextAttempt (List.range maxAttempts)).getD
    { result :=
        { selectorId := request.selectorId, status := .selected, action := some .workflowStart
          selectedWorkflow := some orchestrator.defaultWorkflow
          reason := some "fallback_to_default_workflow_after_retry_limit" }
      retriesUsed := orchestrator.selectionMaxRetries
      fellBackToDefaultWorkflow := true }

def opportunisticSelectorRetryCount : ℕ := 3

def resolveSelectorForInbound (inbound : IncomingMessage) (orchestrator : OrchestratorConfig) :
    SelectionResolution :=
  if classifyResponseEligibility inbound ≠ .opportunistic then
    resolveSelectorWithRetries text request nextAttempt orchestrator
  else
    (firstSelected text request nextAttempt
        (List.range (opportunisticSelectorRetryCount + 1))).getD
      { result :=
          { selectorId := request.selectorId, status := .selected, action := some .noResponse
            reason := some "selector_retry_exhausted_no_response" }
        retriesUsed := opportunisticSelectorRetryCount
        fellBackToDefaultWorkflow := false }

def enforceNoResponsePolicy (inbound : IncomingMessage) (orchestrator : OrchestratorConfig)
    (result : SelectorResult) : SelectorResult :=
  if result.action ≠ some .noResponse then result
  else if classifyResponseEligibility inbound = .opportunistic ∧
      isExplicitProfileMention inbound = false then result
  else
    { result with
      action := some .workflowStart
      selectedWorkflow := some orchestrator.defaultWorkflow
      functionId := none
      functionArgs := none
      reason := some "no_response_overridden_to_default_workflow" }

end Choosing

/-! ## Functions -/

structure FunctionCall where
  functionId : String
  args : List (String × Json)

structure FunctionRegistry where
  allowed : List String
  catalog : List (String × FunctionSchema)

namespace FunctionRegistry

/-- The allowlist keeps what the catalog has. -/
def new (functionIds : List String) (catalog : List (String × FunctionSchema)) :
    FunctionRegistry where
  allowed := functionIds.filter fun id => (catalog.lookup id).isSome
  catalog := catalog

def contains (functions : FunctionRegistry) (functionId : String) : Bool :=
  functions.allowed.contains functionId

def validateArgs (call : FunctionCall) (schema : FunctionSchema) : Except OrchestratorError Unit :=
  checkArgs (fun key => .unknownFunctionArg call.functionId key)
    (fun arg argType => .invalidFunctionArgType call.functionId arg argType.display)
    (fun arg => .missingFunctionArg arg) schema call.args

/-- `invoke_with_context` up to the call itself. -/
def authorize (functions : FunctionRegistry) (call : FunctionCall) :
    Except OrchestratorError Unit :=
  if !functions.contains call.functionId then .error (.unknownFunction call.functionId)
  else
    match functions.catalog.lookup call.functionId with
    | none => .error (.unknownFunction call.functionId)
    | some schema => validateArgs call schema

structure Grants (functions : FunctionRegistry) (call : FunctionCall) : Prop where
  allowed : call.functionId ∈ functions.allowed
  declared : ∃ schema, functions.catalog.lookup call.functionId = some schema ∧
    ArgsMatch schema call.args

theorem grants_of_authorize {functions : FunctionRegistry} {call : FunctionCall}
    (h : functions.authorize call = .ok ()) : functions.Grants call := by
  unfold authorize at h
  split at h
  · cases h
  next hallowed =>
    split at h
    · cases h
    next schema hschema =>
      exact ⟨by simpa [contains] using hallowed, schema, hschema, argsMatch_of_check h⟩

end FunctionRegistry

/-! ## Routing -/

structure StatusResolutionInput where
  explicitRunId : Option String := none
  inboundWorkflowRunId : Option String := none
  channelProfileId : Option String := none
  conversationId : Option String := none

def resolveStatusRunId (input : StatusResolutionInput)
    (activeConversationRuns : List ((String × String) × String)) : Option String :=
  let present := fun (id : Option String) => id.filter fun id => !Text.isBlank id.toList
  match present input.explicitRunId, present input.inboundWorkflowRunId with
  | some explicit, _ => some explicit
  | none, some inbound => some inbound
  | none, none => do
      let profile ← input.channelProfileId
      let conversation ← input.conversationId
      activeConversationRuns.lookup (profile, conversation)

/-- What a selected action is carried out with. What the run store, the engine and the
functions answer is not looked into. -/
structure RouteContext where
  statusInput : StatusResolutionInput
  activeConversationRuns : List ((String × String) × String)
  functions : FunctionRegistry
  orchestrator : OrchestratorConfig
  /-- `allocate_compact_run_id_with_retry`. -/
  allocateRunId : Except OrchestratorError String
  /-- `validate_selected_workflow_output_paths`. -/
  validateOutputPaths : String → String → Except OrchestratorError Unit
  /-- `create_run_with_metadata`, then `WorkflowEngine::start`. -/
  startRun : String → String → Except OrchestratorError Unit
  loadProgress : String → Except OrchestratorError ProgressSnapshot
  /-- `execute_function_invocation`. -/
  execute : FunctionCall → Except OrchestratorError Json

/-- What routing does to the world. -/
inductive RouteEffect : Type where
  | runCreated (runId workflowId : String)
  | functionInvoked (call : FunctionCall)

section Route

variable (text : JsonText) (request : SelectorRequest) (ctx : RouteContext)

def startSelectedWorkflow (validated : SelectorResult) :
    List RouteEffect × Except OrchestratorError RoutedSelectorAction :=
  match validated.selectedWorkflow with
  | none => ([], .error (.selectorValidation "workflow_start requires selectedWorkflow"))
  | some workflowId =>
    if !ctx.orchestrator.workflows.any (·.id == workflowId) then
      ([], .error (.selectorValidation
        s!"workflow `{workflowId}` is not declared in orchestrator"))
    else
      match ctx.allocateRunId with
      | .error err => ([], .error err)
      | .ok runId =>
        match ctx.validateOutputPaths runId workflowId with
        | .error err => ([], .error err)
        | .ok () =>
          ([.runCreated runId workflowId],
            (ctx.startRun runId workflowId).map fun () => .workflowStart runId workflowId)

def reportStatus : Except OrchestratorError RoutedSelectorAction :=
  match resolveStatusRunId ctx.statusInput ctx.activeConversationRuns with
  | none => .ok (.workflowStatus none none "no active workflow run found for this conversation")
  | some runId =>
    match (ctx.loadProgress runId).mapError (missingRunForIo runId) with
    | .ok progress => .ok (.workflowStatus (some runId) (some progress) "workflow progress loaded")
    | .error (.unknownRunId _) => .ok (runNotFound runId)
    | .error err => .error err

def invokeCommand (validated : SelectorResult) :
    List RouteEffect × Except OrchestratorError RoutedSelectorAction :=
  match validated.functionId with
  | none => ([], .error (.selectorValidation "missing functionId"))
  | some functionId =>
    let call : FunctionCall := { functionId, args := validated.functionArgs.getD [] }
    match ctx.functions.authorize call with
    | .error err => ([], .error err)
    | .ok () => ([.functionInvoked call], (ctx.execute call).map .commandInvoke)

/-- `route_selector_action`: the result is written, read and validated once more. -/
def routeSelectorAction (result : SelectorResult) :
    List RouteEffect × Except OrchestratorError RoutedSelectorAction :=
  match parseAndValidateSelectorResult request text (text.toString (.object result.members)) with
  | .error err => ([], .error err)
  | .ok validated =>
    match validated.action with
    | none => ([], .error (.selectorValidation "missing action"))
    | some .workflowStart => startSelectedWorkflow ctx validated
    | some .workflowStatus => ([], reportStatus ctx)
    | some .commandInvoke => invokeCommand ctx validated
    | some .noResponse =>
      ([], .ok (.noResponse (validated.reason.getD "selector chose no_response")))

/-- From the attempts of the selector to the action that is carried out. -/
def routeInbound (inbound : IncomingMessage) (nextAttempt : ℕ → Option String) :
    List RouteEffect × Except OrchestratorError RoutedSelectorAction :=
  let selection := resolveSelectorForInbound text request nextAttempt inbound ctx.orchestrator
  routeSelectorAction text request ctx
    (enforceNoResponsePolicy inbound ctx.orchestrator selection.result)

end Route

/-! ## What is chosen -/

section Chosen

variable {text : JsonText} {request : SelectorRequest} {nextAttempt : ℕ → Option String}

/-- A result that says what to do. -/
structure Decided (result : SelectorResult) : Prop where
  selected : result.status = .selected
  action : ∃ action, result.action = some action

theorem selectedIn_decided {attempt : ℕ} {result : SelectorResult}
    (h : selectedIn text request nextAttempt attempt = some result) : Decided result := by
  unfold selectedIn at h
  split at h
  · cases h
  split at h
  · cases h
  next validated hvalidated =>
    split at h
    · next hselected =>
        cases h
        exact ⟨hselected, validateSelected_action ((parse_spec hvalidated).2 hselected)⟩
    · cases h

theorem firstSelected_decided {attempts : List ℕ} {selection : SelectionResolution}
    (h : firstSelected text request nextAttempt attempts = some selection) :
    Decided selection.result := by
  induction attempts with
  | nil => cases h
  | cons attempt attempts ih =>
    unfold firstSelected at h
    split at h
    · next hresult =>
        cases h
        exact selectedIn_decided hresult
    · exact ih h

theorem getD_decided {selection : Option SelectionResolution} {fallback : SelectionResolution}
    (h : ∀ found, selection = some found → Decided found.result)
    (hfallback : Decided fallback.result) : Decided (selection.getD fallback).result := by
  cases selection with
  | none => exact hfallback
  | some found => exact h found rfl

theorem resolveSelector_decided (inbound : IncomingMessage) (orchestrator : OrchestratorConfig) :
    Decided (resolveSelectorForInbound text request nextAttempt inbound orchestrator).result := by
  unfold resolveSelectorForInbound
  split
  · exact getD_decided (fun _ h => firstSelected_decided h) ⟨rfl, _, rfl⟩
  · exact getD_decided (fun _ h => firstSelected_decided h) ⟨rfl, _, rfl⟩

/-- The policy leaves a decision, and `NoResponse` only where it may stay. -/
theorem enforce_decided {inbound : IncomingMessage} {orchestrator : OrchestratorConfig}
    {result : SelectorResult} (h : Decided result) :
    Decided (enforceNoResponsePolicy inbound orchestrator result) ∧
      ((enforceNoResponsePolicy inbound orchestrator result).action = some .noResponse →
        classifyResponseEligibility inbound = .opportunistic ∧
          isExplicitProfileMention inbound = false) := by
  unfold enforceNoResponsePolicy
  split
  · next hother => exact ⟨h, fun hno => absurd hno hother⟩
  split
  · next hallow => exact ⟨h, fun _ => hallow⟩
  · refine ⟨⟨h.selected, _, rfl⟩, fun hno => ?_⟩
    cases hno

end Chosen

/-! ## Writing and reading a result -/

/-- What `to_string` writes for an object is read as an object, in which every text is what
it was. -/
def JsonText.ReadsBack (text : JsonText) : Prop :=
  ∀ fields value, (fields.map Prod.fst).Nodup →
    text.fromStr (text.toString (.object fields)) = some value →
      ∃ read, value = .object read ∧
        ∀ key s, Json.field fields key = some (.str s) → Json.field read key = some (.str s)

theorem read_result {text : JsonText} (hread : text.ReadsBack) {result validated : SelectorResult}
    {action : SelectorAction} (haction : result.action = some action)
    (h : (text.fromStr (text.toString (.object result.members))).bind SelectorResult.decode =
      some validated) :
    validated.status = result.status ∧ validated.action = some action := by
  obtain ⟨value, hvalue, hdecode⟩ := Option.bind_eq_some_iff.mp h
  obtain ⟨read, rfl, hstr⟩ := hread _ _ result.members_nodup hvalue
  obtain ⟨hstatus, hdecoded⟩ := SelectorResult.decode_object hdecode
  have hwritten : Json.field result.members "action" = some (.str action.name) := by
    simp only [SelectorResult.members, haction]
    rfl
  rw [hstr "status" result.status.name rfl, Option.bind_some, SelectorStatus.decode_name] at hstatus
  rw [hstr "action" action.name hwritten, SelectorResult.decodeAction] at hdecoded
  · rw [SelectorAction.decode_name] at hdecoded
    exact ⟨(Option.some.inj hstatus).symm, (Option.some.inj hdecoded).symm⟩
  · rintro ⟨⟩

/-! ## Authority -/

/-- What may be done on behalf of a request. -/
def Authorized (request : SelectorRequest) (ctx : RouteContext) : RouteEffect → Prop
  | .runCreated _ workflowId => ∃ workflow ∈ ctx.orchestrator.workflows, workflow.id = workflowId
  | .functionInvoked call =>
    CommandGranted request call.functionId call.args ∧ ctx.functions.Grants call

section Authority

variable {text : JsonText} {request : SelectorRequest} {ctx : RouteContext}

theorem startSelectedWorkflow_authorized (validated : SelectorResult) :
    ∀ effect ∈ (startSelectedWorkflow ctx validated).1, Authorized request ctx effect := by
  intro effect heffect
  unfold startSelectedWorkflow at heffect
  split at heffect
  · cases heffect
  split at heffect
  · cases heffect
  next workflowId _ hdeclared =>
    split at heffect
    · cases heffect
    split at heffect
    · cases heffect
    · obtain rfl := List.mem_singleton.mp heffect
      simp only [Bool.not_eq_true, Bool.not_eq_false'] at hdeclared
      obtain ⟨workflow, hmem, hid⟩ := List.any_eq_true.mp hdeclared
      exact ⟨workflow, hmem, by simpa using hid⟩

variable {validated : SelectorResult} {reason : String}

theorem invokeCommand_authorized (hvalid : validateCommandInvoke request validated = .ok ()) :
    ∀ effect ∈ (invokeCommand ctx validated).1, Authorized request ctx effect := by
  intro effect heffect
  obtain ⟨functionId, args, hid, hargs, hgranted⟩ := validateCommandInvoke_ok hvalid
  unfold invokeCommand at heffect
  simp only [hid, hargs, Option.getD_some] at heffect
  split at heffect
  · cases heffect
  · next hauthorize =>
      obtain rfl := List.mem_singleton.mp heffect
      exact ⟨hgranted, FunctionRegistry.grants_of_authorize hauthorize⟩

theorem startSelectedWorkflow_responds :
    (startSelectedWorkflow ctx validated).2 ≠ .ok (.noResponse reason) := by
  intro h
  unfold startSelectedWorkflow at h
  split at h
  · cases h
  split at h
  · cases h
  split at h
  · cases h
  split at h
  · cases h
  · obtain ⟨_, _, haction⟩ := map_eq_ok h
    cases haction

theorem reportStatus_responds : reportStatus ctx ≠ .ok (.noResponse reason) := by
  intro h
  unfold reportStatus at h
  split at h
  · cases h
  · split at h <;> cases h

theorem invokeCommand_responds : (invokeCommand ctx validated).2 ≠ .ok (.noResponse reason) := by
  intro h
  unfold invokeCommand at h
  split at h
  · cases h
  · dsimp only at h
    split at h
    · cases h
    · obtain ⟨_, _, haction⟩ := map_eq_ok h
      cases haction

/-- What is routed is granted, and `NoResponse` is routed only as such. -/
theorem routeSelectorAction_authorized (hread : text.ReadsBack) {result : SelectorResult}
    (h : Decided result) :
    (∀ effect ∈ (routeSelectorAction text request ctx result).1, Authorized request ctx effect) ∧
      ∀ reason, (routeSelectorAction text request ctx result).2 = .ok (.noResponse reason) →
        result.action = some .noResponse := by
  obtain ⟨hselected, action, haction⟩ := h
  have hnothing : ∀ effect ∈ ([] : List RouteEffect), Authorized request ctx effect :=
    List.forall_mem_nil _
  unfold routeSelectorAction
  split
  · refine ⟨hnothing, fun reason hr => ?_⟩
    cases hr
  next validated hvalidated =>
    obtain ⟨hdecode, hvalid⟩ := parse_spec hvalidated
    obtain ⟨hstatus, hsame⟩ := read_result hread haction hdecode
    have hvalid := hvalid (hstatus.trans hselected)
    split
    · refine ⟨hnothing, fun reason hr => ?_⟩
      cases hr
    · exact ⟨startSelectedWorkflow_authorized validated,
        fun reason hr => absurd hr startSelectedWorkflow_responds⟩
    · exact ⟨hnothing, fun reason hr => absurd hr reportStatus_responds⟩
    · next hcommand =>
        have hinvoke : validateCommandInvoke request validated = .ok () := by
          simpa only [validateSelected, hcommand] using hvalid
        exact ⟨invokeCommand_authorized hinvoke, fun reason hr => absurd hr invokeCommand_responds⟩
    · next hno => exact ⟨hnothing, fun _ _ => by rw [haction, ← hsame, hno]⟩

/-- **The selector has no authority of its own.** Whatever it writes: a command is invoked
only if the message names it, the request offers it and its arguments match what is
declared; a workflow is started only if the orchestrator declares it; and only an
opportunistic message without a mention stays without a response. -/
theorem selector_authority (hread : text.ReadsBack) (request : SelectorRequest)
    (ctx : RouteContext) (inbound : IncomingMessage) (nextAttempt : ℕ → Option String) :
    (∀ effect ∈ (routeInbound text request ctx inbound nextAttempt).1,
      Authorized request ctx effect) ∧
    ∀ reason, (routeInbound text request ctx inbound nextAttempt).2 = .ok (.noResponse reason) →
      classifyResponseEligibility inbound = .opportunistic ∧
        isExplicitProfileMention inbound = false := by
  have hresolved : Decided
      (resolveSelectorForInbound text request nextAttempt inbound ctx.orchestrator).result :=
    resolveSelector_decided inbound ctx.orchestrator
  obtain ⟨hdecided, hpolicy⟩ := @enforce_decided inbound ctx.orchestrator _ hresolved
  have hrouted := @routeSelectorAction_authorized text request ctx hread _ hdecided
  exact ⟨hrouted.1, fun reason h => hpolicy (hrouted.2 reason h)⟩

end Authority

/-! ### An invoked command -/

def chatSchema : FunctionSchema where
  functionId := "daemon.chat"
  description := "Start local chat REPL for a local channel profile"
  args := [("channelProfileId", ⟨.string, true, "Local channel profile id"⟩)]
  readOnly := false

def chatRequest : SelectorRequest where
  selectorId := "sel-m1"
  channelProfileId := "local-main"
  messageId := "m1"
  userMessage := "please /Daemon.Chat, now"
  availableWorkflows := ["main"]
  defaultWorkflow := "main"
  availableFunctions := ["daemon.chat"]
  availableFunctionSchemas := [chatSchema]

def chatResult : SelectorResult where
  selectorId := "sel-m1"
  status := .selected
  action := some .commandInvoke
  functionId := some "daemon.chat"
  functionArgs := some [("channelProfileId", .str "local-main")]

def chatText : String :=
  "\x7b\"selectorId\":\"sel-m1\",\"status\":\"selected\",\"action\":\"command_invoke\"," ++
    "\"selectedWorkflow\":null,\"functionId\":\"daemon.chat\"," ++
    "\"functionArgs\":\x7b\"channelProfileId\":\"local-main\"\x7d,\"reason\":null\x7d"

/-- The texts among the members of an object. -/
def textMembers (fields : List (String × Json)) : List (String × Option String) :=
  fields.map fun entry => (entry.1, entry.2.asStr)

/-- `serde_json` on this result. -/
def chatJsonText : JsonText where
  fromStr text := if text = chatText then some (.object chatResult.members) else none
  complaint _ := "expected value"
  toStringPretty _ := ""
  toString
    | .object fields => if textMembers fields = textMembers chatResult.members then chatText else ""
    | _ => ""

theorem lookup_textMembers (fields : List (String × Json)) (key : String) :
    (textMembers fields).lookup key = (fields.lookup key).map Json.asStr := by
  induction fields with
  | nil => rfl
  | cons entry rest ih =>
    by_cases heq : key = entry.1
    · show ((entry.1, entry.2.asStr) :: textMembers rest).lookup key = _
      rw [List.lookup_cons, List.lookup_cons, beq_iff_eq.mpr heq]
      rfl
    · show ((entry.1, entry.2.asStr) :: textMembers rest).lookup key = _
      rw [List.lookup_cons, List.lookup_cons, beq_eq_false_iff_ne.mpr heq]
      exact ih

theorem chatJsonText_readsBack : chatJsonText.ReadsBack := by
  intro fields value _ hvalue
  by_cases hmembers : textMembers fields = textMembers chatResult.members
  · simp only [chatJsonText, hmembers, if_true] at hvalue
    cases hvalue
    refine ⟨chatResult.members, rfl, fun key s hs => ?_⟩
    have hlookup := lookup_textMembers fields key
    rw [hmembers, lookup_textMembers, show fields.lookup key = some (.str s) from hs] at hlookup
    obtain ⟨written, hwritten, htext⟩ := Option.map_eq_some_iff.mp hlookup
    cases written with
    | str other =>
      cases htext
      exact hwritten
    | _ => cases htext
  · have hempty : ("" : String) ≠ chatText := by decide
    simp [chatJsonText, hmembers, hempty] at hvalue

def chatContext : RouteContext where
  statusInput := {}
  activeConversationRuns := []
  functions := .new ["daemon.chat"] [("daemon.chat", chatSchema)]
  orchestrator :=
    { id := "main", selectorAgent := "router", defaultWorkflow := "main", agents := []
      workflows := [] }
  allocateRunId := .ok "run-1"
  validateOutputPaths _ _ := .ok ()
  startRun _ _ := .ok ()
  loadProgress id := .error (.unknownRunId id)
  execute _ := .ok .null

def chatMessage : IncomingMessage where
  channel := "local"
  channelProfileId := some "local-main"
  sender := "alice"
  senderId := "alice"
  message := "please /Daemon.Chat, now"
  timestamp := 0
  messageId := "m1"
  isDirect := true

def RouteEffect.invokes (functionId : String) : RouteEffect → Bool
  | .functionInvoked call => call.functionId == functionId
  | .runCreated _ _ => false

theorem selector_authority_chat :
    ((routeInbound chatJsonText chatRequest chatContext chatMessage
      fun _ => some chatText).1.any (·.invokes "daemon.chat")) = true ∧
    ∀ effect ∈
      (routeInbound chatJsonText chatRequest chatContext chatMessage fun _ => some chatText).1,
      Authorized chatRequest chatContext effect :=
  ⟨by decide +kernel,
    (selector_authority chatJsonText_readsBack chatRequest chatContext chatMessage _).1⟩

end Direclaw.Orchestration
