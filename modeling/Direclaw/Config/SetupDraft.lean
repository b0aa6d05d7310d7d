import Direclaw.Config.GlobalSettings
import Direclaw.Config.Templates
import Direclaw.Lib.Effects
import Direclaw.Lib.OrderedMap
import Direclaw.Orchestration.ConfigValidation

/-!
# The setup draft

`config/setup_draft.rs`: the edits of a draft of the configuration. Some check the whole
orchestrator again after the change, the others check what they set. An edit that fails
may leave its change behind.
-/

namespace Direclaw.Config

open Direclaw.Lib Direclaw.Orchestration

structure SetupDraft where
  workspacesPath : String
  orchestratorId : String
  provider : String
  model : String
  workflowTemplate : WorkflowTemplate
  orchestrators : List (String × GlobalOrchestrator)
  orchestratorConfigs : List (String × OrchestratorConfig)

inductive DraftError : Type where
  | message (text : String)
  | panic (reason : String)
deriving DecidableEq, Repr

def refuse {α : Type} (text : String) : Except DraftError α := .error (.message text)

def validateIdentifier (kind value : String) : Except DraftError Unit :=
  (validateIdentifierValue kind value).mapError .message

def initialOrchestratorConfig (id provider model : String) (template : WorkflowTemplate) :
    Except DraftError OrchestratorConfig :=
  match parseProvider provider with
  | .ok provider => .ok (initialConfig id provider model template)
  | .error _ => .error (.panic "default provider is valid")

abbrev Edit := EStateM DraftError SetupDraft Unit

/-! ## Ways to edit -/

/-- The first item that fits gives way. -/
def replaceFirst {α : Type} (fits : α → Bool) (item : α) : List α → List α
  | [] => []
  | held :: rest => if fits held then item :: rest else held :: replaceFirst fits item rest

def withWorkflow (config : OrchestratorConfig) (workflowId : String) (workflow : WorkflowConfig) :
    OrchestratorConfig :=
  { config with workflows := replaceFirst (·.id == workflowId) workflow config.workflows }

def withStep (workflow : WorkflowConfig) (stepId : String) (step : WorkflowStepConfig) :
    WorkflowConfig :=
  { workflow with steps := replaceFirst (·.id == stepId) step workflow.steps }

def editOrchestrator (orchestratorId : String) (f : GlobalOrchestrator → GlobalOrchestrator) :
    Edit := updateWith fun draft =>
  match draft.orchestrators.lookup orchestratorId with
  | none => refuse s!"orchestrator `{orchestratorId}` missing in setup state"
  | some entry =>
    .ok { draft with
      orchestrators := OrderedMap.set orchestratorId (f entry) draft.orchestrators }

/-- An edit of a configuration, with what is said if there is none. -/
def editConfig (missing orchestratorId : String)
    (f : OrchestratorConfig → Except DraftError OrchestratorConfig) : Edit := updateWith fun draft =>
  match draft.orchestratorConfigs.lookup orchestratorId with
  | none => refuse missing
  | some config => do
      let config ← f config
      return { draft with
        orchestratorConfigs := OrderedMap.set orchestratorId config draft.orchestratorConfigs }

def editWorkflowIn (missing workflowId : String)
    (f : WorkflowConfig → Except DraftError WorkflowConfig) (config : OrchestratorConfig) :
    Except DraftError OrchestratorConfig :=
  match config.workflows.find? (·.id == workflowId) with
  | none => refuse missing
  | some workflow => do
      let workflow ← f workflow
      return withWorkflow config workflowId workflow

def editStepIn (missing stepId : String)
    (f : WorkflowStepConfig → Except DraftError WorkflowStepConfig) (workflow : WorkflowConfig) :
    Except DraftError WorkflowConfig :=
  match workflow.steps.find? (·.id == stepId) with
  | none => refuse missing
  | some step => do
      let step ← f step
      return withStep workflow stepId step

/-- `workflow_mut`. -/
def editWorkflow (orchestratorId workflowId : String)
    (f : WorkflowConfig → Except DraftError WorkflowConfig) : Edit :=
  editConfig "workflow no longer exists" orchestratorId
    (editWorkflowIn "workflow no longer exists" workflowId f)

/-- `step_mut`. -/
def editStep (orchestratorId workflowId stepId : String)
    (f : WorkflowStepConfig → Except DraftError WorkflowStepConfig) : Edit :=
  editConfig "step no longer exists" orchestratorId
    (editWorkflowIn "step no longer exists" workflowId (editStepIn "step no longer exists" stepId f))

/-- The check at the end of an edit; what was changed stays. -/
def validateOrchestratorInvariants (orchestratorId : String) : Edit := fun draft =>
  match draft.orchestratorConfigs.lookup orchestratorId with
  | none => .ok () draft
  | some config =>
    match validateSetupInvariants config with
    | .ok () => .ok () draft
    | .error reason => .error (.message (ConfigError.orchestrator reason).display) draft

/-- An edit of a configuration that is checked afterwards. -/
def editAndValidate (missing orchestratorId : String)
    (f : OrchestratorConfig → Except DraftError OrchestratorConfig) : Edit := do
  editConfig missing orchestratorId f
  validateOrchestratorInvariants orchestratorId

namespace SetupDraft

/-! ## Defaults and orchestrators -/

def setWorkspacesPath (value : String) : Edit :=
  updateWith fun draft => .ok { draft with workspacesPath := value }

def setDefaultProvider (provider : String) : Edit :=
  updateWith fun draft => .ok { draft with provider := provider }

def setDefaultModel (model : String) : Edit :=
  updateWith fun draft => .ok { draft with model := model }

def setDefaultWorkflowTemplate (template : WorkflowTemplate) : Edit :=
  updateWith fun draft => .ok { draft with workflowTemplate := template }

def setPrimaryOrchestrator (orchestratorId : String) : Edit := updateWith fun draft =>
  if (draft.orchestrators.lookup orchestratorId).isNone then
    refuse s!"orchestrator `{orchestratorId}` does not exist"
  else .ok { draft with orchestratorId := orchestratorId }

/-- A new orchestrator becomes the primary one. -/
def insertOrchestrator (orchestratorId : String) (draft : SetupDraft) :
    Except DraftError SetupDraft := do
  let config ←
    initialOrchestratorConfig orchestratorId draft.provider draft.model draft.workflowTemplate
  return { draft with
    orchestrators := OrderedMap.insert orchestratorId {} draft.orchestrators
    orchestratorConfigs := OrderedMap.insert orchestratorId config draft.orchestratorConfigs
    orchestratorId := orchestratorId }

def ensureMinimumOrchestrator : Edit := updateWith fun draft =>
  if draft.orchestrators.isEmpty then insertOrchestrator "main" draft else .ok draft

def addOrchestrator (orchestratorId : String) : Edit := updateWith fun draft => do
  validateIdentifier "orchestrator id" orchestratorId
  if (draft.orchestrators.lookup orchestratorId).isSome then
    refuse "orchestrator id already exists"
  else insertOrchestrator orchestratorId draft

def removeOrchestrator (orchestratorId : String) : Edit := updateWith fun draft =>
  if (draft.orchestrators.lookup orchestratorId).isNone then
    refuse s!"orchestrator `{orchestratorId}` does not exist"
  else if draft.orchestrators.length ≤ 1 then refuse "at least one orchestrator must remain"
  else
    let orchestrators := OrderedMap.remove orchestratorId draft.orchestrators
    .ok { draft with
      orchestrators
      orchestratorConfigs := OrderedMap.remove orchestratorId draft.orchestratorConfigs
      orchestratorId :=
        if draft.orchestratorId = orchestratorId then
          (orchestrators.head?.map (·.1)).getD draft.orchestratorId
        else draft.orchestratorId }

def setOrchestratorPrivateWorkspace (orchestratorId : String) (value : Option String) : Edit :=
  editOrchestrator orchestratorId fun entry => { entry with privateWorkspace := value }

def setOrchestratorSharedAccess (orchestratorId : String) (sharedAccess : List String) : Edit :=
  editOrchestrator orchestratorId fun entry => { entry with sharedAccess := sharedAccess }

def setOrchestratorDefaultWorkflow (orchestratorId workflowId : String) : Edit := do
  ofResult (validateIdentifier "workflow id" workflowId)
  editAndValidate s!"orchestrator `{orchestratorId}` missing in setup state" orchestratorId
    fun config =>
      if config.workflows.any (·.id == workflowId) then
        .ok { config with defaultWorkflow := workflowId }
      else refuse s!"workflow `{workflowId}` not found"

def setSelectorLimit (what orchestratorId : String) (value : ℕ)
    (f : OrchestratorConfig → OrchestratorConfig) : Edit := do
  ofResult (if value < 1 then refuse s!"{what} must be >= 1" else .ok ())
  editConfig s!"orchestrator `{orchestratorId}` missing in setup state" orchestratorId
    fun config => .ok (f config)

def setOrchestratorSelectionMaxRetries (orchestratorId : String) (value : ℕ) : Edit :=
  setSelectorLimit "selection_max_retries" orchestratorId value
    fun config => { config with selectionMaxRetries := value }

def setOrchestratorSelectorTimeoutSeconds (orchestratorId : String) (value : ℕ) : Edit :=
  setSelectorLimit "selector_timeout_seconds" orchestratorId value
    fun config => { config with selectorTimeoutSeconds := value }

end SetupDraft

inductive OrchestrationLimitField : Type where
  | maxTotalIterations
  | defaultRunTimeoutSeconds
  | defaultStepTimeoutSeconds
  | maxStepTimeoutSeconds
deriving DecidableEq, Repr

def OrchestrationLimitField.assign (orchestration : WorkflowOrchestrationConfig)
    (value : Option ℕ) : OrchestrationLimitField → WorkflowOrchestrationConfig
  | .maxTotalIterations => { orchestration with maxTotalIterations := value }
  | .defaultRunTimeoutSeconds => { orchestration with defaultRunTimeoutSeconds := value }
  | .defaultStepTimeoutSeconds => { orchestration with defaultStepTimeoutSeconds := value }
  | .maxStepTimeoutSeconds => { orchestration with maxStepTimeoutSeconds := value }

namespace SetupDraft

/-- The section is there before a count of iterations is found too large. -/
def setOrchestratorWorkflowOrchestrationLimit (orchestratorId : String)
    (field : OrchestrationLimitField) (value : Option ℕ) : Edit := do
  let missing := s!"orchestrator `{orchestratorId}` missing in setup state"
  match value with
  | some parsed =>
    editConfig missing orchestratorId fun config =>
      if parsed < 1 then refuse "value must be >= 1"
      else .ok { config with
        workflowOrchestration := some (config.workflowOrchestration.getD {}) }
    ofResult (if field = .maxTotalIterations ∧ Text.u32Max < parsed then
      refuse "max_total_iterations exceeds u32 range" else .ok ())
    editConfig missing orchestratorId fun config =>
      .ok { config with
        workflowOrchestration :=
          config.workflowOrchestration.map fun held => field.assign held (some parsed) }
  | none =>
    editConfig missing orchestratorId fun config =>
      .ok { config with
        workflowOrchestration :=
          (config.workflowOrchestration.map fun held => field.assign held none).filter (· ≠ {}) }

def providerModelForOrchestrator (draft : SetupDraft) (orchestratorId : String) :
    String × String :=
  let agent := (draft.orchestratorConfigs.lookup orchestratorId).bind fun config =>
    (config.agents.lookup config.selectorAgent).or (config.agents.head?.map (·.2))
  match agent with
  | some agent => (providerText agent.provider, agent.model)
  | none => (draft.provider, draft.model)

def uniqueWorkflowId (existing : List (String × WorkflowConfig)) (base : String) : String :=
  if (existing.lookup base).isNone then base
  else
    (((List.range' 2 998).map fun idx => s!"{base}_{idx}").find? fun candidate =>
      (existing.lookup candidate).isNone).getD s!"{base}_{existing.length + 1}"

/-- The workflows of a template beside those that are there, and where its default goes. -/
def mergeWorkflows (templateDefault : String) :
    List (String × WorkflowConfig) × Option String → List WorkflowConfig →
      List (String × WorkflowConfig) × Option String
  | merged, [] => merged
  | (existing, newDefault), workflow :: rest =>
    let mappedId := uniqueWorkflowId existing workflow.id
    mergeWorkflows templateDefault
      (OrderedMap.insert mappedId { workflow with id := mappedId } existing,
        if workflow.id = templateDefault then some mappedId else newDefault) rest

def mergeAgents (agents : List (String × AgentConfig)) (entry : String × AgentConfig) :
    List (String × AgentConfig) :=
  if (agents.lookup entry.1).isSome then agents else OrderedMap.insert entry.1 entry.2 agents

def mergeTemplate (template target : OrchestratorConfig) : OrchestratorConfig :=
  let existing := target.workflows.foldl (fun map wf => OrderedMap.insert wf.id wf map) []
  let merged := mergeWorkflows template.defaultWorkflow (existing, none) template.workflows
  { target with
    agents := template.agents.foldl mergeAgents target.agents
    workflows := merged.1.map (·.2)
    defaultWorkflow := merged.2.getD target.defaultWorkflow }

def applyWorkflowTemplateToOrchestrator (orchestratorId : String) (template : WorkflowTemplate) :
    Edit := do
  let draft ← get
  let (provider, model) := draft.providerModelForOrchestrator orchestratorId
  let template ← ofResult (initialOrchestratorConfig orchestratorId provider model template)
  editAndValidate s!"orchestrator `{orchestratorId}` missing in setup state" orchestratorId
    fun config => .ok (mergeTemplate template config)

/-! ## Workflows -/

def parseWorkflowTag (raw : String) : Except DraftError String := do
  let normalized := String.ofList (Text.toAsciiLowercase (Text.trim raw.toList))
  validateIdentifier "workflow tag" normalized
  return normalized

def addWorkflow (orchestratorId workflowId : String) : Edit := do
  ofResult (validateIdentifier "workflow id" workflowId)
  editAndValidate "orchestrator missing" orchestratorId fun config =>
    if config.workflows.any (·.id == workflowId) then refuse "workflow id already exists"
    else do
      let tag ← parseWorkflowTag workflowId
      return { config with
        workflows := config.workflows ++
          [{ id := workflowId, description := s!"{workflowId} workflow", tags := [tag],
             steps := [workflowStep workflowId "step_1" .agentTask config.selectorAgent] }] }

def removeWorkflow (orchestratorId workflowId : String) : Edit :=
  editAndValidate "orchestrator missing" orchestratorId fun config =>
    if !config.workflows.any (·.id == workflowId) then
      refuse s!"workflow `{workflowId}` does not exist"
    else if config.workflows.length ≤ 1 then refuse "at least one workflow must remain"
    else
      let workflows := config.workflows.filter (·.id != workflowId)
      .ok { config with
        workflows
        defaultWorkflow :=
          if config.defaultWorkflow = workflowId then
            (workflows.head?.map (·.id)).getD config.defaultWorkflow
          else config.defaultWorkflow }

def renameWorkflow (orchestratorId currentId nextId : String) : Edit := do
  ofResult (validateIdentifier "workflow id" nextId)
  editAndValidate "orchestrator missing" orchestratorId fun config =>
    if config.workflows.any fun workflow => workflow.id == nextId && workflow.id != currentId then
      refuse "workflow id already exists"
    else do
      let renamed ← editWorkflowIn "workflow no longer exists" currentId
        (fun workflow => .ok { workflow with id := nextId }) config
      return { renamed with
        defaultWorkflow :=
          if config.defaultWorkflow = currentId then nextId else config.defaultWorkflow }

def setWorkflowVersion (orchestratorId workflowId : String) (version : ℕ) : Edit := do
  ofResult (if version < 1 then refuse "version must be >= 1" else .ok ())
  editWorkflow orchestratorId workflowId fun workflow => .ok { workflow with version := version }

/-- `WorkflowInputs::parse_keys`: a key is kept where it first stands. -/
def parseWorkflowInputs : List String → List String → Except DraftError (List String)
  | values, [] => .ok values
  | values, raw :: rest => do
      let key := Text.trimmed raw
      validateIdentifier "workflow input key" key
      parseWorkflowInputs (if key ∈ values then values else values ++ [key]) rest

def setWorkflowInputs (orchestratorId workflowId : String) (keys : List String) : Edit := do
  let parsed ← ofResult (parseWorkflowInputs [] keys)
  editWorkflow orchestratorId workflowId fun workflow => .ok { workflow with inputs := parsed }

/-- A limit of a workflow; the section goes with its last value. -/
def setWorkflowLimit (what orchestratorId workflowId : String) (value : Option ℕ)
    (assign : WorkflowLimitsConfig → WorkflowLimitsConfig) : Edit :=
  editWorkflow orchestratorId workflowId fun workflow =>
    match value with
    | some parsed =>
      if parsed < 1 then refuse s!"{what} must be >= 1"
      else .ok { workflow with limits := some (assign (workflow.limits.getD {})) }
    | none => .ok { workflow with limits := (workflow.limits.map assign).filter (· ≠ {}) }

def setWorkflowMaxTotalIterations (orchestratorId workflowId : String) (value : Option ℕ) : Edit :=
  setWorkflowLimit "max_total_iterations" orchestratorId workflowId value
    fun limits => { limits with maxTotalIterations := value }

def setWorkflowRunTimeoutSeconds (orchestratorId workflowId : String) (value : Option ℕ) : Edit :=
  setWorkflowLimit "run_timeout_seconds" orchestratorId workflowId value
    fun limits => { limits with runTimeoutSeconds := value }

/-! ## Steps -/

def addStep (orchestratorId workflowId stepId : String) : Edit := do
  ofResult (validateIdentifier "step id" stepId)
  editAndValidate "orchestrator missing" orchestratorId fun config =>
    editWorkflowIn "workflow no longer exists" workflowId (fun workflow =>
      if workflow.steps.any (·.id == stepId) then refuse "step id already exists"
      else .ok { workflow with
        steps := workflow.steps ++ [workflowStep workflowId stepId .agentTask config.selectorAgent] })
      config

def removeStep (orchestratorId workflowId stepId : String) : Edit :=
  editAndValidate "orchestrator missing" orchestratorId
    (editWorkflowIn "workflow no longer exists" workflowId fun workflow =>
      if !workflow.steps.any (·.id == stepId) then refuse s!"step `{stepId}` does not exist"
      else if workflow.steps.length ≤ 1 then refuse "at least one step must remain"
      else .ok { workflow with steps := workflow.steps.filter (·.id != stepId) })

def renameStep (orchestratorId workflowId currentId nextId : String) : Edit := do
  ofResult (validateIdentifier "step id" nextId)
  editWorkflow orchestratorId workflowId fun workflow =>
    if workflow.steps.any fun step => step.id == nextId && step.id != currentId then
      refuse "step id already exists"
    else editStepIn "step no longer exists" currentId (fun step => .ok { step with id := nextId })
      workflow

def otherType : WorkflowStepType → WorkflowStepType
  | .agentTask => .agentReview
  | .agentReview => .agentTask

/-- The priority of the outputs is left as it was. -/
def toggleStepType (orchestratorId workflowId stepId : String) : Edit :=
  editStep orchestratorId workflowId stepId fun step =>
    .ok { step with
      stepType := otherType step.stepType
      prompt := defaultPromptRelPath workflowId stepId
      outputs := defaultStepOutputContract (otherType step.stepType)
      outputFiles := defaultStepOutputFiles (otherType step.stepType) }

def setStepAgent (orchestratorId workflowId stepId agentId : String) : Edit := do
  ofResult (if Text.isBlank agentId.toList then refuse "agent must be non-empty" else .ok ())
  editConfig "orchestrator missing" orchestratorId fun config =>
    if (config.agents.lookup agentId).isNone then refuse s!"agent `{agentId}` does not exist"
    else editWorkflowIn "workflow no longer exists" workflowId
      (editStepIn "step no longer exists" stepId fun step => .ok { step with agent := agentId })
      config

def setStepPrompt (orchestratorId workflowId stepId prompt : String) : Edit := do
  ofResult (if Text.isBlank prompt.toList then refuse "prompt must be non-empty" else .ok ())
  editStep orchestratorId workflowId stepId fun step => .ok { step with prompt := prompt }

def toggleStepWorkspaceMode (orchestratorId workflowId stepId : String) : Edit :=
  editStep orchestratorId workflowId stepId fun step =>
    .ok { step with
      workspaceMode := match step.workspaceMode with
        | .orchestratorWorkspace => .runWorkspace
        | .runWorkspace => .orchestratorWorkspace }

def setStepNext (orchestratorId workflowId stepId : String) (next : Option String) : Edit :=
  editStep orchestratorId workflowId stepId fun step => .ok { step with next := next }

def setStepOnApprove (orchestratorId workflowId stepId : String) (onApprove : Option String) :
    Edit :=
  editStep orchestratorId workflowId stepId fun step => .ok { step with onApprove := onApprove }

def setStepOnReject (orchestratorId workflowId stepId : String) (onReject : Option String) : Edit :=
  editStep orchestratorId workflowId stepId fun step => .ok { step with onReject := onReject }

def OutputKey.display (key : OutputKey) : String :=
  if key.required then key.name else key.name ++ "?"

/-- Every output has a file. -/
def ensureMapped (outputs : List OutputKey) (outputFiles : List (String × String)) :
    Except DraftError Unit :=
  match outputs.find? fun key => (outputFiles.lookup key.name).isNone with
  | some missing =>
    refuse s!"output_files must include mapping for output `{OutputKey.display missing}`"
  | none => .ok ()

/-- Neither the summary nor the priority of the outputs is looked at. -/
def setStepOutputs (orchestratorId workflowId stepId : String) (outputs : List OutputKey) :
    Edit := do
  ofResult (if outputs.isEmpty then refuse "outputs must be non-empty" else .ok ())
  editStep orchestratorId workflowId stepId fun step => do
    ensureMapped outputs step.outputFiles
    return { step with outputs := outputs }

def setStepOutputFiles (orchestratorId workflowId stepId : String)
    (outputFiles : List (String × String)) : Edit := do
  ofResult (if outputFiles.isEmpty then refuse "output_files must be non-empty" else .ok ())
  editStep orchestratorId workflowId stepId fun step => do
    ensureMapped step.outputs outputFiles
    return { step with outputFiles := outputFiles }

def setStepMaxRetries (orchestratorId workflowId stepId : String) (maxRetries : Option ℕ) : Edit :=
  editStep orchestratorId workflowId stepId fun step =>
    match maxRetries with
    | some parsed =>
      if parsed < 1 then refuse "max_retries must be >= 1"
      else .ok { step with limits := some { maxRetries := some parsed } }
    | none => .ok { step with limits := none }

/-! ## Agents -/

def addAgent (orchestratorId agentId : String) : Edit := do
  ofResult (validateIdentifier "agent id" agentId)
  let draft ← get
  editAndValidate "orchestrator missing" orchestratorId fun config =>
    if (config.agents.lookup agentId).isSome then refuse "agent id already exists"
    else
      match parseProvider draft.provider with
      | .ok provider =>
        .ok { config with
          agents := OrderedMap.insert agentId { model := draft.model, provider } config.agents }
      | .error _ => .error (.panic "setup provider remains valid")

def removeAgent (orchestratorId agentId : String) : Edit :=
  editAndValidate "orchestrator missing" orchestratorId fun config =>
    if (config.agents.lookup agentId).isNone then refuse s!"agent `{agentId}` does not exist"
    else if config.agents.length ≤ 1 then refuse "at least one agent must remain"
    else
      let agents := OrderedMap.remove agentId config.agents
      .ok { config with
        agents
        selectorAgent :=
          if config.selectorAgent = agentId then (agents.head?.map (·.1)).getD config.selectorAgent
          else config.selectorAgent }

def editAgent (orchestratorId agentId : String) (f : AgentConfig → AgentConfig) : Edit :=
  editConfig "orchestrator missing" orchestratorId fun config =>
    match config.agents.lookup agentId with
    | none => refuse "agent no longer exists"
    | some agent => .ok { config with agents := OrderedMap.set agentId (f agent) config.agents }

def setAgentProvider (orchestratorId agentId provider : String) : Edit := do
  let parsed ← ofResult ((parseProvider provider).mapError .message)
  editAgent orchestratorId agentId fun agent => { agent with provider := parsed }

def setAgentModel (orchestratorId agentId model : String) : Edit := do
  ofResult (if Text.isBlank model.toList then refuse "model must be non-empty" else .ok ())
  editAgent orchestratorId agentId fun agent => { agent with model := model }

def toggleAgentOrchestrationCapability (orchestratorId agentId : String) : Edit :=
  editConfig "orchestrator missing" orchestratorId fun config =>
    match config.agents.lookup agentId with
    | none => refuse "agent no longer exists"
    | some agent =>
      if config.selectorAgent = agentId ∧ agent.canOrchestrateWorkflows = true then
        refuse "selector agent must keep orchestration capability enabled"
      else .ok { config with
        agents := OrderedMap.set agentId
          { agent with canOrchestrateWorkflows := !agent.canOrchestrateWorkflows } config.agents }

def setSelectorAgent (orchestratorId agentId : String) : Edit :=
  editConfig "orchestrator missing" orchestratorId fun config =>
    match config.agents.lookup agentId with
    | none => refuse "agent no longer exists"
    | some agent =>
      .ok { config with
        selectorAgent := agentId
        agents := OrderedMap.set agentId { agent with canOrchestrateWorkflows := true }
          config.agents }

end SetupDraft

/-! ## Edits -/

inductive DraftOp : Type where
  | setWorkspacesPath (value : String)
  | setDefaultProvider (provider : String)
  | setDefaultModel (model : String)
  | setDefaultWorkflowTemplate (template : WorkflowTemplate)
  | setPrimaryOrchestrator (orchestratorId : String)
  | ensureMinimumOrchestrator
  | addOrchestrator (orchestratorId : String)
  | removeOrchestrator (orchestratorId : String)
  | setOrchestratorPrivateWorkspace (orchestratorId : String) (value : Option String)
  | setOrchestratorSharedAccess (orchestratorId : String) (sharedAccess : List String)
  | setOrchestratorDefaultWorkflow (orchestratorId workflowId : String)
  | setOrchestratorSelectionMaxRetries (orchestratorId : String) (value : ℕ)
  | setOrchestratorSelectorTimeoutSeconds (orchestratorId : String) (value : ℕ)
  | setOrchestratorWorkflowOrchestrationLimit (orchestratorId : String)
      (field : OrchestrationLimitField) (value : Option ℕ)
  | applyWorkflowTemplateToOrchestrator (orchestratorId : String) (template : WorkflowTemplate)
  | addWorkflow (orchestratorId workflowId : String)
  | removeWorkflow (orchestratorId workflowId : String)
  | renameWorkflow (orchestratorId currentId nextId : String)
  | setWorkflowVersion (orchestratorId workflowId : String) (version : ℕ)
  | setWorkflowInputs (orchestratorId workflowId : String) (keys : List String)
  | setWorkflowMaxTotalIterations (orchestratorId workflowId : String) (value : Option ℕ)
  | setWorkflowRunTimeoutSeconds (orchestratorId workflowId : String) (value : Option ℕ)
  | addStep (orchestratorId workflowId stepId : String)
  | removeStep (orchestratorId workflowId stepId : String)
  | renameStep (orchestratorId workflowId currentId nextId : String)
  | toggleStepType (orchestratorId workflowId stepId : String)
  | setStepAgent (orchestratorId workflowId stepId agentId : String)
  | setStepPrompt (orchestratorId workflowId stepId prompt : String)
  | toggleStepWorkspaceMode (orchestratorId workflowId stepId : String)
  | setStepNext (orchestratorId workflowId stepId : String) (next : Option String)
  | setStepOnApprove (orchestratorId workflowId stepId : String) (onApprove : Option String)
  | setStepOnReject (orchestratorId workflowId stepId : String) (onReject : Option String)
  | setStepOutputs (orchestratorId workflowId stepId : String) (outputs : List OutputKey)
  | setStepOutputFiles (orchestratorId workflowId stepId : String)
      (outputFiles : List (String × String))
  | setStepMaxRetries (orchestratorId workflowId stepId : String) (maxRetries : Option ℕ)
  | addAgent (orchestratorId agentId : String)
  | removeAgent (orchestratorId agentId : String)
  | setAgentProvider (orchestratorId agentId provider : String)
  | setAgentModel (orchestratorId agentId model : String)
  | toggleAgentOrchestrationCapability (orchestratorId agentId : String)
  | setSelectorAgent (orchestratorId agentId : String)

def SetupDraft.edit : DraftOp → Edit
  | .setWorkspacesPath value => setWorkspacesPath value
  | .setDefaultProvider provider => setDefaultProvider provider
  | .setDefaultModel model => setDefaultModel model
  | .setDefaultWorkflowTemplate template => setDefaultWorkflowTemplate template
  | .setPrimaryOrchestrator o => setPrimaryOrchestrator o
  | .ensureMinimumOrchestrator => ensureMinimumOrchestrator
  | .addOrchestrator o => addOrchestrator o
  | .removeOrchestrator o => removeOrchestrator o
  | .setOrchestratorPrivateWorkspace o value => setOrchestratorPrivateWorkspace o value
  | .setOrchestratorSharedAccess o sharedAccess => setOrchestratorSharedAccess o sharedAccess
  | .setOrchestratorDefaultWorkflow o w => setOrchestratorDefaultWorkflow o w
  | .setOrchestratorSelectionMaxRetries o value => setOrchestratorSelectionMaxRetries o value
  | .setOrchestratorSelectorTimeoutSeconds o value => setOrchestratorSelectorTimeoutSeconds o value
  | .setOrchestratorWorkflowOrchestrationLimit o field value =>
    setOrchestratorWorkflowOrchestrationLimit o field value
  | .applyWorkflowTemplateToOrchestrator o template =>
    applyWorkflowTemplateToOrchestrator o template
  | .addWorkflow o w => addWorkflow o w
  | .removeWorkflow o w => removeWorkflow o w
  | .renameWorkflow o currentId nextId => renameWorkflow o currentId nextId
  | .setWorkflowVersion o w version => setWorkflowVersion o w version
  | .setWorkflowInputs o w keys => setWorkflowInputs o w keys
  | .setWorkflowMaxTotalIterations o w value => setWorkflowMaxTotalIterations o w value
  | .setWorkflowRunTimeoutSeconds o w value => setWorkflowRunTimeoutSeconds o w value
  | .addStep o w s => addStep o w s
  | .removeStep o w s => removeStep o w s
  | .renameStep o w currentId nextId => renameStep o w currentId nextId
  | .toggleStepType o w s => toggleStepType o w s
  | .setStepAgent o w s agentId => setStepAgent o w s agentId
  | .setStepPrompt o w s prompt => setStepPrompt o w s prompt
  | .toggleStepWorkspaceMode o w s => toggleStepWorkspaceMode o w s
  | .setStepNext o w s next => setStepNext o w s next
  | .setStepOnApprove o w s onApprove => setStepOnApprove o w s onApprove
  | .setStepOnReject o w s onReject => setStepOnReject o w s onReject
  | .setStepOutputs o w s outputs => setStepOutputs o w s outputs
  | .setStepOutputFiles o w s outputFiles => setStepOutputFiles o w s outputFiles
  | .setStepMaxRetries o w s maxRetries => setStepMaxRetries o w s maxRetries
  | .addAgent o agentId => addAgent o agentId
  | .removeAgent o agentId => removeAgent o agentId
  | .setAgentProvider o agentId provider => setAgentProvider o agentId provider
  | .setAgentModel o agentId model => setAgentModel o agentId model
  | .toggleAgentOrchestrationCapability o agentId => toggleAgentOrchestrationCapability o agentId
  | .setSelectorAgent o agentId => setSelectorAgent o agentId

/-! ## Saving the draft -/

inductive NormalizeError : Type where
  | draft (err : DraftError)
  | settings (err : ConfigError)
  | bootstrap (text : String)
  /-- The configuration of an orchestrator is rejected. -/
  | config (orchestratorId : String) (config : OrchestratorConfig) (err : ConfigError)

/-- The primary orchestrator is there even if it was taken away. -/
def ensurePrimaryOrchestrator : Edit := updateWith fun draft => do
  let config ←
    match draft.orchestratorConfigs.lookup draft.orchestratorId with
    | some config => .ok config
    | none =>
      initialOrchestratorConfig draft.orchestratorId draft.provider draft.model
        draft.workflowTemplate
  return { draft with
    orchestrators :=
      if (draft.orchestrators.lookup draft.orchestratorId).isSome then draft.orchestrators
      else OrderedMap.insert draft.orchestratorId {} draft.orchestrators
    orchestratorConfigs :=
      if (draft.orchestratorConfigs.lookup draft.orchestratorId).isSome then
        draft.orchestratorConfigs
      else OrderedMap.insert draft.orchestratorId config draft.orchestratorConfigs }

def localProfile (orchestratorId : String) : ChannelProfile :=
  { channel := .localChat, orchestratorId }

/-- The settings that the draft asks for, over those that are there. -/
def draftSettings (draft : SetupDraft) (existingSettings : Option GlobalSettings) :
    GlobalSettings :=
  let settings := existingSettings.getD { workspacesPath := draft.workspacesPath }
  let profiles :=
    if settings.channelProfiles.isEmpty then
      [("local-default", localProfile draft.orchestratorId)]
    else settings.channelProfiles
  { settings with
    workspacesPath := draft.workspacesPath
    orchestrators := draft.orchestrators
    channelProfiles :=
      if profiles.any fun profile => profile.2.orchestratorId == draft.orchestratorId then profiles
      else OrderedMap.insert (draft.orchestratorId ++ "-local") (localProfile draft.orchestratorId)
        profiles }

def validateBootstrapConfigs (settings : GlobalSettings) (draft : SetupDraft) :
    List String → Except NormalizeError Unit
  | [] => .ok ()
  | orchestratorId :: rest => do
      (validateIdentifier "orchestrator id" orchestratorId).mapError .draft
      match draft.orchestratorConfigs.lookup orchestratorId with
      | none =>
        .error (.bootstrap
          s!"missing orchestrator config for `{orchestratorId}` in setup registry")
      | some config => do
          (config.validate settings.routing orchestratorId).mapError (.config orchestratorId config)
          validateBootstrapConfigs settings draft rest

def validateSetupBootstrap (settings : GlobalSettings) (draft : SetupDraft) :
    Except NormalizeError Unit :=
  if draft.orchestrators.isEmpty then
    .error (.bootstrap "at least one orchestrator must be configured")
  else if (draft.orchestrators.lookup draft.orchestratorId).isNone then
    .error (.bootstrap
      s!"primary orchestrator `{draft.orchestratorId}` is missing from setup registry")
  else do
    validateBootstrapConfigs settings draft (settings.orchestrators.map (·.1))
    match draft.orchestratorConfigs.find? fun entry =>
        (settings.orchestrators.lookup entry.1).isNone with
    | some entry =>
      .error (.bootstrap s!"orchestrator config `{entry.1}` exists without settings entry")
    | none => .ok ()

def normalizeForSave (fs : FileSystem) (existingSettings : Option GlobalSettings) :
    EStateM NormalizeError SetupDraft GlobalSettings := do
  adaptError .draft SetupDraft.ensureMinimumOrchestrator
  adaptError .draft ensurePrimaryOrchestrator
  let draft ← get
  let settings := draftSettings draft existingSettings
  ofResult ((settings.validate ⟨false⟩ fs).mapError .settings)
  ofResult (validateSetupBootstrap settings draft)
  return settings

end Direclaw.Config
