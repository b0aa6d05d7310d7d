import Direclaw.Lib.Text
import Direclaw.Lib.Json

/-!
# Orchestrator configuration

The part of `config/orchestrator_file.rs` that routing and the engine read: workflows,
their steps and transitions, and the limits. `validateSetupInvariants` is the
check every configuration passes before it is saved or run; `validate` adds the
identifier syntax and the texts that must not be empty.
-/

namespace Direclaw.Orchestration

inductive WorkflowStepType : Type where
  | agentTask
  | agentReview
deriving DecidableEq, Repr

inductive WorkflowStepPromptType : Type where
  | workflowResultEnvelope
  | fileOutput
deriving DecidableEq, Repr

inductive WorkflowStepWorkspaceMode : Type where
  | orchestratorWorkspace
  | runWorkspace
deriving DecidableEq, Repr

inductive ConfigProviderKind : Type where
  | anthropic
  | openAi
deriving DecidableEq, Repr

/-- An output key of a step's contract. -/
structure OutputKey where
  name : String
  required : Bool
deriving DecidableEq, Repr

structure StepLimitsConfig where
  maxRetries : Option ℕ := none
deriving DecidableEq, Repr

structure WorkflowStepConfig where
  id : String
  stepType : WorkflowStepType := .agentTask
  agent : String
  prompt : String := ""
  next : Option String := none
  onApprove : Option String := none
  onReject : Option String := none
  outputs : List OutputKey
  outputFiles : List (String × String)
  finalOutputPriority : List OutputKey
  limits : Option StepLimitsConfig := none
  promptType : WorkflowStepPromptType := .workflowResultEnvelope
  workspaceMode : WorkflowStepWorkspaceMode := .orchestratorWorkspace
deriving DecidableEq, Repr

structure WorkflowLimitsConfig where
  maxTotalIterations : Option ℕ := none
  runTimeoutSeconds : Option ℕ := none
deriving DecidableEq, Repr

structure WorkflowConfig where
  id : String
  description : String := ""
  tags : List String := []
  limits : Option WorkflowLimitsConfig := none
  steps : List WorkflowStepConfig
  version : ℕ := 1
  inputs : List String := []
deriving DecidableEq, Repr

structure WorkflowOrchestrationConfig where
  maxTotalIterations : Option ℕ := none
  defaultRunTimeoutSeconds : Option ℕ := none
  defaultStepTimeoutSeconds : Option ℕ := none
  maxStepTimeoutSeconds : Option ℕ := none
deriving DecidableEq, Repr

structure AgentConfig where
  model : String
  canOrchestrateWorkflows : Bool := false
  provider : ConfigProviderKind := .anthropic
deriving DecidableEq, Repr

structure OrchestratorConfig where
  id : String
  selectorAgent : String
  defaultWorkflow : String
  selectionMaxRetries : ℕ := 1
  selectorTimeoutSeconds : ℕ := 30
  agents : List (String × AgentConfig)
  workflows : List WorkflowConfig
  workflowOrchestration : Option WorkflowOrchestrationConfig := none
deriving DecidableEq, Repr

/-! ## `validate_setup_invariants` -/

/-- `HashSet::insert` in a loop: the first entry whose key was seen before. -/
def firstDuplicate (seen : List String) : List String → Option String
  | [] => none
  | k :: ks => if k ∈ seen then some k else firstDuplicate (k :: seen) ks

def validateFinalOutputPriority (workflow : WorkflowConfig) (step : WorkflowStepConfig) :
    List String → List OutputKey → Except String Unit
  | _, [] => .ok ()
  | seen, key :: keys => do
      if key.name ∈ seen then
        throw (s!"workflow `{workflow.id}` step `{step.id}` contains duplicate " ++
          s!"`final_output_priority` key `{key.name}`")
      if !step.outputs.any (·.name == key.name) then
        throw (s!"workflow `{workflow.id}` step `{step.id}` `final_output_priority` key " ++
          s!"`{key.name}` must exist in `outputs`")
      validateFinalOutputPriority workflow step (key.name :: seen) keys

/-- The checks of one step, in the source's order; the duplicate-id check that
precedes them needs the ids seen so far and is made by the caller. -/
def validateStep (config : OrchestratorConfig) (workflow : WorkflowConfig)
    (step : WorkflowStepConfig) : Except String Unit := do
  if (config.agents.lookup step.agent).isNone then
    throw s!"workflow `{workflow.id}` step `{step.id}` references unknown agent `{step.agent}`"
  if step.outputs.isEmpty then
    throw s!"workflow `{workflow.id}` step `{step.id}` requires non-empty `outputs`"
  if step.outputFiles.isEmpty then
    throw s!"workflow `{workflow.id}` step `{step.id}` requires non-empty `output_files`"
  if !step.outputs.any (·.name == "summary") then
    throw s!"workflow `{workflow.id}` step `{step.id}` requires `summary` in `outputs`"
  if (step.outputFiles.lookup "summary").isNone then
    throw s!"workflow `{workflow.id}` step `{step.id}` requires `summary` mapping in `output_files`"
  for key in step.outputs do
    if (step.outputFiles.lookup key.name).isNone then
      throw s!"workflow `{workflow.id}` step `{step.id}` missing output_files mapping for `{key.name}`"
  if step.finalOutputPriority.isEmpty then
    throw s!"workflow `{workflow.id}` step `{step.id}` requires non-empty `final_output_priority`"
  validateFinalOutputPriority workflow step [] step.finalOutputPriority

def validateSteps (config : OrchestratorConfig) (workflow : WorkflowConfig) :
    List String → List WorkflowStepConfig → Except String Unit
  | _, [] => .ok ()
  | seen, step :: steps => do
      if step.id ∈ seen then
        throw s!"workflow `{workflow.id}` contains duplicate step id `{step.id}`"
      validateStep config workflow step
      validateSteps config workflow (step.id :: seen) steps

def validateWorkflows (config : OrchestratorConfig) : List WorkflowConfig → Except String Unit
  | [] => .ok ()
  | workflow :: workflows => do
      if workflow.steps.isEmpty then
        throw s!"workflow `{workflow.id}` requires at least one step"
      validateSteps config workflow [] workflow.steps
      validateWorkflows config workflows

def validateSetupInvariants (config : OrchestratorConfig) : Except String Unit := do
  if config.workflows.isEmpty then
    throw "`workflows` must be non-empty"
  if config.agents.isEmpty then
    throw "`agents` must be non-empty"
  match config.agents.lookup config.selectorAgent with
  | none => throw s!"`selector_agent` `{config.selectorAgent}` must exist in `agents`"
  | some selector =>
    if !selector.canOrchestrateWorkflows then
      throw s!"selector agent `{config.selectorAgent}` must set `can_orchestrate_workflows: true`"
  match firstDuplicate [] (config.workflows.map (·.id)) with
  | some id => throw s!"workflow id `{id}` must be unique"
  | none => pure ()
  if config.defaultWorkflow ∉ config.workflows.map (·.id) then
    throw s!"`default_workflow` `{config.defaultWorkflow}` is not present in `workflows`"
  validateWorkflows config config.workflows

theorem validateWorkflows_steps {config : OrchestratorConfig} : ∀ {workflows : List WorkflowConfig},
    validateWorkflows config workflows = .ok () → ∀ w ∈ workflows, w.steps ≠ []
  | [], _, w, hw => by simp at hw
  | w :: ws, h, x, hx => by
      by_cases hempty : w.steps.isEmpty
      · simp [validateWorkflows, hempty, bind, Except.bind, throw, throwThe,
          MonadExceptOf.throw] at h
      · simp only [validateWorkflows, hempty, bind, Except.bind] at h
        cases hs : validateSteps config w [] w.steps with
        | error e => simp [hs] at h
        | ok u =>
          simp only [hs] at h
          rcases List.mem_cons.mp hx with rfl | hx
          · simpa using hempty
          · exact validateWorkflows_steps (by simpa using h) x hx

theorem validateSetupInvariants_steps {config : OrchestratorConfig}
    (h : validateSetupInvariants config = .ok ()) : ∀ w ∈ config.workflows, w.steps ≠ [] := by
  apply @validateWorkflows_steps config
  unfold validateSetupInvariants at h
  simp only [bind, Except.bind, throw, throwThe, MonadExceptOf.throw] at h
  -- every guard before the workflow checks either fails or falls through
  repeat' split at h
  all_goals first | contradiction | exact h

end Direclaw.Orchestration
