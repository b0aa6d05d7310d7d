import Direclaw.Lib.Fallible
import Direclaw.Orchestration.Config
import Direclaw.Orchestration.Settings

/-!
# Validating an orchestrator

`OrchestratorConfig::validate`: identifier syntax, texts that must not be empty, and the
setup invariants between them.
-/

namespace Direclaw.Orchestration

open Direclaw.Lib

/-- The `parse` of an id type, under the error of the configuration. -/
def parseId (kind value : String) : Except ConfigError Unit :=
  (validateIdentifierValue kind value).mapError .orchestrator

/-- A check with its error. -/
def ensureConfig (holds : Bool) (reason : String) : Except ConfigError Unit :=
  if holds then .ok () else .error (.orchestrator reason)

def validateAgents : List (String × AgentConfig) → Except ConfigError Unit
  | [] => .ok ()
  | (agentId, agent) :: agents => do
      parseId "agent id" agentId
      ensureConfig (!Text.isBlank agent.model.toList) s!"agent `{agentId}` requires non-empty `model`"
      validateAgents agents

def validateStepTexts (workflow : WorkflowConfig) : List WorkflowStepConfig → Except ConfigError Unit
  | [] => .ok ()
  | step :: steps => do
      parseId "step id" step.id
      parseId "agent id" step.agent
      ensureConfig (!Text.isBlank step.prompt.toList)
        s!"workflow `{workflow.id}` step `{step.id}` requires non-empty prompt"
      validateStepTexts workflow steps

def validateTags (workflow : WorkflowConfig) : Except ConfigError Unit :=
  match firstDuplicate [] workflow.tags with
  | some tag => .error (.orchestrator s!"workflow `{workflow.id}` has duplicate tag `{tag}`")
  | none => .ok ()

def validateWorkflowTexts : List WorkflowConfig → Except ConfigError Unit
  | [] => .ok ()
  | workflow :: workflows => do
      parseId "workflow id" workflow.id
      ensureConfig (!Text.isBlank workflow.description.toList)
        s!"workflow `{workflow.id}` requires non-empty `description`"
      ensureConfig (!workflow.tags.isEmpty) s!"workflow `{workflow.id}` requires non-empty `tags`"
      validateTags workflow
      validateStepTexts workflow workflow.steps
      validateWorkflowTexts workflows

namespace OrchestratorConfig

def validate (config : OrchestratorConfig) (settings : Settings) (orchestratorId : String) :
    Except ConfigError Unit := do
  parseId "orchestrator id" orchestratorId
  ensureConfig (config.id == orchestratorId)
    s!"orchestrator id mismatch: expected `{orchestratorId}`, got `{config.id}`"
  ensureConfig (config.selectionMaxRetries != 0) "`selection_max_retries` must be >= 1"
  ensureConfig (config.selectorTimeoutSeconds != 0) "`selector_timeout_seconds` must be >= 1"
  (validateSetupInvariants config).mapError .orchestrator
  match settings.orchestrators.lookup orchestratorId with
  | none => .error (.missingOrchestrator orchestratorId)
  | some _ => do
      validateAgents config.agents
      validateWorkflowTexts config.workflows

theorem setup_of_validate {config : OrchestratorConfig} {settings : Settings}
    {orchestratorId : String} (h : config.validate settings orchestratorId = .ok ()) :
    validateSetupInvariants config = .ok () := by
  obtain ⟨_, _, h⟩ := bind_eq_ok h
  obtain ⟨_, _, h⟩ := bind_eq_ok h
  obtain ⟨_, _, h⟩ := bind_eq_ok h
  obtain ⟨_, _, h⟩ := bind_eq_ok h
  obtain ⟨_, hsetup, _⟩ := bind_eq_ok h
  exact mapError_eq_ok hsetup

end OrchestratorConfig

end Direclaw.Orchestration
