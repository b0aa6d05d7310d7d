import Direclaw.Config.SettingsChecks
import Direclaw.Config.SetupInvariants
import Direclaw.Orchestration.ConfigValidation
import Direclaw.Orchestration.OutputKeys

/-!
# The texts of a configuration

What `OrchestratorConfig::validate` asks besides the setup invariants: limits of the
selector, identifiers, and texts that are not blank.
-/

namespace Direclaw.Config

open Direclaw.Lib Direclaw.Orchestration

structure AgentTexts (entry : String × AgentConfig) : Prop where
  id : IsIdentifier entry.1
  model : notBlank entry.2.model = true

structure StepTexts (step : WorkflowStepConfig) : Prop where
  id : IsIdentifier step.id
  agent : IsIdentifier step.agent
  prompt : notBlank step.prompt = true

structure WorkflowTexts (workflow : WorkflowConfig) : Prop where
  id : IsIdentifier workflow.id
  description : notBlank workflow.description = true
  tagged : workflow.tags ≠ []
  tags : workflow.tags.Nodup
  steps : ∀ step ∈ workflow.steps, StepTexts step

structure ConfigTexts (config : OrchestratorConfig) : Prop where
  retries : config.selectionMaxRetries ≠ 0
  timeout : config.selectorTimeoutSeconds ≠ 0
  agents : ∀ entry ∈ config.agents, AgentTexts entry
  workflows : ∀ workflow ∈ config.workflows, WorkflowTexts workflow

/-! ## The checks -/

theorem parseId_ok_iff {kind value : String} :
    parseId kind value = .ok () ↔ IsIdentifier value :=
  mapError_ok_iff.trans validateIdentifierValue_eq_ok_iff

theorem ensureConfig_ok_iff {holds : Bool} {reason : String} :
    ensureConfig holds reason = .ok () ↔ holds = true := by
  unfold ensureConfig
  cases holds with
  | true => exact iff_of_true rfl rfl
  | false => exact iff_of_false nofun Bool.false_ne_true

theorem validateAgents_ok_iff (agents : List (String × AgentConfig)) :
    validateAgents agents = .ok () ↔ ∀ entry ∈ agents, AgentTexts entry := by
  induction agents with
  | nil => simp [validateAgents]
  | cons entry agents ih =>
    rw [validateAgents, seq_ok_iff, seq_ok_iff, parseId_ok_iff, ensureConfig_ok_iff, ih,
      List.forall_mem_cons, ← and_assoc]
    exact and_congr_left fun _ => ⟨fun h => ⟨h.1, h.2⟩, fun h => ⟨h.id, h.model⟩⟩

theorem validateStepTexts_ok_iff {workflow : WorkflowConfig} (steps : List WorkflowStepConfig) :
    validateStepTexts workflow steps = .ok () ↔ ∀ step ∈ steps, StepTexts step := by
  induction steps with
  | nil => simp [validateStepTexts]
  | cons step steps ih =>
    rw [validateStepTexts, seq_ok_iff, seq_ok_iff, seq_ok_iff, parseId_ok_iff, parseId_ok_iff,
      ensureConfig_ok_iff, ih, List.forall_mem_cons, ← and_assoc, ← and_assoc]
    exact and_congr_left fun _ => ⟨fun h => ⟨h.1.1, h.1.2, h.2⟩, fun h => ⟨⟨h.id, h.agent⟩, h.prompt⟩⟩

theorem validateTags_ok_iff {workflow : WorkflowConfig} :
    validateTags workflow = .ok () ↔ workflow.tags.Nodup := by
  unfold validateTags
  cases h : firstDuplicate [] workflow.tags with
  | none => exact iff_of_true rfl (firstDuplicate_eq_none.mp h).1
  | some tag =>
    refine iff_of_false nofun fun hnodup => ?_
    have hnone : firstDuplicate [] workflow.tags = none :=
      firstDuplicate_eq_none.mpr ⟨hnodup, fun _ _ => List.not_mem_nil⟩
    rw [hnone] at h
    cases h

theorem validateWorkflowTexts_ok_iff (workflows : List WorkflowConfig) :
    validateWorkflowTexts workflows = .ok () ↔ ∀ workflow ∈ workflows, WorkflowTexts workflow := by
  induction workflows with
  | nil => simp [validateWorkflowTexts]
  | cons workflow workflows ih =>
    have htagged : (!workflow.tags.isEmpty) = true ↔ workflow.tags ≠ [] := by simp
    simp only [validateWorkflowTexts, seq_ok_iff]
    rw [parseId_ok_iff, ensureConfig_ok_iff, ensureConfig_ok_iff, htagged, validateTags_ok_iff,
      validateStepTexts_ok_iff, ih, List.forall_mem_cons]
    constructor
    · rintro ⟨hid, hdescription, hne, hnodup, hsteps, hrest⟩
      exact ⟨⟨hid, hdescription, hne, hnodup, hsteps⟩, hrest⟩
    · rintro ⟨h, hrest⟩
      exact ⟨h.id, h.description, h.tagged, h.tags, h.steps, hrest⟩

/-- What is asked of the configuration of an orchestrator that the settings name. -/
structure ConfigValid (orchestratorId : String) (config : OrchestratorConfig) : Prop where
  id : config.id = orchestratorId
  setup : SetupInvariants config
  texts : ConfigTexts config

theorem validate_eq_ok_iff {config : OrchestratorConfig} {settings : Settings}
    {orchestratorId : String} (hid : IsIdentifier orchestratorId)
    (hentry : (settings.orchestrators.lookup orchestratorId).isSome = true) :
    config.validate settings orchestratorId = .ok () ↔ ConfigValid orchestratorId config := by
  obtain ⟨entry, hentry⟩ := Option.isSome_iff_exists.mp hentry
  simp only [OrchestratorConfig.validate, seq_ok_iff, hentry]
  rw [parseId_ok_iff, ensureConfig_ok_iff, ensureConfig_ok_iff, ensureConfig_ok_iff,
    mapError_ok_iff, validateSetupInvariants_ok_iff, validateAgents_ok_iff,
    validateWorkflowTexts_ok_iff, beq_iff_eq, bne_iff_ne, bne_iff_ne]
  constructor
  · rintro ⟨-, hsame, hretries, htimeout, hsetup, hagents, hworkflows⟩
    exact ⟨hsame, hsetup, hretries, htimeout, hagents, hworkflows⟩
  · rintro ⟨hsame, hsetup, hretries, htimeout, hagents, hworkflows⟩
    exact ⟨hid, hsame, hretries, htimeout, hsetup, hagents, hworkflows⟩

/-! ## New orchestrators -/

theorem templateAgents_texts (provider : ConfigProviderKind) (model : String)
    (template : WorkflowTemplate) :
    (∀ entry ∈ templateAgents provider model template, AgentTexts entry) ↔
      notBlank model = true := by
  constructor
  · intro h
    have hdefault : ("default", ⟨model, true, provider⟩) ∈ templateAgents provider model template := by
      cases template <;> simp [templateAgents]
    exact (h _ hdefault).model
  · intro hmodel entry hentry
    have hid : ∀ id ∈ (templateAgents provider model template).map (·.1), IsIdentifier id := by
      cases template with
      | minimal =>
        show ∀ id ∈ ["default"], IsIdentifier id
        decide
      | engineering =>
        show ∀ id ∈ ["builder", "default", "planner", "reviewer"], IsIdentifier id
        decide
      | product =>
        show ∀ id ∈ ["default", "researcher", "writer"], IsIdentifier id
        decide
    refine ⟨hid entry.1 (List.mem_map_of_mem hentry), ?_⟩
    have hsame : entry.2.model = model := by
      cases template <;> simp [templateAgents] at hentry <;> grind
    rw [hsame]
    exact hmodel

theorem templateWorkflows_texts (template : WorkflowTemplate) :
    ∀ workflow ∈ templateWorkflows template, WorkflowTexts workflow := by
  refine (validateWorkflowTexts_ok_iff _).mp ?_
  cases template <;> decide +kernel

/-- A new orchestrator is valid if its model is not blank. -/
theorem initialConfig_texts (id model : String) (provider : ConfigProviderKind)
    (template : WorkflowTemplate) :
    ConfigTexts (initialConfig id provider model template) ↔ notBlank model = true := by
  rw [← templateAgents_texts provider model template]
  exact ⟨fun h => h.agents, fun h => ⟨nofun, nofun, h, templateWorkflows_texts template⟩⟩

end Direclaw.Config
