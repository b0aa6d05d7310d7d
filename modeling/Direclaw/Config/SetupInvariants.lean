import Direclaw.Config.Templates
import Direclaw.Lib.Fallible

/-!
# Setup invariants

What `validate_setup_invariants` accepts, said of the configuration: the selector, the
workflows with their ids, and the output contract of every step.
-/

namespace Direclaw.Config

open Direclaw.Lib Direclaw.Orchestration

def keyNames (keys : List OutputKey) : List String := keys.map (·.name)

structure StepInvariants (agents : List (String × AgentConfig)) (step : WorkflowStepConfig) :
    Prop where
  agent : (agents.lookup step.agent).isSome = true
  summary : "summary" ∈ keyNames step.outputs
  mapped : ∀ key ∈ step.outputs, (step.outputFiles.lookup key.name).isSome = true
  prioritized : step.finalOutputPriority ≠ []
  priorityNodup : (keyNames step.finalOutputPriority).Nodup
  priorityOutputs : ∀ key ∈ step.finalOutputPriority, key.name ∈ keyNames step.outputs

structure WorkflowInvariants (agents : List (String × AgentConfig)) (workflow : WorkflowConfig) :
    Prop where
  nonempty : workflow.steps ≠ []
  stepIds : (workflow.steps.map (·.id)).Nodup
  steps : ∀ step ∈ workflow.steps, StepInvariants agents step

structure SetupInvariants (config : OrchestratorConfig) : Prop where
  selector : ∃ agent, config.agents.lookup config.selectorAgent = some agent ∧
    agent.canOrchestrateWorkflows = true
  workflowIds : (config.workflows.map (·.id)).Nodup
  defaultWorkflow : config.defaultWorkflow ∈ config.workflows.map (·.id)
  workflows : ∀ workflow ∈ config.workflows, WorkflowInvariants config.agents workflow

/-! ## The check -/

theorem firstDuplicate_eq_none {ids : List String} : ∀ {seen : List String},
    firstDuplicate seen ids = none ↔ ids.Nodup ∧ ∀ id ∈ ids, id ∉ seen := by
  induction ids with
  | nil => simp [firstDuplicate]
  | cons id ids ih =>
    intro seen
    unfold firstDuplicate
    by_cases hseen : id ∈ seen
    · simp [hseen]
    · rw [if_neg hseen, ih, List.nodup_cons]
      constructor
      · rintro ⟨hnodup, hfresh⟩
        refine ⟨⟨fun hmem => hfresh id hmem List.mem_cons_self, hnodup⟩, ?_⟩
        intro other hother
        rcases List.mem_cons.mp hother with rfl | hother
        · exact hseen
        · exact fun h => hfresh other hother (List.mem_cons_of_mem _ h)
      · rintro ⟨⟨hnot, hnodup⟩, hfresh⟩
        refine ⟨hnodup, fun other hother h => ?_⟩
        rcases List.mem_cons.mp h with rfl | h
        · exact hnot hother
        · exact hfresh other (List.mem_cons_of_mem _ hother) h

theorem validateFinalOutputPriority_ok_iff {workflow : WorkflowConfig} {step : WorkflowStepConfig}
    (keys : List OutputKey) : ∀ {seen : List String},
      validateFinalOutputPriority workflow step seen keys = .ok () ↔
        (keyNames keys).Nodup ∧ (∀ name ∈ keyNames keys, name ∉ seen) ∧
          ∀ key ∈ keys, key.name ∈ keyNames step.outputs := by
  induction keys with
  | nil => simp [validateFinalOutputPriority, keyNames]
  | cons key keys ih =>
    intro seen
    have hany : (!step.outputs.any (·.name == key.name)) = true ↔
        key.name ∉ keyNames step.outputs := by
      simp [keyNames]
    rw [validateFinalOutputPriority, throw_if_ok_iff, throw_if_ok_iff, ih, hany, not_not]
    simp only [keyNames, List.map_cons, List.nodup_cons, List.mem_cons]
    simp only [forall_eq_or_imp]
    constructor
    · rintro ⟨hseen, hmem, hnodup, hfresh, houtputs⟩
      refine ⟨⟨fun h => hfresh _ h (.inl rfl), hnodup⟩, ⟨hseen, ?_⟩, hmem, houtputs⟩
      exact fun name hname h => hfresh name hname (.inr h)
    · rintro ⟨⟨hnot, hnodup⟩, ⟨hseen, hfresh⟩, hmem, houtputs⟩
      refine ⟨hseen, hmem, hnodup, ?_, houtputs⟩
      rintro name hname (rfl | h)
      · exact hnot hname
      · exact hfresh name hname h

variable {config : OrchestratorConfig} {workflow : WorkflowConfig}

theorem validateStep_ok_iff {step : WorkflowStepConfig} :
    validateStep config workflow step = .ok () ↔ StepInvariants config.agents step := by
  unfold validateStep
  simp only [throw_if_ok_iff, seq_ok_iff, forIn_throw_ok_iff, validateFinalOutputPriority_ok_iff]
  constructor
  · rintro ⟨hagent, -, -, hsummary, -, hmapped, hprioritized, hnodup, -, houtputs⟩
    refine ⟨by simpa using hagent, by simpa [keyNames] using hsummary, ?_, ?_, hnodup, houtputs⟩
    · exact fun key hkey => by simpa using hmapped key hkey
    · simpa using hprioritized
  · intro h
    obtain ⟨key, hkey, hname⟩ := List.mem_map.mp h.summary
    have hfile := h.mapped key hkey
    refine ⟨by simpa using h.agent, ?_, ?_, by simpa [keyNames] using h.summary, ?_, ?_,
      by simpa using h.prioritized, h.priorityNodup, by simp, h.priorityOutputs⟩
    · simpa using List.ne_nil_of_mem hkey
    · cases hfiles : step.outputFiles with
      | nil => simp [hfiles] at hfile
      | cons _ _ => simp
    · rw [hname] at hfile
      simpa using hfile
    · exact fun other hother => by simpa using h.mapped other hother

theorem validateSteps_ok_iff (steps : List WorkflowStepConfig) : ∀ {seen : List String},
      validateSteps config workflow seen steps = .ok () ↔
        (steps.map (·.id)).Nodup ∧ (∀ id ∈ steps.map (·.id), id ∉ seen) ∧
          ∀ step ∈ steps, StepInvariants config.agents step := by
  induction steps with
  | nil => simp [validateSteps]
  | cons step steps ih =>
    intro seen
    rw [validateSteps, throw_if_ok_iff, seq_ok_iff, validateStep_ok_iff, ih]
    simp only [List.map_cons, List.nodup_cons, List.mem_cons]
    simp only [forall_eq_or_imp]
    constructor
    · rintro ⟨hseen, hstep, hnodup, hfresh, hsteps⟩
      refine ⟨⟨fun h => hfresh _ h (.inl rfl), hnodup⟩, ⟨hseen, ?_⟩, hstep, hsteps⟩
      exact fun id hid h => hfresh id hid (.inr h)
    · rintro ⟨⟨hnot, hnodup⟩, ⟨hseen, hfresh⟩, hstep, hsteps⟩
      refine ⟨hseen, hstep, hnodup, ?_, hsteps⟩
      rintro id hid (rfl | h)
      · exact hnot hid
      · exact hfresh id hid h

theorem validateWorkflows_ok_iff (workflows : List WorkflowConfig) :
    validateWorkflows config workflows = .ok () ↔
      ∀ workflow ∈ workflows, WorkflowInvariants config.agents workflow := by
  induction workflows with
  | nil => simp [validateWorkflows]
  | cons workflow workflows ih =>
    rw [validateWorkflows, throw_if_ok_iff, seq_ok_iff, validateSteps_ok_iff, ih,
      List.forall_mem_cons]
    constructor
    · rintro ⟨hnonempty, ⟨hnodup, -, hsteps⟩, hrest⟩
      exact ⟨⟨by simpa using hnonempty, hnodup, hsteps⟩, hrest⟩
    · rintro ⟨h, hrest⟩
      exact ⟨by simpa using h.nonempty, ⟨h.stepIds, by simp, h.steps⟩, hrest⟩

/-- The check accepts exactly the configurations with the invariants. -/
theorem validateSetupInvariants_ok_iff :
    validateSetupInvariants config = .ok () ↔ SetupInvariants config := by
  unfold validateSetupInvariants
  simp only [throw_if_ok_iff]
  cases hselector : config.agents.lookup config.selectorAgent with
  | none =>
    refine iff_of_false (fun h => throw_bind_not_ok h.2.2) fun h => ?_
    obtain ⟨agent, hagent, -⟩ := h.selector
    rw [hselector] at hagent
    cases hagent
  | some agent =>
    cases hduplicate : firstDuplicate [] (config.workflows.map (·.id)) with
    | some id =>
      refine iff_of_false (fun h => ?_) fun h => ?_
      · have hthrow := h.2.2
        simp only [throw_if_ok_iff] at hthrow
        exact throw_bind_not_ok hthrow.2
      · rw [firstDuplicate_eq_none.mpr ⟨h.workflowIds, by simp⟩] at hduplicate
        cases hduplicate
    | none =>
      have hnodup := (firstDuplicate_eq_none.mp hduplicate).1
      simp only [throw_if_ok_iff, validateWorkflows_ok_iff]
      constructor
      · rintro ⟨-, -, hcan, hdefault, hworkflows⟩
        exact ⟨⟨agent, hselector, by simpa using hcan⟩, hnodup, not_not.mp hdefault, hworkflows⟩
      · intro h
        obtain ⟨agent', hagent, hcan⟩ := h.selector
        rw [hselector] at hagent
        cases hagent
        refine ⟨?_, ?_, by simpa using hcan, not_not.mpr h.defaultWorkflow, h.workflows⟩
        · cases hworkflows : config.workflows with
          | nil =>
            have hdefault := h.defaultWorkflow
            simp [hworkflows] at hdefault
          | cons _ _ => simp
        · cases hagents : config.agents with
          | nil => simp [hagents] at hselector
          | cons _ _ => simp

theorem initialConfig_setup (id model : String) (provider : ConfigProviderKind)
    (template : WorkflowTemplate) : SetupInvariants (initialConfig id provider model template) := by
  refine validateSetupInvariants_ok_iff.mp ?_
  cases template with
  | minimal => rfl
  | engineering => rfl
  | product => rfl

end Direclaw.Config
