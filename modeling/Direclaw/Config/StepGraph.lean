import Direclaw.Config.RefusedEdits

/-!
# The steps of a workflow as a graph

A step names the steps that come after it. Here is when adding, removing, renaming and
toggling steps keeps every name that of a step of its workflow.
-/

namespace Direclaw.Config

open Direclaw.Lib Direclaw.Orchestration

def stepTargets (step : WorkflowStepConfig) : List String :=
  step.next.toList ++ step.onApprove.toList ++ step.onReject.toList

def stepIds (workflow : WorkflowConfig) : List String := workflow.steps.map (·.id)

def GraphClosed (workflow : WorkflowConfig) : Prop :=
  ∀ step ∈ workflow.steps, ∀ target ∈ stepTargets step, target ∈ stepIds workflow

def SetupDraft.GraphsClosed (draft : SetupDraft) : Prop :=
  ∀ entry ∈ draft.orchestratorConfigs, ∀ workflow ∈ entry.2.workflows, GraphClosed workflow

def SetupDraft.workflowAt (draft : SetupDraft) (orchestratorId workflowId : String) :
    Option WorkflowConfig :=
  (draft.orchestratorConfigs.lookup orchestratorId).bind fun config =>
    config.workflows.find? (·.id == workflowId)

/-! ## Edges -/

structure SameEdges (step step' : WorkflowStepConfig) : Prop where
  next : step'.next = step.next
  onApprove : step'.onApprove = step.onApprove
  onReject : step'.onReject = step.onReject

theorem SameEdges.refl (step : WorkflowStepConfig) : SameEdges step step := ⟨rfl, rfl, rfl⟩

theorem SameEdges.targets {step step' : WorkflowStepConfig} (h : SameEdges step step') :
    stepTargets step' = stepTargets step := by
  rw [stepTargets, h.next, h.onApprove, h.onReject, stepTargets]

theorem mem_stepTargets {step : WorkflowStepConfig} {target : String} :
    target ∈ stepTargets step ↔
      step.next = some target ∨ step.onApprove = some target ∨ step.onReject = some target := by
  simp [stepTargets]

/-- An edge to the old id is an edge to the new one. -/
structure EdgesMapped (currentId nextId : String) (step step' : WorkflowStepConfig) : Prop where
  next : step.next = some currentId → step'.next = some nextId
  onApprove : step.onApprove = some currentId → step'.onApprove = some nextId
  onReject : step.onReject = some currentId → step'.onReject = some nextId

/-- Edges that are left alone are mapped if there are none or nothing is renamed. -/
theorem edgesMapped_iff {currentId nextId : String} {step step' : WorkflowStepConfig}
    (h : SameEdges step step') : EdgesMapped currentId nextId step step' ↔
      currentId = nextId ∨ currentId ∉ stepTargets step := by
  constructor
  · intro hmapped
    by_cases htarget : currentId ∈ stepTargets step
    · refine .inl ?_
      rcases mem_stepTargets.mp htarget with hedge | hedge | hedge
      · exact Option.some.inj (hedge.symm.trans (h.next.symm.trans (hmapped.next hedge)))
      · exact Option.some.inj (hedge.symm.trans (h.onApprove.symm.trans (hmapped.onApprove hedge)))
      · exact Option.some.inj (hedge.symm.trans (h.onReject.symm.trans (hmapped.onReject hedge)))
    · exact .inr htarget
  · rintro (rfl | hnot)
    · exact ⟨h.next.trans, h.onApprove.trans, h.onReject.trans⟩
    · exact ⟨fun hedge => absurd (mem_stepTargets.mpr (.inl hedge)) hnot,
        fun hedge => absurd (mem_stepTargets.mpr (.inr (.inl hedge))) hnot,
        fun hedge => absurd (mem_stepTargets.mpr (.inr (.inr hedge))) hnot⟩

theorem forall₂_replaceFirst {α : Type} {R : α → α → Prop} {fits : α → Bool} {item held : α}
    (hrefl : ∀ a, R a a) (hitem : R held item) :
    ∀ {items : List α}, items.find? fits = some held →
      List.Forall₂ R items (replaceFirst fits item items)
  | [], h => by cases h
  | first :: rest, h => by
      unfold replaceFirst
      by_cases hfits : fits first = true
      · rw [List.find?_cons_of_pos hfits] at h
        cases h
        rw [if_pos hfits]
        exact .cons hitem (List.forall₂_same.mpr fun a _ => hrefl a)
      · rw [List.find?_cons_of_neg hfits] at h
        rw [if_neg hfits]
        exact .cons (hrefl first) (forall₂_replaceFirst hrefl hitem h)

theorem forall₂_iff_of_forall₂ {α β : Type} {R S : α → β → Prop} {holds : α → Prop}
    (h : ∀ a b, R a b → (S a b ↔ holds a)) {items : List α} {items' : List β}
    (hrelated : List.Forall₂ R items items') :
    List.Forall₂ S items items' ↔ ∀ a ∈ items, holds a := by
  induction hrelated with
  | nil => exact iff_of_true .nil nofun
  | cons hfirst hrest ih =>
    rw [List.forall₂_cons, List.forall_mem_cons, h _ _ hfirst, ih]

theorem find?_replaceFirst {α : Type} {fits : α → Bool} {item held : α} {items : List α}
    (hitem : fits item = true) (h : items.find? fits = some held) :
    (replaceFirst fits item items).find? fits = some item := by
  induction items with
  | nil => cases h
  | cons first rest ih =>
    unfold replaceFirst
    by_cases hfits : fits first = true
    · rw [if_pos hfits, List.find?_cons_of_pos hitem]
    · rw [List.find?_cons_of_neg hfits] at h
      rw [if_neg hfits, List.find?_cons_of_neg hfits, ih h]

/-! ## Workflows of a draft -/

section Draft

variable {draft : SetupDraft} {orchestratorId workflowId : String} {config : OrchestratorConfig}
  {workflow workflow' : WorkflowConfig}

theorem SetupDraft.GraphsClosed.closed (h : draft.GraphsClosed)
    (hconfig : draft.orchestratorConfigs.lookup orchestratorId = some config)
    (hworkflow : config.workflows.find? (·.id == workflowId) = some workflow) :
    GraphClosed workflow :=
  h _ (OrderedMap.mem_of_lookup hconfig) workflow (List.mem_of_find?_eq_some hworkflow)

/-- Where one workflow gives way, only it has to be closed. -/
theorem SetupDraft.GraphsClosed.withWorkflow_iff (h : draft.GraphsClosed)
    (hconfig : draft.orchestratorConfigs.lookup orchestratorId = some config)
    (hworkflow : config.workflows.find? (·.id == workflowId) = some workflow) :
    (draft.withConfig orchestratorId (withWorkflow config workflowId workflow')).GraphsClosed ↔
      GraphClosed workflow' := by
  constructor
  · exact fun h' => h' _ (OrderedMap.mem_set_self hconfig) workflow' (mem_replaceFirst_self hworkflow)
  · intro hworkflow' entry hentry other hother
    rcases OrderedMap.mem_set hentry with rfl | hentry
    · rcases mem_replaceFirst hother with rfl | hother
      · exact hworkflow'
      · exact h _ (OrderedMap.mem_of_lookup hconfig) other hother
    · exact h entry hentry other hother

theorem workflowAt_of_find
    (hconfig : draft.orchestratorConfigs.lookup orchestratorId = some config)
    (hworkflow : config.workflows.find? (·.id == workflowId) = some workflow) :
    draft.workflowAt orchestratorId workflowId = some workflow := by
  rw [SetupDraft.workflowAt, hconfig]
  exact hworkflow

theorem workflowAt_withWorkflow
    (hconfig : draft.orchestratorConfigs.lookup orchestratorId = some config)
    (hworkflow : config.workflows.find? (·.id == workflowId) = some workflow)
    (hid : workflow'.id = workflow.id) :
    (draft.withConfig orchestratorId (withWorkflow config workflowId workflow')).workflowAt
      orchestratorId workflowId = some workflow' := by
  have hconfig' : (draft.withConfig orchestratorId (withWorkflow config workflowId
      workflow')).orchestratorConfigs.lookup orchestratorId =
        some (withWorkflow config workflowId workflow') := OrderedMap.lookup_set_self hconfig
  refine workflowAt_of_find hconfig' (find?_replaceFirst ?_ hworkflow)
  have hfound := List.find?_some hworkflow
  rw [hid]
  exact hfound

/-- An accepted edit with a check at its end is the edit. -/
theorem editAndValidate_eq_ok {draft' : SetupDraft} {missing : String}
    {f : OrchestratorConfig → Except DraftError OrchestratorConfig}
    (h : editAndValidate missing orchestratorId f draft = .ok () draft') :
    ∃ config config', draft.orchestratorConfigs.lookup orchestratorId = some config ∧
      f config = .ok config' ∧ draft' = draft.withConfig orchestratorId config' := by
  obtain ⟨_, d, hconfig, hvalid⟩ := of_bind_eq_ok h
  obtain ⟨config, config', hlookup, hf, rfl⟩ := SetupDraft.editConfig_eq_ok hconfig
  have hlookup' : (draft.withConfig orchestratorId config').orchestratorConfigs.lookup
      orchestratorId = some config' := OrderedMap.lookup_set_self hlookup
  simp only [validateOrchestratorInvariants, hlookup'] at hvalid
  split at hvalid
  · cases hvalid
    exact ⟨config, config', hlookup, hf, rfl⟩
  · cases hvalid

end Draft

/-! ## One edit -/

inductive StepEdit : Type where
  | addStep (orchestratorId workflowId stepId : String)
  | removeStep (orchestratorId workflowId stepId : String)
  | renameStep (orchestratorId workflowId currentId nextId : String)
  | toggleStepType (orchestratorId workflowId stepId : String)

namespace StepEdit

def edit : StepEdit → Edit
  | addStep o w s => SetupDraft.addStep o w s
  | removeStep o w s => SetupDraft.removeStep o w s
  | renameStep o w currentId nextId => SetupDraft.renameStep o w currentId nextId
  | toggleStepType o w s => SetupDraft.toggleStepType o w s

def MapsEdges : StepEdit → SetupDraft → SetupDraft → Prop
  | renameStep o w currentId nextId, draft, draft' =>
    ∀ workflow workflow', draft.workflowAt o w = some workflow →
      draft'.workflowAt o w = some workflow' →
        List.Forall₂ (EdgesMapped currentId nextId) workflow.steps workflow'.steps
  | _, _, _ => True

/-- No step that stays names the step that goes. -/
def KeepsEdges : StepEdit → SetupDraft → Prop
  | removeStep o w s, draft => ∀ workflow, draft.workflowAt o w = some workflow →
      ∀ step ∈ workflow.steps, step.id ≠ s → s ∉ stepTargets step
  | renameStep o w currentId nextId, draft => currentId = nextId ∨
      ∀ workflow, draft.workflowAt o w = some workflow →
        ∀ step ∈ workflow.steps, currentId ∉ stepTargets step
  | _, _ => True

end StepEdit

section OneEdit

variable {draft draft' : SetupDraft} {o w : String}

theorem workflowStep_targets (workflowId stepId agentId : String) :
    stepTargets (workflowStep workflowId stepId .agentTask agentId) = [] := rfl

variable {s : String}

theorem addStep_closed (h : draft.GraphsClosed)
    (hedit : SetupDraft.addStep o w s draft = .ok () draft') : draft'.GraphsClosed := by
  obtain ⟨_, -, hedit⟩ := edit_of_check hedit
  obtain ⟨config, config', hconfig, hok, rfl⟩ := editAndValidate_eq_ok hedit
  obtain ⟨workflow, workflow', hworkflow, hsteps, rfl⟩ := editWorkflowIn_eq_ok hok
  split at hsteps
  · cases hsteps
  cases hsteps
  refine (h.withWorkflow_iff hconfig hworkflow).mpr fun step hstep target htarget => ?_
  unfold stepIds
  rw [List.map_append]
  rcases List.mem_append.mp hstep with hstep | hstep
  · exact List.mem_append_left _ (h.closed hconfig hworkflow step hstep target htarget)
  · rw [List.mem_singleton.mp hstep, workflowStep_targets] at htarget
    cases htarget

/-- The steps that stay name each other. -/
theorem closed_filter_iff {workflow : WorkflowConfig} (h : GraphClosed workflow) :
    GraphClosed { workflow with steps := workflow.steps.filter (·.id != s) } ↔
      ∀ step ∈ workflow.steps, step.id ≠ s → s ∉ stepTargets step := by
  constructor
  · intro hclosed step hstep hne htarget
    have hkept : step ∈ workflow.steps.filter (·.id != s) :=
      List.mem_filter.mpr ⟨hstep, by simpa using hne⟩
    obtain ⟨other, hother, hid⟩ := List.mem_map.mp (hclosed step hkept s htarget)
    have hother := (List.mem_filter.mp hother).2
    rw [hid] at hother
    simp at hother
  · intro hnone step hstep target htarget
    obtain ⟨hin, hne⟩ := List.mem_filter.mp hstep
    obtain ⟨other, hother, rfl⟩ := List.mem_map.mp (h step hin target htarget)
    refine List.mem_map.mpr ⟨other, List.mem_filter.mpr ⟨hother, ?_⟩, rfl⟩
    have hstay : other.id ≠ s := by
      rintro heq
      rw [heq] at htarget
      exact hnone step hin (by simpa using hne) htarget
    simpa using hstay

theorem removeStep_closed_iff (h : draft.GraphsClosed)
    (hedit : SetupDraft.removeStep o w s draft = .ok () draft') :
    draft'.GraphsClosed ↔ ∀ workflow, draft.workflowAt o w = some workflow →
      ∀ step ∈ workflow.steps, step.id ≠ s → s ∉ stepTargets step := by
  obtain ⟨config, config', hconfig, hok, rfl⟩ := editAndValidate_eq_ok hedit
  obtain ⟨workflow, workflow', hworkflow, hsteps, rfl⟩ := editWorkflowIn_eq_ok hok
  split at hsteps
  · cases hsteps
  split at hsteps
  · cases hsteps
  cases hsteps
  rw [h.withWorkflow_iff hconfig hworkflow, closed_filter_iff (h.closed hconfig hworkflow),
    workflowAt_of_find hconfig hworkflow]
  simp only [Option.some.injEq, forall_eq']

theorem closed_withStep_same {workflow : WorkflowConfig} (h : GraphClosed workflow)
    {step step' : WorkflowStepConfig} (hstep : workflow.steps.find? (·.id == s) = some step)
    (hid : step'.id = step.id) (hedges : SameEdges step step') :
    GraphClosed (withStep workflow s step') := by
  have hids : stepIds (withStep workflow s step') = stepIds workflow := by
    refine map_replaceFirst (·.id) hstep ?_
    exact hid
  intro other hother target htarget
  rw [hids]
  rcases mem_replaceFirst hother with rfl | hother
  · rw [hedges.targets] at htarget
    exact h step (List.mem_of_find?_eq_some hstep) target htarget
  · exact h other hother target htarget

theorem toggleStepType_closed (h : draft.GraphsClosed)
    (hedit : SetupDraft.toggleStepType o w s draft = .ok () draft') : draft'.GraphsClosed := by
  obtain ⟨config, config', hconfig, hok, rfl⟩ := SetupDraft.editConfig_eq_ok hedit
  obtain ⟨workflow, workflow', hworkflow, hsteps, rfl⟩ := editWorkflowIn_eq_ok hok
  obtain ⟨step, step', hstep, htoggled, rfl⟩ := editStepIn_eq_ok hsteps
  cases htoggled
  exact (h.withWorkflow_iff hconfig hworkflow).mpr
    (closed_withStep_same (h.closed hconfig hworkflow) hstep rfl ⟨rfl, rfl, rfl⟩)

theorem closed_withStep {workflow : WorkflowConfig} (h : GraphClosed workflow)
    {currentId nextId : String} {step : WorkflowStepConfig}
    (hstep : workflow.steps.find? (·.id == currentId) = some step)
    (hedges : currentId = nextId ∨ ∀ step ∈ workflow.steps, currentId ∉ stepTargets step) :
    GraphClosed (withStep workflow currentId { step with id := nextId }) := by
  have hid : step.id = currentId := by simpa using List.find?_some hstep
  have hbefore := (perm_cons_eraseP hstep).map (·.id)
  have hafter := (@replaceFirst_perm _ _ { step with id := nextId } _ _ hstep).map (·.id)
  intro other hother target htarget
  have hold : ∃ old ∈ workflow.steps, target ∈ stepTargets old := by
    rcases mem_replaceFirst hother with rfl | hother
    · exact ⟨step, List.mem_of_find?_eq_some hstep, htarget⟩
    · exact ⟨other, hother, htarget⟩
  obtain ⟨old, hin, htarget⟩ := hold
  have hmem := hbefore.mem_iff.mp (h old hin target htarget)
  refine hafter.mem_iff.mpr ?_
  rw [List.map_cons, List.mem_cons, hid] at hmem
  rw [List.map_cons, List.mem_cons]
  rcases hmem with rfl | hmem
  · exact .inl (hedges.resolve_right fun hnone => hnone old hin htarget)
  · exact .inr hmem

theorem renameStep_iff (h : draft.GraphsClosed) {currentId nextId : String}
    (hedit : SetupDraft.renameStep o w currentId nextId draft = .ok () draft') :
    draft'.GraphsClosed ∧ (StepEdit.renameStep o w currentId nextId).MapsEdges draft draft' ↔
      (StepEdit.renameStep o w currentId nextId).KeepsEdges draft := by
  obtain ⟨_, -, hedit⟩ := edit_of_check hedit
  obtain ⟨config, config', hconfig, hok, rfl⟩ := SetupDraft.editConfig_eq_ok hedit
  obtain ⟨workflow, workflow', hworkflow, hsteps, rfl⟩ := editWorkflowIn_eq_ok hok
  split at hsteps
  · cases hsteps
  obtain ⟨step, step', hstep, hrenamed, rfl⟩ := editStepIn_eq_ok hsteps
  cases hrenamed
  have hclosed := h.closed hconfig hworkflow
  have hedges : SameEdges step { step with id := nextId } := ⟨rfl, rfl, rfl⟩
  have hsame : List.Forall₂ SameEdges workflow.steps
      (withStep workflow currentId { step with id := nextId }).steps :=
    forall₂_replaceFirst SameEdges.refl hedges hstep
  have hat := workflowAt_of_find hconfig hworkflow
  have hat' := workflowAt_withWorkflow hconfig hworkflow
    (rfl : (withStep workflow currentId { step with id := nextId }).id = workflow.id)
  rw [h.withWorkflow_iff hconfig hworkflow]
  simp only [StepEdit.MapsEdges, StepEdit.KeepsEdges, hat, hat', Option.some.injEq, forall_eq']
  have hmapped := forall₂_iff_of_forall₂
    (fun step step' h => @edgesMapped_iff currentId nextId step step' h) hsame
  constructor
  · rintro ⟨-, hedges⟩
    have hedges := hmapped.mp (hedges _ _ rfl rfl)
    by_cases heq : currentId = nextId
    · exact .inl heq
    · exact .inr fun step hstep => (hedges step hstep).resolve_left heq
  · intro hedges
    refine ⟨closed_withStep hclosed hstep hedges, ?_⟩
    rintro _ _ rfl rfl
    refine hmapped.mpr fun step hstep => ?_
    exact hedges.imp_right fun hnone => hnone step hstep

theorem stepEdit_iff (h : draft.GraphsClosed) {op : StepEdit}
    (hedit : op.edit draft = .ok () draft') :
    draft'.GraphsClosed ∧ op.MapsEdges draft draft' ↔ op.KeepsEdges draft := by
  cases op with
  | addStep o w s => exact iff_of_true ⟨addStep_closed h hedit, trivial⟩ trivial
  | removeStep o w s => exact (and_iff_left trivial).trans (removeStep_closed_iff h hedit)
  | renameStep o w currentId nextId => exact renameStep_iff h hedit
  | toggleStepType o w s => exact iff_of_true ⟨toggleStepType_closed h hedit, trivial⟩ trivial

end OneEdit

/-! ## A sequence of edits -/

/-- Accepted edits keep the graphs closed and map the edges exactly if no edit takes a name from
an edge. -/
theorem step_edits_closed_iff {draft : SetupDraft} (h : draft.GraphsClosed) {ops : List StepEdit}
    (haccepted : Succeeds (inOrder StepEdit.edit ops) draft) :
    (∀ before op, before ++ [op] <+: ops →
      (leaves (inOrder StepEdit.edit (before ++ [op])) draft).GraphsClosed ∧
        op.MapsEdges (leaves (inOrder StepEdit.edit before) draft)
          (leaves (inOrder StepEdit.edit (before ++ [op])) draft)) ↔
      EachReady StepEdit.KeepsEdges StepEdit.edit ops draft := by
  refine related_inOrder_iff (fun op d d' hd hedit => ?_) ops h haccepted
  exact @stepEdit_iff d d' hd op hedit

/-- The first step goes on to a second one. -/
def chainDraft : SetupDraft :=
  leaves (inOrder SetupDraft.edit [.addStep "main" "default" "step_2",
    .setStepNext "main" "default" "step_1" (some "step_2")]) SetupDraft.mainDraft

theorem chainDraft_closed : chainDraft.GraphsClosed := by
  unfold SetupDraft.GraphsClosed GraphClosed
  decide

theorem step_edits_closed_example :
    (∀ before op, before ++ [op] <+: [StepEdit.addStep "main" "default" "step_3",
        .renameStep "main" "default" "step_3" "step_4"] →
      (leaves (inOrder StepEdit.edit (before ++ [op])) chainDraft).GraphsClosed ∧
        op.MapsEdges (leaves (inOrder StepEdit.edit before) chainDraft)
          (leaves (inOrder StepEdit.edit (before ++ [op])) chainDraft)) ↔
      EachReady StepEdit.KeepsEdges StepEdit.edit [.addStep "main" "default" "step_3",
        .renameStep "main" "default" "step_3" "step_4"] chainDraft :=
  step_edits_closed_iff chainDraft_closed (by exact ⟨(), _, rfl⟩)

/-- The edge to a step that is renamed or removed stays. -/
theorem edge_left_behind :
    chainDraft.GraphsClosed ∧
      (∃ draft', (StepEdit.renameStep "main" "default" "step_2" "step_3").edit chainDraft =
          .ok () draft' ∧ ¬ draft'.GraphsClosed) ∧
      ∃ draft', (StepEdit.removeStep "main" "default" "step_2").edit chainDraft = .ok () draft' ∧
        ¬ draft'.GraphsClosed := by
  refine ⟨chainDraft_closed, ⟨_, rfl, ?_⟩, ⟨_, rfl, ?_⟩⟩
  · unfold SetupDraft.GraphsClosed GraphClosed
    decide
  · unfold SetupDraft.GraphsClosed GraphClosed
    decide

end Direclaw.Config
