import Direclaw.Config.AcceptedEdits

/-!
# Refused edits

An edit that is refused by the check at its end leaves its change behind. For every edit
here is what the draft has to be for a refusal to change nothing.
-/

namespace Direclaw.Config

open Direclaw.Lib Direclaw.Orchestration

/-! ## What the check looks at -/

/-- The invariants of a step but for its agent. -/
structure StepContract (step : WorkflowStepConfig) : Prop where
  summary : "summary" ∈ keyNames step.outputs
  mapped : ∀ key ∈ step.outputs, (step.outputFiles.lookup key.name).isSome = true
  prioritized : step.finalOutputPriority ≠ []
  priorityNodup : (keyNames step.finalOutputPriority).Nodup
  priorityOutputs : ∀ key ∈ step.finalOutputPriority, key.name ∈ keyNames step.outputs

structure StepsFit (known : String → Prop) (steps : List WorkflowStepConfig) : Prop where
  stepIds : (steps.map (·.id)).Nodup
  agents : ∀ step ∈ steps, known step.agent
  contracts : ∀ step ∈ steps, StepContract step

def WorkflowFits (known : String → Prop) (workflow : WorkflowConfig) : Prop :=
  workflow.steps ≠ [] ∧ StepsFit known workflow.steps

def Known (agents : List (String × AgentConfig)) (agentId : String) : Prop :=
  (agents.lookup agentId).isSome = true

def CanSelect (agents : List (String × AgentConfig)) (agentId : String) : Prop :=
  ∃ agent, agents.lookup agentId = some agent ∧ agent.canOrchestrateWorkflows = true

theorem CanSelect.known {agents : List (String × AgentConfig)} {agentId : String}
    (h : CanSelect agents agentId) : Known agents agentId := by
  obtain ⟨agent, hagent, -⟩ := h
  rw [Known, hagent]
  rfl

variable {config : OrchestratorConfig} {workflow : WorkflowConfig} {workflowId : String}
  {agentId : String}

theorem WorkflowFits.mono {known known' : String → Prop} (h : WorkflowFits known workflow)
    (hknown : ∀ agentId, known agentId → known' agentId) :
    WorkflowFits known' workflow :=
  ⟨h.1, h.2.stepIds, fun step hstep => hknown _ (h.2.agents step hstep), h.2.contracts⟩

theorem workflowInvariants_iff {agents : List (String × AgentConfig)} :
    WorkflowInvariants agents workflow ↔ WorkflowFits (Known agents) workflow := by
  constructor
  · intro h
    refine ⟨h.nonempty, h.stepIds, fun step hstep => (h.steps step hstep).agent, ?_⟩
    intro step hstep
    have hs := h.steps step hstep
    exact ⟨hs.summary, hs.mapped, hs.prioritized, hs.priorityNodup, hs.priorityOutputs⟩
  · rintro ⟨hnonempty, h⟩
    refine ⟨hnonempty, h.stepIds, fun step hstep => ?_⟩
    have hs := h.contracts step hstep
    exact ⟨h.agents step hstep, hs.summary, hs.mapped, hs.prioritized, hs.priorityNodup,
      hs.priorityOutputs⟩

def workflowIds (config : OrchestratorConfig) : List String := config.workflows.map (·.id)

theorem setupInvariants_iff :
    SetupInvariants config ↔ CanSelect config.agents config.selectorAgent ∧
      (workflowIds config).Nodup ∧ config.defaultWorkflow ∈ workflowIds config ∧
      ∀ workflow ∈ config.workflows, WorkflowFits (Known config.agents) workflow := by
  constructor
  · exact fun h => ⟨h.selector, h.workflowIds, h.defaultWorkflow,
      fun workflow hworkflow => workflowInvariants_iff.mp (h.workflows workflow hworkflow)⟩
  · exact fun ⟨hselector, hids, hdefault, hworkflows⟩ => ⟨hselector, hids, hdefault,
      fun workflow hworkflow => workflowInvariants_iff.mpr (hworkflows workflow hworkflow)⟩

/-! ## The item that gives way -/

section ReplaceFirst

variable {α : Type} {fits : α → Bool} {item held : α}

variable {items : List α}

theorem replaceFirst_perm (h : items.find? fits = some held) :
    (replaceFirst fits item items).Perm (item :: items.eraseP fits) := by
  induction items with
  | nil => cases h
  | cons first rest ih =>
    unfold replaceFirst
    by_cases hfits : fits first = true
    · rw [if_pos hfits, List.eraseP_cons_of_pos hfits]
    · rw [List.find?_cons_of_neg hfits] at h
      rw [if_neg hfits, List.eraseP_cons_of_neg hfits]
      exact ((ih h).cons first).trans (List.Perm.swap _ _ _)

theorem perm_cons_eraseP (h : items.find? fits = some held) :
    items.Perm (held :: items.eraseP fits) := by
  induction items with
  | nil => cases h
  | cons first rest ih =>
    by_cases hfits : fits first = true
    · rw [List.find?_cons_of_pos hfits] at h
      cases h
      rw [List.eraseP_cons_of_pos hfits]
    · rw [List.find?_cons_of_neg hfits] at h
      rw [List.eraseP_cons_of_neg hfits]
      exact ((ih h).cons first).trans (List.Perm.swap _ _ _)

theorem replaceFirst_eq_self_iff (h : items.find? fits = some held) :
    replaceFirst fits item items = items ↔ item = held := by
  induction items with
  | nil => cases h
  | cons first rest ih =>
    unfold replaceFirst
    by_cases hfits : fits first = true
    · rw [List.find?_cons_of_pos hfits] at h
      cases h
      rw [if_pos hfits, List.cons.injEq, and_iff_left rfl]
    · rw [List.find?_cons_of_neg hfits] at h
      rw [if_neg hfits, List.cons.injEq, and_iff_right rfl, ih h]

end ReplaceFirst

/-! ## Refusals -/

/-- A refusal leaves the draft as it was. -/
def RefusalKeeps (x : Edit) (draft : SetupDraft) : Prop :=
  ∀ text draft', x draft = .error (.message text) draft' → draft' = draft

section Refusals

variable {draft : SetupDraft}

theorem refusalKeeps_updateWith {f : SetupDraft → Except DraftError SetupDraft} :
    RefusalKeeps (updateWith f) draft := by
  intro text draft' h
  unfold updateWith at h
  cases hf : f draft with
  | error err =>
    rw [hf] at h
    cases h
    rfl
  | ok next =>
    rw [hf] at h
    cases h

variable {f : OrchestratorConfig → Except DraftError OrchestratorConfig}
  {missing orchestratorId : String}

theorem refusalKeeps_editConfig :
    RefusalKeeps (editConfig missing orchestratorId f) draft := refusalKeeps_updateWith

theorem refusalKeeps_check_iff {α : Type} {check : Except DraftError α} {rest : α → Edit} :
    RefusalKeeps (ofResult check >>= rest) draft ↔
      ∀ a, check = .ok a → RefusalKeeps (rest a) draft := by
  cases check with
  | error err =>
    refine iff_of_true (fun text draft' h => ?_) nofun
    cases h
    rfl
  | ok a =>
    constructor
    · rintro h _ ⟨⟩
      exact h
    · exact fun h => h a rfl

theorem refusalKeeps_guard_iff {check : Except DraftError Unit} {rest : Unit → Edit} :
    RefusalKeeps (ofResult check >>= rest) draft ↔
      (check = .ok () → RefusalKeeps (rest ()) draft) := by
  rw [refusalKeeps_check_iff]
  exact ⟨fun h => h (), fun h _ => h⟩

theorem refusalKeeps_get_iff {rest : SetupDraft → Edit} :
    RefusalKeeps (get >>= rest) draft ↔ RefusalKeeps (rest draft) draft := Iff.rfl

theorem withConfig_eq_self_iff (hkeys : (draft.orchestratorConfigs.map (·.1)).Nodup)
    {orchestratorId : String} {config config' : OrchestratorConfig}
    (hconfig : draft.orchestratorConfigs.lookup orchestratorId = some config) :
    draft.withConfig orchestratorId config' = draft ↔ config' = config := by
  constructor
  · intro h
    have hlookup : (draft.withConfig orchestratorId config').orchestratorConfigs.lookup
        orchestratorId = some config' := OrderedMap.lookup_set_self hconfig
    rw [h, hconfig] at hlookup
    exact (Option.some.inj hlookup).symm
  · rintro rfl
    have hset : OrderedMap.set orchestratorId config' draft.orchestratorConfigs =
        draft.orchestratorConfigs := OrderedMap.set_eq_self hkeys hconfig
    unfold SetupDraft.withConfig
    rw [hset]

theorem editConfig_of_ok {config config' : OrchestratorConfig}
    (hconfig : draft.orchestratorConfigs.lookup orchestratorId = some config)
    (h : f config = .ok config') :
    editConfig missing orchestratorId f draft =
      .ok () (draft.withConfig orchestratorId config') := by
  simp only [editConfig, updateWith, hconfig, h]
  rfl

/-- An edit with a check at its end changes nothing or what it makes is valid. -/
theorem refusalKeeps_editAndValidate_iff (hkeys : (draft.orchestratorConfigs.map (·.1)).Nodup) :
    RefusalKeeps (editAndValidate missing orchestratorId f) draft ↔
      ∀ config config', draft.orchestratorConfigs.lookup orchestratorId = some config →
        f config = .ok config' → config' = config ∨ SetupInvariants config' := by
  constructor
  · intro h config config' hlookup hf
    cases hvalid : validateSetupInvariants config' with
    | ok u => exact .inr (validateSetupInvariants_ok_iff.mp hvalid)
    | error reason =>
      refine .inl ((withConfig_eq_self_iff hkeys hlookup).mp ?_)
      refine h (ConfigError.orchestrator reason).display _ ?_
      have hlookup' : (draft.withConfig orchestratorId config').orchestratorConfigs.lookup
          orchestratorId = some config' := OrderedMap.lookup_set_self hlookup
      unfold editAndValidate
      rw [bind_of_ok (editConfig_of_ok hlookup hf)]
      simp only [validateOrchestratorInvariants, hlookup', hvalid]
  · intro h text draft' hedit
    rcases of_bind_eq_error hedit with hedit | ⟨_, d, hedit, hvalid⟩
    · exact refusalKeeps_editConfig text draft' hedit
    · obtain ⟨config, config', hlookup, hf, rfl⟩ := SetupDraft.editConfig_eq_ok hedit
      have hlookup' : (draft.withConfig orchestratorId config').orchestratorConfigs.lookup
          orchestratorId = some config' := OrderedMap.lookup_set_self hlookup
      simp only [validateOrchestratorInvariants, hlookup'] at hvalid
      rcases h config config' hlookup hf with rfl | hsetup
      · have hsame := (withConfig_eq_self_iff hkeys hlookup).mpr rfl
        split at hvalid
        · cases hvalid
        · cases hvalid
          exact hsame
      · rw [validateSetupInvariants_ok_iff.mpr hsetup] at hvalid
        cases hvalid

end Refusals

/-! ## What has to hold before an edit -/

def otherWorkflows (config : OrchestratorConfig) (workflowId : String) : List WorkflowConfig :=
  config.workflows.eraseP (·.id == workflowId)

/-- Another workflow can be the default one. -/
structure CanDefaultTo (config : OrchestratorConfig) : Prop where
  selector : CanSelect config.agents config.selectorAgent
  workflowIds : (workflowIds config).Nodup
  workflows : ∀ workflow ∈ config.workflows, WorkflowFits (Known config.agents) workflow

def SafeDefault (workflowId : String) (config : OrchestratorConfig) : Prop :=
  workflowId ∈ workflowIds config → config.defaultWorkflow = workflowId ∨ CanDefaultTo config

/-- The default workflow may be the one that is added. -/
def SafeAddWorkflow (workflowId : String) (config : OrchestratorConfig) : Prop :=
  workflowId ∉ workflowIds config → CanDefaultTo config ∧
    (config.defaultWorkflow ∈ workflowIds config ∨ config.defaultWorkflow = workflowId)

/-- The workflows that remain are valid, and there is a default among them. -/
structure CanLoseWorkflow (config : OrchestratorConfig) (remaining : List WorkflowConfig)
    (workflowId : String) : Prop where
  selector : CanSelect config.agents config.selectorAgent
  workflowIds : (remaining.map (·.id)).Nodup
  nonempty : remaining ≠ []
  defaultWorkflow : config.defaultWorkflow = workflowId ∨
    config.defaultWorkflow ∈ remaining.map (·.id)
  workflows : ∀ workflow ∈ remaining, WorkflowFits (Known config.agents) workflow

def SafeRemoveWorkflow (workflowId : String) (config : OrchestratorConfig) : Prop :=
  workflowId ∈ workflowIds config → 1 < config.workflows.length →
    CanLoseWorkflow config (config.workflows.filter (·.id != workflowId)) workflowId

structure CanRename (config : OrchestratorConfig) (currentId nextId : String) : Prop where
  selector : CanSelect config.agents config.selectorAgent
  otherIds : ((otherWorkflows config currentId).map (·.id)).Nodup
  defaultWorkflow : config.defaultWorkflow ∈ workflowIds config ∨ config.defaultWorkflow = nextId
  workflows : ∀ workflow ∈ config.workflows, WorkflowFits (Known config.agents) workflow

def SafeRenameWorkflow (currentId nextId : String) (config : OrchestratorConfig) : Prop :=
  currentId ∈ workflowIds config →
    (∀ workflow ∈ config.workflows, workflow.id = nextId → workflow.id = currentId) →
      nextId = currentId ∨ CanRename config currentId nextId

/-- The configuration is valid but for the steps of one workflow. -/
structure ValidBeside (config : OrchestratorConfig) (workflowId : String) : Prop where
  selector : CanSelect config.agents config.selectorAgent
  workflowIds : (workflowIds config).Nodup
  defaultWorkflow : config.defaultWorkflow ∈ Config.workflowIds config
  others : ∀ workflow ∈ otherWorkflows config workflowId, WorkflowFits (Known config.agents) workflow

def SafeAddStep (workflowId stepId : String) (config : OrchestratorConfig) : Prop :=
  ∀ workflow, config.workflows.find? (·.id == workflowId) = some workflow →
    stepId ∉ workflow.steps.map (·.id) →
      ValidBeside config workflowId ∧ StepsFit (Known config.agents) workflow.steps

def SafeRemoveStep (workflowId stepId : String) (config : OrchestratorConfig) : Prop :=
  ∀ workflow, config.workflows.find? (·.id == workflowId) = some workflow →
    stepId ∈ workflow.steps.map (·.id) → 1 < workflow.steps.length →
      ValidBeside config workflowId ∧ workflow.steps.filter (·.id != stepId) ≠ [] ∧
        StepsFit (Known config.agents) (workflow.steps.filter (·.id != stepId))

/-- The configuration is valid but for its agents. -/
structure ValidWith (config : OrchestratorConfig) (known : String → Prop) : Prop where
  workflowIds : (workflowIds config).Nodup
  defaultWorkflow : config.defaultWorkflow ∈ Config.workflowIds config
  workflows : ∀ workflow ∈ config.workflows, WorkflowFits known workflow

/-- Steps may have waited for the agent that is added. -/
def SafeAddAgent (agentId : String) (config : OrchestratorConfig) : Prop :=
  ¬ Known config.agents agentId → CanSelect config.agents config.selectorAgent ∧
    ValidWith config fun id => id = agentId ∨ Known config.agents id

/-- No step needs the agent, and if it selects, the first of the others can. -/
def SafeRemoveAgent (agentId : String) (config : OrchestratorConfig) : Prop :=
  Known config.agents agentId → 1 < config.agents.length →
    (config.selectorAgent ≠ agentId → CanSelect config.agents config.selectorAgent) ∧
      (config.selectorAgent = agentId →
        ∃ entry, config.agents.find? (fun entry => entry.1 != agentId) = some entry ∧
          entry.2.canOrchestrateWorkflows = true) ∧
      ValidWith config fun id => id ≠ agentId ∧ Known config.agents id

def byId (workflows : List WorkflowConfig) : List (String × WorkflowConfig) :=
  workflows.foldl (fun map workflow => OrderedMap.insert workflow.id workflow map) []

/-- The ids that the workflows of a template get. -/
def mappedIds : List (String × WorkflowConfig) → List WorkflowConfig → List String
  | _, [] => []
  | existing, workflow :: rest =>
    let mappedId := SetupDraft.uniqueWorkflowId existing workflow.id
    mappedId :: mappedIds
      (OrderedMap.insert mappedId { workflow with id := mappedId } existing) rest

/-- The template brings nothing new, or the selector and the workflows that stay are valid with
the agents of both. -/
def SafeApplyTemplate (template config : OrchestratorConfig) : Prop :=
  SetupDraft.mergeTemplate template config = config ∨
    (∃ agent, (config.agents.lookup config.selectorAgent).or
        (template.agents.lookup config.selectorAgent) = some agent ∧
      agent.canOrchestrateWorkflows = true) ∧
    ∀ entry ∈ byId config.workflows,
      entry.1 ∉ mappedIds (byId config.workflows) template.workflows →
        WorkflowFits (fun id => Known config.agents id ∨ Known template.agents id) entry.2

/-! ## A template -/

theorem lookup_mergeAgents (agents : List (String × AgentConfig)) (entry : String × AgentConfig)
    (id : String) : (SetupDraft.mergeAgents agents entry).lookup id =
      (agents.lookup id).or (if id = entry.1 then some entry.2 else none) := by
  unfold SetupDraft.mergeAgents
  by_cases hid : id = entry.1
  · rw [if_pos hid, hid]
    cases hlookup : agents.lookup entry.1 with
    | none => simp
    | some agent => simp [hlookup]
  · rw [if_neg hid, Option.or_none]
    split
    · rfl
    · exact OrderedMap.lookup_insert_of_ne hid _ _

theorem lookup_foldl_mergeAgents (id : String) (entries : List (String × AgentConfig)) :
    ∀ agents : List (String × AgentConfig),
      (entries.foldl SetupDraft.mergeAgents agents).lookup id =
        (agents.lookup id).or (entries.lookup id) := by
  induction entries with
  | nil => simp
  | cons entry rest ih =>
    intro agents
    rw [List.foldl_cons, ih, lookup_mergeAgents, Option.or_assoc, List.lookup_cons]
    by_cases hid : id = entry.1
    · simp [hid]
    · have hbeq : (id == entry.1) = false := by simpa using hid
      rw [if_neg hid, Option.none_or, hbeq]

structure ById (workflows : List (String × WorkflowConfig)) : Prop where
  sorted : OrderedMap.Sorted workflows
  ids : ∀ entry ∈ workflows, entry.2.id = entry.1

theorem ById.insert {workflows : List (String × WorkflowConfig)} (h : ById workflows) {id : String}
    (hid : workflow.id = id) : ById (OrderedMap.insert id workflow workflows) := by
  refine ⟨h.sorted.insert, fun entry hentry => ?_⟩
  rcases OrderedMap.mem_insert hentry with rfl | hentry
  · exact hid
  · exact h.ids entry hentry

theorem byId_byId (workflows : List WorkflowConfig) : ById (byId workflows) := by
  have hall : ∀ map, ById map →
      ById (workflows.foldl (fun map workflow => OrderedMap.insert workflow.id workflow map) map) := by
    induction workflows with
    | nil => exact fun map h => h
    | cons workflow rest ih => exact fun map h => ih _ (h.insert rfl)
  exact hall [] ⟨List.Pairwise.nil, nofun⟩

/-- What is there after the workflows of a template are merged, and where its default goes. -/
theorem mergeWorkflows_spec (templateDefault : String) (workflows : List WorkflowConfig) :
    ∀ (existing : List (String × WorkflowConfig)) (newDefault : Option String),
      ById existing →
      let merged := SetupDraft.mergeWorkflows templateDefault (existing, newDefault) workflows
      ById merged.1 ∧
        (∀ entry, entry ∈ existing → entry.1 ∉ mappedIds existing workflows → entry ∈ merged.1) ∧
        (∀ entry ∈ merged.1,
          (∃ workflow ∈ workflows, entry.2 = { workflow with id := entry.1 }) ∨
            entry ∈ existing ∧ entry.1 ∉ mappedIds existing workflows) ∧
        (∀ id ∈ existing.map (·.1), id ∈ merged.1.map (·.1)) ∧
        ((∀ id, newDefault = some id → id ∈ existing.map (·.1)) →
          ∀ id, merged.2 = some id → id ∈ merged.1.map (·.1)) ∧
        (newDefault.isSome = true ∨ templateDefault ∈ workflows.map (·.id) →
          merged.2.isSome = true) := by
  induction workflows with
  | nil =>
    intro existing newDefault hexisting
    exact ⟨hexisting, fun _ h _ => h, fun entry h => .inr ⟨h, List.not_mem_nil⟩, fun _ h => h,
      fun h => h, fun h => h.resolve_right List.not_mem_nil⟩
  | cons workflow rest ih =>
    intro existing newDefault hexisting
    obtain ⟨hby, hkept, hcases, hkeys, hdefault, hsome⟩ :=
      ih (OrderedMap.insert (SetupDraft.uniqueWorkflowId existing workflow.id)
        { workflow with id := SetupDraft.uniqueWorkflowId existing workflow.id } existing)
        (if workflow.id = templateDefault then
          some (SetupDraft.uniqueWorkflowId existing workflow.id) else newDefault)
        (hexisting.insert rfl)
    refine ⟨hby, fun entry hentry hnot => ?_, fun entry hentry => ?_,
      fun id hid => hkeys id (OrderedMap.mem_keys_insert hid), fun hnew => hdefault ?_,
      fun h => hsome ?_⟩
    · obtain ⟨hne, hnot⟩ := not_or.mp (fun h => hnot (List.mem_cons.mpr h))
      exact hkept entry (OrderedMap.mem_insert_of_ne hentry hne) hnot
    · rcases hcases entry hentry with ⟨other, hother, heq⟩ | ⟨hin, hnot⟩
      · exact .inl ⟨other, List.mem_cons_of_mem _ hother, heq⟩
      · rcases hexisting.sorted.mem_insert_iff.mp hin with rfl | ⟨hin, hne⟩
        · exact .inl ⟨workflow, List.mem_cons_self, rfl⟩
        · exact .inr ⟨hin, fun h => (List.mem_cons.mp h).elim hne hnot⟩
    · intro id hid
      split at hid
      · cases hid
        exact List.mem_map_of_mem (OrderedMap.mem_insert_self _ _ _)
      · exact OrderedMap.mem_keys_insert (hnew id hid)
    · by_cases heq : workflow.id = templateDefault
      · rw [if_pos heq]
        exact .inl rfl
      · rw [if_neg heq]
        refine h.imp_right fun hmem => ?_
        exact (List.mem_cons.mp hmem).resolve_left (Ne.symm heq)

theorem setupInvariants_mergeTemplate_iff {template config : OrchestratorConfig}
    (htemplate : SetupInvariants template) :
    SetupInvariants (SetupDraft.mergeTemplate template config) ↔
      (∃ agent, (config.agents.lookup config.selectorAgent).or
          (template.agents.lookup config.selectorAgent) = some agent ∧
        agent.canOrchestrateWorkflows = true) ∧
      ∀ entry ∈ byId config.workflows,
        entry.1 ∉ mappedIds (byId config.workflows) template.workflows →
          WorkflowFits (fun id => Known config.agents id ∨ Known template.agents id) entry.2 := by
  obtain ⟨hby, hkept, hcases, -, hdefault, hsome⟩ :=
    mergeWorkflows_spec template.defaultWorkflow template.workflows (byId config.workflows) none
      (byId_byId _)
  obtain ⟨newDefault, hnew⟩ := Option.isSome_iff_exists.mp (hsome (.inr htemplate.defaultWorkflow))
  have hknown : ∀ id, Known (template.agents.foldl SetupDraft.mergeAgents config.agents) id ↔
      Known config.agents id ∨ Known template.agents id := by
    intro id
    unfold Known
    rw [lookup_foldl_mergeAgents, Option.isSome_or, Bool.or_eq_true]
  have hids : (SetupDraft.mergeWorkflows template.defaultWorkflow
      (byId config.workflows, none) template.workflows).1.map (fun entry => entry.2.id) =
      (SetupDraft.mergeWorkflows template.defaultWorkflow
        (byId config.workflows, none) template.workflows).1.map (·.1) :=
    List.map_congr_left hby.ids
  have hmem := hdefault nofun newDefault hnew
  rw [setupInvariants_iff]
  unfold SetupDraft.mergeTemplate workflowIds CanSelect
  simp only [lookup_foldl_mergeAgents, funext fun id => propext (hknown id), List.map_map]
  refine and_congr_right fun _ => ?_
  constructor
  · rintro ⟨-, -, hworkflows⟩ entry hentry hnot
    exact hworkflows entry.2 (List.mem_map_of_mem (hkept entry hentry hnot))
  · intro hstay
    refine ⟨?_, ?_, fun workflow hworkflow => ?_⟩
    · exact hids ▸ hby.sorted.nodup
    · show (SetupDraft.mergeWorkflows _ (byId config.workflows, none) _).2.getD _ ∈ _
      rw [hnew]
      exact hids ▸ hmem
    · obtain ⟨entry, hentry, rfl⟩ := List.mem_map.mp hworkflow
      rcases hcases entry hentry with ⟨other, hother, heq⟩ | ⟨hin, hnot⟩
      · have hfits := workflowInvariants_iff.mp (htemplate.workflows other hother)
        rw [heq]
        exact hfits.mono fun id hid => .inr hid
      · exact hstay entry hin hnot

/-! ## Each edit with a check at its end -/

def ForConfig (draft : SetupDraft) (orchestratorId : String) (holds : OrchestratorConfig → Prop) :
    Prop :=
  ∀ config, draft.orchestratorConfigs.lookup orchestratorId = some config → holds config

theorem any_id_iff :
    config.workflows.any (·.id == workflowId) = true ↔ workflowId ∈ workflowIds config := by
  simp [workflowIds]

theorem workflowStep_contract (workflowId stepId agentId : String) :
    StepContract (workflowStep workflowId stepId .agentTask agentId) :=
  ⟨SetupDraft.defaultContract_summary .agentTask, SetupDraft.defaultContract_mapped .agentTask,
    (by decide : defaultStepOutputPriority .agentTask ≠ []),
    (by decide : (keyNames (defaultStepOutputPriority .agentTask)).Nodup),
    (by decide : ∀ key ∈ defaultStepOutputPriority .agentTask,
      key.name ∈ keyNames (defaultStepOutputContract .agentTask))⟩

theorem stepsFit_append_iff {known : String → Prop} {steps : List WorkflowStepConfig}
    {step : WorkflowStepConfig} (hfresh : step.id ∉ steps.map (·.id)) (hagent : known step.agent)
    (hcontract : StepContract step) : StepsFit known (steps ++ [step]) ↔ StepsFit known steps := by
  constructor
  · intro h
    have hids := h.stepIds
    rw [List.map_append] at hids
    exact ⟨(List.nodup_append.mp hids).1,
      fun other hother => h.agents other (List.mem_append_left _ hother),
      fun other hother => h.contracts other (List.mem_append_left _ hother)⟩
  · intro h
    refine ⟨?_, fun other hother => ?_, fun other hother => ?_⟩
    · rw [List.map_append, List.map_singleton]
      refine List.nodup_append.mpr ⟨h.stepIds, List.nodup_singleton _, ?_⟩
      intro id hid other hother heq
      rw [List.mem_singleton.mp hother] at heq
      exact hfresh (heq ▸ hid)
    · rcases List.mem_append.mp hother with hother | hother
      · exact h.agents other hother
      · rw [List.mem_singleton.mp hother]
        exact hagent
    · rcases List.mem_append.mp hother with hother | hother
      · exact h.contracts other hother
      · rw [List.mem_singleton.mp hother]
        exact hcontract

theorem setupInvariants_append_iff {config : OrchestratorConfig} {workflow : WorkflowConfig}
    (hfresh : workflow.id ∉ workflowIds config)
    (hfits : CanSelect config.agents config.selectorAgent →
      WorkflowFits (Known config.agents) workflow) :
    SetupInvariants { config with workflows := config.workflows ++ [workflow] } ↔
      CanDefaultTo config ∧ (config.defaultWorkflow ∈ workflowIds config ∨
        config.defaultWorkflow = workflow.id) := by
  have hids : workflowIds { config with workflows := config.workflows ++ [workflow] } =
      workflowIds config ++ [workflow.id] := List.map_append
  rw [setupInvariants_iff, hids, List.mem_append, List.mem_singleton]
  constructor
  · rintro ⟨hselector, hnodup, hdefault, hworkflows⟩
    refine ⟨⟨hselector, (List.nodup_append.mp hnodup).1, fun other hother => ?_⟩, hdefault⟩
    exact hworkflows other (List.mem_append_left _ hother)
  · rintro ⟨h, hdefault⟩
    refine ⟨h.selector, List.nodup_append.mpr ⟨h.workflowIds, List.nodup_singleton _, ?_⟩,
      hdefault, ?_⟩
    · intro id hid other hother heq
      rw [List.mem_singleton.mp hother] at heq
      exact hfresh (heq ▸ hid)
    · intro other hother
      rcases List.mem_append.mp hother with hother | hother
      · exact h.workflows other hother
      · rw [List.mem_singleton.mp hother]
        exact hfits h.selector

/-- Among the workflows that remain, the first becomes the default if the default one goes. -/
theorem setupInvariants_remaining_iff {remaining : List WorkflowConfig} :
    SetupInvariants { config with
      workflows := remaining
      defaultWorkflow :=
        if config.defaultWorkflow = workflowId then
          (remaining.head?.map (·.id)).getD config.defaultWorkflow
        else config.defaultWorkflow } ↔ CanLoseWorkflow config remaining workflowId := by
  have hdefault : (if config.defaultWorkflow = workflowId then
      (remaining.head?.map (·.id)).getD config.defaultWorkflow
      else config.defaultWorkflow) ∈ remaining.map (·.id) ↔
      remaining ≠ [] ∧ (config.defaultWorkflow = workflowId ∨
        config.defaultWorkflow ∈ remaining.map (·.id)) := by
    by_cases heq : config.defaultWorkflow = workflowId
    · rw [if_pos heq, and_iff_left (.inl heq)]
      cases remaining with
      | nil => simp
      | cons first rest => simp
    · rw [if_neg heq, or_iff_right heq]
      constructor
      · exact fun hmem => ⟨fun hnil => by simp [hnil] at hmem, hmem⟩
      · exact And.right
  rw [setupInvariants_iff]
  constructor
  · rintro ⟨hselector, hnodup, hmem, hworkflows⟩
    obtain ⟨hnonempty, hdefault⟩ := hdefault.mp hmem
    exact ⟨hselector, hnodup, hnonempty, hdefault, hworkflows⟩
  · exact fun h => ⟨h.selector, h.workflowIds, hdefault.mpr ⟨h.nonempty, h.defaultWorkflow⟩,
      h.workflows⟩

theorem setupInvariants_renamed_iff {currentId nextId : String}
    (hworkflow : config.workflows.find? (·.id == currentId) = some workflow)
    (hfresh : nextId ∉ (otherWorkflows config currentId).map (·.id)) :
    SetupInvariants { withWorkflow config currentId { workflow with id := nextId } with
      defaultWorkflow :=
        if config.defaultWorkflow = currentId then nextId else config.defaultWorkflow } ↔
      CanRename config currentId nextId := by
  have hid : workflow.id = currentId := by simpa using List.find?_some hworkflow
  have hbefore := perm_cons_eraseP hworkflow
  have hafter := @replaceFirst_perm _ _ { workflow with id := nextId } _ _ hworkflow
  have hids : ∀ id, id ∈ workflowIds config ↔
      id = currentId ∨ id ∈ (otherWorkflows config currentId).map (·.id) := by
    intro id
    have hmem := (hbefore.map (·.id)).mem_iff (a := id)
    rwa [List.map_cons, List.mem_cons, hid] at hmem
  have hdefault : (if config.defaultWorkflow = currentId then nextId else config.defaultWorkflow) ∈
      nextId :: (otherWorkflows config currentId).map (·.id) ↔
      config.defaultWorkflow ∈ workflowIds config ∨ config.defaultWorkflow = nextId := by
    rw [hids, List.mem_cons]
    by_cases heq : config.defaultWorkflow = currentId
    · simp [heq]
    · rw [if_neg heq, or_iff_right heq, or_comm]
  have hworkflows : (∀ other ∈ { workflow with id := nextId } :: otherWorkflows config currentId,
      WorkflowFits (Known config.agents) other) ↔
      ∀ other ∈ config.workflows, WorkflowFits (Known config.agents) other := by
    simp only [hbefore.mem_iff, List.forall_mem_cons]
    exact Iff.rfl
  have hnodup : (nextId :: (otherWorkflows config currentId).map (·.id)).Nodup ↔
      ((otherWorkflows config currentId).map (·.id)).Nodup := by
    rw [List.nodup_cons, and_iff_right hfresh]
  rw [setupInvariants_iff]
  unfold workflowIds withWorkflow
  simp only [(hafter.map (·.id)).nodup_iff, (hafter.map (·.id)).mem_iff, hafter.mem_iff]
  constructor
  · rintro ⟨hselector, hids', hdefault', hworkflows'⟩
    exact ⟨hselector, hnodup.mp hids', hdefault.mp hdefault', hworkflows.mp hworkflows'⟩
  · exact fun h => ⟨h.selector, hnodup.mpr h.otherIds, hdefault.mpr h.defaultWorkflow,
      hworkflows.mpr h.workflows⟩

theorem setupInvariants_withSteps_iff {steps : List WorkflowStepConfig}
    (hworkflow : config.workflows.find? (·.id == workflowId) = some workflow) :
    SetupInvariants (withWorkflow config workflowId { workflow with steps := steps }) ↔
      ValidBeside config workflowId ∧ steps ≠ [] ∧ StepsFit (Known config.agents) steps := by
  have hafter := @replaceFirst_perm _ _ { workflow with steps := steps } _ _ hworkflow
  have hids : workflowIds (withWorkflow config workflowId { workflow with steps := steps }) =
      workflowIds config := by
    refine map_replaceFirst (·.id) hworkflow ?_
    rfl
  rw [setupInvariants_iff, hids]
  unfold withWorkflow
  simp only [hafter.mem_iff, List.forall_mem_cons]
  constructor
  · rintro ⟨hselector, hnodup, hdefault, hsteps, hothers⟩
    exact ⟨⟨hselector, hnodup, hdefault, hothers⟩, hsteps⟩
  · rintro ⟨h, hsteps⟩
    exact ⟨h.selector, h.workflowIds, h.defaultWorkflow, hsteps, h.others⟩

theorem setupInvariants_insertAgent_iff {agent : AgentConfig}
    (hfresh : ¬ Known config.agents agentId) (hcannot : agent.canOrchestrateWorkflows = false) :
    SetupInvariants { config with agents := OrderedMap.insert agentId agent config.agents } ↔
      CanSelect config.agents config.selectorAgent ∧
        ValidWith config fun id => id = agentId ∨ Known config.agents id := by
  have hknown : ∀ id, Known (OrderedMap.insert agentId agent config.agents) id ↔
      id = agentId ∨ Known config.agents id := by
    intro id
    unfold Known
    by_cases heq : id = agentId
    · rw [heq, OrderedMap.lookup_insert_self]
      simp
    · rw [OrderedMap.lookup_insert_of_ne heq, or_iff_right heq]
  have hselect : CanSelect (OrderedMap.insert agentId agent config.agents) config.selectorAgent ↔
      CanSelect config.agents config.selectorAgent := by
    unfold CanSelect
    by_cases heq : config.selectorAgent = agentId
    · rw [heq, OrderedMap.lookup_insert_self]
      refine iff_of_false ?_ fun hselect => hfresh (CanSelect.known hselect)
      rintro ⟨_, ⟨⟩, hcan⟩
      rw [hcannot] at hcan
      cases hcan
    · rw [OrderedMap.lookup_insert_of_ne heq]
  rw [setupInvariants_iff, hselect]
  refine and_congr_right fun _ => ?_
  simp only [funext fun id => propext (hknown id)]
  exact ⟨fun ⟨hids, hdefault, hworkflows⟩ => ⟨hids, hdefault, hworkflows⟩,
    fun h => ⟨h.workflowIds, h.defaultWorkflow, h.workflows⟩⟩

theorem setupInvariants_removeAgent_iff :
    SetupInvariants { config with
      agents := OrderedMap.remove agentId config.agents
      selectorAgent :=
        if config.selectorAgent = agentId then
          ((OrderedMap.remove agentId config.agents).head?.map (·.1)).getD config.selectorAgent
        else config.selectorAgent } ↔
      (config.selectorAgent ≠ agentId → CanSelect config.agents config.selectorAgent) ∧
        (config.selectorAgent = agentId →
          ∃ entry, config.agents.find? (fun entry => entry.1 != agentId) = some entry ∧
            entry.2.canOrchestrateWorkflows = true) ∧
        ValidWith config fun id => id ≠ agentId ∧ Known config.agents id := by
  have hknown : ∀ id, Known (OrderedMap.remove agentId config.agents) id ↔
      id ≠ agentId ∧ Known config.agents id := by
    intro id
    unfold Known
    by_cases heq : id = agentId
    · rw [heq, OrderedMap.lookup_remove_self]
      simp
    · rw [OrderedMap.lookup_remove_of_ne heq, and_iff_right heq]
  have hfirst : (OrderedMap.remove agentId config.agents).head? =
      config.agents.find? fun entry => entry.1 != agentId := by
    unfold OrderedMap.remove
    rw [List.head?_filter]
    congr 1
    funext entry
    by_cases heq : entry.1 = agentId
    · simp [heq]
    · simp [heq]
  have hselect : CanSelect (OrderedMap.remove agentId config.agents)
      (if config.selectorAgent = agentId then
        ((OrderedMap.remove agentId config.agents).head?.map (·.1)).getD config.selectorAgent
      else config.selectorAgent) ↔
      (config.selectorAgent ≠ agentId → CanSelect config.agents config.selectorAgent) ∧
        (config.selectorAgent = agentId →
          ∃ entry, config.agents.find? (fun entry => entry.1 != agentId) = some entry ∧
            entry.2.canOrchestrateWorkflows = true) := by
    by_cases heq : config.selectorAgent = agentId
    · simp only [heq, if_true, ne_eq, not_true_eq_false, false_imp_iff, true_and, true_imp_iff]
      rw [← hfirst]
      unfold CanSelect
      cases hothers : OrderedMap.remove agentId config.agents with
      | nil => simp
      | cons entry rest =>
        obtain ⟨first, agent⟩ := entry
        simp
    · rw [if_neg heq]
      simp only [heq, ne_eq, not_false_eq_true, true_imp_iff, false_imp_iff, and_true]
      unfold CanSelect
      rw [OrderedMap.lookup_remove_of_ne heq]
  rw [setupInvariants_iff, hselect, and_assoc]
  refine and_congr_right fun _ => and_congr_right fun _ => ?_
  simp only [funext fun id => propext (hknown id)]
  exact ⟨fun ⟨hids, hdefault, hworkflows⟩ => ⟨hids, hdefault, hworkflows⟩,
    fun h => ⟨h.workflowIds, h.defaultWorkflow, h.workflows⟩⟩

/-- What was changed is not what was there. -/
theorem ok_changed_iff {config changed : OrchestratorConfig} {safe : Prop} (hne : changed ≠ config)
    (h : SetupInvariants changed ↔ safe) :
    (∀ config', (.ok changed : Except DraftError OrchestratorConfig) = .ok config' →
      config' = config ∨ SetupInvariants config') ↔ safe := by
  rw [← h]
  constructor
  · exact fun hkeeps => (hkeeps changed rfl).resolve_left hne
  · rintro hsetup _ ⟨⟩
    exact .inr hsetup

section Edits

variable {draft : SetupDraft} (hkeys : (draft.orchestratorConfigs.map (·.1)).Nodup)
include hkeys

/-- It is enough to look at what one configuration becomes. -/
theorem refusalKeeps_iff_forConfig {missing orchestratorId : String}
    {f : OrchestratorConfig → Except DraftError OrchestratorConfig}
    {safe : OrchestratorConfig → Prop}
    (h : ∀ config, (∀ config', f config = .ok config' → config' = config ∨
      SetupInvariants config') ↔ safe config) :
    RefusalKeeps (editAndValidate missing orchestratorId f) draft ↔
      ForConfig draft orchestratorId safe := by
  rw [refusalKeeps_editAndValidate_iff hkeys]
  constructor
  · exact fun hkeeps config hlookup => (h config).mp fun config' => hkeeps config config' hlookup
  · exact fun hsafe config config' hlookup => (h config).mpr (hsafe config hlookup) config'

variable {o workflowId : String}

theorem setOrchestratorDefaultWorkflow_refusal :
    RefusalKeeps (SetupDraft.setOrchestratorDefaultWorkflow o workflowId) draft ↔
      (validateIdentifier "workflow id" workflowId = .ok () →
        ForConfig draft o (SafeDefault workflowId)) := by
  unfold SetupDraft.setOrchestratorDefaultWorkflow
  rw [refusalKeeps_guard_iff]
  refine imp_congr_right fun _ => refusalKeeps_iff_forConfig hkeys fun config => ?_
  unfold SafeDefault
  rw [← any_id_iff]
  by_cases hmem : config.workflows.any (·.id == workflowId) = true
  · rw [if_pos hmem]
    simp only [imp_iff_right hmem, Except.ok.injEq, forall_eq']
    have hids := any_id_iff.mp hmem
    refine or_congr ?_ ?_
    · constructor
      · exact fun h => (congrArg OrchestratorConfig.defaultWorkflow h).symm
      · rintro rfl
        rfl
    · rw [setupInvariants_iff]
      exact ⟨fun ⟨hselector, hnodup, _, hworkflows⟩ => ⟨hselector, hnodup, hworkflows⟩,
        fun ⟨hselector, hnodup, hworkflows⟩ => ⟨hselector, hnodup, hids, hworkflows⟩⟩
  · rw [if_neg hmem]
    exact iff_of_true nofun fun h => absurd h hmem

theorem addWorkflow_refusal :
    RefusalKeeps (SetupDraft.addWorkflow o workflowId) draft ↔
      (validateIdentifier "workflow id" workflowId = .ok () →
        (∃ tag, SetupDraft.parseWorkflowTag workflowId = .ok tag) →
          ForConfig draft o (SafeAddWorkflow workflowId)) := by
  unfold SetupDraft.addWorkflow
  rw [refusalKeeps_guard_iff]
  refine imp_congr_right fun _ => ?_
  cases htag : SetupDraft.parseWorkflowTag workflowId with
  | error err =>
    refine iff_of_true ?_ fun h => ?_
    · rw [refusalKeeps_editAndValidate_iff hkeys]
      intro config config' _ hok
      split at hok
      · cases hok
      · cases hok
    · obtain ⟨_, h⟩ := h
      cases h
  | ok tag =>
    have hparsed : ∃ tag', (Except.ok tag : Except DraftError String) = .ok tag' := ⟨tag, rfl⟩
    simp only [hparsed, true_imp_iff]
    refine refusalKeeps_iff_forConfig hkeys fun config => ?_
    unfold SafeAddWorkflow
    rw [← any_id_iff]
    by_cases hmem : config.workflows.any (·.id == workflowId) = true
    · rw [if_pos hmem]
      exact iff_of_true nofun fun h => absurd hmem h
    · rw [if_neg hmem, imp_iff_right hmem]
      have hnew : CanSelect config.agents config.selectorAgent →
          StepsFit (Known config.agents)
            [workflowStep workflowId "step_1" .agentTask config.selectorAgent] := by
        intro hselector
        refine ⟨List.nodup_singleton _, fun step hstep => ?_, fun step hstep => ?_⟩
        · rw [List.mem_singleton.mp hstep]
          exact hselector.known
        · rw [List.mem_singleton.mp hstep]
          exact workflowStep_contract _ _ _
      refine ok_changed_iff (fun heq => ?_) (setupInvariants_append_iff
        (fun h => hmem (any_id_iff.mpr h)) fun hselector => ⟨List.cons_ne_nil _ _, hnew hselector⟩)
      exact List.cons_ne_nil _ _
        (List.append_right_eq_self.mp (congrArg OrchestratorConfig.workflows heq))

theorem removeWorkflow_refusal :
    RefusalKeeps (SetupDraft.removeWorkflow o workflowId) draft ↔
      ForConfig draft o (SafeRemoveWorkflow workflowId) := by
  refine refusalKeeps_iff_forConfig hkeys fun config => ?_
  unfold SafeRemoveWorkflow
  rw [← any_id_iff]
  by_cases hmem : config.workflows.any (·.id == workflowId) = true
  · rw [hmem, imp_iff_right rfl]
    by_cases hlength : config.workflows.length ≤ 1
    · simp only [hlength, if_true, Bool.not_true, Bool.false_eq_true, if_false]
      exact iff_of_true nofun fun h => absurd h (not_lt.mpr hlength)
    · rw [imp_iff_right (not_le.mp hlength)]
      simp only [hlength, Bool.not_true, Bool.false_eq_true, if_false]
      refine ok_changed_iff (fun heq => ?_) setupInvariants_remaining_iff
      obtain ⟨workflow, hworkflow, hid⟩ := List.any_eq_true.mp hmem
      have hall := List.filter_eq_self.mp (congrArg OrchestratorConfig.workflows heq)
      have hkept := hall workflow hworkflow
      simp only [beq_iff_eq] at hid
      simp [hid] at hkept
  · simp only [hmem, Bool.not_false, if_true]
    exact iff_of_true nofun nofun

theorem renameWorkflow_refusal {o currentId nextId : String} :
    RefusalKeeps (SetupDraft.renameWorkflow o currentId nextId) draft ↔
      (validateIdentifier "workflow id" nextId = .ok () →
        ForConfig draft o (SafeRenameWorkflow currentId nextId)) := by
  unfold SetupDraft.renameWorkflow
  rw [refusalKeeps_guard_iff]
  refine imp_congr_right fun _ => refusalKeeps_iff_forConfig hkeys fun config => ?_
  unfold SafeRenameWorkflow
  have htaken : (config.workflows.any fun workflow =>
      workflow.id == nextId && workflow.id != currentId) = true ↔
      ¬ ∀ workflow ∈ config.workflows, workflow.id = nextId → workflow.id = currentId := by
    simp
  by_cases hfresh : ∀ workflow ∈ config.workflows, workflow.id = nextId → workflow.id = currentId
  · rw [if_neg (fun h => htaken.mp h hfresh), imp_iff_right hfresh]
    unfold editWorkflowIn
    cases hworkflow : config.workflows.find? (·.id == currentId) with
    | none =>
      refine iff_of_true nofun fun hmem => ?_
      obtain ⟨workflow, hin, hid⟩ := List.mem_map.mp hmem
      exact absurd (List.find?_eq_none.mp hworkflow workflow hin) (by simp [hid])
    | some workflow =>
      have hid : workflow.id = currentId := by simpa using List.find?_some hworkflow
      have hmem : currentId ∈ workflowIds config := by
        rw [← hid]
        exact List.mem_map_of_mem (List.mem_of_find?_eq_some hworkflow)
      rw [imp_iff_right hmem]
      by_cases hsame : nextId = currentId
      · refine iff_of_true (fun config' hok => .inl ?_) (.inl hsame)
        have hworkflows : replaceFirst (·.id == currentId) { workflow with id := nextId }
            config.workflows = config.workflows := by
          refine (replaceFirst_eq_self_iff hworkflow).mpr ?_
          rw [hsame, ← hid]
        have hdefault : (if config.defaultWorkflow = currentId then nextId
            else config.defaultWorkflow) = config.defaultWorkflow := by
          split
          · next heq => rw [hsame, heq]
          · rfl
        rw [← Except.ok.inj hok]
        simp only [withWorkflow, hworkflows, hdefault]
      · rw [or_iff_right hsame]
        refine ok_changed_iff (fun heq => ?_) (setupInvariants_renamed_iff hworkflow ?_)
        · have hfirst := (replaceFirst_eq_self_iff hworkflow).mp
            (congrArg OrchestratorConfig.workflows heq)
          exact hsame ((congrArg WorkflowConfig.id hfirst).trans hid)
        · intro hnext
          obtain ⟨other, hother, hnext⟩ := List.mem_map.mp hnext
          exact hsame (hnext.symm.trans (hfresh other (List.mem_of_mem_eraseP hother) hnext))
  · rw [if_pos (htaken.mpr hfresh)]
    exact iff_of_true nofun fun _ h => absurd h hfresh

theorem addStep_refusal {o workflowId stepId : String} :
    RefusalKeeps (SetupDraft.addStep o workflowId stepId) draft ↔
      (validateIdentifier "step id" stepId = .ok () →
        ForConfig draft o (SafeAddStep workflowId stepId)) := by
  unfold SetupDraft.addStep
  rw [refusalKeeps_guard_iff]
  refine imp_congr_right fun _ => refusalKeeps_iff_forConfig hkeys fun config => ?_
  unfold SafeAddStep editWorkflowIn
  cases hworkflow : config.workflows.find? (·.id == workflowId) with
  | none => exact iff_of_true nofun nofun
  | some workflow =>
    simp only [Option.some.injEq, forall_eq']
    have hmem : workflow.steps.any (·.id == stepId) = true ↔
        stepId ∈ workflow.steps.map (·.id) := by simp
    by_cases htaken : stepId ∈ workflow.steps.map (·.id)
    · rw [if_pos (hmem.mpr htaken)]
      exact iff_of_true nofun fun h => absurd htaken h
    · rw [if_neg (fun h => htaken (hmem.mp h)), imp_iff_right htaken]
      refine ok_changed_iff (fun heq => ?_)
        ((setupInvariants_withSteps_iff hworkflow).trans ?_)
      · have hfirst := (replaceFirst_eq_self_iff hworkflow).mp
          (congrArg OrchestratorConfig.workflows heq)
        exact List.cons_ne_nil _ _
          (List.append_right_eq_self.mp (congrArg WorkflowConfig.steps hfirst))
      · refine and_congr_right fun hbeside => ?_
        have hnonempty : workflow.steps ++
            [workflowStep workflowId stepId .agentTask config.selectorAgent] ≠ [] := by simp
        rw [and_iff_right hnonempty]
        exact stepsFit_append_iff htaken hbeside.selector.known (workflowStep_contract _ _ _)

theorem removeStep_refusal {o workflowId stepId : String} :
    RefusalKeeps (SetupDraft.removeStep o workflowId stepId) draft ↔
      ForConfig draft o (SafeRemoveStep workflowId stepId) := by
  refine refusalKeeps_iff_forConfig hkeys fun config => ?_
  unfold SafeRemoveStep editWorkflowIn
  cases hworkflow : config.workflows.find? (·.id == workflowId) with
  | none => exact iff_of_true nofun nofun
  | some workflow =>
    simp only [Option.some.injEq, forall_eq']
    have hmem : workflow.steps.any (·.id == stepId) = true ↔
        stepId ∈ workflow.steps.map (·.id) := by simp
    by_cases hthere : stepId ∈ workflow.steps.map (·.id)
    · rw [hmem.mpr hthere, imp_iff_right hthere]
      by_cases hlength : workflow.steps.length ≤ 1
      · simp only [hlength, if_true, Bool.not_true, Bool.false_eq_true, if_false]
        exact iff_of_true nofun fun h => absurd h (not_lt.mpr hlength)
      · rw [imp_iff_right (not_le.mp hlength)]
        simp only [hlength, Bool.not_true, Bool.false_eq_true, if_false]
        refine ok_changed_iff (fun heq => ?_) (setupInvariants_withSteps_iff hworkflow)
        have hfirst := (replaceFirst_eq_self_iff hworkflow).mp
          (congrArg OrchestratorConfig.workflows heq)
        obtain ⟨step, hstep, hid⟩ := List.mem_map.mp hthere
        have hkept := List.filter_eq_self.mp (congrArg WorkflowConfig.steps hfirst) step hstep
        simp [hid] at hkept
    · simp only [mt hmem.mp hthere, Bool.not_false, if_true]
      exact iff_of_true nofun fun h => absurd h hthere

theorem addAgent_refusal {o agentId : String} :
    RefusalKeeps (SetupDraft.addAgent o agentId) draft ↔
      (validateIdentifier "agent id" agentId = .ok () →
        (∃ provider, parseProvider draft.provider = .ok provider) →
          ForConfig draft o (SafeAddAgent agentId)) := by
  unfold SetupDraft.addAgent
  rw [refusalKeeps_guard_iff]
  refine imp_congr_right fun _ => ?_
  rw [refusalKeeps_get_iff]
  cases hprovider : parseProvider draft.provider with
  | error err =>
    refine iff_of_true ?_ fun h => ?_
    · rw [refusalKeeps_editAndValidate_iff hkeys]
      intro config config' _ hok
      split at hok
      · cases hok
      · cases hok
    · obtain ⟨_, h⟩ := h
      cases h
  | ok provider =>
    have hparsed : ∃ provider', (Except.ok provider : Except String ConfigProviderKind) =
        .ok provider' := ⟨provider, rfl⟩
    rw [imp_iff_right hparsed]
    refine refusalKeeps_iff_forConfig hkeys fun config => ?_
    unfold SafeAddAgent
    by_cases hknown : (config.agents.lookup agentId).isSome = true
    · rw [if_pos hknown]
      exact iff_of_true nofun fun h => absurd hknown h
    · rw [if_neg hknown, imp_iff_right (show ¬ Known config.agents agentId from hknown)]
      refine ok_changed_iff (fun heq => ?_) (setupInvariants_insertAgent_iff hknown rfl)
      have hagents := congrArg OrchestratorConfig.agents heq
      rw [← hagents, OrderedMap.lookup_insert_self] at hknown
      exact hknown rfl

theorem removeAgent_refusal {o agentId : String} :
    RefusalKeeps (SetupDraft.removeAgent o agentId) draft ↔
      ForConfig draft o (SafeRemoveAgent agentId) := by
  refine refusalKeeps_iff_forConfig hkeys fun config => ?_
  unfold SafeRemoveAgent
  cases hlookup : config.agents.lookup agentId with
  | none =>
    refine iff_of_true nofun fun hknown => ?_
    rw [Known, hlookup] at hknown
    cases hknown
  | some agent =>
    have hknown : Known config.agents agentId := by
      rw [Known, hlookup]
      rfl
    rw [imp_iff_right hknown]
    by_cases hlength : config.agents.length ≤ 1
    · simp only [hlength, if_true, Option.isNone_some, Bool.false_eq_true, if_false]
      exact iff_of_true nofun fun h => absurd h (not_lt.mpr hlength)
    · rw [imp_iff_right (not_le.mp hlength)]
      simp only [hlength, Option.isNone_some, Bool.false_eq_true, if_false]
      refine ok_changed_iff (fun heq => ?_) setupInvariants_removeAgent_iff
      have hagents := congrArg OrchestratorConfig.agents heq
      have hgone := OrderedMap.lookup_remove_self agentId config.agents
      rw [show OrderedMap.remove agentId config.agents = config.agents from hagents,
        hlookup] at hgone
      cases hgone

theorem applyWorkflowTemplate_refusal {o : String} {template : WorkflowTemplate} :
    RefusalKeeps (SetupDraft.applyWorkflowTemplateToOrchestrator o template) draft ↔
      ∀ initial, initialOrchestratorConfig o (draft.providerModelForOrchestrator o).1
          (draft.providerModelForOrchestrator o).2 template = .ok initial →
        ForConfig draft o (SafeApplyTemplate initial) := by
  unfold SetupDraft.applyWorkflowTemplateToOrchestrator
  rw [refusalKeeps_get_iff, refusalKeeps_check_iff]
  refine forall_congr' fun initial => imp_congr_right fun hinitial => ?_
  refine refusalKeeps_iff_forConfig hkeys fun config => ?_
  unfold SafeApplyTemplate
  rw [← setupInvariants_mergeTemplate_iff (SetupDraft.initialOrchestratorConfig_setup hinitial)]
  constructor
  · exact fun h => h _ rfl
  · rintro h _ ⟨⟩
    exact h

theorem setLimit_refusal {o : String} {field : OrchestrationLimitField} {value : Option ℕ} :
    RefusalKeeps (SetupDraft.setOrchestratorWorkflowOrchestrationLimit o field value) draft ↔
      (field = .maxTotalIterations → ∀ parsed, value = some parsed → Text.u32Max < parsed →
        ForConfig draft o fun config => config.workflowOrchestration.isSome = true) := by
  cases value with
  | none => exact iff_of_true refusalKeeps_editConfig nofun
  | some parsed =>
    constructor
    · rintro h rfl _ ⟨⟩ hbig config hlookup
      have hpositive : ¬ parsed < 1 := not_lt.mpr (by omega)
      have hrefused := h "max_total_iterations exceeds u32 range"
        (draft.withConfig o { config with
          workflowOrchestration := some (config.workflowOrchestration.getD {}) }) (by
        refine (bind_of_ok (editConfig_of_ok hlookup (if_neg hpositive))).trans ?_
        rw [if_pos ⟨rfl, hbig⟩]
        rfl)
      rw [← (withConfig_eq_self_iff hkeys hlookup).mp hrefused]
      rfl
    · intro hsafe text draft' hedit
      rcases of_bind_eq_error hedit with hsection | ⟨_, d, hsection, hedit⟩
      · exact refusalKeeps_editConfig text draft' hsection
      obtain ⟨config, config', hlookup, hok, rfl⟩ := SetupDraft.editConfig_eq_ok hsection
      split at hok
      · cases hok
      cases hok
      rcases of_bind_eq_error hedit with hrange | ⟨_, d, hrange, hassign⟩
      · by_cases hbig : field = .maxTotalIterations ∧ Text.u32Max < parsed
        · rw [if_pos hbig] at hrange
          cases hrange
          obtain ⟨held, hheld⟩ :=
            Option.isSome_iff_exists.mp (hsafe hbig.1 parsed rfl hbig.2 config hlookup)
          refine (withConfig_eq_self_iff hkeys hlookup).mpr ?_
          rw [hheld, Option.getD_some, ← hheld]
        · rw [if_neg hbig] at hrange
          cases hrange
      · obtain ⟨-, rfl⟩ := ofResult_eq_ok.mp hrange
        have hlookup' := @OrderedMap.lookup_set_self _ o { config with
          workflowOrchestration := some (config.workflowOrchestration.getD {}) } _ _ hlookup
        unfold editConfig updateWith SetupDraft.withConfig at hassign
        simp only [hlookup'] at hassign
        cases hassign

end Edits

/-! ## Every edit -/

/-- What has to hold for a refusal of the edit to change nothing; most edits need nothing. -/
def RefusalSafe (draft : SetupDraft) : DraftOp → Prop
  | .setOrchestratorDefaultWorkflow o workflowId =>
    validateIdentifier "workflow id" workflowId = .ok () →
      ForConfig draft o (SafeDefault workflowId)
  | .setOrchestratorWorkflowOrchestrationLimit o field value =>
    field = .maxTotalIterations → ∀ parsed, value = some parsed → Text.u32Max < parsed →
      ForConfig draft o fun config => config.workflowOrchestration.isSome = true
  | .applyWorkflowTemplateToOrchestrator o template =>
    ∀ initial, initialOrchestratorConfig o (draft.providerModelForOrchestrator o).1
        (draft.providerModelForOrchestrator o).2 template = .ok initial →
      ForConfig draft o (SafeApplyTemplate initial)
  | .addWorkflow o workflowId =>
    validateIdentifier "workflow id" workflowId = .ok () →
      (∃ tag, SetupDraft.parseWorkflowTag workflowId = .ok tag) →
        ForConfig draft o (SafeAddWorkflow workflowId)
  | .removeWorkflow o workflowId => ForConfig draft o (SafeRemoveWorkflow workflowId)
  | .renameWorkflow o currentId nextId =>
    validateIdentifier "workflow id" nextId = .ok () →
      ForConfig draft o (SafeRenameWorkflow currentId nextId)
  | .addStep o workflowId stepId =>
    validateIdentifier "step id" stepId = .ok () →
      ForConfig draft o (SafeAddStep workflowId stepId)
  | .removeStep o workflowId stepId => ForConfig draft o (SafeRemoveStep workflowId stepId)
  | .addAgent o agentId =>
    validateIdentifier "agent id" agentId = .ok () →
      (∃ provider, parseProvider draft.provider = .ok provider) →
        ForConfig draft o (SafeAddAgent agentId)
  | .removeAgent o agentId => ForConfig draft o (SafeRemoveAgent agentId)
  | _ => True

theorem refusal_keeps_iff {draft : SetupDraft}
    (hkeys : (draft.orchestratorConfigs.map (·.1)).Nodup) (op : DraftOp) :
    RefusalKeeps (SetupDraft.edit op) draft ↔ RefusalSafe draft op := by
  have hguarded : ∀ {check : Except DraftError Unit} {rest : Edit},
      (∀ d, RefusalKeeps rest d) → RefusalKeeps (ofResult check >>= fun _ => rest) draft :=
    fun hrest => refusalKeeps_guard_iff.mpr fun _ => hrest draft
  cases op with
  | setOrchestratorDefaultWorkflow o workflowId =>
    exact setOrchestratorDefaultWorkflow_refusal hkeys
  | setOrchestratorWorkflowOrchestrationLimit o field value => exact setLimit_refusal hkeys
  | applyWorkflowTemplateToOrchestrator o template => exact applyWorkflowTemplate_refusal hkeys
  | addWorkflow o workflowId => exact addWorkflow_refusal hkeys
  | removeWorkflow o workflowId => exact removeWorkflow_refusal hkeys
  | renameWorkflow o currentId nextId => exact renameWorkflow_refusal hkeys
  | addStep o workflowId stepId => exact addStep_refusal hkeys
  | removeStep o workflowId stepId => exact removeStep_refusal hkeys
  | addAgent o agentId => exact addAgent_refusal hkeys
  | removeAgent o agentId => exact removeAgent_refusal hkeys
  | setOrchestratorSelectionMaxRetries o value =>
    exact iff_of_true (hguarded fun _ => refusalKeeps_editConfig) trivial
  | setOrchestratorSelectorTimeoutSeconds o value =>
    exact iff_of_true (hguarded fun _ => refusalKeeps_editConfig) trivial
  | setWorkflowVersion o workflowId version =>
    exact iff_of_true (hguarded fun _ => refusalKeeps_editConfig) trivial
  | setWorkflowInputs o workflowId inputs =>
    exact iff_of_true (refusalKeeps_check_iff.mpr fun _ _ => refusalKeeps_editConfig) trivial
  | renameStep o workflowId currentId nextId =>
    exact iff_of_true (hguarded fun _ => refusalKeeps_editConfig) trivial
  | setStepAgent o workflowId stepId agentId =>
    exact iff_of_true (hguarded fun _ => refusalKeeps_editConfig) trivial
  | setStepPrompt o workflowId stepId prompt =>
    exact iff_of_true (hguarded fun _ => refusalKeeps_editConfig) trivial
  | setStepOutputs o workflowId stepId outputs =>
    exact iff_of_true (hguarded fun _ => refusalKeeps_editConfig) trivial
  | setStepOutputFiles o workflowId stepId outputFiles =>
    exact iff_of_true (hguarded fun _ => refusalKeeps_editConfig) trivial
  | setAgentProvider o agentId provider =>
    exact iff_of_true (refusalKeeps_check_iff.mpr fun _ _ => refusalKeeps_editConfig) trivial
  | setAgentModel o agentId model =>
    exact iff_of_true (hguarded fun _ => refusalKeeps_editConfig) trivial
  | setWorkspacesPath value => exact iff_of_true nofun trivial
  | setDefaultProvider provider => exact iff_of_true nofun trivial
  | setDefaultModel model => exact iff_of_true nofun trivial
  | setDefaultWorkflowTemplate template => exact iff_of_true nofun trivial
  | _ => exact iff_of_true refusalKeeps_updateWith trivial

theorem mainDraft_keys : (SetupDraft.mainDraft.orchestratorConfigs.map (·.1)).Nodup :=
  List.nodup_singleton _

theorem refusal_keeps_mainDraft :
    RefusalKeeps (SetupDraft.edit (.removeAgent "main" "default")) SetupDraft.mainDraft ↔
      RefusalSafe SetupDraft.mainDraft (.removeAgent "main" "default") :=
  refusal_keeps_iff mainDraft_keys _

def helperDraft : SetupDraft :=
  leaves (inOrder SetupDraft.edit [.addAgent "main" "helper", .setSelectorAgent "main" "helper"])
    SetupDraft.mainDraft

def agentIds (draft : SetupDraft) : Option (List String) :=
  (draft.orchestratorConfigs.lookup "main").map fun config => config.agents.map (·.1)

/-- The agent of the only step is refused to go, and is gone. -/
theorem refused_agent_is_gone :
    helperDraft.Savable ∧ agentIds helperDraft = some ["default", "helper"] ∧
      ∃ text draft', SetupDraft.edit (.removeAgent "main" "default") helperDraft =
          .error (.message text) draft' ∧
        agentIds draft' = some ["helper"] ∧ draft' ≠ helperDraft := by
  have hids : agentIds helperDraft = some ["default", "helper"] := rfl
  refine ⟨fun entry hentry => ?_, hids, _, _, rfl, rfl, fun heq => ?_⟩
  · cases List.mem_singleton.mp hentry
    exact validateSetupInvariants_ok_iff.mp rfl
  · have hgone := congrArg agentIds heq
    rw [hids] at hgone
    exact absurd hgone (by decide)

end Direclaw.Config
