import Direclaw.Config.ConfigTexts
import Direclaw.Config.SetupDraft

/-!
# Accepted edits

What an accepted edit does: it changes a default, the registry, or one configuration. A
configuration keeps the setup invariants, but for two edits that change the outputs of a step
without its priority of the outputs, and its texts stay as saving asks for them, but for those
of a new agent, which is given the default model of the draft as it is.
-/

namespace Direclaw.Config

open Direclaw.Lib Direclaw.Orchestration

/-! ## Items that give way -/

section ReplaceFirst

variable {α β : Type} {fits : α → Bool} {item held : α}

variable {items : List α}

theorem mem_replaceFirst {other : α} (h : other ∈ replaceFirst fits item items) :
    other = item ∨ other ∈ items := by
  induction items with
  | nil => cases h
  | cons first rest ih =>
    unfold replaceFirst at h
    split at h
    · exact (List.mem_cons.mp h).imp_right (List.mem_cons_of_mem _)
    · rcases List.mem_cons.mp h with rfl | h
      · exact .inr List.mem_cons_self
      · exact (ih h).imp_right (List.mem_cons_of_mem _)

theorem mem_replaceFirst_self (h : items.find? fits = some held) :
    item ∈ replaceFirst fits item items := by
  induction items with
  | nil => cases h
  | cons first rest ih =>
    unfold replaceFirst
    by_cases hfits : fits first = true
    · rw [if_pos hfits]
      exact List.mem_cons_self
    · rw [if_neg hfits]
      rw [List.find?_cons_of_neg hfits] at h
      exact List.mem_cons_of_mem _ (ih h)

theorem map_replaceFirst (key : α → β) (h : items.find? fits = some held)
    (hkey : key item = key held) : (replaceFirst fits item items).map key = items.map key := by
  induction items with
  | nil => cases h
  | cons first rest ih =>
    unfold replaceFirst
    by_cases hfits : fits first = true
    · rw [List.find?_cons_of_pos hfits] at h
      cases h
      rw [if_pos hfits, List.map_cons, List.map_cons, hkey]
    · rw [List.find?_cons_of_neg hfits] at h
      rw [if_neg hfits, List.map_cons, List.map_cons, ih h]

theorem nodup_map_replaceFirst {key : α → β} (hnodup : (items.map key).Nodup)
    (h : items.find? fits = some held)
    (hfresh : ∀ other ∈ items, key other = key item → key other = key held) :
    ((replaceFirst fits item items).map key).Nodup := by
  induction items with
  | nil => cases h
  | cons first rest ih =>
    obtain ⟨hfirst, hrest⟩ := List.nodup_cons.mp hnodup
    unfold replaceFirst
    by_cases hfits : fits first = true
    · rw [List.find?_cons_of_pos hfits] at h
      cases h
      rw [if_pos hfits, List.map_cons, List.nodup_cons]
      refine ⟨fun hmem => ?_, hrest⟩
      obtain ⟨other, hother, hsame⟩ := List.mem_map.mp hmem
      rw [← hfresh other (List.mem_cons_of_mem _ hother) hsame] at hfirst
      exact hfirst (List.mem_map_of_mem hother)
    · rw [List.find?_cons_of_neg hfits] at h
      rw [if_neg hfits, List.map_cons, List.nodup_cons]
      refine ⟨fun hmem => ?_,
        ih hrest h fun other hother => hfresh other (List.mem_cons_of_mem _ hother)⟩
      obtain ⟨other, hother, hsame⟩ := List.mem_map.mp hmem
      rcases mem_replaceFirst hother with rfl | hother
      · rw [hfresh first List.mem_cons_self hsame.symm] at hfirst
        exact hfirst (List.mem_map_of_mem (List.mem_of_find?_eq_some h))
      · rw [← hsame] at hfirst
        exact hfirst (List.mem_map_of_mem hother)

theorem replaceFirst_ne_nil (h : items.find? fits = some held) :
    replaceFirst fits item items ≠ [] :=
  List.ne_nil_of_mem (mem_replaceFirst_self h)

end ReplaceFirst

/-! ## Parts of a configuration -/

variable {agents : List (String × AgentConfig)}

theorem WorkflowInvariants.withStep_iff {workflow : WorkflowConfig}
    (h : WorkflowInvariants agents workflow) {stepId : String} {step step' : WorkflowStepConfig}
    (hstep : workflow.steps.find? (·.id == stepId) = some step) (hid : step'.id = step.id) :
    WorkflowInvariants agents (withStep workflow stepId step') ↔ StepInvariants agents step' := by
  constructor
  · exact fun h' => h'.steps step' (mem_replaceFirst_self hstep)
  · intro hstep'
    refine ⟨replaceFirst_ne_nil hstep, ?_, fun other hother => ?_⟩
    · show ((replaceFirst _ step' workflow.steps).map (·.id)).Nodup
      rw [map_replaceFirst (·.id) hstep hid]
      exact h.stepIds
    · rcases mem_replaceFirst hother with rfl | hother
      · exact hstep'
      · exact h.steps other hother

theorem SetupInvariants.withWorkflow_iff {config : OrchestratorConfig} (h : SetupInvariants config)
    {workflowId : String} {workflow workflow' : WorkflowConfig}
    (hworkflow : config.workflows.find? (·.id == workflowId) = some workflow)
    (hid : workflow'.id = workflow.id) :
    SetupInvariants (withWorkflow config workflowId workflow') ↔
      WorkflowInvariants config.agents workflow' := by
  have hids : (withWorkflow config workflowId workflow').workflows.map (·.id) =
      config.workflows.map (·.id) := map_replaceFirst (·.id) hworkflow hid
  constructor
  · exact fun h' => h'.workflows workflow' (mem_replaceFirst_self hworkflow)
  · intro hworkflow'
    refine ⟨h.selector, ?_, ?_, fun other hother => ?_⟩
    · rw [hids]
      exact h.workflowIds
    · rw [hids]
      exact h.defaultWorkflow
    · rcases mem_replaceFirst hother with rfl | hother
      · exact hworkflow'
      · exact h.workflows other hother

/-- Agents may change as long as all stay and the selector may still orchestrate. -/
theorem SetupInvariants.withAgents {config : OrchestratorConfig} (h : SetupInvariants config)
    {agents : List (String × AgentConfig)} {selectorAgent : String}
    (hselector : ∃ agent, agents.lookup selectorAgent = some agent ∧
      agent.canOrchestrateWorkflows = true)
    (hagents : ∀ agentId, (config.agents.lookup agentId).isSome = true →
      (agents.lookup agentId).isSome = true) :
    SetupInvariants { config with agents, selectorAgent } :=
  ⟨hselector, h.workflowIds, h.defaultWorkflow, fun workflow hworkflow =>
    let hw := h.workflows workflow hworkflow
    ⟨hw.nonempty, hw.stepIds, fun step hstep =>
      let hs := hw.steps step hstep
      ⟨hagents _ hs.agent, hs.summary, hs.mapped, hs.prioritized, hs.priorityNodup,
        hs.priorityOutputs⟩⟩⟩

theorem isSome_lookup_set {agentId : String} {agent agent' : AgentConfig}
    (hagent : agents.lookup agentId = some agent) (other : String)
    (h : (agents.lookup other).isSome = true) :
    ((OrderedMap.set agentId agent' agents).lookup other).isSome = true := by
  by_cases heq : other = agentId
  · rw [heq, OrderedMap.lookup_set_self hagent]
    rfl
  · rwa [OrderedMap.lookup_set_of_ne heq]

/-! ## Identifiers and prompts that are made up -/

theorem identifier_of_ok {kind value : String} (h : validateIdentifier kind value = .ok ()) :
    IsIdentifier value := validateIdentifierValue_eq_ok_iff.mp (mapError_eq_ok h)

theorem isIdentifier_append {value : String} (h : IsIdentifier value) {rest : List Char}
    (hrest : ∀ c ∈ rest, identifierChar c = true) :
    IsIdentifier (value ++ String.ofList rest) := by
  refine ⟨?_, fun c hc => ?_⟩
  · rw [String.toList_append]
    exact List.append_ne_nil_of_left_ne_nil h.nonempty _
  · rw [String.toList_append, String.toList_ofList] at hc
    rcases List.mem_append.mp hc with hc | hc
    · exact h.chars c hc
    · exact hrest c hc

theorem isIdentifier_numbered {base : String} (h : IsIdentifier base) (n : ℕ) :
    IsIdentifier s!"{base}_{n}" := by
  have htext : s!"{base}_{n}" = base ++ String.ofList ('_' :: Text.decimal n) := by
    apply String.toList_inj.mp
    simp [toString, Nat.repr, Text.decimal, String.toList_append]
  rw [htext]
  refine isIdentifier_append h fun c hc => ?_
  rcases List.mem_cons.mp hc with rfl | hc
  · decide
  · have hdigit := Text.isDigit_of_mem_decimal hc
    simp [identifierChar, Char.isAlphanum, hdigit]

theorem isIdentifier_uniqueWorkflowId {base : String} (h : IsIdentifier base)
    (existing : List (String × WorkflowConfig)) :
    IsIdentifier (SetupDraft.uniqueWorkflowId existing base) := by
  unfold SetupDraft.uniqueWorkflowId
  split
  · exact h
  · cases hfind : ((List.range' 2 998).map fun idx => s!"{base}_{idx}").find? fun candidate =>
        (existing.lookup candidate).isNone with
    | none => exact isIdentifier_numbered h _
    | some candidate =>
      obtain ⟨n, -, rfl⟩ := List.mem_map.mp (List.mem_of_find?_eq_some hfind)
      exact isIdentifier_numbered h n

theorem notBlank_of_mem {text : String} {c : Char} (hmem : c ∈ text.toList)
    (hc : Text.isWhitespace c = false) : notBlank text = true := by
  rw [notBlank, Text.isBlank_eq_false_iff.mpr ⟨c, hmem, hc⟩]
  rfl

theorem notBlank_defaultPrompt (workflowId stepId : String) :
    notBlank (defaultPromptRelPath workflowId stepId) = true := by
  refine notBlank_of_mem (c := 'w') ?_ rfl
  rw [defaultPromptRelPath]
  simp only [String.toList_append, List.mem_append]
  exact .inl (.inl (.inl (.inl (by decide))))

theorem workflowStep_texts {workflowId stepId agent : String} (hstep : IsIdentifier stepId)
    (hagent : IsIdentifier agent) (stepType : WorkflowStepType) :
    StepTexts (workflowStep workflowId stepId stepType agent) :=
  ⟨hstep, hagent, notBlank_defaultPrompt workflowId stepId⟩

/-! ## The texts of a configuration -/

section Texts

variable {config : OrchestratorConfig}

theorem ConfigTexts.agentId (h : ConfigTexts config) {agentId : String}
    (hagent : (config.agents.lookup agentId).isSome = true) : IsIdentifier agentId := by
  obtain ⟨agent, hagent⟩ := Option.isSome_iff_exists.mp hagent
  exact (h.agents _ (OrderedMap.mem_of_lookup hagent)).id

theorem ConfigTexts.selectorAgent (h : ConfigTexts config) (hsetup : SetupInvariants config) :
    IsIdentifier config.selectorAgent := by
  obtain ⟨agent, hagent, -⟩ := hsetup.selector
  exact h.agentId (by rw [hagent]; rfl)

theorem ConfigTexts.withAgents (h : ConfigTexts config) {agents : List (String × AgentConfig)}
    (hagents : ∀ entry ∈ agents, AgentTexts entry) (selectorAgent : String) :
    ConfigTexts { config with agents, selectorAgent } :=
  ⟨h.retries, h.timeout, hagents, h.workflows⟩

theorem ConfigTexts.withWorkflows (h : ConfigTexts config) {workflows : List WorkflowConfig}
    (hworkflows : ∀ workflow ∈ workflows, WorkflowTexts workflow) (defaultWorkflow : String) :
    ConfigTexts { config with workflows, defaultWorkflow } :=
  ⟨h.retries, h.timeout, h.agents, hworkflows⟩

theorem ConfigTexts.setAgent (h : ConfigTexts config) {agentId selectorAgent : String}
    {agent : AgentConfig} (hid : IsIdentifier agentId) (hmodel : notBlank agent.model = true) :
    ConfigTexts { config with
      selectorAgent, agents := OrderedMap.set agentId agent config.agents } := by
  refine h.withAgents (fun entry hentry => ?_) selectorAgent
  rcases OrderedMap.mem_set hentry with rfl | hentry
  · exact ⟨hid, hmodel⟩
  · exact h.agents entry hentry

variable {workflow : WorkflowConfig}

theorem ConfigTexts.withWorkflow (h : ConfigTexts config) {workflowId : String}
    (hworkflow : WorkflowTexts workflow) :
    ConfigTexts (withWorkflow config workflowId workflow) := by
  refine h.withWorkflows (fun other hother => ?_) config.defaultWorkflow
  rcases mem_replaceFirst hother with rfl | hother
  · exact hworkflow
  · exact h.workflows other hother

theorem WorkflowTexts.withSteps (h : WorkflowTexts workflow) {steps : List WorkflowStepConfig}
    (hsteps : ∀ step ∈ steps, StepTexts step) :
    WorkflowTexts { workflow with steps } :=
  ⟨h.id, h.description, h.tagged, h.tags, hsteps⟩

theorem WorkflowTexts.withStep (h : WorkflowTexts workflow) {stepId : String}
    {step : WorkflowStepConfig} (hstep : StepTexts step) :
    WorkflowTexts (withStep workflow stepId step) := by
  refine h.withSteps fun other hother => ?_
  rcases mem_replaceFirst hother with rfl | hother
  · exact hstep
  · exact h.steps other hother

/-! ### A template -/

theorem mergeAgents_texts {agents : List (String × AgentConfig)} {entry : String × AgentConfig}
    (h : ∀ entry ∈ agents, AgentTexts entry) (hentry : AgentTexts entry) :
    ∀ other ∈ SetupDraft.mergeAgents agents entry, AgentTexts other := by
  intro other hother
  unfold SetupDraft.mergeAgents at hother
  split at hother
  · exact h other hother
  · rcases OrderedMap.mem_insert hother with rfl | hother
    · exact hentry
    · exact h other hother

theorem mergeWorkflows_texts {templateDefault : String} {workflows : List WorkflowConfig}
    (hworkflows : ∀ workflow ∈ workflows, WorkflowTexts workflow) :
    ∀ {merged : List (String × WorkflowConfig) × Option String},
      (∀ entry ∈ merged.1, WorkflowTexts entry.2) →
      ∀ entry ∈ (SetupDraft.mergeWorkflows templateDefault merged workflows).1,
        WorkflowTexts entry.2 := by
  induction workflows with
  | nil => exact fun h => h
  | cons workflow rest ih =>
    rintro ⟨existing, newDefault⟩ hexisting
    have hw := hworkflows workflow List.mem_cons_self
    refine ih (fun other hother => hworkflows other (List.mem_cons_of_mem _ hother)) ?_
    intro entry hentry
    rcases OrderedMap.mem_insert hentry with rfl | hentry
    · exact ⟨isIdentifier_uniqueWorkflowId hw.id existing, hw.description, hw.tagged, hw.tags,
        hw.steps⟩
    · exact hexisting entry hentry

theorem ConfigTexts.mergeTemplate {template : OrchestratorConfig} (h : ConfigTexts config)
    (htemplate : ConfigTexts template) : ConfigTexts (SetupDraft.mergeTemplate template config) := by
  refine ⟨h.retries, h.timeout, ?_, fun workflow hworkflow => ?_⟩
  · refine List.foldlRecOn template.agents SetupDraft.mergeAgents
      (motive := fun agents => ∀ entry ∈ agents, AgentTexts entry) h.agents ?_
    exact fun _ hagents entry hentry => mergeAgents_texts hagents (htemplate.agents entry hentry)
  · obtain ⟨entry, hentry, rfl⟩ := List.mem_map.mp hworkflow
    refine mergeWorkflows_texts htemplate.workflows ?_ entry hentry
    refine List.foldlRecOn config.workflows (fun map wf => OrderedMap.insert wf.id wf map)
      (motive := fun map => ∀ entry ∈ map, WorkflowTexts entry.2)
      (fun _ hnil => absurd hnil List.not_mem_nil) ?_
    intro map hmap held hheld entry hentry
    rcases OrderedMap.mem_insert hentry with rfl | hentry
    · exact h.workflows held hheld
    · exact hmap entry hentry

end Texts

/-! ## Drafts -/

/-- Every configuration has the invariants. -/
def SetupDraft.Savable (draft : SetupDraft) : Prop :=
  ∀ entry ∈ draft.orchestratorConfigs, SetupInvariants entry.2

def SetupDraft.withConfig (draft : SetupDraft) (orchestratorId : String)
    (config : OrchestratorConfig) : SetupDraft :=
  { draft with
    orchestratorConfigs := OrderedMap.set orchestratorId config draft.orchestratorConfigs }

namespace SetupDraft

variable {draft draft' : SetupDraft}

theorem Savable.config (h : draft.Savable) {orchestratorId : String} {config : OrchestratorConfig}
    (hconfig : draft.orchestratorConfigs.lookup orchestratorId = some config) :
    SetupInvariants config :=
  h (orchestratorId, config) (OrderedMap.mem_of_lookup hconfig)

theorem Savable.withConfig_iff (h : draft.Savable) {orchestratorId : String}
    {config config' : OrchestratorConfig}
    (hconfig : draft.orchestratorConfigs.lookup orchestratorId = some config) :
    (draft.withConfig orchestratorId config').Savable ↔ SetupInvariants config' := by
  constructor
  · exact fun h' => h' (orchestratorId, config') (OrderedMap.mem_set_self hconfig)
  · intro hconfig' entry hentry
    rcases OrderedMap.mem_set hentry with rfl | hentry
    · exact hconfig'
    · exact h entry hentry

theorem editConfig_eq_ok {missing orchestratorId : String}
    {f : OrchestratorConfig → Except DraftError OrchestratorConfig}
    (h : editConfig missing orchestratorId f draft = .ok () draft') :
    ∃ config config', draft.orchestratorConfigs.lookup orchestratorId = some config ∧
      f config = .ok config' ∧ draft' = draft.withConfig orchestratorId config' := by
  have h := updateWith_eq_ok.mp h
  split at h
  · cases h
  · next config hconfig =>
      obtain ⟨config', hf, h⟩ := bind_eq_ok h
      cases h
      exact ⟨config, config', hconfig, hf, rfl⟩

end SetupDraft

theorem editWorkflowIn_eq_ok {missing workflowId : String}
    {f : WorkflowConfig → Except DraftError WorkflowConfig} {config config' : OrchestratorConfig}
    (h : editWorkflowIn missing workflowId f config = .ok config') :
    ∃ workflow workflow', config.workflows.find? (·.id == workflowId) = some workflow ∧
      f workflow = .ok workflow' ∧ config' = withWorkflow config workflowId workflow' := by
  unfold editWorkflowIn at h
  split at h
  · cases h
  · next workflow hworkflow =>
      obtain ⟨workflow', hf, h⟩ := bind_eq_ok h
      cases h
      exact ⟨workflow, workflow', hworkflow, hf, rfl⟩

theorem editStepIn_eq_ok {missing stepId : String}
    {f : WorkflowStepConfig → Except DraftError WorkflowStepConfig}
    {workflow workflow' : WorkflowConfig} (h : editStepIn missing stepId f workflow = .ok workflow') :
    ∃ step step', workflow.steps.find? (·.id == stepId) = some step ∧
      f step = .ok step' ∧ workflow' = withStep workflow stepId step' := by
  unfold editStepIn at h
  split at h
  · cases h
  · next step hstep =>
      obtain ⟨step', hf, h⟩ := bind_eq_ok h
      cases h
      exact ⟨step, step', hstep, hf, rfl⟩

theorem edit_of_check {α : Type} {check : Except DraftError α} {rest : α → Edit}
    {draft draft' : SetupDraft} (h : (ofResult check >>= rest) draft = .ok () draft') :
    ∃ a, check = .ok a ∧ rest a draft = .ok () draft' := by
  obtain ⟨a, d, hcheck, h⟩ := of_bind_eq_ok h
  obtain ⟨hok, rfl⟩ := ofResult_eq_ok.mp hcheck
  exact ⟨a, hok, h⟩


theorem SetupDraft.initialOrchestratorConfig_eq_ok {id provider model : String} {template : WorkflowTemplate}
    {config : OrchestratorConfig} :
    initialOrchestratorConfig id provider model template = .ok config ↔
      ∃ kind, parseProvider provider = .ok kind ∧ config = initialConfig id kind model template := by
  unfold initialOrchestratorConfig
  cases parseProvider provider with
  | ok kind =>
    constructor
    · rintro ⟨⟩
      exact ⟨kind, rfl, rfl⟩
    · rintro ⟨_, ⟨⟩, rfl⟩
      rfl
  | error err =>
    refine iff_of_false nofun ?_
    rintro ⟨_, ⟨⟩, _⟩

theorem SetupDraft.initialOrchestratorConfig_setup {id provider model : String} {template : WorkflowTemplate}
    {config : OrchestratorConfig}
    (h : initialOrchestratorConfig id provider model template = .ok config) :
    SetupInvariants config := by
  obtain ⟨kind, -, rfl⟩ := SetupDraft.initialOrchestratorConfig_eq_ok.mp h
  exact initialConfig_setup id model kind template

/-! ## Edits of one configuration -/

/-- What an edit makes of a configuration that has the invariants: it still has them exactly
if `K`, and texts that were valid still are exactly if `P`. -/
structure Keeps (K P : Prop) (config config' : OrchestratorConfig) : Prop where
  id : config'.id = config.id
  setup : SetupInvariants config' ↔ K
  texts : ConfigTexts config → (ConfigTexts config' ↔ P)

/-- One configuration has changed. -/
def EditsConfig (K P : Prop) (draft draft' : SetupDraft) : Prop :=
  ∃ orchestratorId config config',
    draft.orchestratorConfigs.lookup orchestratorId = some config ∧
    draft' = draft.withConfig orchestratorId config' ∧
    (SetupInvariants config → Keeps K P config config')

/-- What an edit makes of a step that has the invariants. -/
structure StepKeeps (K : Prop) (config : OrchestratorConfig) (step step' : WorkflowStepConfig) :
    Prop where
  id : step'.id = step.id
  setup : StepInvariants config.agents step' ↔ K
  texts : ConfigTexts config → StepTexts step → StepTexts step'

def SetupDraft.stepAt (draft : SetupDraft) (orchestratorId workflowId stepId : String) :
    Option WorkflowStepConfig :=
  (draft.orchestratorConfigs.lookup orchestratorId).bind fun config =>
    (config.workflows.find? (·.id == workflowId)).bind fun workflow =>
      workflow.steps.find? (·.id == stepId)

section Edits

variable {draft draft' : SetupDraft} {K P : Prop} {config config' : OrchestratorConfig}
  {missing missing' orchestratorId workflowId stepId : String}

theorem Keeps.of_kept (hid : config'.id = config.id) (hsetup : SetupInvariants config')
    (htexts : ConfigTexts config → ConfigTexts config') : Keeps True True config config' :=
  ⟨hid, iff_of_true hsetup trivial, fun h => iff_of_true (htexts h) trivial⟩

theorem EditsConfig.of_edit {f : OrchestratorConfig → Except DraftError OrchestratorConfig}
    (hedit : editConfig missing orchestratorId f draft = .ok () draft')
    (hf : ∀ config config', draft.orchestratorConfigs.lookup orchestratorId = some config →
      SetupInvariants config → f config = .ok config' → Keeps K P config config') :
    EditsConfig K P draft draft' := by
  obtain ⟨config, config', hlookup, hok, rfl⟩ := SetupDraft.editConfig_eq_ok hedit
  exact ⟨orchestratorId, config, config', hlookup, rfl, fun h => hf config config' hlookup h hok⟩

/-- What is checked afterwards has the invariants. -/
theorem EditsConfig.of_validated {f : OrchestratorConfig → Except DraftError OrchestratorConfig}
    (hedit : editAndValidate missing orchestratorId f draft = .ok () draft')
    (hf : ∀ config config', draft.orchestratorConfigs.lookup orchestratorId = some config →
      SetupInvariants config → f config = .ok config' →
        config'.id = config.id ∧ (ConfigTexts config → (ConfigTexts config' ↔ P))) :
    EditsConfig True P draft draft' := by
  obtain ⟨_, d, hconfig, hvalid⟩ := of_bind_eq_ok hedit
  obtain ⟨config, config', hlookup, hok, rfl⟩ := SetupDraft.editConfig_eq_ok hconfig
  have hlookup' : (draft.withConfig orchestratorId config').orchestratorConfigs.lookup
      orchestratorId = some config' := OrderedMap.lookup_set_self hlookup
  simp only [validateOrchestratorInvariants, hlookup'] at hvalid
  split at hvalid
  · next hcheck =>
      cases hvalid
      refine ⟨orchestratorId, config, config', hlookup, rfl, fun hsetup => ?_⟩
      obtain ⟨hid, htexts⟩ := hf config config' hlookup hsetup hok
      exact ⟨hid, iff_of_true (validateSetupInvariants_ok_iff.mp hcheck) trivial, htexts⟩
  · cases hvalid

theorem EditsConfig.of_checked {f : OrchestratorConfig → Except DraftError OrchestratorConfig}
    (hedit : editAndValidate missing orchestratorId f draft = .ok () draft')
    (hf : ∀ config config', SetupInvariants config → f config = .ok config' →
      config'.id = config.id ∧ (ConfigTexts config → ConfigTexts config')) :
    EditsConfig True True draft draft' := by
  refine EditsConfig.of_validated hedit fun config config' _ hsetup hok => ?_
  obtain ⟨hid, htexts⟩ := hf config config' hsetup hok
  exact ⟨hid, fun h => iff_of_true (htexts h) trivial⟩

/-! ### Limits of an orchestrator -/

theorem EditsConfig.setSelectorLimit {what : String} {value : ℕ}
    {f : OrchestratorConfig → OrchestratorConfig}
    (hedit : SetupDraft.setSelectorLimit what orchestratorId value f draft = .ok () draft')
    (hf : ∀ config, value ≠ 0 → SetupInvariants config → Keeps True True config (f config)) :
    EditsConfig True True draft draft' := by
  obtain ⟨_, hcheck, hedit⟩ := edit_of_check hedit
  split at hcheck
  · cases hcheck
  · next hpositive =>
      refine EditsConfig.of_edit hedit fun config config' _ hsetup hok => ?_
      cases hok
      exact hf config (by omega) hsetup

theorem withConfig_withConfig (draft : SetupDraft) (orchestratorId : String)
    (config config' : OrchestratorConfig) :
    (draft.withConfig orchestratorId config).withConfig orchestratorId config' =
      draft.withConfig orchestratorId config' := by
  simp only [SetupDraft.withConfig, OrderedMap.set_set]

/-- The limits of the orchestration; a count is set in a second edit. -/
theorem EditsConfig.setLimit {field : OrchestrationLimitField} {value : Option ℕ}
    (hedit : SetupDraft.setOrchestratorWorkflowOrchestrationLimit orchestratorId field value draft =
      .ok () draft') : EditsConfig True True draft draft' := by
  have hkeeps : ∀ {config : OrchestratorConfig} {limits : Option WorkflowOrchestrationConfig},
      SetupInvariants config →
        Keeps True True config { config with workflowOrchestration := limits } :=
    fun hsetup => .of_kept rfl
      ⟨hsetup.selector, hsetup.workflowIds, hsetup.defaultWorkflow, hsetup.workflows⟩
      fun h => ⟨h.retries, h.timeout, h.agents, h.workflows⟩
  cases value with
  | none =>
    refine EditsConfig.of_edit hedit fun config config' _ hsetup hok => ?_
    cases hok
    exact hkeeps hsetup
  | some parsed =>
    obtain ⟨_, held, hsection, hedit⟩ := of_bind_eq_ok hedit
    obtain ⟨config, middle, hlookup, hok, rfl⟩ := SetupDraft.editConfig_eq_ok hsection
    obtain ⟨_, -, hedit⟩ := edit_of_check hedit
    obtain ⟨middle', config', hlookup', hok', rfl⟩ := SetupDraft.editConfig_eq_ok hedit
    have hsame : some middle = some middle' :=
      (OrderedMap.lookup_set_self hlookup).symm.trans hlookup'
    cases hsame
    split at hok
    · cases hok
    · cases hok
      cases hok'
      exact ⟨orchestratorId, config, _, hlookup, withConfig_withConfig draft orchestratorId _ _,
        hkeeps⟩

/-! ### Workflows -/

theorem Keeps.editWorkflowIn {f : WorkflowConfig → Except DraftError WorkflowConfig}
    (hsetup : SetupInvariants config)
    (hf : ∀ workflow workflow', config.workflows.find? (·.id == workflowId) = some workflow →
      WorkflowInvariants config.agents workflow → f workflow = .ok workflow' →
        workflow'.id = workflow.id ∧ (WorkflowInvariants config.agents workflow' ↔ K) ∧
          (ConfigTexts config → WorkflowTexts workflow → WorkflowTexts workflow'))
    (hedit : Config.editWorkflowIn missing workflowId f config = .ok config') :
    Keeps K True config config' := by
  obtain ⟨workflow, workflow', hworkflow, hok, rfl⟩ := editWorkflowIn_eq_ok hedit
  have hmem := List.mem_of_find?_eq_some hworkflow
  obtain ⟨hid, hiff, htexts⟩ :=
    hf workflow workflow' hworkflow (hsetup.workflows workflow hmem) hok
  refine ⟨rfl, (hsetup.withWorkflow_iff hworkflow hid).trans hiff, fun h => iff_of_true ?_ trivial⟩
  exact h.withWorkflow (htexts h (h.workflows workflow hmem))

theorem EditsConfig.of_workflow {f : WorkflowConfig → Except DraftError WorkflowConfig}
    (hedit : editWorkflow orchestratorId workflowId f draft = .ok () draft')
    (hf : ∀ workflow workflow', f workflow = .ok workflow' → workflow'.id = workflow.id ∧
      workflow'.steps = workflow.steps ∧ workflow'.description = workflow.description ∧
        workflow'.tags = workflow.tags) : EditsConfig True True draft draft' := by
  refine EditsConfig.of_edit hedit fun config config' _ hsetup hok => ?_
  refine Keeps.editWorkflowIn hsetup (fun workflow workflow' _ hw hok => ?_) hok
  obtain ⟨hid, hsteps, hdescription, htags⟩ := hf workflow workflow' hok
  refine ⟨hid, iff_of_true ?_ trivial, fun _ ht => ?_⟩
  · exact ⟨hsteps ▸ hw.nonempty, hsteps ▸ hw.stepIds, hsteps ▸ hw.steps⟩
  · exact ⟨hid ▸ ht.id, hdescription ▸ ht.description, htags ▸ ht.tagged, htags ▸ ht.tags,
      hsteps ▸ ht.steps⟩

theorem EditsConfig.setWorkflowLimit {what : String} {value : Option ℕ}
    {assign : WorkflowLimitsConfig → WorkflowLimitsConfig}
    (hedit : SetupDraft.setWorkflowLimit what orchestratorId workflowId value assign draft =
      .ok () draft') : EditsConfig True True draft draft' := by
  refine EditsConfig.of_workflow hedit fun workflow workflow' hok => ?_
  cases value with
  | none =>
    cases hok
    exact ⟨rfl, rfl, rfl, rfl⟩
  | some parsed =>
    simp only at hok
    split at hok <;> cases hok
    exact ⟨rfl, rfl, rfl, rfl⟩

/-- The texts of a workflow whose configuration is checked afterwards. -/
theorem texts_editWorkflowIn {f : WorkflowConfig → Except DraftError WorkflowConfig}
    (hf : ∀ workflow workflow', ConfigTexts config → WorkflowTexts workflow →
      f workflow = .ok workflow' → WorkflowTexts workflow')
    (hedit : Config.editWorkflowIn missing workflowId f config = .ok config') :
    config'.id = config.id ∧ (ConfigTexts config → ConfigTexts config') := by
  obtain ⟨workflow, workflow', hworkflow, hok, rfl⟩ := editWorkflowIn_eq_ok hedit
  refine ⟨rfl, fun h => h.withWorkflow ?_⟩
  exact hf _ _ h (h.workflows workflow (List.mem_of_find?_eq_some hworkflow)) hok

theorem EditsConfig.addWorkflow
    (hedit : SetupDraft.addWorkflow orchestratorId workflowId draft = .ok () draft') :
    EditsConfig True True draft draft' := by
  obtain ⟨_, hid, hedit⟩ := edit_of_check hedit
  have hid : IsIdentifier workflowId := identifier_of_ok hid
  refine EditsConfig.of_checked hedit fun config config' hsetup hok => ?_
  split at hok
  · cases hok
  obtain ⟨tag, -, hok⟩ := bind_eq_ok hok
  cases hok
  refine ⟨rfl, fun h => h.withWorkflows (fun workflow hworkflow => ?_) config.defaultWorkflow⟩
  rcases List.mem_append.mp hworkflow with hworkflow | hworkflow
  · exact h.workflows workflow hworkflow
  · rw [List.mem_singleton.mp hworkflow]
    refine ⟨hid, ?_, nofun, List.nodup_singleton tag, fun step hstep => ?_⟩
    · refine notBlank_of_mem (c := 'w') ?_ rfl
      simp only [String.toList_append, List.mem_append]
      exact .inr (by decide)
    · rw [List.mem_singleton.mp hstep]
      exact workflowStep_texts (by decide) (h.selectorAgent hsetup) .agentTask

theorem EditsConfig.removeWorkflow
    (hedit : SetupDraft.removeWorkflow orchestratorId workflowId draft = .ok () draft') :
    EditsConfig True True draft draft' := by
  refine EditsConfig.of_checked hedit fun config config' _ hok => ?_
  split at hok
  · cases hok
  split at hok <;> cases hok
  exact ⟨rfl, fun h => h.withWorkflows
    (fun workflow hworkflow => h.workflows workflow (List.mem_of_mem_filter hworkflow)) _⟩

theorem EditsConfig.renameWorkflow {nextId : String}
    (hedit : SetupDraft.renameWorkflow orchestratorId workflowId nextId draft = .ok () draft') :
    EditsConfig True True draft draft' := by
  obtain ⟨_, hid, hedit⟩ := edit_of_check hedit
  refine EditsConfig.of_checked hedit fun config config' _ hok => ?_
  split at hok
  · cases hok
  obtain ⟨renamed, hrenamed, hok⟩ := bind_eq_ok hok
  cases hok
  obtain ⟨hsame, htexts⟩ := texts_editWorkflowIn (fun workflow workflow' _ ht hok => by
    cases hok
    exact ⟨identifier_of_ok hid, ht.description, ht.tagged, ht.tags, ht.steps⟩) hrenamed
  refine ⟨hsame, fun h => ?_⟩
  exact ⟨(htexts h).retries, (htexts h).timeout, (htexts h).agents, (htexts h).workflows⟩

/-- The model of the selector is given to the agents of the template. -/
theorem EditsConfig.applyWorkflowTemplate {template : WorkflowTemplate}
    (hedit : SetupDraft.applyWorkflowTemplateToOrchestrator orchestratorId template draft =
      .ok () draft') : EditsConfig True True draft draft' := by
  obtain ⟨_, _, hget, hedit⟩ := of_bind_eq_ok hedit
  cases hget
  obtain ⟨initial, hinitial, hedit⟩ := edit_of_check hedit
  refine EditsConfig.of_validated hedit fun config config' hlookup hsetup hok => ?_
  cases hok
  refine ⟨rfl, fun h => iff_of_true (h.mergeTemplate ?_) trivial⟩
  obtain ⟨agent, hagent, -⟩ := hsetup.selector
  obtain ⟨provider, -, rfl⟩ := SetupDraft.initialOrchestratorConfig_eq_ok.mp hinitial
  refine (initialConfig_texts _ _ _ _).mpr ?_
  have hmodel := (h.agents _ (OrderedMap.mem_of_lookup hagent)).model
  simpa only [SetupDraft.providerModelForOrchestrator, hlookup, Option.bind_some, hagent,
    Option.some_or] using hmodel

/-! ### Steps -/

theorem EditsConfig.addStep
    (hedit : SetupDraft.addStep orchestratorId workflowId stepId draft = .ok () draft') :
    EditsConfig True True draft draft' := by
  obtain ⟨_, hid, hedit⟩ := edit_of_check hedit
  refine EditsConfig.of_checked hedit fun config config' hsetup hok => ?_
  refine texts_editWorkflowIn (fun workflow workflow' h ht hok => ?_) hok
  split at hok <;> cases hok
  refine ht.withSteps fun step hstep => ?_
  rcases List.mem_append.mp hstep with hstep | hstep
  · exact ht.steps step hstep
  · rw [List.mem_singleton.mp hstep]
    exact workflowStep_texts (identifier_of_ok hid) (h.selectorAgent hsetup) .agentTask

theorem EditsConfig.removeStep
    (hedit : SetupDraft.removeStep orchestratorId workflowId stepId draft = .ok () draft') :
    EditsConfig True True draft draft' := by
  refine EditsConfig.of_checked hedit fun config config' _ hok => ?_
  refine texts_editWorkflowIn (fun workflow workflow' _ ht hok => ?_) hok
  split at hok
  · cases hok
  split at hok <;> cases hok
  exact ht.withSteps fun step hstep => ht.steps step (List.mem_of_mem_filter hstep)

theorem EditsConfig.renameStep {nextId : String}
    (hedit : SetupDraft.renameStep orchestratorId workflowId stepId nextId draft = .ok () draft') :
    EditsConfig True True draft draft' := by
  obtain ⟨_, hid, hedit⟩ := edit_of_check hedit
  refine EditsConfig.of_edit hedit fun config config' _ hsetup hok => ?_
  refine Keeps.editWorkflowIn hsetup (fun workflow workflow' _ hw hsteps => ?_) hok
  split at hsteps
  · cases hsteps
  next hfresh =>
  obtain ⟨step, step', hstep, hrename, rfl⟩ := editStepIn_eq_ok hsteps
  cases hrename
  have hmem := List.mem_of_find?_eq_some hstep
  refine ⟨rfl, iff_of_true ⟨replaceFirst_ne_nil hstep, ?_, fun other hother => ?_⟩ trivial,
    fun _ ht => ht.withStep ?_⟩
  · refine nodup_map_replaceFirst hw.stepIds hstep fun other hother hsame => ?_
    have hcurrent : step.id = stepId := by simpa using List.find?_some hstep
    have hnot := fun hne => hfresh (List.any_eq_true.mpr ⟨other, hother, by
      simp only [Bool.and_eq_true, beq_iff_eq, bne_iff_ne]
      exact ⟨hsame, hne⟩⟩)
    exact (not_not.mp hnot).trans hcurrent.symm
  · rcases mem_replaceFirst hother with rfl | hother
    · have hs := hw.steps step hmem
      exact ⟨hs.agent, hs.summary, hs.mapped, hs.prioritized, hs.priorityNodup, hs.priorityOutputs⟩
    · exact hw.steps other hother
  · exact ⟨identifier_of_ok hid, (ht.steps step hmem).agent, (ht.steps step hmem).prompt⟩

theorem Keeps.editStepIn {f : WorkflowStepConfig → Except DraftError WorkflowStepConfig}
    (hsetup : SetupInvariants config)
    (hf : ∀ workflow step step', config.workflows.find? (·.id == workflowId) = some workflow →
      workflow.steps.find? (·.id == stepId) = some step → StepInvariants config.agents step →
        f step = .ok step' → StepKeeps K config step step')
    (hedit : Config.editWorkflowIn missing workflowId (Config.editStepIn missing' stepId f) config =
      .ok config') : Keeps K True config config' := by
  refine Keeps.editWorkflowIn hsetup (fun workflow workflow' hworkflow hw hsteps => ?_) hedit
  obtain ⟨step, step', hstep, hok, rfl⟩ := editStepIn_eq_ok hsteps
  have hmem := List.mem_of_find?_eq_some hstep
  have hkeeps := hf workflow step step' hworkflow hstep (hw.steps step hmem) hok
  exact ⟨rfl, (hw.withStep_iff hstep hkeeps.id).trans hkeeps.setup,
    fun h ht => ht.withStep (hkeeps.texts h (ht.steps step hmem))⟩

theorem EditsConfig.of_step {f : WorkflowStepConfig → Except DraftError WorkflowStepConfig}
    (hedit : editStep orchestratorId workflowId stepId f draft = .ok () draft')
    (hf : ∀ config step step', draft.stepAt orchestratorId workflowId stepId = some step →
      StepInvariants config.agents step → f step = .ok step' → StepKeeps K config step step') :
    EditsConfig K True draft draft' := by
  refine EditsConfig.of_edit hedit fun config config' hlookup hsetup hok => ?_
  refine Keeps.editStepIn hsetup (fun workflow step step' hworkflow hstep => ?_) hok
  refine hf config step step' ?_
  simp only [SetupDraft.stepAt, hlookup, hworkflow, hstep, Option.bind_some]

/-- A step whose contract is left alone. -/
theorem StepKeeps.of_contract {step step' : WorkflowStepConfig}
    (hs : StepInvariants config.agents step) (hid : step'.id = step.id)
    (hagent : step'.agent = step.agent) (houtputs : step'.outputs = step.outputs)
    (hfiles : step'.outputFiles = step.outputFiles)
    (hpriority : step'.finalOutputPriority = step.finalOutputPriority)
    (htexts : StepTexts step → StepTexts step') : StepKeeps True config step step' := by
  refine ⟨hid, iff_of_true ?_ trivial, fun _ => htexts⟩
  refine ⟨hagent ▸ hs.agent, houtputs ▸ hs.summary, ?_, hpriority ▸ hs.prioritized,
    hpriority ▸ hs.priorityNodup, ?_⟩
  · rw [houtputs, hfiles]
    exact hs.mapped
  · rw [houtputs, hpriority]
    exact hs.priorityOutputs

/-- A step that keeps its contract and its texts. -/
theorem EditsConfig.of_sameStep {f : WorkflowStepConfig → WorkflowStepConfig}
    (hedit : editStep orchestratorId workflowId stepId (fun step => .ok (f step)) draft =
      .ok () draft')
    (hf : ∀ step, (f step).id = step.id ∧ (f step).agent = step.agent ∧
      (f step).prompt = step.prompt ∧ (f step).outputs = step.outputs ∧
        (f step).outputFiles = step.outputFiles ∧
          (f step).finalOutputPriority = step.finalOutputPriority) :
    EditsConfig True True draft draft' := by
  refine EditsConfig.of_step hedit fun config step step' _ hs hok => ?_
  cases hok
  obtain ⟨hid, hagent, hprompt, houtputs, hfiles, hpriority⟩ := hf step
  exact .of_contract hs hid hagent houtputs hfiles hpriority
    fun ht => ⟨hid ▸ ht.id, hagent ▸ ht.agent, hprompt ▸ ht.prompt⟩

theorem EditsConfig.setStepMaxRetries {maxRetries : Option ℕ}
    (hedit : SetupDraft.setStepMaxRetries orchestratorId workflowId stepId maxRetries draft =
      .ok () draft') : EditsConfig True True draft draft' := by
  refine EditsConfig.of_step hedit fun config step step' _ hs hok => ?_
  cases maxRetries with
  | none =>
    cases hok
    exact .of_contract hs rfl rfl rfl rfl rfl fun ht => ⟨ht.id, ht.agent, ht.prompt⟩
  | some parsed =>
    simp only at hok
    split at hok <;> cases hok
    exact .of_contract hs rfl rfl rfl rfl rfl fun ht => ⟨ht.id, ht.agent, ht.prompt⟩

theorem EditsConfig.setStepPrompt {prompt : String}
    (hedit : SetupDraft.setStepPrompt orchestratorId workflowId stepId prompt draft =
      .ok () draft') : EditsConfig True True draft draft' := by
  obtain ⟨_, hcheck, hedit⟩ := edit_of_check hedit
  split at hcheck
  · cases hcheck
  · next hfilled =>
      refine EditsConfig.of_step hedit fun config step step' _ hs hok => ?_
      cases hok
      exact .of_contract hs rfl rfl rfl rfl rfl
        fun ht => ⟨ht.id, ht.agent, by simpa [notBlank] using hfilled⟩

variable {agentId : String}

theorem EditsConfig.setStepAgent
    (hedit : SetupDraft.setStepAgent orchestratorId workflowId stepId agentId draft = .ok () draft')
    : EditsConfig True True draft draft' := by
  obtain ⟨_, -, hedit⟩ := edit_of_check hedit
  refine EditsConfig.of_edit hedit fun config config' _ hsetup hok => ?_
  split at hok
  · cases hok
  · next hagent =>
      have hagent : (config.agents.lookup agentId).isSome = true := by simpa using hagent
      refine Keeps.editStepIn hsetup (fun _ step step' _ _ hs hok => ?_) hok
      cases hok
      refine ⟨rfl, iff_of_true ?_ trivial, fun h ht => ⟨ht.id, h.agentId hagent, ht.prompt⟩⟩
      exact ⟨hagent, hs.summary, hs.mapped, hs.prioritized, hs.priorityNodup, hs.priorityOutputs⟩

theorem ensureMapped_eq_ok {outputs : List OutputKey} {outputFiles : List (String × String)}
    (h : SetupDraft.ensureMapped outputs outputFiles = .ok ()) :
    ∀ key ∈ outputs, (outputFiles.lookup key.name).isSome = true := by
  unfold SetupDraft.ensureMapped at h
  split at h
  · cases h
  · next hnone =>
      intro key hkey
      simpa using List.find?_eq_none.mp hnone key hkey

theorem EditsConfig.setStepOutputFiles {outputFiles : List (String × String)}
    (hedit : SetupDraft.setStepOutputFiles orchestratorId workflowId stepId outputFiles draft =
      .ok () draft') : EditsConfig True True draft draft' := by
  obtain ⟨_, -, hedit⟩ := edit_of_check hedit
  refine EditsConfig.of_step hedit fun config step step' _ hs hok => ?_
  obtain ⟨_, hmapped, hok⟩ := bind_eq_ok hok
  cases hok
  refine ⟨rfl, iff_of_true ?_ trivial, fun _ ht => ⟨ht.id, ht.agent, ht.prompt⟩⟩
  exact ⟨hs.agent, hs.summary, ensureMapped_eq_ok hmapped, hs.prioritized, hs.priorityNodup,
    hs.priorityOutputs⟩

def SetupDraft.PriorityIn (step : WorkflowStepConfig) (outputs : List OutputKey) : Prop :=
  ∀ key ∈ step.finalOutputPriority, key.name ∈ keyNames outputs

theorem SetupDraft.defaultContract_summary (stepType : WorkflowStepType) :
    "summary" ∈ keyNames (defaultStepOutputContract stepType) := by
  cases stepType <;> decide

theorem SetupDraft.defaultContract_mapped (stepType : WorkflowStepType) :
    ∀ key ∈ defaultStepOutputContract stepType,
      ((defaultStepOutputFiles stepType).lookup key.name).isSome = true := by
  cases stepType <;> decide

theorem EditsConfig.toggleStepType
    (hedit : SetupDraft.toggleStepType orchestratorId workflowId stepId draft = .ok () draft') :
    EditsConfig (∀ step, draft.stepAt orchestratorId workflowId stepId = some step →
      SetupDraft.PriorityIn step (defaultStepOutputContract (SetupDraft.otherType step.stepType))) True
      draft draft' := by
  refine EditsConfig.of_step hedit fun config step step' hstep hs hok => ?_
  cases hok
  refine ⟨rfl, ?_, fun _ ht => ⟨ht.id, ht.agent, notBlank_defaultPrompt workflowId stepId⟩⟩
  simp only [hstep, Option.some.injEq, forall_eq']
  refine ⟨fun h => h.priorityOutputs, fun hpriority => ?_⟩
  exact ⟨hs.agent, SetupDraft.defaultContract_summary _, SetupDraft.defaultContract_mapped _,
    hs.prioritized, hs.priorityNodup, hpriority⟩

theorem EditsConfig.setStepOutputs {outputs : List OutputKey}
    (hedit : SetupDraft.setStepOutputs orchestratorId workflowId stepId outputs draft =
      .ok () draft') :
    EditsConfig ("summary" ∈ keyNames outputs ∧
      ∀ step, draft.stepAt orchestratorId workflowId stepId = some step →
        SetupDraft.PriorityIn step outputs)
      True draft draft' := by
  obtain ⟨_, -, hedit⟩ := edit_of_check hedit
  refine EditsConfig.of_step hedit fun config step step' hstep hs hok => ?_
  obtain ⟨_, hmapped, hok⟩ := bind_eq_ok hok
  cases hok
  refine ⟨rfl, ?_, fun _ ht => ⟨ht.id, ht.agent, ht.prompt⟩⟩
  simp only [hstep, Option.some.injEq, forall_eq']
  refine ⟨fun h => ⟨h.summary, h.priorityOutputs⟩, fun ⟨hsummary, hpriority⟩ => ?_⟩
  exact ⟨hs.agent, hsummary, ensureMapped_eq_ok hmapped, hs.prioritized, hs.priorityNodup,
    hpriority⟩

/-! ### Agents -/

/-- A new agent has the default model of the draft, whatever it is. -/
theorem EditsConfig.addAgent
    (hedit : SetupDraft.addAgent orchestratorId agentId draft = .ok () draft') :
    EditsConfig True (notBlank draft.model = true) draft draft' := by
  obtain ⟨_, hid, hedit⟩ := edit_of_check hedit
  obtain ⟨_, _, hget, hedit⟩ := of_bind_eq_ok hedit
  cases hget
  refine EditsConfig.of_validated hedit fun config config' _ _ hok => ?_
  split at hok
  · cases hok
  split at hok <;> cases hok
  refine ⟨rfl, fun h => ⟨fun h' => (h'.agents _ (OrderedMap.mem_insert_self ..)).model, ?_⟩⟩
  refine fun hmodel => h.withAgents (fun entry hentry => ?_) config.selectorAgent
  rcases OrderedMap.mem_insert hentry with rfl | hentry
  · exact ⟨identifier_of_ok hid, hmodel⟩
  · exact h.agents entry hentry

theorem EditsConfig.removeAgent
    (hedit : SetupDraft.removeAgent orchestratorId agentId draft = .ok () draft') :
    EditsConfig True True draft draft' := by
  refine EditsConfig.of_checked hedit fun config config' _ hok => ?_
  split at hok
  · cases hok
  split at hok <;> cases hok
  exact ⟨rfl, fun h => h.withAgents
    (fun entry hentry => h.agents entry (List.mem_of_mem_filter hentry)) _⟩

/-- An agent that gives way to one that can select if it has to. -/
theorem Keeps.setAgent (hsetup : SetupInvariants config) {agentId selectorAgent : String}
    {agent agent' : AgentConfig} (hagent : config.agents.lookup agentId = some agent)
    (hselector : selectorAgent = config.selectorAgent ∨ selectorAgent = agentId)
    (hcan : selectorAgent = agentId → agent'.canOrchestrateWorkflows = true)
    (hmodel : notBlank agent.model = true → notBlank agent'.model = true) :
    Keeps True True config { config with
      selectorAgent, agents := OrderedMap.set agentId agent' config.agents } := by
  refine .of_kept rfl (hsetup.withAgents ?_ (isSome_lookup_set hagent)) fun h => ?_
  · by_cases heq : selectorAgent = agentId
    · rw [heq]
      exact ⟨agent', OrderedMap.lookup_set_self hagent, hcan heq⟩
    · obtain ⟨selector, hlookup, hselects⟩ := hsetup.selector
      rw [← hselector.resolve_right heq] at hlookup
      exact ⟨selector, (OrderedMap.lookup_set_of_ne heq _ _).trans hlookup, hselects⟩
  · have hheld := h.agents _ (OrderedMap.mem_of_lookup hagent)
    exact h.setAgent hheld.id (hmodel hheld.model)

theorem SetupInvariants.selects (hsetup : SetupInvariants config) {agentId : String}
    {agent : AgentConfig} (hagent : config.agents.lookup agentId = some agent)
    (heq : config.selectorAgent = agentId) : agent.canOrchestrateWorkflows = true := by
  obtain ⟨selector, hlookup, hselects⟩ := hsetup.selector
  rw [heq, hagent] at hlookup
  cases hlookup
  exact hselects

theorem EditsConfig.editAgent {agentId : String} {f : AgentConfig → AgentConfig}
    (hedit : SetupDraft.editAgent orchestratorId agentId f draft = .ok () draft')
    (hf : ∀ agent, (f agent).canOrchestrateWorkflows = agent.canOrchestrateWorkflows ∧
      (notBlank agent.model = true → notBlank (f agent).model = true)) :
    EditsConfig True True draft draft' := by
  refine EditsConfig.of_edit hedit fun config config' _ hsetup hok => ?_
  split at hok
  · cases hok
  · next agent hagent =>
      cases hok
      exact .setAgent hsetup hagent (.inl rfl)
        (fun heq => (hf agent).1.trans (hsetup.selects hagent heq)) (hf agent).2

theorem EditsConfig.toggleAgent {agentId : String}
    (hedit : SetupDraft.toggleAgentOrchestrationCapability orchestratorId agentId draft =
      .ok () draft') : EditsConfig True True draft draft' := by
  refine EditsConfig.of_edit hedit fun config config' _ hsetup hok => ?_
  split at hok
  · cases hok
  · next agent hagent =>
      split at hok
      · cases hok
      · next hallowed =>
          cases hok
          exact .setAgent hsetup hagent (.inl rfl)
            (fun heq => absurd ⟨heq, hsetup.selects hagent heq⟩ hallowed) fun h => h

theorem EditsConfig.setSelectorAgent
    (hedit : SetupDraft.setSelectorAgent orchestratorId agentId draft = .ok () draft') :
    EditsConfig True True draft draft' := by
  refine EditsConfig.of_edit hedit fun config config' _ hsetup hok => ?_
  split at hok
  · cases hok
  · next agent hagent =>
      cases hok
      exact .setAgent hsetup hagent (.inr rfl) (fun _ => rfl) fun h => h

end Edits

namespace SetupDraft

variable {draft draft' : SetupDraft}

/-! ## One edit -/

/-- What an edit needs to keep the invariants; most need nothing. -/
def EditKeeps (op : DraftOp) (draft : SetupDraft) : Prop :=
  match op with
  | .toggleStepType o w s =>
    ∀ step, draft.stepAt o w s = some step →
      PriorityIn step (defaultStepOutputContract (otherType step.stepType))
  | .setStepOutputs o w s outputs =>
    "summary" ∈ keyNames outputs ∧
      ∀ step, draft.stepAt o w s = some step → PriorityIn step outputs
  | _ => True

/-- What an edit of a configuration needs to keep its texts. -/
def TextsKept (op : DraftOp) (draft : SetupDraft) : Prop :=
  match op with
  | .addAgent .. => notBlank draft.model = true
  | _ => True

/-- The edits of one configuration; the others edit the defaults and the registry. -/
def editsConfig : DraftOp → Bool
  | .setWorkspacesPath _ | .setDefaultProvider _ | .setDefaultModel _
  | .setDefaultWorkflowTemplate _ | .setPrimaryOrchestrator _ | .ensureMinimumOrchestrator
  | .addOrchestrator _ | .removeOrchestrator _ | .setOrchestratorPrivateWorkspace ..
  | .setOrchestratorSharedAccess .. => false
  | _ => true

/-- The primary orchestrator once this one is gone. -/
def primaryAfterRemoval (draft : SetupDraft) (orchestratorId : String) : String :=
  if draft.orchestratorId = orchestratorId then
    ((OrderedMap.remove orchestratorId draft.orchestrators).head?.map (·.1)).getD
      draft.orchestratorId
  else draft.orchestratorId

def withoutOrchestrator (draft : SetupDraft) (orchestratorId : String) : SetupDraft :=
  { draft with
    orchestrators := OrderedMap.remove orchestratorId draft.orchestrators
    orchestratorConfigs := OrderedMap.remove orchestratorId draft.orchestratorConfigs
    orchestratorId := draft.primaryAfterRemoval orchestratorId }

def withEntry (draft : SetupDraft) (orchestratorId : String) (entry : GlobalOrchestrator) :
    SetupDraft :=
  { draft with orchestrators := OrderedMap.set orchestratorId entry draft.orchestrators }

/-- What an accepted edit does. -/
inductive Edited (draft : SetupDraft) : DraftOp → SetupDraft → Prop where
  | config {op : DraftOp} {draft' : SetupDraft} : editsConfig op = true →
      EditsConfig (EditKeeps op draft) (TextsKept op draft) draft draft' → Edited draft op draft'
  | workspacesPath (value : String) :
      Edited draft (.setWorkspacesPath value) { draft with workspacesPath := value }
  | provider (value : String) :
      Edited draft (.setDefaultProvider value) { draft with provider := value }
  | model (value : String) : Edited draft (.setDefaultModel value) { draft with model := value }
  | template (value : WorkflowTemplate) :
      Edited draft (.setDefaultWorkflowTemplate value) { draft with workflowTemplate := value }
  | primary {id : String} : (draft.orchestrators.lookup id).isSome = true →
      Edited draft (.setPrimaryOrchestrator id) { draft with orchestratorId := id }
  | minimum {draft' : SetupDraft} : ensureMinimumOrchestrator draft = .ok () draft' →
      Edited draft .ensureMinimumOrchestrator draft'
  | added {id : String} {draft' : SetupDraft} : IsIdentifier id →
      insertOrchestrator id draft = .ok draft' → Edited draft (.addOrchestrator id) draft'
  | removed {id : String} : (draft.orchestrators.lookup id).isSome = true →
      1 < draft.orchestrators.length →
        Edited draft (.removeOrchestrator id) (draft.withoutOrchestrator id)
  | privateWorkspace {id : String} {value : Option String} {entry : GlobalOrchestrator} :
      draft.orchestrators.lookup id = some entry →
        Edited draft (.setOrchestratorPrivateWorkspace id value)
          (draft.withEntry id { entry with privateWorkspace := value })
  | sharedAccess {id : String} {value : List String} {entry : GlobalOrchestrator} :
      draft.orchestrators.lookup id = some entry →
        Edited draft (.setOrchestratorSharedAccess id value)
          (draft.withEntry id { entry with sharedAccess := value })

theorem editOrchestrator_eq_ok {id : String} {f : GlobalOrchestrator → GlobalOrchestrator}
    (hedit : editOrchestrator id f draft = .ok () draft') :
    ∃ entry, draft.orchestrators.lookup id = some entry ∧ draft' = draft.withEntry id (f entry) := by
  have hedit := updateWith_eq_ok.mp hedit
  split at hedit <;> cases hedit
  exact ⟨_, ‹_›, rfl⟩

theorem isSome_of_not_isNone {α : Type} {value : Option α} (h : ¬ value.isNone = true) :
    value.isSome = true := by
  rwa [← Option.not_isSome, Bool.not_eq_true', Bool.not_eq_false] at h

theorem edit_cases {op : DraftOp} (hedit : edit op draft = .ok () draft') :
    Edited draft op draft' := by
  unfold edit at hedit
  cases op with
  | setWorkspacesPath value =>
    cases hedit
    exact .workspacesPath value
  | setDefaultProvider value =>
    cases hedit
    exact .provider value
  | setDefaultModel value =>
    cases hedit
    exact .model value
  | setDefaultWorkflowTemplate value =>
    cases hedit
    exact .template value
  | setPrimaryOrchestrator id =>
    have hedit := updateWith_eq_ok.mp hedit
    split at hedit <;> cases hedit
    exact .primary (isSome_of_not_isNone ‹_›)
  | ensureMinimumOrchestrator => exact .minimum hedit
  | addOrchestrator id =>
    obtain ⟨_, hid, hedit⟩ := bind_eq_ok (updateWith_eq_ok.mp hedit)
    split at hedit
    · cases hedit
    · exact .added (identifier_of_ok hid) hedit
  | removeOrchestrator id =>
    have hedit := updateWith_eq_ok.mp hedit
    split at hedit
    · cases hedit
    split at hedit <;> cases hedit
    exact .removed (isSome_of_not_isNone ‹_›) (not_le.mp ‹_›)
  | setOrchestratorPrivateWorkspace id value =>
    obtain ⟨entry, hlookup, rfl⟩ := editOrchestrator_eq_ok hedit
    exact .privateWorkspace hlookup
  | setOrchestratorSharedAccess id value =>
    obtain ⟨entry, hlookup, rfl⟩ := editOrchestrator_eq_ok hedit
    exact .sharedAccess hlookup
  | setOrchestratorDefaultWorkflow o w =>
    obtain ⟨_, -, hedit⟩ := edit_of_check hedit
    refine .config rfl (EditsConfig.of_checked hedit fun config config' _ hok => ?_)
    split at hok <;> cases hok
    exact ⟨rfl, fun h => h.withWorkflows h.workflows _⟩
  | setOrchestratorSelectionMaxRetries o value =>
    refine .config rfl (EditsConfig.setSelectorLimit hedit fun config hpositive hs => ?_)
    exact .of_kept rfl ⟨hs.selector, hs.workflowIds, hs.defaultWorkflow, hs.workflows⟩
      fun h => ⟨hpositive, h.timeout, h.agents, h.workflows⟩
  | setOrchestratorSelectorTimeoutSeconds o value =>
    refine .config rfl (EditsConfig.setSelectorLimit hedit fun config hpositive hs => ?_)
    exact .of_kept rfl ⟨hs.selector, hs.workflowIds, hs.defaultWorkflow, hs.workflows⟩
      fun h => ⟨h.retries, hpositive, h.agents, h.workflows⟩
  | setOrchestratorWorkflowOrchestrationLimit o field value => exact .config rfl (.setLimit hedit)
  | applyWorkflowTemplateToOrchestrator o template =>
    exact .config rfl (.applyWorkflowTemplate hedit)
  | addWorkflow o w => exact .config rfl (.addWorkflow hedit)
  | removeWorkflow o w => exact .config rfl (.removeWorkflow hedit)
  | renameWorkflow o currentId nextId => exact .config rfl (.renameWorkflow hedit)
  | setWorkflowVersion o w value | setWorkflowInputs o w value =>
    obtain ⟨_, -, hedit⟩ := edit_of_check hedit
    refine .config rfl (EditsConfig.of_workflow hedit fun workflow workflow' hok => ?_)
    cases hok
    exact ⟨rfl, rfl, rfl, rfl⟩
  | setWorkflowMaxTotalIterations o w value | setWorkflowRunTimeoutSeconds o w value =>
    exact .config rfl (.setWorkflowLimit hedit)
  | addStep o w s => exact .config rfl (.addStep hedit)
  | removeStep o w s => exact .config rfl (.removeStep hedit)
  | renameStep o w currentId nextId => exact .config rfl (.renameStep hedit)
  | toggleStepType o w s => exact .config rfl (.toggleStepType hedit)
  | setStepAgent o w s agentId => exact .config rfl (.setStepAgent hedit)
  | setStepPrompt o w s prompt => exact .config rfl (.setStepPrompt hedit)
  | toggleStepWorkspaceMode o w s =>
    exact .config rfl (.of_sameStep hedit fun _ => ⟨rfl, rfl, rfl, rfl, rfl, rfl⟩)
  | setStepNext o w s value | setStepOnApprove o w s value | setStepOnReject o w s value =>
    exact .config rfl (.of_sameStep hedit fun _ => ⟨rfl, rfl, rfl, rfl, rfl, rfl⟩)
  | setStepOutputs o w s outputs => exact .config rfl (.setStepOutputs hedit)
  | setStepOutputFiles o w s outputFiles => exact .config rfl (.setStepOutputFiles hedit)
  | setStepMaxRetries o w s maxRetries => exact .config rfl (.setStepMaxRetries hedit)
  | addAgent o agentId => exact .config rfl (.addAgent hedit)
  | removeAgent o agentId => exact .config rfl (.removeAgent hedit)
  | setAgentProvider o agentId provider =>
    obtain ⟨_, -, hedit⟩ := edit_of_check hedit
    exact .config rfl (EditsConfig.editAgent hedit fun _ => ⟨rfl, fun h => h⟩)
  | setAgentModel o agentId model =>
    obtain ⟨_, hcheck, hedit⟩ := edit_of_check hedit
    split at hcheck
    · cases hcheck
    · next hfilled =>
        refine .config rfl (EditsConfig.editAgent hedit fun _ => ⟨rfl, fun _ => ?_⟩)
        simpa [notBlank] using hfilled
  | toggleAgentOrchestrationCapability o agentId => exact .config rfl (.toggleAgent hedit)
  | setSelectorAgent o agentId => exact .config rfl (.setSelectorAgent hedit)

theorem Savable.insertOrchestrator (h : draft.Savable) {orchestratorId : String}
    (hinsert : SetupDraft.insertOrchestrator orchestratorId draft = .ok draft') :
    draft'.Savable := by
  obtain ⟨config, hconfig, hinsert⟩ := bind_eq_ok hinsert
  cases hinsert
  intro entry hentry
  rcases OrderedMap.mem_insert hentry with rfl | hentry
  · exact initialOrchestratorConfig_setup hconfig
  · exact h entry hentry

theorem Savable.edit_iff (h : draft.Savable) {op : DraftOp}
    (hedit : edit op draft = .ok () draft') : draft'.Savable ↔ EditKeeps op draft := by
  cases edit_cases hedit with
  | config _ hconfig =>
    obtain ⟨id, config, config', hlookup, rfl, hkeeps⟩ := hconfig
    exact (h.withConfig_iff hlookup).trans (hkeeps (h.config hlookup)).setup
  | workspacesPath | provider | model | template | primary | privateWorkspace | sharedAccess =>
    exact iff_of_true h trivial
  | minimum hminimum =>
    refine iff_of_true ?_ trivial
    have hminimum := updateWith_eq_ok.mp hminimum
    split at hminimum
    · exact h.insertOrchestrator hminimum
    · cases hminimum
      exact h
  | added _ hinsert => exact iff_of_true (h.insertOrchestrator hinsert) trivial
  | removed =>
    exact iff_of_true (fun entry hentry => h entry (List.mem_of_mem_filter hentry)) trivial

def mainDraft : SetupDraft where
  workspacesPath := "/work"
  orchestratorId := "main"
  provider := "anthropic"
  model := "sonnet"
  workflowTemplate := .minimal
  orchestrators := [("main", {})]
  orchestratorConfigs := [("main", initialConfig "main" .anthropic "sonnet" .minimal)]

theorem mainDraft_savable : mainDraft.Savable := by
  intro entry hentry
  cases List.mem_singleton.mp hentry
  exact initialConfig_setup "main" "sonnet" .anthropic .minimal

end SetupDraft

end Direclaw.Config
