import Direclaw.Config.AcceptedEdits
import Direclaw.Setup.Session

/-!
# The provider of a draft stays known

New orchestrators and agents are built with the provider of the draft, which the source
expects to be one it knows (`expect("default provider is valid")`). Over every session it
is, so no edit and no save panics.
-/

namespace Direclaw.Setup

open Direclaw.Lib Direclaw.Config Direclaw.Orchestration

/-- One of the providers that agents can have. -/
def KnownProvider (draft : SetupDraft) : Prop :=
  ∃ provider, parseProvider draft.provider = .ok provider

/-- The result is not a panic. -/
def Quiet {α : Type} (x : Except DraftError α) : Prop := ∀ reason, x ≠ .error (.panic reason)

/-- An edit that, of a draft with a known provider, does not panic and keeps the provider. -/
structure Calm {α : Type} (edit : EStateM DraftError SetupDraft α) : Prop where
  quiet : ∀ draft, KnownProvider draft → ∀ reason draft', edit draft ≠ .error (.panic reason) draft'
  keeps : ∀ draft, KnownProvider draft → (leaves edit draft).provider = draft.provider

/-! ## Quiet results -/

section Quiet

variable {α β : Type} {x : Except DraftError α}

theorem quiet_ok (a : α) : Quiet (.ok a : Except DraftError α) := fun _ h => by cases h

theorem quiet_refuse (text : String) : Quiet (refuse text : Except DraftError α) :=
  fun _ h => by cases h

theorem quiet_message {x : Except String α} : Quiet (x.mapError DraftError.message) := by
  cases x with
  | ok a => exact quiet_ok a
  | error text => exact fun _ h => by cases h

theorem Quiet.bind {f : α → Except DraftError β} (hx : Quiet x) (hf : ∀ a, Quiet (f a)) :
    Quiet (x >>= f) := by
  cases x with
  | ok a => exact hf a
  | error e =>
    intro reason h
    cases h
    exact hx reason rfl

theorem quiet_ite {c : Prop} [Decidable c] {y : Except DraftError α} (hx : Quiet x)
    (hy : Quiet y) : Quiet (if c then x else y) := by
  split
  · exact hx
  · exact hy

theorem quiet_validateIdentifier (kind value : String) :
    Quiet (Config.validateIdentifier kind value) :=
  quiet_message

theorem quiet_initialOrchestratorConfig {id provider model : String} {template : WorkflowTemplate}
    (h : ∃ known, parseProvider provider = .ok known) :
    Quiet (initialOrchestratorConfig id provider model template) := by
  obtain ⟨known, h⟩ := h
  rw [initialOrchestratorConfig, h]
  exact quiet_ok _

theorem quiet_editWorkflowIn {missing workflowId : String}
    {f : WorkflowConfig → Except DraftError WorkflowConfig} (hf : ∀ workflow, Quiet (f workflow))
    (config : OrchestratorConfig) : Quiet (editWorkflowIn missing workflowId f config) := by
  unfold editWorkflowIn
  split
  · exact quiet_refuse _
  · exact (hf _).bind fun _ => quiet_ok _

theorem quiet_editStepIn {missing stepId : String}
    {f : WorkflowStepConfig → Except DraftError WorkflowStepConfig} (hf : ∀ step, Quiet (f step))
    (workflow : WorkflowConfig) : Quiet (editStepIn missing stepId f workflow) := by
  unfold editStepIn
  split
  · exact quiet_refuse _
  · exact (hf _).bind fun _ => quiet_ok _

end Quiet

/-! ## Calm edits -/

section Calm

variable {α β : Type}

theorem Calm.bind {x : EStateM DraftError SetupDraft α} {f : α → EStateM DraftError SetupDraft β}
    (hx : Calm x) (hf : ∀ a, Calm (f a)) : Calm (x >>= f) where
  quiet draft hknown reason draft' herror := by
    rcases of_bind_eq_error herror with hfirst | ⟨a, held, hok, hrest⟩
    · exact hx.quiet draft hknown reason draft' hfirst
    · refine (hf a).quiet held ?_ reason draft' hrest
      rw [KnownProvider, ← leaves_of_ok hok, hx.keeps draft hknown]
      exact hknown
  keeps draft hknown := by
    have hkept := hx.keeps draft hknown
    cases hok : x draft with
    | ok a held =>
      rw [leaves_of_ok hok] at hkept
      have hrest := (hf a).keeps held (by rw [KnownProvider, hkept]; exact hknown)
      simp only [leaves, bind_of_ok hok] at hrest ⊢
      rw [hrest, hkept]
    | error e held =>
      rw [leaves_of_error hok] at hkept
      rw [leaves_of_error (bind_of_error hok), hkept]

/-- An edit that builds on the draft as it is. -/
theorem calm_get {f : SetupDraft → EStateM DraftError SetupDraft β}
    (hf : ∀ draft, KnownProvider draft → Calm (f draft)) : Calm (get >>= f) where
  quiet draft hknown := (hf draft hknown).quiet draft hknown
  keeps draft hknown := (hf draft hknown).keeps draft hknown

theorem calm_ofResult {x : Except DraftError α} (hx : Quiet x) :
    Calm (ofResult x : EStateM DraftError SetupDraft α) where
  quiet draft _ reason draft' herror := by
    cases x with
    | ok a => cases herror
    | error e =>
      cases herror
      exact hx reason rfl
  keeps draft _ := by cases x <;> rfl

theorem calm_updateWith {f : SetupDraft → Except DraftError SetupDraft}
    (hquiet : ∀ draft, KnownProvider draft → Quiet (f draft))
    (hkeeps : ∀ draft draft', f draft = .ok draft' → draft'.provider = draft.provider) :
    Calm (updateWith f) where
  quiet draft hknown reason draft' herror := by
    unfold updateWith at herror
    split at herror
    · cases herror
    · next e he =>
        cases herror
        exact hquiet draft hknown reason he
  keeps draft _ := by
    have hleaves := leaves_updateWith (f := f) (s := draft)
      (R := fun s t : SetupDraft => t.provider = s.provider) rfl (hkeeps draft)
    exact hleaves

theorem calm_editOrchestrator (orchestratorId : String)
    (f : GlobalOrchestrator → GlobalOrchestrator) : Calm (editOrchestrator orchestratorId f) := by
  refine calm_updateWith (fun draft _ => ?_) fun draft draft' hok => ?_
  · split
    · exact quiet_refuse _
    · exact quiet_ok _
  · split at hok <;> cases hok
    rfl

/-- The edit of a configuration may build on what the draft knows. -/
theorem calm_editConfig {missing orchestratorId : String}
    {f : OrchestratorConfig → Except DraftError OrchestratorConfig}
    (hf : ∀ config, Quiet (f config)) : Calm (editConfig missing orchestratorId f) := by
  refine calm_updateWith (fun draft _ => ?_) fun draft draft' hok => ?_
  · split
    · exact quiet_refuse _
    · exact (hf _).bind fun _ => quiet_ok _
  · split at hok
    · cases hok
    · obtain ⟨config, -, hok⟩ := bind_eq_ok hok
      cases hok
      rfl

theorem calm_validateOrchestratorInvariants (orchestratorId : String) :
    Calm (validateOrchestratorInvariants orchestratorId) where
  quiet draft _ reason draft' herror := by
    unfold validateOrchestratorInvariants at herror
    split at herror
    · cases herror
    · split at herror <;> cases herror
  keeps draft _ := by
    unfold leaves validateOrchestratorInvariants
    cases draft.orchestratorConfigs.lookup orchestratorId with
    | none => rfl
    | some config =>
      simp only
      cases validateSetupInvariants config <;> rfl

theorem calm_editAndValidate {missing orchestratorId : String}
    {f : OrchestratorConfig → Except DraftError OrchestratorConfig}
    (hf : ∀ config, Quiet (f config)) : Calm (editAndValidate missing orchestratorId f) :=
  (calm_editConfig hf).bind fun _ => calm_validateOrchestratorInvariants orchestratorId

theorem calm_editWorkflow {orchestratorId workflowId : String}
    {f : WorkflowConfig → Except DraftError WorkflowConfig} (hf : ∀ workflow, Quiet (f workflow)) :
    Calm (editWorkflow orchestratorId workflowId f) :=
  calm_editConfig (quiet_editWorkflowIn hf)

theorem calm_editStep {orchestratorId workflowId stepId : String}
    {f : WorkflowStepConfig → Except DraftError WorkflowStepConfig} (hf : ∀ step, Quiet (f step)) :
    Calm (editStep orchestratorId workflowId stepId f) :=
  calm_editConfig (quiet_editWorkflowIn (quiet_editStepIn hf))

theorem calm_editAgent {orchestratorId agentId : String} {f : AgentConfig → AgentConfig} :
    Calm (SetupDraft.editAgent orchestratorId agentId f) := by
  refine calm_editConfig fun config => ?_
  split
  · exact quiet_refuse _
  · exact quiet_ok _

end Calm

/-! ## Every edit -/

/-- An edit the orchestrator manager makes, or a change of the default model or of the
workspace: any but of the default provider. -/
def KeepsProvider : DraftOp → Prop
  | .setDefaultProvider _ => False
  | _ => True

theorem quiet_insertOrchestrator {draft : SetupDraft} (h : KnownProvider draft)
    (orchestratorId : String) : Quiet (SetupDraft.insertOrchestrator orchestratorId draft) :=
  (quiet_initialOrchestratorConfig h).bind fun _ => quiet_ok _

variable {draft draft' : SetupDraft}

theorem provider_insertOrchestrator {orchestratorId : String}
    (h : SetupDraft.insertOrchestrator orchestratorId draft = .ok draft') :
    draft'.provider = draft.provider := by
  obtain ⟨config, -, h⟩ := bind_eq_ok h
  cases h
  rfl

theorem known_providerModelForOrchestrator (h : KnownProvider draft) (orchestratorId : String) :
    ∃ provider, parseProvider (draft.providerModelForOrchestrator orchestratorId).1 =
      .ok provider := by
  unfold SetupDraft.providerModelForOrchestrator
  simp only
  split
  · exact ⟨_, parseProvider_providerText _⟩
  · exact h

theorem quiet_parseWorkflowInputs (values keys : List String) :
    Quiet (SetupDraft.parseWorkflowInputs values keys) := by
  induction keys generalizing values with
  | nil => exact quiet_ok values
  | cons raw rest ih => exact (quiet_validateIdentifier _ _).bind fun _ => ih _

theorem quiet_ensureMapped (outputs : List OutputKey) (outputFiles : List (String × String)) :
    Quiet (SetupDraft.ensureMapped outputs outputFiles) := by
  unfold SetupDraft.ensureMapped
  split
  · exact quiet_refuse _
  · exact quiet_ok ()

theorem calm_setSelectorLimit (what orchestratorId : String) (value : ℕ)
    (f : OrchestratorConfig → OrchestratorConfig) :
    Calm (SetupDraft.setSelectorLimit what orchestratorId value f) :=
  (calm_ofResult (quiet_ite (quiet_refuse _) (quiet_ok ()))).bind fun _ =>
    calm_editConfig fun _ => quiet_ok _

theorem calm_setWorkflowLimit (what orchestratorId workflowId : String) (value : Option ℕ)
    (assign : WorkflowLimitsConfig → WorkflowLimitsConfig) :
    Calm (SetupDraft.setWorkflowLimit what orchestratorId workflowId value assign) := by
  refine calm_editWorkflow fun workflow => ?_
  cases value with
  | none => exact quiet_ok _
  | some parsed => exact quiet_ite (quiet_refuse _) (quiet_ok _)

theorem calm_setOrchestratorWorkflowOrchestrationLimit (orchestratorId : String)
    (field : OrchestrationLimitField) (value : Option ℕ) :
    Calm (SetupDraft.setOrchestratorWorkflowOrchestrationLimit orchestratorId field value) := by
  unfold SetupDraft.setOrchestratorWorkflowOrchestrationLimit
  cases value with
  | none => exact calm_editConfig fun _ => quiet_ok _
  | some parsed =>
    refine (calm_editConfig fun _ => quiet_ite (quiet_refuse _) (quiet_ok _)).bind fun _ => ?_
    refine (calm_ofResult (quiet_ite (quiet_refuse _) (quiet_ok ()))).bind fun _ => ?_
    exact calm_editConfig fun _ => quiet_ok _

theorem calm_insert {f : SetupDraft → Except DraftError SetupDraft}
    (h : ∀ draft, f draft = .ok draft ∨ (∃ text, f draft = refuse text) ∨
      ∃ orchestratorId, f draft = SetupDraft.insertOrchestrator orchestratorId draft) :
    Calm (updateWith f) := by
  refine calm_updateWith (fun draft hknown => ?_) fun draft draft' hok => ?_
  · rcases h draft with heq | ⟨text, heq⟩ | ⟨orchestratorId, heq⟩ <;> rw [heq]
    · exact quiet_ok _
    · exact quiet_refuse _
    · exact quiet_insertOrchestrator hknown _
  · rcases h draft with heq | ⟨text, heq⟩ | ⟨orchestratorId, heq⟩ <;> rw [heq] at hok
    · cases hok
      rfl
    · cases hok
    · exact provider_insertOrchestrator hok

theorem calm_ensureMinimumOrchestrator : Calm SetupDraft.ensureMinimumOrchestrator := by
  refine calm_insert fun draft => ?_
  split
  · exact .inr (.inr ⟨"main", rfl⟩)
  · exact .inl rfl

theorem calm_addOrchestrator (orchestratorId : String) :
    Calm (SetupDraft.addOrchestrator orchestratorId) := by
  refine calm_insert fun draft => ?_
  cases hid : Config.validateIdentifier "orchestrator id" orchestratorId with
  | error e =>
    cases e with
    | message text => exact .inr (.inl ⟨text, rfl⟩)
    | panic reason => exact absurd hid (quiet_validateIdentifier _ _ reason)
  | ok u =>
    simp only [bind, Except.bind]
    split
    · exact .inr (.inl ⟨_, rfl⟩)
    · exact .inr (.inr ⟨orchestratorId, rfl⟩)

theorem calm_applyWorkflowTemplateToOrchestrator (orchestratorId : String)
    (template : WorkflowTemplate) :
    Calm (SetupDraft.applyWorkflowTemplateToOrchestrator orchestratorId template) := by
  refine calm_get fun draft hknown => ?_
  refine (calm_ofResult (quiet_initialOrchestratorConfig
    (known_providerModelForOrchestrator hknown orchestratorId))).bind fun _ => ?_
  exact calm_editAndValidate fun _ => quiet_ok _

theorem calm_addAgent (orchestratorId agentId : String) :
    Calm (SetupDraft.addAgent orchestratorId agentId) := by
  refine (calm_ofResult (quiet_validateIdentifier _ _)).bind fun _ => calm_get fun draft hknown => ?_
  obtain ⟨provider, hprovider⟩ := hknown
  refine calm_editAndValidate fun config => quiet_ite (quiet_refuse _) ?_
  rw [hprovider]
  exact quiet_ok _

/-- **Every edit.** -/
theorem calm_edit {op : DraftOp} (h : KeepsProvider op) : Calm (SetupDraft.edit op) := by
  cases op with
  | setDefaultProvider provider => exact h.elim
  | setWorkspacesPath value | setDefaultModel value | setDefaultWorkflowTemplate value =>
    refine calm_updateWith (fun draft _ => quiet_ok _) fun draft draft' hok => ?_
    cases hok
    rfl
  | ensureMinimumOrchestrator => exact calm_ensureMinimumOrchestrator
  | addOrchestrator o => exact calm_addOrchestrator o
  | setOrchestratorPrivateWorkspace o value | setOrchestratorSharedAccess o value =>
    exact calm_editOrchestrator o _
  | setOrchestratorSelectionMaxRetries o value | setOrchestratorSelectorTimeoutSeconds o value =>
    exact calm_setSelectorLimit _ o value _
  | setOrchestratorWorkflowOrchestrationLimit o field value =>
    exact calm_setOrchestratorWorkflowOrchestrationLimit o field value
  | applyWorkflowTemplateToOrchestrator o template =>
    exact calm_applyWorkflowTemplateToOrchestrator o template
  | addAgent o agentId => exact calm_addAgent o agentId
  | setWorkflowMaxTotalIterations o w value =>
    exact calm_setWorkflowLimit "max_total_iterations" o w value
      fun limits => { limits with maxTotalIterations := value }
  | setWorkflowRunTimeoutSeconds o w value =>
    exact calm_setWorkflowLimit "run_timeout_seconds" o w value
      fun limits => { limits with runTimeoutSeconds := value }
  | setPrimaryOrchestrator o =>
    refine calm_updateWith (fun draft _ => quiet_ite (quiet_refuse _) (quiet_ok _))
      fun draft draft' hok => ?_
    split at hok <;> cases hok
    rfl
  | removeOrchestrator o =>
    refine calm_updateWith (fun draft _ => quiet_ite (quiet_refuse _)
      (quiet_ite (quiet_refuse _) (quiet_ok _))) fun draft draft' hok => ?_
    split at hok
    · cases hok
    · split at hok <;> cases hok
      rfl
  | setOrchestratorDefaultWorkflow o w =>
    exact (calm_ofResult (quiet_validateIdentifier _ _)).bind fun _ =>
      calm_editAndValidate fun config => quiet_ite (quiet_ok _) (quiet_refuse _)
  | addWorkflow o w =>
    exact (calm_ofResult (quiet_validateIdentifier _ _)).bind fun _ =>
      calm_editAndValidate fun config => quiet_ite (quiet_refuse _)
        (((quiet_validateIdentifier _ _).bind fun _ => quiet_ok _).bind fun _ => quiet_ok _)
  | removeWorkflow o w =>
    exact calm_editAndValidate fun config => quiet_ite (quiet_refuse _)
      (quiet_ite (quiet_refuse _) (quiet_ok _))
  | renameWorkflow o currentId nextId =>
    exact (calm_ofResult (quiet_validateIdentifier _ _)).bind fun _ =>
      calm_editAndValidate fun config => quiet_ite (quiet_refuse _)
        ((quiet_editWorkflowIn (fun _ => quiet_ok _) config).bind fun _ => quiet_ok _)
  | setWorkflowVersion o w version =>
    exact (calm_ofResult (quiet_ite (quiet_refuse _) (quiet_ok ()))).bind fun _ =>
      calm_editWorkflow fun _ => quiet_ok _
  | setWorkflowInputs o w keys =>
    exact (calm_ofResult (quiet_parseWorkflowInputs [] keys)).bind fun _ =>
      calm_editWorkflow fun _ => quiet_ok _
  | addStep o w step =>
    exact (calm_ofResult (quiet_validateIdentifier _ _)).bind fun _ =>
      calm_editAndValidate fun config => quiet_editWorkflowIn
        (fun _ => quiet_ite (quiet_refuse _) (quiet_ok _)) config
  | removeStep o w step =>
    exact calm_editAndValidate (quiet_editWorkflowIn fun _ => quiet_ite (quiet_refuse _)
      (quiet_ite (quiet_refuse _) (quiet_ok _)))
  | renameStep o w currentId nextId =>
    exact (calm_ofResult (quiet_validateIdentifier _ _)).bind fun _ =>
      calm_editWorkflow fun workflow => quiet_ite (quiet_refuse _)
        (quiet_editStepIn (fun _ => quiet_ok _) workflow)
  | toggleStepType o w step | toggleStepWorkspaceMode o w step =>
    exact calm_editStep fun _ => quiet_ok _
  | setStepNext o w step value | setStepOnApprove o w step value | setStepOnReject o w step value =>
    exact calm_editStep fun _ => quiet_ok _
  | setStepAgent o w step agentId =>
    refine (calm_ofResult (quiet_ite (quiet_refuse _) (quiet_ok ()))).bind fun _ =>
      calm_editConfig fun config => quiet_ite (quiet_refuse _) ?_
    exact quiet_editWorkflowIn (quiet_editStepIn fun _ => quiet_ok _) config
  | setStepPrompt o w step prompt =>
    exact (calm_ofResult (quiet_ite (quiet_refuse _) (quiet_ok ()))).bind fun _ =>
      calm_editStep fun _ => quiet_ok _
  | setStepOutputs o w step outputs =>
    exact (calm_ofResult (quiet_ite (quiet_refuse _) (quiet_ok ()))).bind fun _ =>
      calm_editStep fun _ => (quiet_ensureMapped _ _).bind fun _ => quiet_ok _
  | setStepOutputFiles o w step outputFiles =>
    exact (calm_ofResult (quiet_ite (quiet_refuse _) (quiet_ok ()))).bind fun _ =>
      calm_editStep fun _ => (quiet_ensureMapped _ _).bind fun _ => quiet_ok _
  | setStepMaxRetries o w step maxRetries =>
    refine calm_editStep fun _ => ?_
    cases maxRetries with
    | none => exact quiet_ok _
    | some parsed => exact quiet_ite (quiet_refuse _) (quiet_ok _)
  | removeAgent o agentId =>
    exact calm_editAndValidate fun config => quiet_ite (quiet_refuse _)
      (quiet_ite (quiet_refuse _) (quiet_ok _))
  | setAgentProvider o agentId provider =>
    exact (calm_ofResult quiet_message).bind fun _ => calm_editAgent
  | setAgentModel o agentId model =>
    exact (calm_ofResult (quiet_ite (quiet_refuse _) (quiet_ok ()))).bind fun _ => calm_editAgent
  | toggleAgentOrchestrationCapability o agentId =>
    refine calm_editConfig fun config => ?_
    split
    · exact quiet_refuse _
    · exact quiet_ite (quiet_refuse _) (quiet_ok _)
  | setSelectorAgent o agentId =>
    refine calm_editConfig fun config => ?_
    split
    · exact quiet_refuse _
    · exact quiet_ok _

/-! ## Every session -/

theorem known_applyEdits {ops : List DraftOp} (hops : ∀ op ∈ ops, KeepsProvider op)
    (h : KnownProvider draft) : KnownProvider (applyEdits ops draft) := by
  induction ops generalizing draft with
  | nil => exact h
  | cons op ops ih =>
    refine ih (fun other hother => hops other (List.mem_cons_of_mem op hother)) ?_
    rw [KnownProvider, (calm_edit (hops op List.mem_cons_self)).keeps draft h]
    exact h

theorem known_toggleDefaultProvider (draft : SetupDraft) :
    KnownProvider (toggleDefaultProvider draft).1 := by
  have hnext : ∀ provider ∈ ["openai", "anthropic"], ∀ held : SetupDraft,
      KnownProvider { held with provider } := by
    intro provider hmem held
    simp only [List.mem_cons, List.not_mem_nil, or_false] at hmem
    rcases hmem with rfl | rfl
    · exact ⟨.openAi, parseProvider_providerText .openAi⟩
    · exact ⟨.anthropic, parseProvider_providerText .anthropic⟩
  have hmodel : ∀ {held : SetupDraft} (model : String), KnownProvider held →
      KnownProvider (applyEdits [.setDefaultModel model] held) := fun model hheld =>
    known_applyEdits (fun op hop => by rw [List.mem_singleton.mp hop]; trivial) hheld
  unfold toggleDefaultProvider
  extract_lets nextProvider held bootstrap
  have hheld : KnownProvider held := by
    refine hnext nextProvider ?_ draft
    show (if draft.provider = "anthropic" then "openai" else "anthropic") ∈ _
    split <;> simp
  show KnownProvider bootstrap
  simp only [bootstrap]
  split
  · exact hmodel _ hheld
  · exact hheld

namespace SetupSession

variable {s : SetupSession}

/-- The manager has no edit of the default provider. -/
def Managed (input : TuiInput) : Prop :=
  ∀ key screens, input = .key key screens → ∀ op ∈ screens.managerEdits, KeepsProvider op

theorem known_promptEdit (h : KnownProvider s.bootstrap) (prompt : Except String (Option String))
    (edit : String → DraftOp) (hedit : ∀ value, KeepsProvider (edit value)) (blank done : String) :
    KnownProvider (s.promptEdit prompt edit blank done).bootstrap := by
  unfold promptEdit
  split
  · exact h
  · exact h
  · extract_lets trimmed
    split
    · exact h
    · exact known_applyEdits (fun op hop => List.mem_singleton.mp hop ▸ hedit trimmed) h

theorem known_applySetupEffectTui (h : KnownProvider s.bootstrap) {screens : Screens}
    (hedits : ∀ op ∈ screens.managerEdits, KeepsProvider op) (effect : SetupNavEffect) :
    KnownProvider (s.applySetupEffectTui screens effect).bootstrap := by
  cases effect with
  | none | openScreen screen | saveSetup | cancelSetup => exact h
  | openOrchestratorManager =>
    simp only [applySetupEffectTui]
    split
    · exact known_applyEdits hedits h
    · rw [bootstrap_withFeedback]
      exact known_applyEdits hedits h
  | editWorkspacePath =>
    exact known_promptEdit h _ .setWorkspacesPath (fun _ => trivial) _ _
  | editDefaultModel => exact known_promptEdit h _ .setDefaultModel (fun _ => trivial) _ _
  | toggleDefaultProvider => exact known_toggleDefaultProvider s.bootstrap

theorem known_tuiTurn (hfits : s.nav.Fits) (h : KnownProvider s.bootstrap) {input : TuiInput}
    (hinput : Managed input) : KnownProvider (s.tuiTurn input).bootstrap := by
  unfold tuiTurn
  split
  · exact h
  · rw [reconcile_of_fits hfits]
    cases input with
    | idle | failed err => exact h
    | key key screens =>
      simp only
      split
      · exact h
      · split
        · exact h
        · refine known_applySetupEffectTui ?_ (hinput key screens rfl) _
          rw [bootstrap_withFeedback]
          exact h

end SetupSession

theorem known_run {bootstrap : SetupDraft} (h : KnownProvider bootstrap)
    {inputs : List SetupSession.TuiInput} (hinputs : ∀ input ∈ inputs, SetupSession.Managed input) :
    KnownProvider (runSetupTui bootstrap inputs).bootstrap := by
  have hmeets : Meets SetupSession.tuiTurn (fun _ input => SetupSession.Managed input)
      { bootstrap } inputs :=
    meets_of_invariant (I := fun _ => True) (fun _ input hinput _ => ⟨hinputs input hinput, trivial⟩)
      trivial
  have hrun : (runSetupTui bootstrap inputs).nav.Fits ∧
      KnownProvider (runSetupTui bootstrap inputs).bootstrap :=
    run_invariant (I := fun s : SetupSession => s.nav.Fits ∧ KnownProvider s.bootstrap)
      (fun s input hs hinput =>
        ⟨SetupSession.fits_tuiTurn hs.1 input, SetupSession.known_tuiTurn hs.1 hs.2 hinput⟩)
      ⟨NavState.fits_root _, h⟩ hmeets
  exact hrun.2

/-! ## Saving -/

theorem calm_ensurePrimaryOrchestrator : Calm ensurePrimaryOrchestrator := by
  refine calm_updateWith (fun draft hknown => ?_) fun draft draft' hok => ?_
  · dsimp only
    split
    · exact (quiet_ok _).bind fun _ => quiet_ok _
    · exact (quiet_initialOrchestratorConfig hknown).bind fun _ => quiet_ok _
  · dsimp only at hok
    split at hok <;>
      obtain ⟨config, -, hok⟩ := bind_eq_ok hok <;>
      cases hok <;> rfl

theorem quiet_validateBootstrapConfigs (settings : GlobalSettings) (draft : SetupDraft)
    (ids : List String) (reason : String) :
    validateBootstrapConfigs settings draft ids ≠ .error (.draft (.panic reason)) := by
  induction ids with
  | nil => rintro ⟨⟩
  | cons orchestratorId rest ih =>
    intro herror
    unfold validateBootstrapConfigs at herror
    rcases bind_eq_error herror with hid | ⟨_, -, herror⟩
    · cases hvalid : Config.validateIdentifier "orchestrator id" orchestratorId with
      | ok u =>
        rw [hvalid] at hid
        cases hid
      | error e =>
        rw [hvalid] at hid
        cases hid
        exact quiet_validateIdentifier _ _ reason hvalid
    · split at herror
      · cases herror
      · rcases bind_eq_error herror with hconfig | ⟨_, -, herror⟩
        · rename_i config _
          cases hvalid : config.validate settings.routing orchestratorId with
          | ok u =>
            rw [hvalid] at hconfig
            cases hconfig
          | error e =>
            rw [hvalid] at hconfig
            cases hconfig
        · exact ih herror

theorem calm_adaptError {edit : Edit} (h : Calm edit) (hknown : KnownProvider draft)
    (reason : String) :
    adaptError NormalizeError.draft edit draft ≠ .error (.draft (.panic reason)) draft' := by
  intro herror
  unfold adaptError at herror
  split at herror
  · cases herror
  · next e held he =>
      cases herror
      exact h.quiet draft hknown reason draft' he

theorem known_of_ok {edit : Edit} (h : Calm edit) {u : Unit}
    (hok : adaptError NormalizeError.draft edit draft = .ok u draft') (hknown : KnownProvider draft)
    : KnownProvider draft' := by
  rw [KnownProvider, ← leaves_of_ok (adaptError_eq_ok.mp hok), h.keeps draft hknown]
  exact hknown

theorem quiet_validateSetupBootstrap (settings : GlobalSettings) (draft : SetupDraft)
    (reason : String) :
    validateSetupBootstrap settings draft ≠ .error (.draft (.panic reason)) := by
  intro herror
  unfold validateSetupBootstrap at herror
  split at herror
  · cases herror
  · split at herror
    · cases herror
    · rcases bind_eq_error herror with hconfigs | ⟨_, -, herror⟩
      · exact quiet_validateBootstrapConfigs settings draft _ reason hconfigs
      · split at herror <;> cases herror

/-- The part of `normalize_for_save` after the two edits. -/
theorem normalize_checks_quiet (fs : FileSystem) (settings : GlobalSettings) (reason : String) :
    (do
      ofResult ((settings.validate ⟨false⟩ fs).mapError .settings)
      ofResult (validateSetupBootstrap settings draft)
      return settings : EStateM NormalizeError SetupDraft GlobalSettings) draft ≠
        .error (.draft (.panic reason)) draft' := by
  intro herror
  rcases of_bind_eq_error herror with hsettings | ⟨_, held, -, herror⟩
  · cases hvalid : settings.validate ⟨false⟩ fs with
    | ok u =>
      rw [hvalid] at hsettings
      cases hsettings
    | error e =>
      rw [hvalid] at hsettings
      cases hsettings
  · rcases of_bind_eq_error herror with hbootstrap | ⟨_, held', -, herror⟩
    · cases hvalid : validateSetupBootstrap settings draft with
      | ok u =>
        rw [hvalid] at hbootstrap
        cases hbootstrap
      | error e =>
        rw [hvalid] at hbootstrap
        cases hbootstrap
        exact quiet_validateSetupBootstrap settings draft reason hvalid
    · cases herror

theorem normalizeForSave_quiet (hknown : KnownProvider draft) (fs : FileSystem)
    (existing : Option GlobalSettings) (reason : String) :
    normalizeForSave fs existing draft ≠ .error (.draft (.panic reason)) draft' := by
  intro herror
  rcases of_bind_eq_error herror with hfirst | ⟨_, held, hok, herror⟩
  · exact calm_adaptError calm_ensureMinimumOrchestrator hknown reason hfirst
  have hheld := known_of_ok calm_ensureMinimumOrchestrator hok hknown
  rcases of_bind_eq_error herror with hsecond | ⟨_, held', hok', herror⟩
  · exact calm_adaptError calm_ensurePrimaryOrchestrator hheld reason hsecond
  exact normalize_checks_quiet fs (draftSettings held' existing) reason herror

/-- **No session panics.** From a draft whose provider is known, after any keys and any
edits in the screens under them, neither any further edit nor the save panics. The edits
of the manager are made one after the other: those of a shorter visit are a session too. -/
theorem session_never_panics {bootstrap : SetupDraft} (hknown : KnownProvider bootstrap)
    {inputs : List SetupSession.TuiInput} (hinputs : ∀ input ∈ inputs, SetupSession.Managed input) :
    (∀ op, KeepsProvider op → ∀ reason draft',
      SetupDraft.edit op (runSetupTui bootstrap inputs).bootstrap ≠
        .error (.panic reason) draft') ∧
      ∀ fs existing reason draft',
        normalizeForSave fs existing (runSetupTui bootstrap inputs).bootstrap ≠
          .error (.draft (.panic reason)) draft' := by
  have hrun := known_run hknown hinputs
  exact ⟨fun op hop => (calm_edit hop).quiet _ hrun,
    fun fs existing reason draft' => normalizeForSave_quiet hrun fs existing reason⟩

/-- The provider is changed, then an orchestrator is added. -/
def providerSession : List SetupSession.TuiInput :=
  [.key { code := .down } {}, .key { code := .down } {}, .key { code := .enter } {},
    .key { code := .char 't' } {}, .key { code := .esc } {}, .key { code := .down } {},
    .key { code := .enter } { managerEdits := [.addOrchestrator "second"] },
    .key { code := .char 's' } {}]

theorem session_never_panics_toggled :
    (∀ op, KeepsProvider op → ∀ reason draft',
      SetupDraft.edit op (runSetupTui SetupDraft.mainDraft providerSession).bootstrap ≠
        .error (.panic reason) draft') ∧
      ∀ fs existing reason draft',
        normalizeForSave fs existing (runSetupTui SetupDraft.mainDraft providerSession).bootstrap ≠
          .error (.draft (.panic reason)) draft' := by
  have hknown : KnownProvider SetupDraft.mainDraft :=
    ⟨.anthropic, parseProvider_providerText .anthropic⟩
  refine session_never_panics hknown ?_
  intro input hinput key screens heq op hop
  subst heq
  simp only [providerSession, List.mem_cons, SetupSession.TuiInput.key.injEq, List.not_mem_nil,
    or_false] at hinput
  have hedits : screens.managerEdits = [] ∨ screens.managerEdits = [.addOrchestrator "second"] := by
    rcases hinput with h | h | h | h | h | h | h | h <;> rw [h.2] <;> simp
  rcases hedits with h | h
  · rw [h] at hop
    cases hop
  · rw [h] at hop
    rw [List.mem_singleton.mp hop]
    trivial

end Direclaw.Setup
