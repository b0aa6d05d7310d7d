import Direclaw.Orchestration.ConfigValidation
import Direclaw.Orchestration.CrashResume

/-!
# Transitions of a validated configuration

Validation leaves `next`, `on_approve` and `on_reject` alone: a target is looked up when
the transition is taken. The engine therefore never searches a step that is not declared,
and what an undeclared target costs is the attempt that takes it.
-/

namespace Direclaw.Orchestration

open Direclaw.Lib

/-! ## Targets -/

/-- The pointer, if there is one, names a step of the workflow. -/
def Declares (workflow : WorkflowConfig) (next : Option String) : Prop :=
  ∀ id, next = some id → ∃ step, findStep workflow id = .ok step

/-- The target that a step's outputs lead to, for a review that is decided. -/
def takenTarget (workflow : WorkflowConfig) (step : WorkflowStepConfig) (parsed : Outputs) :
    Option String :=
  match step.stepType with
  | .agentReview =>
    match parseReviewDecision parsed with
    | .ok .approve => step.onApprove
    | .ok .reject => step.onReject
    | .error _ => none
  | .agentTask => step.next.or (nextStepInWorkflow workflow step.id)

/-- The transition taken has no target although it needs one, or an undeclared one. -/
def Dangling (workflow : WorkflowConfig) (step : WorkflowStepConfig) (parsed : Outputs) : Prop :=
  (step.stepType = .agentReview ∧ takenTarget workflow step parsed = none) ∨
    ∃ target, takenTarget workflow step parsed = some target ∧
      target ∉ workflow.steps.map (·.id)

/-- The outputs meet the step's contract, and a review is decided. -/
def MeetsContract (step : WorkflowStepConfig) (parsed : Outputs) : Prop :=
  validateOutputsContract step parsed = .ok () ∧
    (step.stepType = .agentReview → ∃ decision, parseReviewDecision parsed = .ok decision)

theorem findStep_of_mem {workflow : WorkflowConfig} {id : String}
    (h : id ∈ workflow.steps.map (·.id)) : ∃ step, findStep workflow id = .ok step := by
  obtain ⟨step, hstep, rfl⟩ := List.mem_map.mp h
  have hfound : (workflow.steps.find? (·.id == step.id)).isSome := by
    rw [List.find?_isSome]
    exact ⟨step, hstep, by simp⟩
  obtain ⟨found, hfind⟩ := Option.isSome_iff_exists.mp hfound
  exact ⟨found, by rw [findStep, hfind]⟩

theorem validateTransitionTarget_cases (workflow : WorkflowConfig) (step : WorkflowStepConfig)
    (target : Option String) (reason : String) :
    (∀ id, target = some id → id ∈ workflow.steps.map (·.id)) ∧
        validateTransitionTarget workflow step target reason = .ok target ∨
      (∃ id, target = some id ∧ id ∉ workflow.steps.map (·.id)) ∧
        ∃ text, validateTransitionTarget workflow step target reason =
          .error (.transitionValidation step.id text) := by
  cases target with
  | none => exact .inl ⟨by simp, rfl⟩
  | some id =>
    have hmem : workflow.steps.any (·.id == id) = true ↔ id ∈ workflow.steps.map (·.id) := by
      simp
    by_cases hany : workflow.steps.any (·.id == id) = true
    · left
      refine ⟨?_, by rw [validateTransitionTarget, if_pos hany]⟩
      rintro _ ⟨⟩
      exact hmem.mp hany
    · right
      exact ⟨⟨id, rfl, mt hmem.mpr hany⟩, _, by rw [validateTransitionTarget, if_neg hany]⟩

/-- The end of a review's evaluation. -/
def reviewResult (workflow : WorkflowConfig) (step : WorkflowStepConfig) (parsed : Outputs)
    (target : Option String) (missing : String) : Except OrchestratorError StepEvaluation := do
  if target.isNone then
    throw (.transitionValidation step.id missing)
  let next ← validateTransitionTarget workflow step target "review transition"
  return { outputs := parsed, nextStepId := next }

variable {step : WorkflowStepConfig} {parsed : Outputs}

theorem reviewResult_cases {workflow : WorkflowConfig} (htype : step.stepType = .agentReview)
    (missing : String) :
    (¬ Dangling workflow step parsed ∧
        reviewResult workflow step parsed (takenTarget workflow step parsed) missing =
          .ok { outputs := parsed, nextStepId := takenTarget workflow step parsed }) ∨
      Dangling workflow step parsed ∧ ∃ text,
        reviewResult workflow step parsed (takenTarget workflow step parsed) missing =
          .error (.transitionValidation step.id text) := by
  unfold Dangling
  cases takenTarget workflow step parsed with
  | none => exact .inr ⟨.inl ⟨htype, rfl⟩, missing, rfl⟩
  | some id =>
    rcases validateTransitionTarget_cases workflow step (some id) "review transition" with
      ⟨hdeclared, heq⟩ | ⟨hundeclared, text, heq⟩
    · left
      refine ⟨?_, ?_⟩
      · rintro (⟨_, hfalse⟩ | ⟨target, htarget, hnot⟩)
        · cases hfalse
        · exact hnot (hdeclared target htarget)
      · simp only [reviewResult, heq]
        rfl
    · right
      refine ⟨.inr hundeclared, text, ?_⟩
      simp only [reviewResult, heq]
      rfl

/-- Outputs that meet the contract are evaluated to their transition; only a dangling one
is an error. -/
theorem evaluateStepResult_cases {workflow : WorkflowConfig} (h : MeetsContract step parsed) :
    (¬ Dangling workflow step parsed ∧ evaluateStepResult workflow step parsed =
        .ok { outputs := parsed, nextStepId := takenTarget workflow step parsed }) ∨
      Dangling workflow step parsed ∧ ∃ text, evaluateStepResult workflow step parsed =
        .error (.transitionValidation step.id text) := by
  obtain ⟨hcontract, hreview⟩ := h
  cases htype : step.stepType with
  | agentTask =>
    have htaken : takenTarget workflow step parsed =
        step.next.or (nextStepInWorkflow workflow step.id) := by rw [takenTarget, htype]
    simp only [evaluateStepResult, hcontract, htype, Dangling, htaken]
    rcases validateTransitionTarget_cases workflow step
      (step.next.or (nextStepInWorkflow workflow step.id)) "step transition" with
      ⟨hdeclared, heq⟩ | ⟨hundeclared, text, heq⟩
    · left
      refine ⟨?_, by rw [heq]; rfl⟩
      rintro (⟨hfalse, _⟩ | ⟨target, htarget, hnot⟩)
      · cases hfalse
      · exact hnot (hdeclared target htarget)
    · right
      exact ⟨.inr hundeclared, text, by rw [heq]; rfl⟩
  | agentReview =>
    obtain ⟨decision, hdecision⟩ := hreview htype
    cases decision with
    | approve =>
      have htaken : takenTarget workflow step parsed = step.onApprove := by
        simp only [takenTarget, htype, hdecision]
      have hresult : evaluateStepResult workflow step parsed =
          reviewResult workflow step parsed step.onApprove
            "decision `approve` requires `on_approve` transition target" := by
        simp only [evaluateStepResult, hcontract, htype, hdecision]
        rfl
      rw [hresult, ← htaken]
      exact reviewResult_cases htype _
    | reject =>
      have htaken : takenTarget workflow step parsed = step.onReject := by
        simp only [takenTarget, htype, hdecision]
      have hresult : evaluateStepResult workflow step parsed =
          reviewResult workflow step parsed step.onReject
            "decision `reject` requires `on_reject` transition target" := by
        simp only [evaluateStepResult, hcontract, htype, hdecision]
        rfl
      rw [hresult, ← htaken]
      exact reviewResult_cases htype _

theorem declares_nextStepId {workflow : WorkflowConfig} {evaluation : StepEvaluation}
    (h : evaluateStepResult workflow step parsed = .ok evaluation) :
    Declares workflow evaluation.nextStepId := by
  obtain ⟨_, hcontract, hrest⟩ := bind_eq_ok h
  have hmeets : MeetsContract step parsed := by
    refine ⟨hcontract, fun htype => ?_⟩
    rw [htype] at hrest
    obtain ⟨decision, hdecision, _⟩ := bind_eq_ok hrest
    exact ⟨decision, hdecision⟩
  rcases evaluateStepResult_cases hmeets with ⟨hnot, heq⟩ | ⟨_, text, heq⟩
  · rw [heq] at h
    cases h
    intro id hid
    refine findStep_of_mem ?_
    by_contra hmem
    exact hnot (.inr ⟨id, hid, hmem⟩)
  · rw [heq] at h
    cases h

/-! ## The pointer of a run -/

section Pointer

variable (orchestrator : OrchestratorConfig) (workflow : WorkflowConfig)

/-- The record is of the workflow, and points into it. -/
structure RunsOn (run : WorkflowRunRecord) : Prop where
  found : workflowForRun orchestrator run = .ok workflow
  pointer : Declares workflow run.currentStepId

/-- The attempt is of the workflow, at a step that it declares. -/
structure AttemptOn (a : Attempt) : Prop where
  run : RunsOn orchestrator workflow a.run
  workflow_eq : a.workflow = workflow
  step : findStep workflow a.step.id = .ok a.step

/-- What holds of the files between any two accesses. -/
def PointerBase (files : RunFiles) (_ : List Observation) : Prop :=
  RunsOn orchestrator workflow files.run ∧
    ∀ step attempt record, files.results step attempt = some record →
      Declares workflow record.nextStepId

def PointerAt (_ : RunFiles) (_ : List Observation) : Control → Prop
  | .idle | .loading _ _ | .reloading _ _ => True
  | .cycling run _ => RunsOn orchestrator workflow run
  | .attempting a | .invoking a | .running a => AttemptOn orchestrator workflow a
  | .counting a record result | .settling a record result =>
    AttemptOn orchestrator workflow a ∧ Declares workflow record.nextStepId ∧
      ∀ evaluation, result = .ok evaluation → Declares workflow evaluation.nextStepId

variable {orchestrator workflow} {files : RunFiles} {trace : List Observation}

/-- Only the workflow and the step pointer of a record matter. -/
theorem RunsOn.of_eq {run run' : WorkflowRunRecord} (h : RunsOn orchestrator workflow run)
    (hid : run'.workflowId = run.workflowId) (hpointer : Declares workflow run'.currentStepId) :
    RunsOn orchestrator workflow run' := by
  refine ⟨?_, hpointer⟩
  rw [← h.found, workflowForRun, workflowForRun, hid]

theorem transitionState_cases (run : WorkflowRunRecord) (next : RunState) (now : Int)
    (summary : String) (pending : Bool) (action : String) :
    (∃ run' snapshot, run'.workflowId = run.workflowId ∧ run'.currentStepId = run.currentStepId ∧
      transitionState run next now summary pending action =
        .ok (run', [.run .transitionState run', .progress snapshot])) ∨
      ∃ err, transitionState run next now summary pending action = .error err := by
  unfold transitionState
  split
  · left
    exact ⟨{ run with
      state := next
      updatedAt := now
      terminalReason := if next.isTerminal then some summary else none }, _, rfl, rfl, rfl⟩
  · exact .inr ⟨_, rfl⟩

variable {run : WorkflowRunRecord}

/-- A record and its snapshot, written by a process that goes on at `control`. -/
theorem pointer_written {origin : RunWriteOrigin} {snapshot : ProgressSnapshot} {control : Control}
    (hbase : PointerBase orchestrator workflow files trace)
    (hrun : RunsOn orchestrator workflow run)
    (hat : ∀ files' trace', PointerAt orchestrator workflow files' trace' control) :
    ProcessInv (PointerBase orchestrator workflow) (PointerAt orchestrator workflow) files trace
      { todo := [.run origin run, .progress snapshot], control := control } :=
  ⟨hbase, ⟨hrun, hbase.2⟩, ⟨hrun, hbase.2⟩, hat _ _⟩

theorem executeOrFail_pointer {now : Int} {err : OrchestratorError}
    (hbase : PointerBase orchestrator workflow files trace)
    (hrun : RunsOn orchestrator workflow run) :
    ProcessInv (PointerBase orchestrator workflow) (PointerAt orchestrator workflow) files trace
      (executeOrFail run now err) := by
  unfold executeOrFail
  split
  · exact ⟨hbase, trivial⟩
  · rcases transitionState_cases run .failed now s!"engine start failed: {err.display}" false
      "inspect workflow run artifacts" with ⟨run', snapshot, hid, hstep, heq⟩ | ⟨_, heq⟩
    · rw [heq]
      exact pointer_written hbase (hrun.of_eq hid (hstep ▸ hrun.pointer)) fun _ _ => trivial
    · rw [heq]
      exact ⟨hbase, trivial⟩

theorem finishRun_pointer {now at_ : Int} {summary : String} {n c : ℕ}
    (hbase : PointerBase orchestrator workflow files trace)
    (hrun : RunsOn orchestrator workflow run) :
    ProcessInv (PointerBase orchestrator workflow) (PointerAt orchestrator workflow) files trace
      (finishRun run now at_ summary n c) := by
  have hcleared : RunsOn orchestrator workflow
      { run with currentStepId := none, currentAttempt := none } :=
    hrun.of_eq rfl fun _ h => by cases h
  unfold finishRun
  dsimp only
  rcases transitionState_cases { run with currentStepId := none, currentAttempt := none }
    .succeeded at_ summary false "none" with ⟨run', snapshot, hid, hstep, heq⟩ | ⟨err, heq⟩
  · rw [heq]
    exact pointer_written hbase (hcleared.of_eq hid (hstep ▸ hcleared.pointer)) fun _ _ => trivial
  · rw [heq]
    exact executeOrFail_pointer hbase hcleared

theorem beginRun_pointer {now : Int} {verb : String}
    (hbase : PointerBase orchestrator workflow files trace)
    (hrun : RunsOn orchestrator workflow run) :
    ProcessInv (PointerBase orchestrator workflow) (PointerAt orchestrator workflow) files trace
      (beginRun run now verb) := by
  unfold beginRun
  rcases transitionState_cases run .running now s!"workflow {run.workflowId} {verb}" false
    "execute next step" with ⟨run', snapshot, hid, hstep, heq⟩ | ⟨_, heq⟩
  · rw [heq]
    have hrun' := hrun.of_eq hid (hstep ▸ hrun.pointer)
    exact pointer_written hbase hrun' fun _ _ => hrun'
  · rw [heq]
    exact ⟨hbase, trivial⟩

theorem declares_pointer (hbase : PointerBase orchestrator workflow files trace)
    (hrun : RunsOn orchestrator workflow run) {pointer : NextStepPointer}
    (h : resolveNextStepPointer files run workflow = some pointer) :
    ∃ step, findStep workflow pointer.stepId = .ok step := by
  unfold resolveNextStepPointer at h
  split at h
  · next hnone =>
      obtain ⟨first, hfirst, rfl⟩ := Option.map_eq_some_iff.mp h
      exact findStep_of_mem (List.mem_map_of_mem (List.mem_of_mem_head? hfirst))
  · next current hcurrent =>
      split at h
      · cases h
        exact hrun.pointer current hcurrent
      · next attempt _ =>
          split at h
          · next record hrecord =>
              obtain ⟨next, hnext, rfl⟩ := Option.map_eq_some_iff.mp h
              exact hbase.2 _ _ record hrecord next hnext
          · cases h
            exact hrun.pointer current hcurrent

theorem control_pointer (input : Input) (control : Control)
    (hbase : PointerBase orchestrator workflow files trace)
    (hat : PointerAt orchestrator workflow files trace control) :
    ProcessInv (PointerBase orchestrator workflow) (PointerAt orchestrator workflow) files
      ((Control.advance orchestrator files input control).2 ++ trace)
      (Control.advance orchestrator files input control).1 := by
  cases control with
  | idle => exact ⟨hbase, trivial⟩
  | loading entry now =>
    simp only [Control.advance]
    rcases enter_cases entry files.run now with he | he | ⟨_, verb, he⟩
    · rw [he]
      exact ⟨hbase, trivial⟩
    · rw [he]
      exact ⟨hbase, hbase.1⟩
    · rw [he]
      exact beginRun_pointer hbase hbase.1
  | cycling run cycles =>
    simp only [Control.advance]
    split
    · exact ⟨hbase, trivial⟩
    · rcases executeNext_cases orchestrator files run input.now cycles with
        ⟨err, he⟩ | ⟨found, hw, _, he⟩ | ⟨found, pointer, step, hw, hp, hf, he⟩
      · rw [he]
        exact executeOrFail_pointer hbase hat
      · rw [he]
        exact finishRun_pointer hbase hat
      · rw [he]
        obtain rfl : workflow = found := by simpa [hat.found] using hw
        exact ⟨hbase, hat, rfl, by rw [findStep_id hf]; exact hf⟩
  | attempting a =>
    have hmarked : RunsOn orchestrator workflow
        (markStepAttemptStarted a.run a.step.id a.attempt input.now).1 :=
      hat.run.of_eq rfl fun id h => by
        cases h
        exact ⟨a.step, hat.step⟩
    exact pointer_written hbase hmarked fun _ _ => ⟨hmarked, hat.workflow_eq, hat.step⟩
  | invoking a =>
    simp only [Control.advance]
    split
    · exact executeOrFail_pointer hbase hat.run
    · exact ⟨hbase, hat⟩
  | running a =>
    have hresult : ∀ evaluation, a.evaluate input.outcome = .ok evaluation →
        Declares workflow evaluation.nextStepId := by
      intro evaluation h
      cases houtcome : input.outcome with
      | failure err => simp [Attempt.evaluate, houtcome] at h
      | outputs parsed =>
        rw [houtcome, Attempt.evaluate, hat.workflow_eq] at h
        exact declares_nextStepId h
    have hrecord : Declares workflow
        (a.record input.now (a.evaluate input.outcome)).nextStepId := by
      cases hev : a.evaluate input.outcome with
      | ok evaluation => exact hresult evaluation hev
      | error err => exact fun _ h => by cases h
    refine ⟨hbase, ⟨hbase.1, ?_⟩, hat, hrecord, hresult⟩
    intro step attempt record h
    rw [RunFiles.apply_result_results] at h
    split at h
    · cases h
      exact hrecord
    · exact hbase.2 step attempt record h
  | counting a record result =>
    exact pointer_written hbase (hbase.1.of_eq rfl hbase.1.pointer) fun _ _ => hat
  | settling a record result =>
    obtain ⟨ha, hrecord, hresult⟩ := hat
    simp only [Control.advance]
    rcases a.settle_cases files.run record result with
      ⟨err, he⟩ | ⟨evaluation, next, summary, action, hok, hnext, he⟩ |
        ⟨evaluation, summary, _, _, he⟩ | ⟨err, _, _, _, he⟩
    · rw [he]
      exact executeOrFail_pointer hbase hbase.1
    · rw [he]
      refine pointer_written hbase (hbase.1.of_eq rfl ?_) fun _ _ => trivial
      intro id hid
      exact hresult evaluation hok id (hnext.trans hid)
    · rw [he]
      exact finishRun_pointer hbase hbase.1
    · rw [he]
      exact ⟨hbase, hbase.1, ha.workflow_eq, ha.step⟩
  | reloading n c =>
    simp only [Control.advance]
    split
    · exact ⟨hbase, trivial⟩
    · exact ⟨hbase, hbase.1⟩

theorem step_pointer (s : System) (e : EngineEvent)
    (h : SystemInv (PointerBase orchestrator workflow) (PointerAt orchestrator workflow) s) :
    SystemInv (PointerBase orchestrator workflow) (PointerAt orchestrator workflow)
      (engineStep orchestrator s e) :=
  systemInv_step_of (fun _ _ => trivial) (fun _ _ _ _ => trivial)
    (fun _ _ input control hbase hat (_ : True) => control_pointer input control hbase hat) h e
    fun _ _ _ => trivial

end Pointer

/-! ## The workflow of a run -/

theorem nodup_of_firstDuplicate : ∀ {keys seen : List String}, firstDuplicate seen keys = none →
    keys.Nodup ∧ ∀ key ∈ keys, key ∉ seen
  | [], _, _ => ⟨List.nodup_nil, by simp⟩
  | key :: keys, seen, h => by
      unfold firstDuplicate at h
      split at h
      · cases h
      · next hnew =>
          obtain ⟨hnodup, hrest⟩ := nodup_of_firstDuplicate h
          have hkey : key ∉ keys := fun hmem => hrest key hmem (by simp)
          refine ⟨List.nodup_cons.mpr ⟨hkey, hnodup⟩, ?_⟩
          intro other hother
          rcases List.mem_cons.mp hother with rfl | hother
          · exact hnew
          · exact fun hseen => hrest other hother (List.mem_cons_of_mem key hseen)

theorem find?_of_nodup {workflows : List WorkflowConfig} {workflow : WorkflowConfig}
    (hnodup : (workflows.map (·.id)).Nodup) (hmem : workflow ∈ workflows) :
    workflows.find? (·.id == workflow.id) = some workflow := by
  induction workflows with
  | nil => cases hmem
  | cons head rest ih =>
    rw [List.map_cons, List.nodup_cons] at hnodup
    rcases List.mem_cons.mp hmem with rfl | hmem
    · exact List.find?_cons_of_pos (by simp)
    · rw [List.find?_cons_of_neg, ih hnodup.2 hmem]
      simp only [beq_iff_eq]
      intro heq
      exact hnodup.1 (heq ▸ List.mem_map_of_mem hmem)

theorem find?_of_validated {orchestrator : OrchestratorConfig}
    (h : validateSetupInvariants orchestrator = .ok ()) {workflow : WorkflowConfig}
    (hmem : workflow ∈ orchestrator.workflows) :
    orchestrator.workflows.find? (·.id == workflow.id) = some workflow := by
  refine find?_of_nodup (@nodup_of_firstDuplicate _ [] ?_).1 hmem
  unfold validateSetupInvariants at h
  simp only [bind, Except.bind, throw, throwThe, MonadExceptOf.throw] at h
  repeat' split at h
  all_goals first | contradiction | assumption

/-! ## Routing between steps -/

/-- How a run of the workflow is routed. At the head of a cycle the run's workflow is
found, a run without a pointer has a step to begin with, and the step it points to is
found. The outputs of an attempt that meet its contract fail it only with a transition
error, which they do exactly if they take a dangling transition, and lead to a declared
step otherwise. -/
structure Routed (orchestrator : OrchestratorConfig) (workflow : WorkflowConfig) (s : System) :
    Prop where
  begins : ∀ run cycles, s.process = { control := .cycling run cycles } →
    workflowForRun orchestrator run = .ok workflow ∧
      (run.currentStepId = none → resolveNextStepPointer s.files run workflow ≠ none)
  found : ∀ run cycles pointer, s.process = { control := .cycling run cycles } →
    resolveNextStepPointer s.files run workflow = some pointer →
      ∃ step ∈ workflow.steps, findStep workflow pointer.stepId = .ok step
  evaluated : ∀ a parsed, s.process = { control := .running a } → MeetsContract a.step parsed →
    (Dangling workflow a.step parsed ∧
      ∃ text, a.evaluate (.outputs parsed) = .error (.transitionValidation a.step.id text)) ∨
    (¬ Dangling workflow a.step parsed ∧
      ∃ evaluation, a.evaluate (.outputs parsed) = .ok evaluation ∧
        Declares workflow evaluation.nextStepId)

theorem routed_of_inv {orchestrator : OrchestratorConfig} {workflow : WorkflowConfig} {s : System}
    (h : SystemInv (PointerBase orchestrator workflow) (PointerAt orchestrator workflow) s)
    (hsteps : workflow.steps ≠ []) : Routed orchestrator workflow s := by
  have hrest : ∀ control, s.process = { control := control } →
      PointerBase orchestrator workflow s.files s.trace ∧
        PointerAt orchestrator workflow s.files s.trace control := by
    intro control hprocess
    unfold SystemInv ProcessInv at h
    rw [hprocess] at h
    exact h
  refine ⟨?_, ?_, ?_⟩
  · intro run cycles hprocess
    refine ⟨(hrest _ hprocess).2.found, fun hnone => ?_⟩
    rw [resolveNextStepPointer, hnone]
    simpa using hsteps
  · intro run cycles pointer hprocess hpointer
    obtain ⟨hbase, hrun⟩ := hrest _ hprocess
    obtain ⟨step, hstep⟩ := declares_pointer hbase hrun hpointer
    exact ⟨step, findStep_mem hstep, hstep⟩
  · intro a parsed hprocess hmeets
    obtain ⟨_, ha⟩ := hrest _ hprocess
    rw [Attempt.evaluate, ha.workflow_eq]
    rcases evaluateStepResult_cases hmeets with ⟨hnot, heq⟩ | ⟨hdangling, herr⟩
    · exact .inr ⟨hnot, _, heq, declares_nextStepId heq⟩
    · exact .inl ⟨hdangling, herr⟩

/-- For every validated configuration and declared workflow, at every point of every run,
crashes and resumes included: no step is missing, and outputs that meet their contract
fail with a transition error exactly if the transition they take dangles. -/
theorem transitions_routed {settings : Settings} {orchestrator : OrchestratorConfig}
    {orchestratorId : String} (hvalid : orchestrator.validate settings orchestratorId = .ok ())
    {workflow : WorkflowConfig} (hmem : workflow ∈ orchestrator.workflows)
    (runId : String) (now : Int) (events : List EngineEvent) :
    Routed orchestrator workflow
      (run (engineStep orchestrator) (System.created runId workflow.id now) events) := by
  have hsetup := OrchestratorConfig.setup_of_validate hvalid
  have hfound := find?_of_validated hsetup hmem
  have hinit : SystemInv (PointerBase orchestrator workflow) (PointerAt orchestrator workflow)
      (System.created runId workflow.id now) := by
    refine ⟨⟨⟨?_, fun _ h => by cases h⟩, fun _ _ _ h => by cases h⟩, trivial⟩
    simp only [workflowForRun, System.created, createRun, createRunWithMetadata, hfound]
  exact routed_of_inv (run_invariant' step_pointer events hinit)
    (validateSetupInvariants_steps hsetup workflow hmem)

def namedStep (id : String) (next : Option String) : WorkflowStepConfig :=
  { sampleStep id next with prompt := "do it" }

/-- A configuration in order, but for the targets of its steps. -/
def namedOrchestrator (steps : List WorkflowStepConfig) : OrchestratorConfig :=
  { sampleOrchestrator steps with
    workflows := [{ id := "flow", description := "a flow", tags := ["flow"], steps := steps }] }

def namedSettings : Settings :=
  { workspacesPath := "/srv", orchestrators := [("main", {})] }

theorem transitions_routed_two_steps :
    Routed (namedOrchestrator [namedStep "plan" (some "ship"), namedStep "ship" none])
      { id := "flow", description := "a flow", tags := ["flow"]
        steps := [namedStep "plan" (some "ship"), namedStep "ship" none] }
      (run (engineStep (namedOrchestrator [namedStep "plan" (some "ship"), namedStep "ship" none]))
        (System.created "run-1" "flow" 0) (.call .start 0 :: engineSteps 9 providerAnswers)) :=
  @transitions_routed namedSettings _ "main" (by decide) _ (List.mem_singleton.mpr rfl)
    "run-1" 0 _

/-- The configuration is accepted, the outputs meet the contract, and the run fails for
want of the step that `next` names. -/
theorem dangling_next_accepted :
    (namedOrchestrator [namedStep "plan" (some "gone")]).validate namedSettings "main" = .ok () ∧
      MeetsContract (namedStep "plan" (some "gone")) [("summary", .str "done")] ∧
      (run (engineStep (namedOrchestrator [namedStep "plan" (some "gone")]))
          (System.created "run-1" "flow" 0)
          (.call .start 0 :: engineSteps 16 providerAnswers)).files.run.terminalReason =
        some ("engine start failed: step `plan` transition validation failed: " ++
          "step transition targets unknown step `gone`") := by
  refine ⟨by decide, ⟨by decide, fun h => by cases h⟩, by decide⟩

end Direclaw.Orchestration
