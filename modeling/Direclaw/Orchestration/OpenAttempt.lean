import Direclaw.Orchestration.CrashResume

/-!
# Resuming an unfinished attempt

An attempt is open from the moment it is marked until its own `result.json` is
written or the run is moved to another state. When the process dies in that
window, `resume` finds the pointer of the open attempt in the record and looks
for a `result.json` under it. Attempt numbers start again at 1 on every visit
of a step, so the file it finds can be an earlier visit's, and then the resume
follows that visit's transition instead.
-/

namespace Direclaw.Orchestration

open Direclaw.Lib

/-! ## The open attempt and what a resume does first -/

/-- The attempt that was marked last and has neither a result nor a run
transition after it. -/
def openAttempt : List Observation → Option (String × ℕ)
  | [] => none
  | .wrote (.run .markStepAttemptStarted record) :: _ =>
    match record.currentStepId, record.currentAttempt with
    | some step, some attempt => some (step, attempt)
    | _, _ => none
  | .wrote (.run .transitionState _) :: _ => none
  | .wrote (.result _) :: _ => none
  | _ :: trace => openAttempt trace

/-- What was observed between two states of a run, oldest first. -/
def observedSince (s s' : System) : List Observation :=
  (s'.trace.take (s'.trace.length - s.trace.length)).reverse

/-- The provider is called for `step` before another step is marked or the run
changes its state. -/
def ReexecutesFirst (step : String) : List Observation → Prop
  | [] => False
  | .invoked invoked _ :: _ => invoked = step
  | .wrote (.run .markStepAttemptStarted record) :: seen =>
    record.currentStepId = some step ∧ ReexecutesFirst step seen
  | .wrote (.run .transitionState _) :: _ => False
  | _ :: seen => ReexecutesFirst step seen

/-- What a resume needs to go back to the open attempt `(step, attempt)`: no
result under its number, or one that leads to the same step again, and at
`clock` the run is within its limits. -/
def ResumesStep (orchestrator : OrchestratorConfig) (files : RunFiles) (step : String)
    (attempt : ℕ) (clock : Int) : Prop :=
  ∃ workflow config, workflowForRun orchestrator files.run = .ok workflow ∧
    findStep workflow step = .ok config ∧
    ∃ again, (files.loadStepAttempt step attempt = none ∧ again = attempt ∨
        ∃ record, files.loadStepAttempt step attempt = some record ∧
          record.nextStepId = some step ∧ again = 1) ∧
      enforceExecutionSafety files.run
        (resolveExecutionSafetyLimits orchestrator workflow config) clock clock again = .ok ()

/-! ## The open attempt is under the pointer -/

section Invariant

variable (orchestrator : OrchestratorConfig)

/-- `run` is live and belongs to `workflow`, which has the step. -/
def Declared (run : WorkflowRunRecord) (workflow : WorkflowConfig) (step : WorkflowStepConfig) :
    Prop :=
  run.state = .running ∧ workflowForRun orchestrator run = .ok workflow ∧
    findStep workflow step.id = .ok step

/-- What holds between any two file accesses: an open attempt is the one the
record points to, and its step is declared. -/
def OpenBase (files : RunFiles) (trace : List Observation) : Prop :=
  ∀ step attempt, openAttempt trace = some (step, attempt) →
    files.run.currentStepId = some step ∧ files.run.currentAttempt = some attempt ∧
      ∃ workflow config, Declared orchestrator files.run workflow config ∧ config.id = step

def OpenAt (files : RunFiles) (trace : List Observation) : Control → Prop
  | .idle | .loading _ _ | .reloading _ _ => True
  | .cycling run _ => run = files.run
  | .attempting a | .invoking a | .running a =>
    a.run = files.run ∧ Declared orchestrator files.run a.workflow a.step
  | .counting a _ _ | .settling a _ _ =>
    openAttempt trace = none ∧ Declared orchestrator files.run a.workflow a.step

variable {orchestrator} {files : RunFiles} {trace : List Observation}

theorem openBase_of_none (h : openAttempt trace = none) : OpenBase orchestrator files trace := by
  intro step attempt hopen
  rw [h] at hopen
  cases hopen

theorem executeOrFail_open {run : WorkflowRunRecord} {now : Int} {err : OrchestratorError}
    (hbase : OpenBase orchestrator files trace) :
    ProcessInv (OpenBase orchestrator) (OpenAt orchestrator) files trace
      (executeOrFail run now err) := by
  rcases executeOrFail_cases run now err with ⟨_, he⟩ | ⟨_, record, snapshot, _, he⟩
  · rw [he]
    exact ⟨hbase, trivial⟩
  · rw [he]
    exact ⟨hbase, openBase_of_none rfl, openBase_of_none rfl, trivial⟩

theorem finishRun_open {run : WorkflowRunRecord} {now at_ : Int} {summary : String} {n c : ℕ}
    (hbase : OpenBase orchestrator files trace) :
    ProcessInv (OpenBase orchestrator) (OpenAt orchestrator) files trace
      (finishRun run now at_ summary n c) := by
  rcases finishRun_cases run now at_ summary n c with
    ⟨_, record, snapshot, _, he⟩ | ⟨_, run', err, _, he⟩
  · rw [he]
    exact ⟨hbase, openBase_of_none rfl, openBase_of_none rfl, trivial⟩
  · rw [he]
    exact executeOrFail_open hbase

theorem control_open (input : Input) (control : Control)
    (hbase : OpenBase orchestrator files trace) (hat : OpenAt orchestrator files trace control) :
    ProcessInv (OpenBase orchestrator) (OpenAt orchestrator) files
      ((Control.advance orchestrator files input control).2 ++ trace)
      (Control.advance orchestrator files input control).1 := by
  cases control with
  | idle => exact ⟨hbase, trivial⟩
  | loading entry now =>
    simp only [Control.advance]
    rcases enter_cases entry files.run now with he | he | ⟨hs, verb, he⟩
    · rw [he]
      exact ⟨hbase, trivial⟩
    · rw [he]
      exact ⟨hbase, rfl⟩
    · obtain ⟨record, snapshot, _, _, _, hb⟩ := beginRun_eq files.run now verb hs
      rw [he, hb]
      exact ⟨hbase, openBase_of_none rfl, openBase_of_none rfl, rfl⟩
  | cycling run cycles =>
    cases hat
    simp only [Control.advance]
    split
    · exact ⟨hbase, trivial⟩
    · next hgo =>
        rcases executeNext_cases orchestrator files files.run input.now cycles with
          ⟨err, he⟩ | ⟨workflow, hw, hp, he⟩ | ⟨workflow, pointer, step, hw, hp, hf, he⟩
        · rw [he]
          exact executeOrFail_open hbase
        · rw [he]
          exact finishRun_open hbase
        · rw [he]
          have hf' : findStep workflow step.id = .ok step := by rw [findStep_id hf]; exact hf
          exact ⟨hbase, rfl, by simpa using (not_or.mp hgo).1, hw, hf'⟩
  | attempting a =>
    obtain ⟨hrun, hdecl⟩ := hat
    rw [← hrun] at hdecl
    -- the mark opens the attempt it writes into the pointer
    have hopen : ∀ files' : RunFiles, ∀ trace', files'.run =
        (markStepAttemptStarted a.run a.step.id a.attempt input.now).1 →
        openAttempt trace' = some (a.step.id, a.attempt) →
          OpenBase orchestrator files' trace' := by
      intro files' trace' hr ht step attempt h
      rw [ht] at h
      cases h
      rw [hr]
      exact ⟨rfl, rfl, a.workflow, a.step, hdecl, rfl⟩
    exact ⟨hbase, hopen _ _ rfl rfl, hopen _ _ rfl rfl, rfl, hdecl⟩
  | invoking a =>
    simp only [Control.advance]
    split
    · exact executeOrFail_open hbase
    · exact ⟨hbase, hat⟩
  | running a => exact ⟨hbase, openBase_of_none rfl, rfl, hat.2⟩
  | counting a record result =>
    obtain ⟨hnone, hdecl⟩ := hat
    exact ⟨hbase, openBase_of_none hnone, openBase_of_none hnone, hnone, hdecl⟩
  | settling a record result =>
    obtain ⟨hnone, hdecl⟩ := hat
    simp only [Control.advance]
    rcases a.settle_cases files.run record result with
      ⟨err, he⟩ | ⟨evaluation, next, summary, action, _, _, he⟩ |
        ⟨evaluation, summary, _, _, he⟩ | ⟨err, _, _, _, he⟩
    · rw [he]
      exact executeOrFail_open hbase
    · rw [he]
      exact ⟨hbase, openBase_of_none hnone, openBase_of_none hnone, trivial⟩
    · rw [he]
      exact finishRun_open hbase
    · rw [he]
      exact ⟨hbase, rfl, hdecl⟩
  | reloading n c =>
    simp only [Control.advance]
    split
    · exact ⟨hbase, trivial⟩
    · exact ⟨hbase, rfl⟩

theorem step_open (s : System) (e : EngineEvent)
    (h : SystemInv (OpenBase orchestrator) (OpenAt orchestrator) s) :
    SystemInv (OpenBase orchestrator) (OpenAt orchestrator) (engineStep orchestrator s e) :=
  systemInv_step_of (fun _ _ => trivial) (fun _ _ _ _ => trivial)
    (fun _ _ input control hbase hat (_ : True) => control_open input control hbase hat) h e
    fun _ _ _ => trivial

/-- In every state of every run, an open attempt is the one under the pointer. -/
theorem run_openBase (runId workflowId : String) (now : Int) (events : List EngineEvent) :
    OpenBase orchestrator
      (run (engineStep orchestrator) (System.created runId workflowId now) events).files
      (run (engineStep orchestrator) (System.created runId workflowId now) events).trace := by
  have hinit : SystemInv (OpenBase orchestrator) (OpenAt orchestrator)
      (System.created runId workflowId now) := ⟨openBase_of_none rfl, trivial⟩
  exact (run_invariant' step_open events hinit).base_now

end Invariant

/-! ## The resume, step by step -/

section Resume

variable (orchestrator : OrchestratorConfig)

theorem advance_control (files : RunFiles) (control : Control) (trace : List Observation)
    (input : Input) :
    engineStep orchestrator ⟨files, ⟨[], control⟩, trace⟩ (.engine input) =
      ⟨files, (control.advance orchestrator files input).1,
        (control.advance orchestrator files input).2 ++ trace⟩ := rfl

theorem advance_write (files : RunFiles) (w : StoreWrite) (ws : List StoreWrite)
    (control : Control) (trace : List Observation) (input : Input) :
    engineStep orchestrator ⟨files, ⟨w :: ws, control⟩, trace⟩ (.engine input) =
      ⟨files.apply w, ⟨ws, control⟩, .wrote w :: trace⟩ := rfl

theorem run_engine_trace (inputs : List Input) (s : System) :
    ∃ seen, (run (engineStep orchestrator) s (inputs.map .engine)).trace = seen ++ s.trace := by
  induction inputs generalizing s with
  | nil => exact ⟨[], rfl⟩
  | cons i is ih =>
    obtain ⟨seen, hseen⟩ := ih (engineStep orchestrator s (.engine i))
    rw [List.map_cons, run_cons, hseen]
    cases htodo : s.process.todo with
    | nil =>
      exact ⟨seen ++ (s.process.control.advance orchestrator s.files i).2,
        by simp [engineStep, System.advance, htodo]⟩
    | cons w ws => exact ⟨seen ++ [.wrote w], by simp [engineStep, System.advance, htodo]⟩

/-- What was observed up to some point of the resume stays in front of what
comes after. -/
theorem observedSince_run (s s' : System) (seen : List Observation)
    (h : s'.trace = seen.reverse ++ s.trace) (inputs : List Input) :
    ∃ more, observedSince s (run (engineStep orchestrator) s' (inputs.map .engine)) =
      seen ++ more := by
  obtain ⟨later, hlater⟩ := run_engine_trace orchestrator inputs s'
  refine ⟨later.reverse, ?_⟩
  rw [observedSince, hlater, h, ← List.append_assoc, List.length_append, Nat.add_sub_cancel,
    List.take_left, List.reverse_append, List.reverse_reverse]

theorem resume_looks (s : System) (resumeAt : Int) (i₁ i₂ : Input) (inputs : List Input)
    (hrun : s.files.run.state = .running) :
    run (engineStep orchestrator) s
        (.crash :: .call .resume resumeAt :: (i₁ :: i₂ :: inputs).map .engine) =
      run (engineStep orchestrator)
        ⟨s.files, executeNext orchestrator s.files s.files.run i₂.now 0, s.trace⟩
        (inputs.map .engine) := by
  have henter : enter .resume s.files.run resumeAt = { control := .cycling s.files.run 0 } := by
    simp [enter, hrun, RunState.isTerminal]
  have hgo : ¬ (s.files.run.state ≠ .running ∨ maxCycles ≤ 0) := by simp [hrun, maxCycles]
  change run _ (engineStep orchestrator (engineStep orchestrator
    ⟨s.files, { control := .loading .resume resumeAt }, s.trace⟩ (.engine i₁)) (.engine i₂)) _ = _
  simp only [advance_control, Control.advance, henter, if_neg hgo, List.nil_append]

variable {orchestrator} {s : System} {step : String}

/-- A queued transition is the first thing seen, and it is not the step. -/
theorem not_reexecutes_transition {record : WorkflowRunRecord} {writes : List StoreWrite}
    {control : Control} (i : Input) (inputs : List Input) :
    ¬ ReexecutesFirst step (observedSince s (run (engineStep orchestrator)
      ⟨s.files, ⟨.run .transitionState record :: writes, control⟩, s.trace⟩
      ((i :: inputs).map .engine))) := by
  obtain ⟨more, hmore⟩ := observedSince_run orchestrator s
    ⟨s.files.apply (.run .transitionState record), ⟨writes, control⟩,
      .wrote (.run .transitionState record) :: s.trace⟩
    [.wrote (.run .transitionState record)] rfl inputs
  rw [List.map_cons, run_cons, advance_write, hmore]
  exact id

theorem not_reexecutes_executeOrFail {record : WorkflowRunRecord} {now : Int}
    {err : OrchestratorError} (hlive : record.state = .running) (i : Input)
    (inputs : List Input) :
    ¬ ReexecutesFirst step (observedSince s (run (engineStep orchestrator)
      ⟨s.files, executeOrFail record now err, s.trace⟩ ((i :: inputs).map .engine))) := by
  rcases executeOrFail_cases record now err with ⟨ht, _⟩ | ⟨_, record, snapshot, _, he⟩
  · rw [hlive] at ht
    cases ht
  · rw [he]
    exact not_reexecutes_transition i inputs

/-- At the head of the retry loop: the step is marked, and the provider is called
if the limits allow it. -/
theorem reexecutes_attempting {a : Attempt} (hlive : a.run.state = .running)
    (mark i₄ i₅ i₆ i₇ : Input) (rest : List Input) :
    ReexecutesFirst step (observedSince s (run (engineStep orchestrator)
      ⟨s.files, { control := .attempting a }, s.trace⟩
      ((mark :: i₄ :: i₅ :: i₆ :: i₇ :: rest).map .engine))) ↔
    a.step.id = step ∧
      enforceExecutionSafety a.run a.limits mark.now mark.now a.attempt = .ok () := by
  let marked := markStepAttemptStarted a.run a.step.id a.attempt mark.now
  let seen := marked.2.map Observation.wrote
  let files := marked.2.foldl RunFiles.apply s.files
  let b : Attempt := { a with run := marked.1, startedAt := mark.now }
  change ReexecutesFirst step (observedSince s (run (engineStep orchestrator)
    (engineStep orchestrator ⟨files, { control := .invoking b }, seen.reverse ++ s.trace⟩
      (.engine i₆)) ((i₇ :: rest).map .engine))) ↔ _
  rw [advance_control]
  -- the mark leaves what the limits look at as it was
  have hsame : enforceExecutionSafety b.run b.limits b.startedAt b.startedAt b.attempt =
      enforceExecutionSafety a.run a.limits mark.now mark.now a.attempt := rfl
  simp only [Control.advance, hsame]
  cases hsafe : enforceExecutionSafety a.run a.limits mark.now mark.now a.attempt with
  | ok u =>
    obtain ⟨more, hmore⟩ := observedSince_run orchestrator s
      ⟨files, { control := .running b },
        .invoked b.step.id b.attempt :: (seen.reverse ++ s.trace)⟩
      (seen ++ [.invoked b.step.id b.attempt]) (by simp) (i₇ :: rest)
    change ReexecutesFirst step (observedSince s (run (engineStep orchestrator)
      ⟨files, { control := .running b },
        .invoked b.step.id b.attempt :: (seen.reverse ++ s.trace)⟩
      ((i₇ :: rest).map .engine))) ↔ _
    rw [hmore]
    change (some a.step.id = some step ∧ a.step.id = step) ↔ _
    simp
  | error err =>
    rcases executeOrFail_cases b.run a.now err with ⟨ht, _⟩ | ⟨_, record, snapshot, _, he⟩
    · have : a.run.state.isTerminal = true := ht
      rw [hlive] at this
      cases this
    · obtain ⟨more, hmore⟩ := observedSince_run orchestrator s
        ⟨files.apply (.run .transitionState record), { todo := [.progress snapshot] },
          .wrote (.run .transitionState record) :: (seen.reverse ++ s.trace)⟩
        (seen ++ [.wrote (.run .transitionState record)]) (by simp) rest
      change ReexecutesFirst step (observedSince s (run (engineStep orchestrator)
        ⟨files, executeOrFail b.run a.now err, seen.reverse ++ s.trace⟩
        ((i₇ :: rest).map .engine))) ↔ _
      rw [he, List.map_cons, run_cons, advance_write, hmore]
      change (some a.step.id = some step ∧ False) ↔ _
      simp

/-- From a state whose pointer is on a declared step, the resume goes back to
that step exactly when `ResumesStep` says so. -/
theorem resume_iff {attempt : ℕ} {workflow : WorkflowConfig} {config : WorkflowStepConfig}
    (hstep : s.files.run.currentStepId = some step)
    (hattempt : s.files.run.currentAttempt = some attempt)
    (hdecl : Declared orchestrator s.files.run workflow config) (hid : config.id = step)
    (resumeAt : Int) (i₁ i₂ mark i₄ i₅ i₆ i₇ : Input) (rest : List Input) :
    ReexecutesFirst step (observedSince s (run (engineStep orchestrator) s
      (.crash :: .call .resume resumeAt ::
        (i₁ :: i₂ :: mark :: i₄ :: i₅ :: i₆ :: i₇ :: rest).map .engine))) ↔
    ResumesStep orchestrator s.files step attempt mark.now := by
  obtain ⟨hrun, hw, hf⟩ := hdecl
  rw [hid] at hf
  rw [resume_looks orchestrator s resumeAt i₁ i₂ _ hrun]
  -- `ResumesStep` speaks of the workflow and the step that the engine finds
  have hcond : ∀ P : WorkflowConfig → WorkflowStepConfig → Prop,
      (∃ w c, workflowForRun orchestrator s.files.run = .ok w ∧ findStep w step = .ok c ∧ P w c) ↔
        P workflow config := by
    intro P
    constructor
    · rintro ⟨w, c, hw', hf', hP⟩
      rw [hw] at hw'
      cases hw'
      rw [hf] at hf'
      cases hf'
      exact hP
    · exact fun hP => ⟨workflow, config, hw, hf, hP⟩
  rw [ResumesStep, hcond fun w c => ∃ again, (_ ∨ _) ∧ enforceExecutionSafety s.files.run
    (resolveExecutionSafetyLimits orchestrator w c) mark.now mark.now again = .ok ()]
  cases hload : s.files.loadStepAttempt step attempt with
  | none =>
    have hp : resolveNextStepPointer s.files s.files.run workflow =
        some { stepId := step, attempt := attempt } := by
      simp [resolveNextStepPointer, hstep, hattempt, hload]
    simp only [executeNext, hw, hp, hf]
    rw [reexecutes_attempting hrun]
    simp [hid]
  | some record =>
    cases hnext : record.nextStepId with
    | none =>
      have hp : resolveNextStepPointer s.files s.files.run workflow = none := by
        simp [resolveNextStepPointer, hstep, hattempt, hload, hnext]
      simp only [executeNext, hw, hp]
      rcases finishRun_cases s.files.run i₂.now i₂.now "workflow completed"
        s.files.run.totalIterations 0 with ⟨_, record, snapshot, _, he⟩ | ⟨hs, _⟩
      · rw [he]
        refine iff_of_false (not_reexecutes_transition mark _) ?_
        simp [hnext]
      · exact absurd hrun hs
    | some next =>
      have hp : resolveNextStepPointer s.files s.files.run workflow =
          some { stepId := next, attempt := 1 } := by
        simp [resolveNextStepPointer, hstep, hattempt, hload, hnext]
      simp only [executeNext, hw, hp]
      cases hfn : findStep workflow next with
      | error err =>
        simp only
        refine iff_of_false (not_reexecutes_executeOrFail hrun mark _) ?_
        rintro ⟨again, ⟨⟨h, _⟩ | ⟨r, hr, hn, _⟩, _⟩⟩
        · cases h
        · cases hr
          rw [hnext] at hn
          cases hn
          rw [hf] at hfn
          cases hfn
      | ok other =>
        simp only
        rw [reexecutes_attempting hrun, findStep_id hfn]
        constructor
        · rintro ⟨rfl, hsafe⟩
          rw [hf] at hfn
          cases hfn
          exact ⟨1, .inr ⟨record, rfl, hnext, rfl⟩, hsafe⟩
        · rintro ⟨again, ⟨⟨h, _⟩ | ⟨r, hr, hn, rfl⟩, hsafe⟩⟩
          · cases h
          · cases hr
            rw [hnext] at hn
            cases hn
            rw [hf] at hfn
            cases hfn
            exact ⟨rfl, hsafe⟩

end Resume

/-- **Resume of an unfinished attempt.** In every state of every run with an open
attempt, for every crash there and every clock, the next resume calls the
provider for that step before it marks another step or finishes the run exactly
when `ResumesStep` holds of the files the crash left behind. -/
theorem resume_reexecutes_iff (orchestrator : OrchestratorConfig) (runId workflowId : String)
    (now : Int) (events : List EngineEvent) (step : String) (attempt : ℕ)
    (hopen : openAttempt
      (run (engineStep orchestrator) (System.created runId workflowId now) events).trace =
        some (step, attempt))
    (resumeAt : Int) (i₁ i₂ mark i₄ i₅ i₆ i₇ : Input) (rest : List Input) :
    ReexecutesFirst step
      (observedSince
        (run (engineStep orchestrator) (System.created runId workflowId now) events)
        (run (engineStep orchestrator) (System.created runId workflowId now)
          (events ++ .crash :: .call .resume resumeAt ::
            (i₁ :: i₂ :: mark :: i₄ :: i₅ :: i₆ :: i₇ :: rest).map .engine))) ↔
    ResumesStep orchestrator
      (run (engineStep orchestrator) (System.created runId workflowId now) events).files
      step attempt mark.now := by
  obtain ⟨hstep, hattempt, workflow, config, hdecl, hid⟩ :=
    run_openBase runId workflowId now events step attempt hopen
  rw [run_append]
  exact resume_iff hstep hattempt hdecl hid resumeAt i₁ i₂ mark i₄ i₅ i₆ i₇ rest

/-! ### A loop whose second visit is skipped -/

/-- `plan` leads to `build`, and `build` back to `plan`. -/
def loopOrchestrator : OrchestratorConfig :=
  sampleOrchestrator [sampleStep "plan" none, sampleStep "build" (some "plan")]

/-- Both steps succeed once, then `plan` is marked again. -/
def secondVisitMarked : List EngineEvent := .call .start 0 :: engineSteps 34 providerAnswers

/-- The first visit of `plan`, marked. -/
def firstVisitMarked : List EngineEvent := .call .start 0 :: engineSteps 6 providerAnswers

/-- The second visit of `plan` is open, the limits are far away, and the resume
starts `build`. -/
theorem second_visit_skipped :
    validateSetupInvariants loopOrchestrator = .ok () ∧
    openAttempt (run (engineStep loopOrchestrator) (System.created "run-1" "flow" 0)
      secondVisitMarked).trace = some ("plan", 1) ∧
    enforceExecutionSafety (run (engineStep loopOrchestrator) (System.created "run-1" "flow" 0)
      secondVisitMarked).files.run {} 1 1 1 = .ok () ∧
    ¬ ReexecutesFirst "plan"
      (observedSince
        (run (engineStep loopOrchestrator) (System.created "run-1" "flow" 0) secondVisitMarked)
        (run (engineStep loopOrchestrator) (System.created "run-1" "flow" 0)
          (secondVisitMarked ++ .crash :: .call .resume 1 ::
            (List.replicate 7 providerAnswers).map .engine))) :=
  ⟨rfl, rfl, rfl, fun h => absurd (Option.some.inj h.1) (by decide)⟩

theorem resume_reexecutes_first_visit :
    ReexecutesFirst "plan"
      (observedSince
        (run (engineStep loopOrchestrator) (System.created "run-1" "flow" 0) firstVisitMarked)
        (run (engineStep loopOrchestrator) (System.created "run-1" "flow" 0)
          (firstVisitMarked ++ .crash :: .call .resume 1 ::
            (List.replicate 7 providerAnswers).map .engine))) := by
  refine (resume_reexecutes_iff loopOrchestrator "run-1" "flow" 0 firstVisitMarked "plan" 1 rfl 1
    _ _ providerAnswers _ _ _ _ []).mpr ?_
  exact ⟨_, _, rfl, rfl, 1, .inl ⟨rfl, rfl⟩, rfl⟩

end Direclaw.Orchestration
