import Direclaw.Orchestration.OutputContract
import Direclaw.Lib.Run
import Mathlib.Algebra.Group.Int.Defs

/-!
# The workflow engine

`orchestration/workflow_engine.rs` as a process over the run's files. The pure
functions keep their shape. `start`, `resume`, `run_until_non_running`,
`execute_next` and `execute_or_fail` become the control points of one process:
a control point is a place where the code reads a file, calls the provider or
queues writes, and `todo` holds the writes an operation still has to make. One
step of the process makes one file access, so a crash, or another process, can
come between any two accesses.

The clock readings and what the provider does are inputs of the steps. File
operations succeed; a missing `result.json` is the one error the code expects.
-/

namespace Direclaw.Orchestration

open Direclaw.Lib

/-! ## Machine integers -/

def i64Max : Int := 2 ^ 63 - 1
def i64Min : Int := -2 ^ 63

/-- `i64::saturating_sub`. -/
def i64SaturatingSub (a b : Int) : Int := max i64Min (min i64Max (a - b))

/-- `u64 as i64`. -/
def u64AsI64 (n : ℕ) : Int := if n < 2 ^ 63 then n else n - 2 ^ 64

/-- `u32` addition of one, as release builds compute it. -/
def u32WrappingSucc (n : ℕ) : ℕ := (n + 1) % 2 ^ 32

/-! ## Limits -/

structure ExecutionSafetyLimits where
  maxTotalIterations : ℕ := 12
  runTimeoutSeconds : ℕ := 3600
  stepTimeoutSeconds : ℕ := 900
  maxRetries : ℕ := 2
deriving DecidableEq, Repr

def resolveExecutionSafetyLimits (orchestrator : OrchestratorConfig) (workflow : WorkflowConfig)
    (step : WorkflowStepConfig) : ExecutionSafetyLimits :=
  let defaults : ExecutionSafetyLimits := {}
  let orchestration := orchestrator.workflowOrchestration
  let stepTimeout :=
    (orchestration.bind (·.defaultStepTimeoutSeconds)).getD defaults.stepTimeoutSeconds
  { maxTotalIterations :=
      ((workflow.limits.bind (·.maxTotalIterations)).or
        (orchestration.bind (·.maxTotalIterations))).getD defaults.maxTotalIterations
    runTimeoutSeconds :=
      ((workflow.limits.bind (·.runTimeoutSeconds)).or
        (orchestration.bind (·.defaultRunTimeoutSeconds))).getD defaults.runTimeoutSeconds
    stepTimeoutSeconds :=
      match orchestration.bind (·.maxStepTimeoutSeconds) with
      | some maxStep => min stepTimeout maxStep
      | none => stepTimeout
    maxRetries := (step.limits.bind (·.maxRetries)).getD defaults.maxRetries }

def enforceExecutionSafety (run : WorkflowRunRecord) (limits : ExecutionSafetyLimits)
    (now currentStepStartedAt : Int) (currentAttempt : ℕ) : Except OrchestratorError Unit :=
  if limits.maxTotalIterations ≤ run.totalIterations then
    .error (.maxIterationsExceeded limits.maxTotalIterations)
  else if u64AsI64 limits.runTimeoutSeconds < i64SaturatingSub now run.startedAt then
    .error (.runTimeout limits.runTimeoutSeconds)
  else if u64AsI64 limits.stepTimeoutSeconds < i64SaturatingSub now currentStepStartedAt then
    .error (.stepTimeout limits.stepTimeoutSeconds)
  else if u32WrappingSucc limits.maxRetries < currentAttempt then
    .error (.selectorValidation
      s!"retry limit exceeded for step attempt {currentAttempt} (max retries {limits.maxRetries})")
  else .ok ()

def isRetryableStepError : OrchestratorError → Bool
  | .stepExecution .. | .workflowEnvelope _ | .invalidReviewDecision _
  | .outputContractValidation .. => true
  | _ => false

/-! ## Where to go next -/

structure NextStepPointer where
  stepId : String
  attempt : ℕ
deriving DecidableEq, Repr

def resolveNextStepPointer (files : RunFiles) (run : WorkflowRunRecord)
    (workflow : WorkflowConfig) : Option NextStepPointer :=
  match run.currentStepId with
  | none => workflow.steps.head?.map fun step => { stepId := step.id, attempt := 1 }
  | some currentStep =>
    match run.currentAttempt with
    | none => some { stepId := currentStep, attempt := 1 }
    | some currentAttempt =>
      match files.loadStepAttempt currentStep currentAttempt with
      | some record => record.nextStepId.map fun next => { stepId := next, attempt := 1 }
      | none => some { stepId := currentStep, attempt := currentAttempt }

def workflowForRun (orchestrator : OrchestratorConfig) (run : WorkflowRunRecord) :
    Except OrchestratorError WorkflowConfig :=
  match orchestrator.workflows.find? (·.id == run.workflowId) with
  | some workflow => .ok workflow
  | none =>
    .error (.selectorValidation s!"workflow `{run.workflowId}` is not declared in orchestrator")

def findStep (workflow : WorkflowConfig) (stepId : String) :
    Except OrchestratorError WorkflowStepConfig :=
  match workflow.steps.find? (·.id == stepId) with
  | some step => .ok step
  | none => .error (.selectorValidation s!"workflow `{workflow.id}` missing step `{stepId}`")

variable {workflow : WorkflowConfig} {step : WorkflowStepConfig} {stepId : String}

theorem workflowForRun_mem {orchestrator : OrchestratorConfig} {run : WorkflowRunRecord}
    (h : workflowForRun orchestrator run = .ok workflow) : workflow ∈ orchestrator.workflows := by
  unfold workflowForRun at h
  split at h
  · next w hw =>
      cases h
      exact List.mem_of_find?_eq_some hw
  · cases h

theorem findStep_some {workflow : WorkflowConfig} {stepId : String} {step : WorkflowStepConfig}
    (h : findStep workflow stepId = .ok step) : workflow.steps.find? (·.id == stepId) = some step := by
  unfold findStep at h
  split at h
  · next found hfound =>
      cases h
      exact hfound
  · cases h

theorem findStep_mem (h : findStep workflow stepId = .ok step) : step ∈ workflow.steps :=
  List.mem_of_find?_eq_some (findStep_some h)

theorem findStep_id (h : findStep workflow stepId = .ok step) : step.id = stepId := by
  simpa using List.find?_some (findStep_some h)

/-! ## The process -/

/-- What `execute_step_attempt` yields: the parsed outputs of the provider's
answer, or any error on the way to them. -/
inductive ProviderOutcome : Type where
  | failure (err : OrchestratorError)
  | outputs (parsed : Outputs)

/-- The locals of one pass through `execute_next`. -/
structure Attempt where
  run : WorkflowRunRecord
  workflow : WorkflowConfig
  step : WorkflowStepConfig
  limits : ExecutionSafetyLimits
  attempt : ℕ
  startedAt : Int
  now : Int
  previousIterations : ℕ
  cycles : ℕ

/-- How a process entered the engine. -/
inductive Entry : Type where
  | start
  | resume
deriving DecidableEq, Repr

inductive Control : Type where
  /-- No engine call is in progress, or it has only its `todo` left. -/
  | idle
  /-- `start` / `resume`: the record is about to be loaded. -/
  | loading (entry : Entry) (now : Int)
  /-- Head of the loop of `run_until_non_running`. -/
  | cycling (run : WorkflowRunRecord) (cycles : ℕ)
  /-- Head of the retry loop of `execute_next`: the attempt is about to be marked. -/
  | attempting (a : Attempt)
  /-- The attempt is marked; the limits are checked and the provider is called. -/
  | invoking (a : Attempt)
  /-- The provider is running. -/
  | running (a : Attempt)
  /-- `persist_step_attempt`, between `result.json` and the record. -/
  | counting (a : Attempt) (record : StepAttemptRecord) (result : Except OrchestratorError StepEvaluation)
  /-- The attempt is counted; the record is about to be loaded for the decision. -/
  | settling (a : Attempt) (record : StepAttemptRecord) (result : Except OrchestratorError StepEvaluation)
  /-- `execute_or_fail` returned; `run_until_non_running` is about to load the record. -/
  | reloading (previousIterations cycles : ℕ)

structure Process where
  todo : List StoreWrite := []
  control : Control := .idle

/-- What the environment supplies to one step. -/
structure Input where
  now : Int
  outcome : ProviderOutcome := .outputs []

/-- What an observer of the run sees, newest first. -/
inductive Observation : Type where
  | wrote (write : StoreWrite)
  | invoked (stepId : String) (attempt : ℕ)
  | ended (record : StepAttemptRecord)

structure System where
  files : RunFiles
  process : Process := {}
  trace : List Observation := []

/-- The error exit of `execute_or_fail`. -/
def executeOrFail (run : WorkflowRunRecord) (now : Int) (err : OrchestratorError) : Process :=
  if run.state.isTerminal then {}
  else
    match transitionState run .failed now s!"engine start failed: {err.display}" false
      "inspect workflow run artifacts" with
    | .ok (_, writes) => { todo := writes }
    | .error _ => {}

/-- A finished workflow: the pointer is cleared and the run succeeds. -/
def finishRun (run : WorkflowRunRecord) (now at_ : Int) (summary : String)
    (previousIterations cycles : ℕ) : Process :=
  let run := { run with currentStepId := none, currentAttempt := none }
  match transitionState run .succeeded at_ summary false "none" with
  | .ok (_, writes) => { todo := writes, control := .reloading previousIterations cycles }
  | .error err => executeOrFail run now err

/-- The transition to `Running` that `start` and `resume` make. -/
def beginRun (run : WorkflowRunRecord) (now : Int) (verb : String) : Process :=
  match transitionState run .running now s!"workflow {run.workflowId} {verb}" false
    "execute next step" with
  | .ok (run, writes) => { todo := writes, control := .cycling run 0 }
  | .error _ => {}

/-- `start` and `resume`, with the loaded record in hand. -/
def enter (entry : Entry) (run : WorkflowRunRecord) (now : Int) : Process :=
  match entry with
  | .start =>
    if run.state = .queued then beginRun run now "started" else { control := .cycling run 0 }
  | .resume =>
    if run.state.isTerminal then {}
    else if run.state = .queued ∨ run.state = .waiting then beginRun run now "resumed"
    else { control := .cycling run 0 }

/-- The bound of `run_until_non_running` against malformed workflows. -/
def maxCycles : ℕ := 10000

/-- `execute_next` up to the retry loop. -/
def executeNext (orchestrator : OrchestratorConfig) (files : RunFiles) (run : WorkflowRunRecord)
    (now : Int) (cycles : ℕ) : Process :=
  match workflowForRun orchestrator run with
  | .error err => executeOrFail run now err
  | .ok workflow =>
    match resolveNextStepPointer files run workflow with
    | none => finishRun run now now "workflow completed" run.totalIterations cycles
    | some pointer =>
      match findStep workflow pointer.stepId with
      | .error err => executeOrFail run now err
      | .ok step =>
        { control := .attempting
            { run := run, workflow := workflow, step := step
              limits := resolveExecutionSafetyLimits orchestrator workflow step
              attempt := pointer.attempt, startedAt := now, now := now
              previousIterations := run.totalIterations, cycles := cycles } }

def Attempt.canRetry (a : Attempt) (err : OrchestratorError) : Bool :=
  isRetryableStepError err && decide (a.attempt ≤ a.limits.maxRetries)

/-- The result of an attempt whose provider has returned. -/
def Attempt.evaluate (a : Attempt) : ProviderOutcome → Except OrchestratorError StepEvaluation
  | .failure err => .error err
  | .outputs parsed => evaluateStepResult a.workflow a.step parsed

/-- The `StepAttemptRecord` that `execute_next` persists. -/
def Attempt.record (a : Attempt) (endedAt : Int) :
    Except OrchestratorError StepEvaluation → StepAttemptRecord
  | .ok evaluation =>
    { runId := a.run.runId, stepId := a.step.id, attempt := a.attempt
      startedAt := a.startedAt, endedAt := endedAt, state := .succeeded
      outputs := evaluation.outputs
      finalOutputPriority := a.step.finalOutputPriority.map (·.name)
      nextStepId := evaluation.nextStepId }
  | .error err =>
    { runId := a.run.runId, stepId := a.step.id, attempt := a.attempt
      startedAt := a.startedAt, endedAt := endedAt
      state := if a.canRetry err then .failedRetryable else .failed
      finalOutputPriority := a.step.finalOutputPriority.map (·.name)
      nextStepId := none, error := some err.display }

/-- What `execute_next` does with a counted attempt and the reloaded record. -/
def Attempt.settle (a : Attempt) (run : WorkflowRunRecord) (record : StepAttemptRecord)
    (result : Except OrchestratorError StepEvaluation) : Process :=
  match enforceExecutionSafety run a.limits record.endedAt a.startedAt a.attempt with
  | .error err => executeOrFail run a.now err
  | .ok () =>
    match result with
    | .ok evaluation =>
      match evaluation.nextStepId with
      | some next =>
        let run := { run with currentStepId := some next, currentAttempt := none }
        let (_, writes) := checkpoint run record.endedAt
          s!"step {a.step.id} attempt {a.attempt} finished; next {next}" false
          s!"execute step {next}"
        { todo := writes, control := .reloading a.previousIterations a.cycles }
      | none =>
        finishRun run a.now record.endedAt s!"step {a.step.id} attempt {a.attempt} finished"
          a.previousIterations a.cycles
    | .error err =>
      if a.canRetry err then
        { control := .attempting { a with run := run, attempt := Text.u32Succ a.attempt } }
      else executeOrFail run a.now err

/-! ### What the operations can do -/

/-- A live run that `execute_or_fail` has marked as failed. -/
def failedRun (run : WorkflowRunRecord) (now : Int) (err : OrchestratorError) : WorkflowRunRecord :=
  { run with
    state := .failed
    updatedAt := now
    terminalReason := some s!"engine start failed: {err.display}" }

theorem executeOrFail_of_live {run : WorkflowRunRecord} (h : run.state.isTerminal = false) (now : Int)
    (err : OrchestratorError) :
    ∃ snapshot, snapshot.state = .failed ∧ executeOrFail run now err =
      { todo := [.run .transitionState (failedRun run now err), .progress snapshot] } := by
  have hcan := (RunState.canTransitionTo_failed_canceled h).1
  simp only [executeOrFail, h, transitionState, hcan]
  exact ⟨_, rfl, rfl⟩

/-- The error exit writes nothing over a finished run, and fails a live one. -/
theorem executeOrFail_cases (run : WorkflowRunRecord) (now : Int) (err : OrchestratorError) :
    (run.state.isTerminal = true ∧ executeOrFail run now err = {}) ∨
    (run.state.isTerminal = false ∧ ∃ record snapshot, record.state = .failed ∧
      executeOrFail run now err =
        { todo := [.run .transitionState record, .progress snapshot] }) := by
  cases ht : run.state.isTerminal with
  | true => exact .inl ⟨rfl, by simp [executeOrFail, ht]⟩
  | false =>
    obtain ⟨snapshot, _, he⟩ := executeOrFail_of_live ht now err
    exact .inr ⟨rfl, failedRun run now err, snapshot, rfl, he⟩

def succeededRun (run : WorkflowRunRecord) (at_ : Int) (summary : String) : WorkflowRunRecord :=
  { run with
    currentStepId := none
    currentAttempt := none
    state := .succeeded
    updatedAt := at_
    terminalReason := some summary }

theorem finishRun_running {run : WorkflowRunRecord} (h : run.state = .running) (now at_ : Int)
    (summary : String) (n c : ℕ) :
    ∃ snapshot, snapshot.state = .succeeded ∧ finishRun run now at_ summary n c =
      { todo := [.run .transitionState (succeededRun run at_ summary), .progress snapshot]
        control := .reloading n c } := by
  simp only [finishRun, transitionState, h, RunState.canTransitionTo]
  exact ⟨_, rfl, rfl⟩

theorem finishRun_cases (run : WorkflowRunRecord) (now at_ : Int) (summary : String) (n c : ℕ) :
    (run.state = .running ∧ ∃ record snapshot, record.state = .succeeded ∧
      finishRun run now at_ summary n c =
        { todo := [.run .transitionState record, .progress snapshot], control := .reloading n c }) ∨
    (run.state ≠ .running ∧ ∃ run' err, run'.state = run.state ∧
      finishRun run now at_ summary n c = executeOrFail run' now err) := by
  by_cases hs : run.state = .running
  · obtain ⟨snapshot, _, he⟩ := finishRun_running hs now at_ summary n c
    exact .inl ⟨hs, succeededRun run at_ summary, snapshot, rfl, he⟩
  · have hcan : run.state.canTransitionTo .succeeded = false := by
      cases h : run.state <;> simp_all [RunState.canTransitionTo]
    refine .inr ⟨hs, ?_⟩
    simp only [finishRun, transitionState, hcan]
    exact ⟨{ run with currentStepId := none, currentAttempt := none }, _, rfl, rfl⟩

theorem RunState.canTransitionTo_running {state : RunState}
    (h : state = .queued ∨ state = .waiting) : state.canTransitionTo .running = true := by
  rcases h with h | h <;> rw [h] <;> rfl

theorem beginRun_eq (run : WorkflowRunRecord) (now : Int) (verb : String)
    (h : run.state = .queued ∨ run.state = .waiting) :
    ∃ record snapshot, record.state = .running ∧ record.currentStepId = run.currentStepId ∧
      record.currentAttempt = run.currentAttempt ∧
      beginRun run now verb =
        { todo := [.run .transitionState record, .progress snapshot]
          control := .cycling record 0 } := by
  simp only [beginRun, transitionState, RunState.canTransitionTo_running h]
  exact ⟨{ run with state := .running, updatedAt := now, terminalReason := none }, _,
    rfl, rfl, rfl, rfl⟩

theorem enter_cases (entry : Entry) (run : WorkflowRunRecord) (now : Int) :
    enter entry run now = {} ∨
    enter entry run now = { control := .cycling run 0 } ∨
    ((run.state = .queued ∨ run.state = .waiting) ∧ ∃ verb,
      enter entry run now = beginRun run now verb) := by
  cases entry <;> simp only [enter] <;> repeat' split
  case start.isTrue h => exact .inr (.inr ⟨.inl h, _, rfl⟩)
  case start.isFalse => exact .inr (.inl rfl)
  case resume.isTrue => exact .inl rfl
  case resume.isFalse.isTrue h => exact .inr (.inr ⟨h, _, rfl⟩)
  case resume.isFalse.isFalse => exact .inr (.inl rfl)

theorem executeNext_cases (orchestrator : OrchestratorConfig) (files : RunFiles)
    (run : WorkflowRunRecord) (now : Int) (cycles : ℕ) :
    (∃ err, executeNext orchestrator files run now cycles = executeOrFail run now err) ∨
    (∃ workflow, workflowForRun orchestrator run = .ok workflow ∧
      resolveNextStepPointer files run workflow = none ∧
      executeNext orchestrator files run now cycles =
        finishRun run now now "workflow completed" run.totalIterations cycles) ∨
    (∃ workflow pointer step, workflowForRun orchestrator run = .ok workflow ∧
      resolveNextStepPointer files run workflow = some pointer ∧
      findStep workflow pointer.stepId = .ok step ∧
      executeNext orchestrator files run now cycles =
        { control := .attempting
            { run := run, workflow := workflow, step := step
              limits := resolveExecutionSafetyLimits orchestrator workflow step
              attempt := pointer.attempt, startedAt := now, now := now
              previousIterations := run.totalIterations, cycles := cycles } }) := by
  cases hw : workflowForRun orchestrator run with
  | error err => exact .inl ⟨err, by simp only [executeNext, hw]⟩
  | ok workflow =>
    cases hp : resolveNextStepPointer files run workflow with
    | none => exact .inr (.inl ⟨workflow, rfl, hp, by simp only [executeNext, hw, hp]⟩)
    | some pointer =>
      cases hf : findStep workflow pointer.stepId with
      | error err => exact .inl ⟨err, by simp only [executeNext, hw, hp, hf]⟩
      | ok step =>
        exact .inr (.inr ⟨workflow, pointer, step, rfl, hp, hf,
          by simp only [executeNext, hw, hp, hf]⟩)

theorem Attempt.settle_cases (a : Attempt) (run : WorkflowRunRecord) (record : StepAttemptRecord)
    (result : Except OrchestratorError StepEvaluation) :
    (∃ err, a.settle run record result = executeOrFail run a.now err) ∨
    (∃ evaluation next summary action, result = .ok evaluation ∧
      evaluation.nextStepId = some next ∧
      a.settle run record result =
        { todo := (checkpoint { run with currentStepId := some next, currentAttempt := none }
            record.endedAt summary false action).2
          control := .reloading a.previousIterations a.cycles }) ∨
    (∃ evaluation summary, result = .ok evaluation ∧ evaluation.nextStepId = none ∧
      a.settle run record result =
        finishRun run a.now record.endedAt summary a.previousIterations a.cycles) ∨
    (∃ err, result = .error err ∧ a.canRetry err = true ∧
      enforceExecutionSafety run a.limits record.endedAt a.startedAt a.attempt = .ok () ∧
      a.settle run record result =
        { control := .attempting { a with run := run, attempt := Text.u32Succ a.attempt } }) := by
  cases hs : enforceExecutionSafety run a.limits record.endedAt a.startedAt a.attempt with
  | error err => exact .inl ⟨err, by simp only [settle, hs]⟩
  | ok u =>
    cases result with
    | ok evaluation =>
      cases hn : evaluation.nextStepId with
      | some next =>
        exact .inr (.inl ⟨evaluation, next, _, _, rfl, hn, by simp only [settle, hs, hn]; rfl⟩)
      | none => exact .inr (.inr (.inl ⟨evaluation, _, rfl, hn, by simp only [settle, hs, hn]; rfl⟩))
    | error err =>
      cases hr : a.canRetry err with
      | true => exact .inr (.inr (.inr ⟨err, rfl, hr, rfl, by simp [settle, hs, hr]⟩))
      | false => exact .inl ⟨err, by simp [settle, hs, hr]⟩

/-- One step of a process that has no write queued. -/
def Control.advance (orchestrator : OrchestratorConfig) (files : RunFiles) (input : Input) :
    Control → Process × List Observation
  | .idle => ({}, [])
  | .loading entry now => (enter entry files.run now, [])
  | .cycling run cycles =>
    if run.state ≠ .running ∨ maxCycles ≤ cycles then ({}, [])
    else (executeNext orchestrator files run input.now cycles, [])
  | .attempting a =>
    let (run, writes) := markStepAttemptStarted a.run a.step.id a.attempt input.now
    ({ todo := writes, control := .invoking { a with run := run, startedAt := input.now } }, [])
  | .invoking a =>
    match enforceExecutionSafety a.run a.limits a.startedAt a.startedAt a.attempt with
    | .error err => (executeOrFail a.run a.now err, [])
    | .ok () => ({ control := .running a }, [.invoked a.step.id a.attempt])
  | .running a =>
    let result := a.evaluate input.outcome
    let record := a.record input.now result
    ({ todo := [.result record], control := .counting a record result }, [.ended record])
  | .counting a record result =>
    ({ todo := countStepAttempt files.run record, control := .settling a record result }, [])
  | .settling a record result => (a.settle files.run record result, [])
  | .reloading previousIterations cycles =>
    if files.run.state = .running ∧ files.run.totalIterations = previousIterations then ({}, [])
    else ({ control := .cycling files.run (Text.u32Succ cycles) }, [])

namespace System

/-- One step of the engine process: a queued write, or the control point. -/
def advance (orchestrator : OrchestratorConfig) (s : System) (input : Input) : System :=
  match s.process.todo with
  | write :: todo =>
    { files := s.files.apply write
      process := { s.process with todo := todo }
      trace := .wrote write :: s.trace }
  | [] =>
    let (process, seen) := s.process.control.advance orchestrator s.files input
    { s with process := process, trace := seen ++ s.trace }

end System

/-- What can happen to a run: an engine call begins, the engine makes one step,
or its process dies. -/
inductive EngineEvent : Type where
  | call (entry : Entry) (now : Int)
  | engine (input : Input)
  | crash

/-- A call is only made while no process works on the run: the worker runs at
most one message per workflow run at a time. -/
def engineStep (orchestrator : OrchestratorConfig) (s : System) : EngineEvent → System
  | .call entry now =>
    match s.process.todo, s.process.control with
    | [], .idle => { s with process := { control := .loading entry now } }
    | _, _ => s
  | .engine input => s.advance orchestrator input
  | .crash => { s with process := {} }

/-! ## Invariants of the process

A process between two control points has writes queued. An invariant of the
engine is a property `base` of every file state on the way, together with what
`at_` says at each control point once the queue is empty. With that shape a
queued write preserves the invariant by definition, and only the control points
need a proof. -/

/-- `base` holds now and after each queued write, and `final` once all have
landed. -/
def Landing (base final : RunFiles → List Observation → Prop) :
    RunFiles → List Observation → List StoreWrite → Prop
  | files, trace, [] => base files trace ∧ final files trace
  | files, trace, w :: ws =>
    base files trace ∧ Landing base final (files.apply w) (.wrote w :: trace) ws

theorem Landing.base_now {base final : RunFiles → List Observation → Prop} {files : RunFiles}
    {trace : List Observation} : ∀ {ws : List StoreWrite},
    Landing base final files trace ws → base files trace
  | [], h => h.1
  | _ :: _, h => h.1

section ProcessInvariant

variable (base : RunFiles → List Observation → Prop)
  (at_ : RunFiles → List Observation → Control → Prop)

/-- The invariant of a process that is at `control` with `todo` still queued. -/
def ProcessInv (files : RunFiles) (trace : List Observation) (process : Process) : Prop :=
  Landing base (fun f t => at_ f t process.control) files trace process.todo

def SystemInv (s : System) : Prop := ProcessInv base at_ s.files s.trace s.process

variable {base at_}

/-- One step, of which the control points may assume `ok`. -/
theorem systemInv_advance_of {orchestrator : OrchestratorConfig}
    {ok : List Observation → Control → Input → Prop}
    (hcontrol : ∀ files trace input control, base files trace → at_ files trace control →
      ok trace control input →
      ProcessInv base at_ files
        ((Control.advance orchestrator files input control).2 ++ trace)
        (Control.advance orchestrator files input control).1)
    {s : System} (h : SystemInv base at_ s) (input : Input)
    (hok : s.process.todo = [] → ok s.trace s.process.control input) :
    SystemInv base at_ (s.advance orchestrator input) := by
  unfold SystemInv ProcessInv at h
  cases htodo : s.process.todo with
  | nil =>
    rw [htodo] at h
    simpa only [SystemInv, System.advance, htodo] using
      hcontrol s.files s.trace input _ h.1 h.2 (hok htodo)
  | cons w ws =>
    rw [htodo] at h
    simpa only [SystemInv, ProcessInv, System.advance, htodo] using h.2

/-- One event, for an invariant that asks nothing of a process that has just been called or
is gone. -/
theorem systemInv_step_of {orchestrator : OrchestratorConfig}
    {ok : List Observation → Control → Input → Prop}
    (hidle : ∀ files trace, at_ files trace .idle)
    (hcall : ∀ files trace entry now, at_ files trace (.loading entry now))
    (hcontrol : ∀ files trace input control, base files trace → at_ files trace control →
      ok trace control input →
      ProcessInv base at_ files
        ((Control.advance orchestrator files input control).2 ++ trace)
        (Control.advance orchestrator files input control).1)
    {s : System} (h : SystemInv base at_ s) (e : EngineEvent)
    (hok : ∀ input, e = .engine input → s.process.todo = [] → ok s.trace s.process.control input) :
    SystemInv base at_ (engineStep orchestrator s e) := by
  cases e with
  | call entry now =>
    simp only [engineStep]
    split
    · exact ⟨h.base_now, hcall _ _ _ _⟩
    · exact h
  | engine input => exact systemInv_advance_of hcontrol h input (hok input rfl)
  | crash => exact ⟨h.base_now, hidle _ _⟩

end ProcessInvariant

/-- A created run that no engine has seen. -/
def System.created (runId workflowId : String) (now : Int) : System :=
  { files := createRun runId workflowId now }

/-! ### What is stored was written -/

/-- Every stored result was written under its own step and number. -/
def Stored (files : RunFiles) (trace : List Observation) : Prop :=
  ∀ step attempt record, files.results step attempt = some record →
    .wrote (.result record) ∈ trace ∧ record.stepId = step ∧ record.attempt = attempt

theorem Stored.apply {files : RunFiles} {trace : List Observation} (h : Stored files trace)
    (w : StoreWrite) : Stored (files.apply w) (.wrote w :: trace) := by
  intro step attempt record hrecord
  have hold : files.results step attempt = some record →
      .wrote (.result record) ∈ .wrote w :: trace ∧ record.stepId = step ∧ record.attempt = attempt :=
    fun hfile => ⟨List.mem_cons_of_mem _ (h step attempt record hfile).1,
      (h step attempt record hfile).2⟩
  cases w with
  | run origin run => exact hold hrecord
  | progress snapshot => exact hold hrecord
  | result stored =>
    rw [RunFiles.apply_result_results] at hrecord
    split at hrecord
    · next hkey =>
        cases hrecord
        exact ⟨List.mem_cons_self, hkey.1.symm, hkey.2.symm⟩
    · exact hold hrecord

theorem step_stored {orchestrator : OrchestratorConfig} (s : System) (e : EngineEvent)
    (h : Stored s.files s.trace) :
    Stored (engineStep orchestrator s e).files (engineStep orchestrator s e).trace := by
  cases e with
  | call entry now =>
    simp only [engineStep]
    split <;> exact h
  | crash => exact h
  | engine input =>
    simp only [engineStep, System.advance]
    cases s.process.todo with
    | cons w ws => exact h.apply w
    | nil =>
      intro step attempt record hrecord
      obtain ⟨hmem, hkey⟩ := h step attempt record hrecord
      exact ⟨List.mem_append_right _ hmem, hkey⟩

theorem run_stored (orchestrator : OrchestratorConfig) (runId workflowId : String) (now : Int)
    (events : List EngineEvent) :
    Stored (run (engineStep orchestrator) (System.created runId workflowId now) events).files
      (run (engineStep orchestrator) (System.created runId workflowId now) events).trace := by
  have hcreated : Stored (System.created runId workflowId now).files
      (System.created runId workflowId now).trace := fun _ _ _ h => nomatch h
  exact run_invariant' (I := fun s : System => Stored s.files s.trace) step_stored events hcreated

end Direclaw.Orchestration
