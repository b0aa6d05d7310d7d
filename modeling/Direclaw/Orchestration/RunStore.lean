import Direclaw.Orchestration.Config
import Mathlib.Data.List.Sort

/-!
# The workflow run store

`orchestration/run_store.rs` for one run: its record (`<run_id>.json`), its
progress snapshot (`progress.json`) and one `result.json` per step and attempt
number. A store operation is a pure function that returns the record it leaves
in memory and the file writes it makes, in order. Each write is atomic, and a
crash or another process can come between any two of them.

The log lines (`append_engine_log`) are written and never read, and are left
out; so are the record fields that only routing reads.
-/

namespace Direclaw.Orchestration

open Direclaw.Lib

/-! ## Run states -/

inductive RunState : Type where
  | queued
  | running
  | waiting
  | succeeded
  | failed
  | canceled
deriving DecidableEq, Repr

namespace RunState

def canTransitionTo : RunState → RunState → Bool
  | .queued, .running | .queued, .failed | .queued, .canceled => true
  | .running, .waiting | .running, .succeeded | .running, .failed | .running, .canceled => true
  | .waiting, .running | .waiting, .failed | .waiting, .canceled => true
  | _, _ => false

def isTerminal : RunState → Bool
  | .succeeded | .failed | .canceled => true
  | _ => false

def display : RunState → String
  | .queued => "queued"
  | .running => "running"
  | .waiting => "waiting"
  | .succeeded => "succeeded"
  | .failed => "failed"
  | .canceled => "canceled"

theorem canTransitionTo_of_isTerminal {s t : RunState} (h : s.isTerminal = true) :
    s.canTransitionTo t = false := by
  cases s <;> cases t <;> simp_all [isTerminal, canTransitionTo]

theorem canTransitionTo_failed_canceled {s : RunState} (h : s.isTerminal = false) :
    s.canTransitionTo .failed = true ∧ s.canTransitionTo .canceled = true := by
  cases s <;> simp_all [isTerminal, canTransitionTo]

end RunState

/-! ## Errors -/

inductive IoErrorKind : Type where
  | notFound
  | other (message : String)
deriving DecidableEq, Repr

inductive OrchestratorError : Type where
  | missingChannelProfileId (messageId : String)
  | unknownChannelProfileId (channelProfileId : String)
  | selectorJson (reason : String)
  | selectorValidation (reason : String)
  | unknownFunction (functionId : String)
  | missingFunctionArg (arg : String)
  | unknownFunctionArg (functionId arg : String)
  | invalidFunctionArgType (functionId arg expected : String)
  | unknownRunId (runId : String)
  | invalidRunTransition (source target : RunState)
  | workflowEnvelope (reason : String)
  | invalidReviewDecision (decision : String)
  | stepPromptRender (stepId reason : String)
  | stepExecution (stepId reason : String)
  | maxIterationsExceeded (maxTotalIterations : ℕ)
  | runTimeout (runTimeoutSeconds : ℕ)
  | stepTimeout (stepTimeoutSeconds : ℕ)
  | workspaceAccessDenied (orchestratorId path : String)
  | workspacePathValidation (path reason : String)
  | outputPathValidation (stepId template reason : String)
  | outputContractValidation (stepId reason : String)
  | transitionValidation (stepId reason : String)
  | scheduledExecutionCompletion (jobId executionId reason : String)
  | config (reason : String)
  | io (path : String) (kind : IoErrorKind)
  | json (path reason : String)
deriving DecidableEq, Repr

/-- The `#[error]` texts. -/
def OrchestratorError.display : OrchestratorError → String
  | .missingChannelProfileId id => s!"channel message `{id}` is missing `channelProfileId`"
  | .unknownChannelProfileId id => s!"unknown channel profile `{id}`"
  | .selectorJson r => s!"selector result is not valid json: {r}"
  | .selectorValidation r => s!"selector validation failed: {r}"
  | .unknownFunction id => s!"unknown function id `{id}`"
  | .missingFunctionArg arg => s!"missing required function argument `{arg}`"
  | .unknownFunctionArg id arg => s!"unknown function argument `{arg}` for `{id}`"
  | .invalidFunctionArgType id arg e =>
    s!"invalid argument type for `{id}.{arg}`; expected {e}"
  | .unknownRunId id => s!"workflow run `{id}` not found"
  | .invalidRunTransition s t =>
    s!"workflow run state transition `{s.display}` -> `{t.display}` is invalid"
  | .workflowEnvelope r => s!"workflow result envelope parse failed: {r}"
  | .invalidReviewDecision d =>
    s!"workflow review decision must be `approve` or `reject`, got `{d}`"
  | .stepPromptRender id r => s!"step prompt render failed for step `{id}`: {r}"
  | .stepExecution id r => s!"step execution failed for step `{id}`: {r}"
  | .maxIterationsExceeded n => s!"workflow execution exceeded max total iterations ({n})"
  | .runTimeout n => s!"workflow run timed out after {n}s"
  | .stepTimeout n => s!"workflow step timed out after {n}s"
  | .workspaceAccessDenied id p =>
    s!"workspace access denied for orchestrator `{id}` at path `{p}`"
  | .workspacePathValidation p r => s!"workspace path validation failed for `{p}`: {r}"
  | .outputPathValidation id t r =>
    s!"output path validation failed for step `{id}` template `{t}`: {r}"
  | .outputContractValidation id r => s!"step `{id}` output contract validation failed: {r}"
  | .transitionValidation id r => s!"step `{id}` transition validation failed: {r}"
  | .scheduledExecutionCompletion j e r =>
    s!"scheduled execution completion failed for job `{j}` execution `{e}`: {r}"
  | .config r => s!"config error: {r}"
  | .io p .notFound => s!"io error at {p}: entity not found"
  | .io p (.other m) => s!"io error at {p}: {m}"
  | .json p r => s!"json error at {p}: {r}"

/-! ## Records -/

structure WorkflowRunRecord where
  runId : String
  workflowId : String
  state : RunState
  inputs : List (String × Json) := []
  currentStepId : Option String := none
  currentAttempt : Option ℕ := none
  startedAt : Int
  updatedAt : Int
  totalIterations : ℕ := 0
  sourceMessageId : Option String := none
  terminalReason : Option String := none

structure ProgressSnapshot where
  runId : String
  workflowId : String
  state : RunState
  inputCount : ℕ
  inputKeys : List String
  currentStepId : Option String
  currentAttempt : Option ℕ
  startedAt : Int
  updatedAt : Int
  lastProgressAt : Int
  summary : String
  pendingHumanInput : Bool
  nextExpectedAction : String

/-- The `state` field of an attempt, a string in the source. -/
inductive AttemptState : Type where
  | succeeded
  | failedRetryable
  | failed
deriving DecidableEq, Repr

def AttemptState.display : AttemptState → String
  | .succeeded => "succeeded"
  | .failedRetryable => "failed_retryable"
  | .failed => "failed"

structure StepAttemptRecord where
  runId : String
  stepId : String
  attempt : ℕ
  startedAt : Int
  endedAt : Int
  state : AttemptState
  outputs : List (String × Json) := []
  finalOutputPriority : List String := []
  nextStepId : Option String := none
  error : Option String := none

/-! ## Files and writes -/

/-- Which operation rewrites the run record. The bytes written are the record's
alone; the origin names the call for the observer of a run. -/
inductive RunWriteOrigin : Type where
  | transitionState
  | markStepAttemptStarted
  | persistStepAttempt
  | checkpoint
deriving DecidableEq, Repr

/-- One atomic file write. -/
inductive StoreWrite : Type where
  | run (origin : RunWriteOrigin) (record : WorkflowRunRecord)
  | progress (snapshot : ProgressSnapshot)
  | result (record : StepAttemptRecord)

structure RunFiles where
  run : WorkflowRunRecord
  progress : ProgressSnapshot
  results : String → ℕ → Option StepAttemptRecord

namespace RunFiles

def apply (files : RunFiles) : StoreWrite → RunFiles
  | .run _ record => { files with run := record }
  | .progress snapshot => { files with progress := snapshot }
  | .result record =>
    { files with
      results := fun step attempt =>
        if step = record.stepId ∧ attempt = record.attempt then some record
        else files.results step attempt }

/-- The files once all of the writes have landed. -/
def applyAll (files : RunFiles) (writes : List StoreWrite) : RunFiles := writes.foldl apply files

@[simp] theorem applyAll_nil (files : RunFiles) : files.applyAll [] = files := rfl

@[simp] theorem applyAll_cons (files : RunFiles) (w : StoreWrite) (ws : List StoreWrite) :
    files.applyAll (w :: ws) = (files.apply w).applyAll ws := rfl

/-- `load_step_attempt`; `none` is the `NotFound` error. -/
def loadStepAttempt (files : RunFiles) (stepId : String) (attempt : ℕ) :
    Option StepAttemptRecord :=
  files.results stepId attempt

section
variable (files : RunFiles)

@[simp] theorem apply_run_run (o : RunWriteOrigin) (r : WorkflowRunRecord) :
    (files.apply (.run o r)).run = r := rfl

@[simp] theorem apply_run_results (o : RunWriteOrigin) (r : WorkflowRunRecord) :
    (files.apply (.run o r)).results = files.results := rfl

@[simp] theorem apply_progress_run (p : ProgressSnapshot) :
    (files.apply (.progress p)).run = files.run := rfl

@[simp] theorem apply_progress_results (p : ProgressSnapshot) :
    (files.apply (.progress p)).results = files.results := rfl

@[simp] theorem apply_result_run (r : StepAttemptRecord) :
    (files.apply (.result r)).run = files.run := rfl

theorem apply_result_results (r : StepAttemptRecord) (step : String) (attempt : ℕ) :
    (files.apply (.result r)).results step attempt =
      if step = r.stepId ∧ attempt = r.attempt then some r else files.results step attempt := rfl

end

end RunFiles

/-! ## Operations -/

def sortedInputKeys (inputs : List (String × Json)) : List String :=
  (inputs.map Prod.fst).insertionSort (· ≤ ·)

/-- The snapshot every operation writes after the record; the operations differ
in the step pointer, the times and the texts. -/
def WorkflowRunRecord.snapshot (run : WorkflowRunRecord) (currentStepId : Option String)
    (currentAttempt : Option ℕ) (now : Int) (summary : String) (pendingHumanInput : Bool)
    (nextExpectedAction : String) : ProgressSnapshot where
  runId := run.runId
  workflowId := run.workflowId
  state := run.state
  inputCount := run.inputs.length
  inputKeys := sortedInputKeys run.inputs
  currentStepId := currentStepId
  currentAttempt := currentAttempt
  startedAt := run.startedAt
  updatedAt := now
  lastProgressAt := now
  summary := summary
  pendingHumanInput := pendingHumanInput
  nextExpectedAction := nextExpectedAction

/-- `create_run_with_metadata`: the record and its snapshot, both written before
any engine sees the run. -/
def createRunWithMetadata (runId workflowId : String) (sourceMessageId : Option String)
    (inputs : List (String × Json)) (now : Int) : RunFiles :=
  let run : WorkflowRunRecord :=
    { runId := runId, workflowId := workflowId, state := .queued, inputs := inputs, startedAt := now,
      updatedAt := now, sourceMessageId := sourceMessageId }
  { run := run
    progress := run.snapshot none none now "queued" false "workflow start"
    results := fun _ _ => none }

/-- `create_run`: no inputs, and no message behind the run. -/
def createRun (runId workflowId : String) (now : Int) : RunFiles :=
  createRunWithMetadata runId workflowId none [] now

def transitionState (run : WorkflowRunRecord) (next : RunState) (now : Int) (summary : String)
    (pendingHumanInput : Bool) (nextExpectedAction : String) :
    Except OrchestratorError (WorkflowRunRecord × List StoreWrite) :=
  if run.state.canTransitionTo next then
    let run := { run with
      state := next
      updatedAt := now
      terminalReason := if next.isTerminal then some summary else none }
    .ok (run, [.run .transitionState run,
      .progress (run.snapshot run.currentStepId run.currentAttempt now summary
        pendingHumanInput nextExpectedAction)])
  else .error (.invalidRunTransition run.state next)

def markStepAttemptStarted (run : WorkflowRunRecord) (stepId : String) (attempt : ℕ) (now : Int) :
    WorkflowRunRecord × List StoreWrite :=
  let run := { run with
    currentStepId := some stepId
    currentAttempt := some attempt
    updatedAt := now }
  (run, [.run .markStepAttemptStarted run,
    .progress (run.snapshot run.currentStepId run.currentAttempt now
      s!"step {stepId} attempt {attempt} running" false "await step output")])

def heartbeatTick (run : WorkflowRunRecord) (now : Int) (summary : String) : List StoreWrite :=
  [.progress (run.snapshot run.currentStepId run.currentAttempt now summary (run.state == .waiting)
    (if run.state = .waiting then "await human response" else "continue workflow"))]

/-- The second half of `persist_step_attempt`: `result.json` is written first,
then the record is loaded, counted and written back. -/
def countStepAttempt (run : WorkflowRunRecord) (attempt : StepAttemptRecord) : List StoreWrite :=
  let run := { run with
    totalIterations := Text.u32Succ run.totalIterations
    updatedAt := attempt.endedAt }
  [.run .persistStepAttempt run,
    .progress (run.snapshot (some attempt.stepId) (some attempt.attempt) attempt.endedAt
      s!"step {attempt.stepId} attempt {attempt.attempt} {attempt.state.display}"
      (run.state == .waiting)
      (attempt.nextStepId.getD "workflow terminal transition"))]

def checkpoint (run : WorkflowRunRecord) (now : Int) (summary : String) (pendingHumanInput : Bool)
    (nextExpectedAction : String) : WorkflowRunRecord × List StoreWrite :=
  let run := { run with updatedAt := now }
  (run, [.run .checkpoint run,
    .progress (run.snapshot run.currentStepId run.currentAttempt now summary pendingHumanInput
      nextExpectedAction)])

end Direclaw.Orchestration
