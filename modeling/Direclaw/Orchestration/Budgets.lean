import Direclaw.Orchestration.CrashResume
import Direclaw.Orchestration.WorkflowWalk

/-!
# The budgets of the engine

`run_until_non_running` and the retry loop of `execute_next` are bounded by
counters in a record that is rewritten and reloaded at every turn: the total of
the attempts against `max_total_iterations`, the attempt number against
`max_retries`. The invariant ties both to what an observer counts, and the
attempts left under the limit are the measure that ends every run.

The one exit that does not settle the run is the guard of
`run_until_non_running` itself: it returns with the record still `Running`,
where every other error exit goes through `execute_or_fail`.
-/

namespace Direclaw.Orchestration

open Direclaw.Lib

/-! ## What is counted -/

/-- The provider calls of the step visit in progress. A visit ends with the
checkpoint that moves the run to its next step. -/
def visitAttempts : List Observation → ℕ
  | [] => 0
  | .wrote (.run .checkpoint _) :: _ => 0
  | .invoked _ _ :: trace => visitAttempts trace + 1
  | _ :: trace => visitAttempts trace

/-- `max_total_iterations` of a run; one whose workflow is not declared never
comes to a step. -/
def iterationLimit (orchestrator : OrchestratorConfig) (run : WorkflowRunRecord) : ℕ :=
  match workflowForRun orchestrator run with
  | .ok workflow => maxTotalIterationsOf orchestrator workflow
  | .error _ => 0

/-- The engine is about to leave `run_until_non_running` through its guard. -/
def Control.AtGuard : Control → Prop
  | .cycling run cycles => run.state = .running ∧ maxCycles ≤ cycles
  | _ => False

/-- The call has returned. -/
def System.Done (s : System) : Prop := s.process.todo = [] ∧ s.process.control = .idle

/-! ## The invariant

`limit` is the run's `max_total_iterations` and `start` its total when the call
began. `G` stands for the guard having been taken. -/

section Budget

variable (orchestrator : OrchestratorConfig) (limit start : ℕ) (G : Prop)

/-- What holds of the files at any time. -/
structure InBudget (files : RunFiles) (trace : List Observation) : Prop where
  limit_eq : iterationLimit orchestrator files.run = limit
  spent : invocations trace ≤ limit - start

/-- The record is about to be looked at for the next step. -/
structure AtEntry (files : RunFiles) (trace : List Observation) : Prop where
  attempt : files.run.currentAttempt ≠ some 0
  counted : invocations trace + start = files.run.totalIterations
  fresh : visitAttempts trace = 0

/-- A step visit is in progress. -/
structure InVisit (files : RunFiles) (a : Attempt) : Prop where
  workflow : workflowForRun orchestrator files.run = .ok a.workflow
  limits : a.limits = resolveExecutionSafetyLimits orchestrator a.workflow a.step
  step : a.step ∈ a.workflow.steps
  running : files.run.state = .running
  cycles : a.cycles + start ≤ a.previousIterations
  attempt : 1 ≤ a.attempt

def AtBudget (files : RunFiles) (trace : List Observation) : Control → Prop
  | .idle => files.run.state ≠ .running ∨ G
  | .loading _ _ => AtEntry start files trace ∧ files.run.totalIterations = start
  | .cycling run cycles =>
    run = files.run ∧ (files.run.state = .running →
      AtEntry start files trace ∧ cycles + start ≤ files.run.totalIterations ∧
        (cycles = 0 ∨ files.run.totalIterations < limit))
  | .attempting a | .invoking a =>
    a.run = files.run ∧ InVisit orchestrator start files a ∧
      a.previousIterations ≤ files.run.totalIterations ∧
      invocations trace + start = files.run.totalIterations ∧ visitAttempts trace + 1 ≤ a.attempt
  | .running a | .counting a _ _ =>
    InVisit orchestrator start files a ∧ a.previousIterations ≤ files.run.totalIterations ∧
      files.run.totalIterations < limit ∧
      invocations trace + start = files.run.totalIterations + 1 ∧
      visitAttempts trace ≤ a.attempt ∧ a.attempt ≤ a.limits.maxRetries + 1
  | .settling a _ _ =>
    InVisit orchestrator start files a ∧ a.previousIterations < files.run.totalIterations ∧
      invocations trace + start = files.run.totalIterations ∧ visitAttempts trace ≤ a.attempt
  | .reloading previousIterations cycles =>
    files.run.state = .running →
      AtEntry start files trace ∧ previousIterations < files.run.totalIterations ∧
        cycles + start ≤ previousIterations ∧ files.run.totalIterations < limit

variable {orchestrator limit start G} {files : RunFiles} {trace : List Observation}

theorem iterationLimit_of_workflow {run : WorkflowRunRecord} {workflow : WorkflowConfig}
    (h : workflowForRun orchestrator run = .ok workflow) :
    iterationLimit orchestrator run = maxTotalIterationsOf orchestrator workflow := by
  simp only [iterationLimit, h]

variable {a : Attempt}

theorem InVisit.maxTotalIterations (h : InVisit orchestrator start files a)
    (hb : InBudget orchestrator limit start files trace) : a.limits.maxTotalIterations = limit := by
  rw [h.limits, resolve_maxTotalIterations, ← iterationLimit_of_workflow h.workflow, hb.limit_eq]

/-- A visit lasts while the record keeps its workflow and runs. -/
theorem InVisit.of_run {files' : RunFiles} (h : InVisit orchestrator start files a)
    (hworkflow : workflowForRun orchestrator files'.run = workflowForRun orchestrator files.run)
    (hstate : files'.run.state = files.run.state) : InVisit orchestrator start files' a where
  workflow := hworkflow.trans h.workflow
  limits := h.limits
  step := h.step
  running := hstate.trans h.running
  cycles := h.cycles
  attempt := h.attempt

/-- Below the limit the counter does not saturate. -/
theorem InVisit.totalIterations_succ (hfit : LimitsFit orchestrator)
    (h : InVisit orchestrator start files a) (hb : InBudget orchestrator limit start files trace)
    (htotal : files.run.totalIterations < limit) :
    Text.u32Succ files.run.totalIterations = files.run.totalIterations + 1 := by
  have hmax := (hfit a.workflow (workflowForRun_mem h.workflow) a.step h.step).1
  rw [← h.limits, h.maxTotalIterations hb] at hmax
  simp only [Text.u32Succ]
  omega

/-- What a passed check says of the counters. -/
theorem enforceExecutionSafety_ok {run : WorkflowRunRecord} {limits : ExecutionSafetyLimits}
    {now started : Int} {attempt : ℕ}
    (h : enforceExecutionSafety run limits now started attempt = .ok ()) :
    run.totalIterations < limits.maxTotalIterations ∧
      attempt ≤ u32WrappingSucc limits.maxRetries := by
  unfold enforceExecutionSafety at h
  repeat' split at h
  case isFalse.isFalse.isFalse.isFalse htotal _ _ hattempt =>
    exact ⟨not_le.mp htotal, not_lt.mp hattempt⟩
  all_goals cases h

/-- The error exit leaves a run that is not running. -/
theorem executeOrFail_budget {run : WorkflowRunRecord} (hrun : run = files.run) (now : Int)
    (err : OrchestratorError) (hb : InBudget orchestrator limit start files trace) :
    ProcessInv (InBudget orchestrator limit start) (AtBudget orchestrator limit start G) files trace
      (executeOrFail run now err) := by
  subst hrun
  cases hlive : files.run.state.isTerminal with
  | true =>
    have he : executeOrFail files.run now err = {} := by simp [executeOrFail, hlive]
    rw [he]
    refine ⟨hb, .inl fun hrun => ?_⟩
    rw [hrun] at hlive
    cases hlive
  | false =>
    obtain ⟨snapshot, -, he⟩ := executeOrFail_of_live hlive now err
    rw [he]
    have hb' : ∀ t, invocations t = invocations trace →
        InBudget orchestrator limit start
          (files.apply (.run .transitionState (failedRun files.run now err))) t :=
      fun t ht => ⟨hb.limit_eq, ht ▸ hb.spent⟩
    exact ⟨hb, hb' _ rfl, ⟨hb.limit_eq, hb.spent⟩, .inl (by simp [failedRun])⟩

theorem finishRun_budget (hrun : files.run.state = .running) (now at_ : Int) (summary : String)
    (n k : ℕ) (hb : InBudget orchestrator limit start files trace) :
    ProcessInv (InBudget orchestrator limit start) (AtBudget orchestrator limit start G) files trace
      (finishRun files.run now at_ summary n k) := by
  obtain ⟨snapshot, -, he⟩ := finishRun_running hrun now at_ summary n k
  rw [he]
  exact ⟨hb, ⟨hb.limit_eq, hb.spent⟩, ⟨hb.limit_eq, hb.spent⟩, fun h => by simp [succeededRun] at h⟩

theorem resolveNextStepPointer_attempt {run : WorkflowRunRecord} {workflow : WorkflowConfig}
    {pointer : NextStepPointer} (hne : run.currentAttempt ≠ some 0)
    (hp : resolveNextStepPointer files run workflow = some pointer) : 1 ≤ pointer.attempt := by
  unfold resolveNextStepPointer at hp
  split at hp
  · obtain ⟨step, _, rfl⟩ := Option.map_eq_some_iff.mp hp
    exact le_rfl
  · split at hp
    · cases hp
      exact le_rfl
    · next currentAttempt hcurrent =>
        split at hp
        · obtain ⟨next, _, rfl⟩ := Option.map_eq_some_iff.mp hp
          exact le_rfl
        · cases hp
          exact Nat.one_le_iff_ne_zero.mpr fun hzero =>
            hne (hcurrent.trans (congrArg some hzero))

/-- A visit begins, or the run is settled before one does. -/
theorem executeNext_budget {cycles : ℕ} (hb : InBudget orchestrator limit start files trace)
    (hrun : files.run.state = .running) (h : AtEntry start files trace)
    (hcycles : cycles + start ≤ files.run.totalIterations) (now : Int) :
    ProcessInv (InBudget orchestrator limit start) (AtBudget orchestrator limit start G) files trace
      (executeNext orchestrator files files.run now cycles) := by
  rcases executeNext_cases orchestrator files files.run now cycles with
    ⟨err, he⟩ | ⟨workflow, _, _, he⟩ | ⟨workflow, pointer, step, hw, hp, hf, he⟩
  · rw [he]
    exact executeOrFail_budget rfl now err hb
  · rw [he]
    exact finishRun_budget hrun now now _ _ _ hb
  · rw [he]
    have hattempt := resolveNextStepPointer_attempt h.attempt hp
    refine ⟨hb, rfl, ⟨hw, rfl, findStep_mem hf, hrun, hcycles, hattempt⟩, le_rfl, h.counted, ?_⟩
    rw [h.fresh]
    exact hattempt

/-- The decision after a counted attempt. -/
theorem settle_budget (hfit : LimitsFit orchestrator) {record : StepAttemptRecord}
    {result : Except OrchestratorError StepEvaluation}
    (hb : InBudget orchestrator limit start files trace)
    (h : AtBudget orchestrator limit start G files trace (.settling a record result)) :
    ProcessInv (InBudget orchestrator limit start) (AtBudget orchestrator limit start G) files trace
      (a.settle files.run record result) := by
  obtain ⟨hvisit, hprevious, hcount, hattempts⟩ := h
  cases hsafe : enforceExecutionSafety files.run a.limits record.endedAt a.startedAt a.attempt with
  | error err =>
    simp only [Attempt.settle, hsafe]
    exact executeOrFail_budget rfl a.now err hb
  | ok u =>
    obtain ⟨htotal, hretries⟩ := enforceExecutionSafety_ok hsafe
    rw [hvisit.maxTotalIterations hb] at htotal
    rcases a.settle_cases files.run record result with
      ⟨err, he⟩ | ⟨evaluation, next, summary, action, _, _, he⟩ |
        ⟨evaluation, summary, _, _, he⟩ | ⟨err, _, hcan, _, he⟩
    · rw [he]
      exact executeOrFail_budget rfl a.now err hb
    · rw [he]
      exact ⟨hb, ⟨hb.limit_eq, hb.spent⟩, ⟨hb.limit_eq, hb.spent⟩,
        fun _ => ⟨⟨by simp, hcount, rfl⟩, hprevious, hvisit.cycles, htotal⟩⟩
    · rw [he]
      exact finishRun_budget hvisit.running a.now _ summary _ _ hb
    · -- below `max_retries` the attempt number does not saturate
      have hmax : a.attempt ≤ a.limits.maxRetries ∧ a.limits.maxRetries ≤ Text.u32Max := by
        refine ⟨?_, ?_⟩
        · simp only [Attempt.canRetry, Bool.and_eq_true, decide_eq_true_eq] at hcan
          exact hcan.2
        · rw [hvisit.limits]
          exact (hfit a.workflow (workflowForRun_mem hvisit.workflow) a.step hvisit.step).2
      have hsucc : Text.u32Succ a.attempt = a.attempt + 1 := by
        simp only [u32WrappingSucc] at hretries
        simp only [Text.u32Succ, Text.u32Max] at hmax ⊢
        omega
      rw [he, hsucc]
      exact ⟨hb, rfl, ⟨hvisit.workflow, hvisit.limits, hvisit.step, hvisit.running, hvisit.cycles,
        Nat.le_add_left 1 a.attempt⟩, hprevious.le, hcount, Nat.add_le_add_right hattempts 1⟩

/-- One step keeps the counters in their budgets. -/
theorem control_budget (hfit : LimitsFit orchestrator) (files : RunFiles)
    (trace : List Observation) (input : Input) (control : Control)
    (hb : InBudget orchestrator limit start files trace)
    (h : AtBudget orchestrator limit start G files trace control) (hguard : control.AtGuard → G) :
    ProcessInv (InBudget orchestrator limit start) (AtBudget orchestrator limit start G) files
      ((Control.advance orchestrator files input control).2 ++ trace)
      (Control.advance orchestrator files input control).1 := by
  cases control with
  | idle => exact ⟨hb, h⟩
  | loading entry now =>
    obtain ⟨hentry, hstart⟩ := h
    simp only [Control.advance]
    rcases enter_cases entry files.run now with he | he | ⟨hs, verb, he⟩
    · rw [he]
      refine ⟨hb, .inl fun hrun => ?_⟩
      cases entry <;> simp [enter, hrun, RunState.isTerminal] at he
    · rw [he]
      exact ⟨hb, rfl, fun _ => ⟨hentry, by omega, .inl rfl⟩⟩
    · simp only [he, beginRun, transitionState, RunState.canTransitionTo_running hs, if_true]
      exact ⟨hb, ⟨hb.limit_eq, hb.spent⟩, ⟨hb.limit_eq, hb.spent⟩, rfl,
        fun _ => ⟨⟨hentry.attempt, hentry.counted, hentry.fresh⟩, by simp [hstart], .inl rfl⟩⟩
  | cycling run cycles =>
    obtain ⟨rfl, hentry⟩ := h
    simp only [Control.advance]
    split
    · next hstop =>
        refine ⟨hb, ?_⟩
        by_cases hrun : files.run.state = .running
        · exact .inr (hguard ⟨hrun, by simpa [hrun] using hstop⟩)
        · exact .inl hrun
    · next hgo =>
        have hrun : files.run.state = .running := by
          by_contra hne
          exact hgo (.inl hne)
        obtain ⟨hentry, hcycles, -⟩ := hentry hrun
        exact executeNext_budget hb hrun hentry hcycles input.now
  | attempting a =>
    obtain ⟨hrun, hvisit, hprevious, hcount, hattempts⟩ := h
    simp only [Control.advance, markStepAttemptStarted, hrun]
    exact ⟨hb, ⟨hb.limit_eq, hb.spent⟩, ⟨hb.limit_eq, hb.spent⟩, rfl,
      ⟨hvisit.workflow, hvisit.limits, hvisit.step, hvisit.running, hvisit.cycles, hvisit.attempt⟩,
      hprevious, hcount, hattempts⟩
  | invoking a =>
    obtain ⟨hrun, hvisit, hprevious, hcount, hattempts⟩ := h
    simp only [Control.advance]
    cases hsafe : enforceExecutionSafety a.run a.limits a.startedAt a.startedAt a.attempt with
    | error err => exact executeOrFail_budget hrun a.now err hb
    | ok u =>
      obtain ⟨htotal, hretries⟩ := enforceExecutionSafety_ok hsafe
      rw [hvisit.maxTotalIterations hb, hrun] at htotal
      have hwrap : u32WrappingSucc a.limits.maxRetries ≤ a.limits.maxRetries + 1 := Nat.mod_le _ _
      refine ⟨⟨hb.limit_eq, ?_⟩, hvisit, hprevious, htotal, ?_, hattempts, by omega⟩
      · simp only [List.singleton_append, invocations_invoked]
        omega
      · simp only [List.singleton_append, invocations_invoked]
        omega
  | running a =>
    obtain ⟨hvisit, hprevious, htotal, hcount, hattempts, hretries⟩ := h
    exact ⟨⟨hb.limit_eq, hb.spent⟩, ⟨hb.limit_eq, hb.spent⟩,
      hvisit.of_run rfl rfl,
      hprevious, htotal, hcount, hattempts, hretries⟩
  | counting a record result =>
    obtain ⟨hvisit, hprevious, htotal, hcount, hattempts, -⟩ := h
    have hsucc := hvisit.totalIterations_succ hfit hb htotal
    simp only [Control.advance, countStepAttempt, hsucc]
    exact ⟨hb, ⟨hb.limit_eq, hb.spent⟩, ⟨hb.limit_eq, hb.spent⟩,
      hvisit.of_run rfl rfl,
      Nat.lt_succ_of_le hprevious, hcount, hattempts⟩
  | settling a record result => exact settle_budget hfit hb h
  | reloading n cycles =>
    simp only [Control.advance]
    split
    · next hstuck =>
        -- a settled attempt has been counted, so there was progress
        have := (h hstuck.1).2.1
        omega
    · refine ⟨hb, rfl, fun hrun => ?_⟩
      obtain ⟨hentry, hprevious, hcycles, htotal⟩ := h hrun
      have hle : Text.u32Succ cycles ≤ cycles + 1 := Nat.min_le_left _ _
      exact ⟨hentry, by omega, .inr htotal⟩

/-- The budgets of a whole run; `G` may be taken to be false where no step is the
guard's. -/
theorem run_budget (hfit : LimitsFit orchestrator) {s : System} {inputs : List Input}
    (hs : SystemInv (InBudget orchestrator limit start) (AtBudget orchestrator limit start G) s)
    (hm : Meets (System.advance orchestrator)
      (fun t _ => t.process.todo = [] → t.process.control.AtGuard → G) s inputs) :
    SystemInv (InBudget orchestrator limit start) (AtBudget orchestrator limit start G)
      (run (System.advance orchestrator) s inputs) := by
  have hstep : ∀ t input, SystemInv (InBudget orchestrator limit start)
      (AtBudget orchestrator limit start G) t →
      (t.process.todo = [] → t.process.control.AtGuard → G) →
      SystemInv (InBudget orchestrator limit start) (AtBudget orchestrator limit start G)
        (t.advance orchestrator input) :=
    fun t input h hguard => systemInv_advance_of (control_budget hfit) h input hguard
  exact run_invariant hstep hs hm

end Budget

/-! ## The measure -/

/-- A bound on the steps from a control point: twenty for every attempt that the
limit leaves, and those of the attempt in progress. -/
def Control.stepsLeft (limit : ℕ) (files : RunFiles) : Control → ℕ
  | .idle => 0
  | .loading _ _ => 20 * (limit - files.run.totalIterations) + 15
  | .cycling run _ => if run.state = .running then 20 * (limit - files.run.totalIterations) + 12 else 1
  | .attempting _ => 20 * (limit - files.run.totalIterations) + 11
  | .invoking _ => 20 * (limit - files.run.totalIterations) + 8
  | .running _ => 20 * (limit - files.run.totalIterations) + 7
  | .counting _ _ _ => 20 * (limit - files.run.totalIterations) + 5
  | .settling _ _ _ => 20 * (limit - files.run.totalIterations) + 17
  | .reloading _ _ =>
    if files.run.state = .running then 20 * (limit - files.run.totalIterations) + 13 else 2

def Process.stepsLeft (limit : ℕ) (files : RunFiles) (p : Process) : ℕ :=
  p.todo.length + p.control.stepsLeft limit (files.applyAll p.todo)

def System.stepsLeft (limit : ℕ) (s : System) : ℕ := s.process.stepsLeft limit s.files

section Measure

variable {orchestrator : OrchestratorConfig} {limit start : ℕ} {G : Prop} {files : RunFiles}
  {trace : List Observation}

theorem executeOrFail_stepsLeft (limit : ℕ) (files : RunFiles) (run : WorkflowRunRecord) (now : Int)
    (err : OrchestratorError) : (executeOrFail run now err).stepsLeft limit files ≤ 2 := by
  rcases executeOrFail_cases run now err with ⟨_, he⟩ | ⟨_, record, snapshot, _, he⟩ <;>
    simp [he, Process.stepsLeft, Control.stepsLeft]

theorem finishRun_stepsLeft (hrun : files.run.state = .running) (limit : ℕ) (now at_ : Int)
    (summary : String) (n k : ℕ) :
    (finishRun files.run now at_ summary n k).stepsLeft limit files = 4 := by
  obtain ⟨snapshot, -, he⟩ := finishRun_running hrun now at_ summary n k
  simp [he, Process.stepsLeft, Control.stepsLeft, succeededRun]

/-- Every control point gets closer to the end. -/
theorem control_stepsLeft (hfit : LimitsFit orchestrator) (input : Input) {control : Control}
    (hb : InBudget orchestrator limit start files trace)
    (h : AtBudget orchestrator limit start G files trace control) (hgo : control ≠ .idle) :
    (Control.advance orchestrator files input control).1.stepsLeft limit files <
      control.stepsLeft limit files := by
  cases control with
  | idle => exact absurd rfl hgo
  | loading entry now =>
    simp only [Control.advance]
    rcases enter_cases entry files.run now with he | he | ⟨hs, verb, he⟩
    · simp [he, Process.stepsLeft, Control.stepsLeft]
    · simp only [he, Process.stepsLeft, Control.stepsLeft, List.length_nil, RunFiles.applyAll_nil]
      split <;> omega
    · simp [he, beginRun, transitionState, RunState.canTransitionTo_running hs, Process.stepsLeft,
        Control.stepsLeft]
      omega
  | cycling run cycles =>
    obtain ⟨rfl, -⟩ := h
    simp only [Control.advance]
    split
    · simp only [Process.stepsLeft, Control.stepsLeft, List.length_nil]
      split <;> omega
    · next hgo =>
        have hrun : files.run.state = .running := by
          by_contra hne
          exact hgo (.inl hne)
        simp only [Control.stepsLeft, hrun, if_true]
        rcases executeNext_cases orchestrator files files.run input.now cycles with
          ⟨err, he⟩ | ⟨workflow, _, _, he⟩ | ⟨workflow, pointer, step, _, _, _, he⟩
        · have := executeOrFail_stepsLeft limit files files.run input.now err
          rw [he]
          omega
        · rw [he, finishRun_stepsLeft hrun]
          omega
        · simp only [he, Process.stepsLeft, Control.stepsLeft, List.length_nil,
            RunFiles.applyAll_nil]
          omega
  | attempting a =>
    obtain ⟨hrun, -⟩ := h
    simp [Control.advance, markStepAttemptStarted, hrun, Process.stepsLeft, Control.stepsLeft]
    omega
  | invoking a =>
    simp only [Control.advance]
    split
    · next err _ =>
        have := executeOrFail_stepsLeft limit files a.run a.now err
        simp only [Control.stepsLeft]
        omega
    · simp only [Process.stepsLeft, Control.stepsLeft, List.length_nil, RunFiles.applyAll_nil]
      omega
  | running a =>
    simp [Control.advance, Process.stepsLeft, Control.stepsLeft]
    omega
  | counting a record result =>
    -- the attempt that is counted pays for the steps after it
    obtain ⟨hvisit, _, htotal, _⟩ := h
    have hsucc := hvisit.totalIterations_succ hfit hb htotal
    simp [Control.advance, countStepAttempt, hsucc, Process.stepsLeft, Control.stepsLeft]
    omega
  | settling a record result =>
    obtain ⟨hvisit, -⟩ := h
    simp only [Control.advance, Control.stepsLeft]
    rcases a.settle_cases files.run record result with
      ⟨err, he⟩ | ⟨evaluation, next, summary, action, _, _, he⟩ |
        ⟨evaluation, summary, _, _, he⟩ | ⟨err, _, _, _, he⟩
    · have := executeOrFail_stepsLeft limit files files.run a.now err
      rw [he]
      omega
    · simp [he, checkpoint, Process.stepsLeft, Control.stepsLeft, hvisit.running]
      omega
    · rw [he, finishRun_stepsLeft hvisit.running]
      omega
    · simp only [he, Process.stepsLeft, Control.stepsLeft, List.length_nil, RunFiles.applyAll_nil]
      omega
  | reloading n cycles =>
    simp only [Control.advance]
    split
    · next hstuck => simp [Process.stepsLeft, Control.stepsLeft, hstuck.1]
    · simp only [Process.stepsLeft, Control.stepsLeft, List.length_nil, RunFiles.applyAll_nil]
      split <;> omega

theorem advance_stepsLeft (hfit : LimitsFit orchestrator) {s : System} (input : Input)
    (h : SystemInv (InBudget orchestrator limit start) (AtBudget orchestrator limit start G) s)
    (hgo : ¬ s.Done) : (s.advance orchestrator input).stepsLeft limit < s.stepsLeft limit := by
  obtain ⟨files, ⟨todo, control⟩, trace⟩ := s
  cases todo with
  | nil =>
    have hlt := control_stepsLeft hfit input h.1 h.2 fun hidle => hgo ⟨rfl, hidle⟩
    have hnow : System.stepsLeft limit
        { files := files, process := { control := control }, trace := trace } =
        control.stepsLeft limit files :=
      Nat.zero_add _
    rw [hnow]
    exact hlt
  | cons w ws =>
    simp only [System.stepsLeft, System.advance, Process.stepsLeft, RunFiles.applyAll_cons,
      List.length_cons]
    omega

end Measure

/-! ## Whole calls -/

section Calls

variable {orchestrator : OrchestratorConfig} {limit start : ℕ} {G : Prop}

variable {s : System}

theorem advance_done (h : s.Done) (input : Input) : s.advance orchestrator input = s := by
  obtain ⟨files, ⟨todo, control⟩, trace⟩ := s
  obtain ⟨rfl, rfl⟩ := h
  rfl

theorem run_of_done (h : s.Done) (inputs : List Input) :
    run (System.advance orchestrator) s inputs = s := by
  induction inputs with
  | nil => rfl
  | cons input inputs ih => rw [run_cons, advance_done h, ih]

/-- The call ends within its steps, whatever the inputs are. -/
theorem run_ends (hfit : LimitsFit orchestrator) {inputs : List Input}
    (hs : SystemInv (InBudget orchestrator limit start) (AtBudget orchestrator limit start True) s)
    (hlong : s.stepsLeft limit < inputs.length) :
    (run (System.advance orchestrator) s inputs).Done := by
  refine run_done ?_ (fun t input h hgo => advance_stepsLeft hfit input h hgo) ?_ hs hlong
  · intro t input h
    exact systemInv_advance_of (control_budget hfit) h input fun _ _ => trivial
  · intro t input h
    rw [advance_done h]
    exact h

/-- The guard of `run_until_non_running` is not taken. -/
def GuardAvoided (orchestrator : OrchestratorConfig) (s : System) (inputs : List Input) : Prop :=
  Meets (System.advance orchestrator)
    (fun t _ => ¬ (t.process.todo = [] ∧ t.process.control.AtGuard)) s inputs

/-- A call that is not stopped by the guard settles the run, and no other does. -/
theorem settled_iff (hfit : LimitsFit orchestrator) {inputs : List Input}
    (hs : ∀ G, SystemInv (InBudget orchestrator limit start) (AtBudget orchestrator limit start G) s)
    (hlong : s.stepsLeft limit < inputs.length) :
    (run (System.advance orchestrator) s inputs).files.run.state ≠ .running ↔
      GuardAvoided orchestrator s inputs := by
  have hdone := run_ends hfit (hs True) hlong
  constructor
  · intro hsettled
    have hinv := hs True
    clear hs hlong hdone
    induction inputs generalizing s with
    | nil => trivial
    | cons input inputs ih =>
      refine ⟨?_, ih hsettled (systemInv_advance_of (control_budget hfit) hinv input
        fun _ _ => trivial)⟩
      rintro ⟨htodo, hguard⟩
      -- the guard ends the call with the record as it is
      obtain ⟨files, ⟨todo, control⟩, trace⟩ := s
      cases control with
      | cycling record cycles =>
        obtain rfl : todo = [] := htodo
        obtain ⟨rfl, -⟩ : record = files.run ∧ _ := hinv.2
        have hstop : System.advance orchestrator
            { files := files, process := { control := .cycling files.run cycles }, trace := trace }
            input = { files := files, trace := trace } := by
          simp only [System.advance, Control.advance, if_pos (Or.inr hguard.2)]
          rfl
        rw [run_cons, hstop, run_of_done ⟨rfl, rfl⟩] at hsettled
        exact hsettled hguard.1
      | _ => exact hguard
  · intro hguard
    have hmeets : Meets (System.advance orchestrator)
        (fun t _ => t.process.todo = [] → t.process.control.AtGuard → False) s inputs := by
      simpa only [GuardAvoided, not_and] using hguard
    have hend := run_budget hfit (hs False) hmeets
    obtain ⟨htodo, hidle⟩ := hdone
    rw [SystemInv, ProcessInv, htodo, hidle] at hend
    exact hend.2.resolve_right id

/-- Up to ten thousand attempts the guard is out of reach. -/
theorem guardAvoided_of_le (hfit : LimitsFit orchestrator) (inputs : List Input)
    (hs : SystemInv (InBudget orchestrator limit start) (AtBudget orchestrator limit start True) s)
    (hle : limit ≤ start + maxCycles) : GuardAvoided orchestrator s inputs := by
  have hstep : ∀ t, ∀ input ∈ inputs, SystemInv (InBudget orchestrator limit start)
      (AtBudget orchestrator limit start True) t →
      ¬ (t.process.todo = [] ∧ t.process.control.AtGuard) ∧
        SystemInv (InBudget orchestrator limit start) (AtBudget orchestrator limit start True)
          (t.advance orchestrator input) := by
    intro t input _ h
    refine ⟨?_, systemInv_advance_of (control_budget hfit) h input fun _ _ => trivial⟩
    rintro ⟨htodo, hguard⟩
    obtain ⟨files, ⟨todo, control⟩, trace⟩ := t
    cases control with
    | cycling record cycles =>
      obtain rfl : todo = [] := htodo
      have hat : AtBudget orchestrator limit start True files trace (.cycling record cycles) := h.2
      obtain ⟨rfl, hentry⟩ := hat
      obtain ⟨-, hcycles, hroom⟩ := hentry hguard.1
      have hmany : maxCycles ≤ cycles := hguard.2
      have hpos : 0 < maxCycles := by decide
      omega
    | _ => exact hguard
  exact meets_of_invariant hstep hs

/-- `run_until_non_running` on a loaded run. -/
def System.calling (files : RunFiles) : System :=
  { files := files, process := { control := .cycling files.run 0 } }

theorem calling_inv (orchestrator : OrchestratorConfig) {files : RunFiles}
    (hattempt : files.run.currentAttempt ≠ some 0) (G : Prop) :
    SystemInv (InBudget orchestrator (iterationLimit orchestrator files.run) files.run.totalIterations)
      (AtBudget orchestrator (iterationLimit orchestrator files.run) files.run.totalIterations G)
      (System.calling files) :=
  ⟨⟨rfl, Nat.zero_le _⟩, rfl, fun _ => ⟨⟨hattempt, Nat.zero_add _, rfl⟩, (Nat.zero_add _).le, .inl rfl⟩⟩

end Calls

theorem calling_ends {orchestrator : OrchestratorConfig} (hfit : LimitsFit orchestrator)
    {files : RunFiles} (hrun : files.run.state = .running)
    (hattempt : files.run.currentAttempt ≠ some 0) {inputs : List Input}
    (hlong : 20 * (iterationLimit orchestrator files.run - files.run.totalIterations) + 12 <
      inputs.length) :
    (System.calling files).stepsLeft (iterationLimit orchestrator files.run) < inputs.length ∧
      (run (System.advance orchestrator) (System.calling files) inputs).Done := by
  have hsteps : (System.calling files).stepsLeft (iterationLimit orchestrator files.run) <
      inputs.length := by
    simp only [System.stepsLeft, System.calling, Process.stepsLeft, Control.stepsLeft, hrun,
      List.length_nil, RunFiles.applyAll_nil, if_true]
    omega
  exact ⟨hsteps, run_ends hfit (calling_inv orchestrator hattempt True) hsteps⟩

/-- On a running run, `run_until_non_running` ends after at most the attempts that
the limit leaves, with at most `max_retries + 1` of them in each step visit; and
it leaves the run settled unless its own guard stops it, which takes more than
ten thousand attempts. -/
theorem engine_ends_in_budget (orchestrator : OrchestratorConfig) (files : RunFiles)
    (inputs : List Input) (hfit : LimitsFit orchestrator) (hrun : files.run.state = .running)
    (hattempt : files.run.currentAttempt ≠ some 0)
    (hlong : 20 * (iterationLimit orchestrator files.run - files.run.totalIterations) + 12 <
      inputs.length) :
    (run (System.advance orchestrator) (System.calling files) inputs).Done ∧
    invocations (run (System.advance orchestrator) (System.calling files) inputs).trace ≤
      iterationLimit orchestrator files.run - files.run.totalIterations ∧
    (∀ n a, (run (System.advance orchestrator) (System.calling files) (inputs.take n)).process =
        { control := .running a } →
      a.limits = resolveExecutionSafetyLimits orchestrator a.workflow a.step ∧
        visitAttempts (run (System.advance orchestrator) (System.calling files)
          (inputs.take n)).trace ≤ a.limits.maxRetries + 1) ∧
    ((run (System.advance orchestrator) (System.calling files) inputs).files.run.state ≠ .running ↔
      GuardAvoided orchestrator (System.calling files) inputs) ∧
    (iterationLimit orchestrator files.run ≤ files.run.totalIterations + maxCycles →
      GuardAvoided orchestrator (System.calling files) inputs) := by
  have hinv := calling_inv orchestrator hattempt
  obtain ⟨hsteps, hdone⟩ := calling_ends hfit hrun hattempt hlong
  have hall : ∀ es, SystemInv _ _ (run (System.advance orchestrator) (System.calling files) es) :=
    fun es => run_budget hfit (hinv True) (meets_of_invariant
      (fun t e _ (_ : True) => ⟨fun _ _ => trivial, trivial⟩) trivial)
  refine ⟨hdone, (hall inputs).base_now.spent, ?_,
    settled_iff hfit hinv hsteps, guardAvoided_of_le hfit inputs (hinv True)⟩
  intro n a hprocess
  have h := hall (inputs.take n)
  rw [SystemInv, ProcessInv, hprocess] at h
  obtain ⟨-, hvisit, -, -, -, hattempts, hretries⟩ := h
  exact ⟨hvisit.limits, hattempts.trans hretries⟩

/-! ### Attempts are numbered from one

The records that the engine writes never name an attempt zero, so the theorem
applies to every run that only engines have worked on, crashes included. -/

section Numbering

def Numbered (files : RunFiles) (_ : List Observation) : Prop := files.run.currentAttempt ≠ some 0

def AtNumbered (_ : RunFiles) (_ : List Observation) : Control → Prop
  | .cycling run _ => run.currentAttempt ≠ some 0
  | .attempting a => 1 ≤ a.attempt
  | .invoking a => a.run.currentAttempt ≠ some 0
  | _ => True

variable {orchestrator : OrchestratorConfig} {files : RunFiles} {trace : List Observation}

theorem executeOrFail_numbered {run : WorkflowRunRecord} (hrun : run.currentAttempt ≠ some 0)
    (now : Int) (err : OrchestratorError) (hb : Numbered files trace) :
    ProcessInv Numbered AtNumbered files trace (executeOrFail run now err) := by
  cases hlive : run.state.isTerminal with
  | true =>
    have he : executeOrFail run now err = {} := by simp [executeOrFail, hlive]
    rw [he]
    exact ⟨hb, trivial⟩
  | false =>
    obtain ⟨snapshot, -, he⟩ := executeOrFail_of_live hlive now err
    rw [he]
    exact ⟨hb, hrun, hrun, trivial⟩

theorem finishRun_numbered {run : WorkflowRunRecord} (now at_ : Int) (summary : String) (n k : ℕ)
    (hb : Numbered files trace) :
    ProcessInv Numbered AtNumbered files trace (finishRun run now at_ summary n k) := by
  by_cases hrun : run.state = .running
  · obtain ⟨snapshot, -, he⟩ := finishRun_running hrun now at_ summary n k
    rw [he]
    exact ⟨hb, (Option.some_ne_none 0).symm, (Option.some_ne_none 0).symm, trivial⟩
  · have hcan : run.state.canTransitionTo .succeeded = false := by
      cases h : run.state <;> simp_all [RunState.canTransitionTo]
    simp only [finishRun, transitionState, hcan]
    exact executeOrFail_numbered (Option.some_ne_none 0).symm now _ hb

theorem control_numbered (files : RunFiles) (trace : List Observation) (input : Input)
    (control : Control) (hb : Numbered files trace) (h : AtNumbered files trace control) :
    ProcessInv Numbered AtNumbered files
      ((Control.advance orchestrator files input control).2 ++ trace)
      (Control.advance orchestrator files input control).1 := by
  cases control with
  | idle => exact ⟨hb, trivial⟩
  | loading entry now =>
    simp only [Control.advance]
    rcases enter_cases entry files.run now with he | he | ⟨hs, verb, he⟩
    · rw [he]
      exact ⟨hb, trivial⟩
    · rw [he]
      exact ⟨hb, hb⟩
    · obtain ⟨record, snapshot, -, -, hattempt, hbegin⟩ := beginRun_eq files.run now verb hs
      have hrecord : record.currentAttempt ≠ some 0 := by rw [hattempt]; exact hb
      rw [he, hbegin]
      exact ⟨hb, hrecord, hrecord, hrecord⟩
  | cycling run cycles =>
    simp only [Control.advance]
    split
    · exact ⟨hb, trivial⟩
    · rcases executeNext_cases orchestrator files run input.now cycles with
        ⟨err, he⟩ | ⟨workflow, _, _, he⟩ | ⟨workflow, pointer, step, _, hp, _, he⟩
      · rw [he]
        exact executeOrFail_numbered h _ _ hb
      · rw [he]
        exact finishRun_numbered _ _ _ _ _ hb
      · rw [he]
        exact ⟨hb, resolveNextStepPointer_attempt h hp⟩
  | attempting a =>
    have hattempt : (some a.attempt : Option ℕ) ≠ some 0 := by
      have hone : 1 ≤ a.attempt := h
      simp only [ne_eq, Option.some.injEq]
      omega
    exact ⟨hb, hattempt, hattempt, hattempt⟩
  | invoking a =>
    simp only [Control.advance]
    split
    · exact executeOrFail_numbered h _ _ hb
    · exact ⟨hb, trivial⟩
  | running a => exact ⟨hb, hb, trivial⟩
  | counting a record result => exact ⟨hb, hb, hb, trivial⟩
  | settling a record result =>
    simp only [Control.advance]
    rcases a.settle_cases files.run record result with
      ⟨err, he⟩ | ⟨evaluation, next, summary, action, _, _, he⟩ |
        ⟨evaluation, summary, _, _, he⟩ | ⟨err, _, _, _, he⟩
    · rw [he]
      exact executeOrFail_numbered hb _ _ hb
    · rw [he]
      exact ⟨hb, (Option.some_ne_none 0).symm, (Option.some_ne_none 0).symm, trivial⟩
    · rw [he]
      exact finishRun_numbered _ _ _ _ _ hb
    · rw [he]
      exact ⟨hb, by simp [AtNumbered, Text.u32Succ, Text.u32Max]⟩
  | reloading n cycles =>
    simp only [Control.advance]
    split
    · exact ⟨hb, trivial⟩
    · exact ⟨hb, hb⟩

/-- However often a run was entered and crashed, its pointer names no attempt zero. -/
theorem currentAttempt_ne_zero (orchestrator : OrchestratorConfig) (runId workflowId : String)
    (now : Int) (events : List EngineEvent) :
    (run (engineStep orchestrator) (System.created runId workflowId now)
      events).files.run.currentAttempt ≠ some 0 := by
  have hstep : ∀ s e, SystemInv Numbered AtNumbered s →
      SystemInv Numbered AtNumbered (engineStep orchestrator s e) :=
    fun s e h => systemInv_step_of (fun _ _ => trivial) (fun _ _ _ _ => trivial)
      (fun files trace input control hb h (_ : True) => control_numbered files trace input control hb h)
      h e fun _ _ _ => trivial
  have hcreated : SystemInv Numbered AtNumbered (System.created runId workflowId now) :=
    ⟨(Option.some_ne_none 0).symm, trivial⟩
  exact (run_invariant' hstep events hcreated).base_now

end Numbering

/-! ### A loop that outlives the guard -/

/-- The given steps under an iteration limit, with all the time there is. -/
def patientOrchestrator (steps : List WorkflowStepConfig) (maxTotalIterations : ℕ) :
    OrchestratorConfig :=
  { sampleOrchestrator steps with
    workflowOrchestration := some
      { maxTotalIterations := some maxTotalIterations
        defaultRunTimeoutSeconds := some (2 ^ 63 - 1)
        defaultStepTimeoutSeconds := some (2 ^ 63 - 1) } }

theorem patient_withinTime (steps : List WorkflowStepConfig) (n : ℕ) {workflow : WorkflowConfig}
    (hlimits : workflow.limits = none) (step : WorkflowStepConfig) (record : WorkflowRunRecord)
    (now started : Int) :
    WithinTime (resolveExecutionSafetyLimits (patientOrchestrator steps n) workflow step) record now
      started := by
  have hmax : u64AsI64 (2 ^ 63 - 1) = i64Max := by decide
  have hle : ∀ x y, i64SaturatingSub x y ≤ i64Max := by
    intro x y
    have : i64Min ≤ i64Max := by decide
    simp only [i64SaturatingSub]
    omega
  simp only [WithinTime, resolveExecutionSafetyLimits, hlimits, patientOrchestrator,
    Option.bind_none, Option.none_or, Option.bind_some, Option.getD_some, hmax]
  exact ⟨hle _ _, hle _ _⟩

/-- A step that leads back to itself. -/
def loopSteps : List WorkflowStepConfig := [sampleStep "plan" (some "plan")]

def startedFiles : RunFiles :=
  { createRun "run-1" "flow" 0 with
    run := { (createRun "run-1" "flow" 0).run with state := .running } }

theorem engine_ends_in_budget_short_loop :
    (run (System.advance (patientOrchestrator loopSteps 3)) (System.calling startedFiles)
      (List.replicate 73 providerAnswers)).files.run.state ≠ .running ∧
    invocations (run (System.advance (patientOrchestrator loopSteps 3)) (System.calling startedFiles)
      (List.replicate 73 providerAnswers)).trace ≤ 3 := by
  obtain ⟨-, hinvocations, -, hsettled, hguard⟩ :=
    engine_ends_in_budget (patientOrchestrator loopSteps 3) startedFiles
      (List.replicate 73 providerAnswers) (by decide) rfl (by decide) (by decide)
  exact ⟨hsettled.mpr (hguard (by decide)), hinvocations⟩

/-- The walk round the loop. -/
def loopCourse : Course (patientOrchestrator loopSteps 20000) where
  workflow := { id := "flow", steps := loopSteps }
  outcomes := List.replicate 20000 providerAnswers.outcome
  fin := some { step := sampleStep "plan" (some "plan"), attempt := 1 }
  leads := (walk_replicate (by decide) rfl rfl 20000).1
  long := .inr (by rw [List.length_replicate]; decide)

theorem loopCourse_visits : loopCourse.visits = 20000 := by
  have htake : loopCourse.outcomes.take loopCourse.limit =
      List.replicate 20000 providerAnswers.outcome := by
    simp only [loopCourse, List.take_replicate]
    rfl
  rw [Course.visits, htake]
  exact (walk_replicate (by decide) rfl rfl 20000).2

/-- A provider that always answers takes the engine round the loop until the guard. -/
theorem loop_running {inputs : List Input} (hinputs : ∀ input ∈ inputs, input = providerAnswers)
    (hdone : (run (System.advance (patientOrchestrator loopSteps 20000))
      (System.calling startedFiles) inputs).Done) :
    (run (System.advance (patientOrchestrator loopSteps 20000)) (System.calling startedFiles)
      inputs).files.run.state = .running := by
  have hfit : LimitsFit (patientOrchestrator loopSteps 20000) := by decide
  have hstart : SystemInv loopCourse.OnCourse loopCourse.Follows (System.calling startedFiles) :=
    ⟨rfl, rfl, .inl ⟨rfl, rfl, Nat.zero_le _, .inl ⟨rfl, rfl, rfl⟩⟩⟩
  have hmeets := Course.meets_constant hfit (patient_withinTime loopSteps 20000 rfl)
    (fun outcome h => List.eq_of_mem_replicate h) hinputs hstart
  have hend := Course.run_follows hfit hstart hmeets
  obtain ⟨htodo, hidle⟩ := hdone
  rw [SystemInv, ProcessInv, htodo, hidle] at hend
  have hmany : maxCycles < loopCourse.visits := by rw [loopCourse_visits]; decide
  rcases hend.2 with ⟨hrun, -⟩ | ⟨-, hfew, -⟩ | ⟨-, hfew, -⟩
  · exact hrun
  · omega
  · omega

/-- Twenty thousand attempts are allowed, and after ten thousand the call returns
and leaves the run `Running`. -/
theorem guard_leaves_run_running :
    validateSetupInvariants (patientOrchestrator loopSteps 20000) = .ok () ∧
    (run (System.advance (patientOrchestrator loopSteps 20000)) (System.calling startedFiles)
      (List.replicate 400013 providerAnswers)).Done ∧
    (run (System.advance (patientOrchestrator loopSteps 20000)) (System.calling startedFiles)
      (List.replicate 400013 providerAnswers)).files.run.state = .running := by
  have hlong : 20 * (iterationLimit (patientOrchestrator loopSteps 20000) startedFiles.run -
      startedFiles.run.totalIterations) + 12 < (List.replicate 400013 providerAnswers).length := by
    rw [List.length_replicate]
    decide
  have hdone := (calling_ends (by decide) rfl (by decide) hlong).2
  exact ⟨rfl, hdone, loop_running (fun input h => List.eq_of_mem_replicate h) hdone⟩

end Direclaw.Orchestration
