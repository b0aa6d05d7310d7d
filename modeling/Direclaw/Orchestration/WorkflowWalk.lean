import Direclaw.Orchestration.WorkflowEngine

/-!
# The walk of a workflow

What a workflow does when nobody counts its attempts: from a step and an attempt
number, an outcome of the provider leads to the next attempt, to the end of the
workflow or to an error. `walk` follows a list of outcomes and `visits` counts
the step visits it begins. The retry limit of a step is part of the walk.

The engine follows the walk. What ends it early are its two counters, the total
of the attempts and the cycles of `run_until_non_running`, and the invariant
below says in which state each of them leaves the run.
-/

namespace Direclaw.Orchestration

open Direclaw.Lib

/-! ## The walk -/

/-- The attempt a workflow makes next. -/
structure Position where
  step : WorkflowStepConfig
  attempt : ℕ

section Walk

variable (orchestrator : OrchestratorConfig) (workflow : WorkflowConfig)

namespace Position

def limits (p : Position) : ExecutionSafetyLimits :=
  resolveExecutionSafetyLimits orchestrator workflow p.step

def result (p : Position) : ProviderOutcome → Except OrchestratorError StepEvaluation
  | .failure err => .error err
  | .outputs parsed => evaluateStepResult workflow p.step parsed

def canRetry (p : Position) (err : OrchestratorError) : Bool :=
  isRetryableStepError err && decide (p.attempt ≤ (p.limits orchestrator workflow).maxRetries)

/-- Where an attempt leads; `none` is the end of the workflow. -/
def after (p : Position) (outcome : ProviderOutcome) : Except OrchestratorError (Option Position) :=
  match p.result workflow outcome with
  | .ok evaluation =>
    match evaluation.nextStepId with
    | none => .ok none
    | some next =>
      match findStep workflow next with
      | .ok step => .ok (some { step := step, attempt := 1 })
      | .error err => .error err
  | .error err =>
    if p.canRetry orchestrator workflow err then
      .ok (some { p with attempt := Text.u32Succ p.attempt })
    else .error err

/-- The attempt is within the retry limit of its step. -/
def Allowed (p : Position) : Prop :=
  p.attempt ≤ u32WrappingSucc (p.limits orchestrator workflow).maxRetries

instance (p : Position) : Decidable (p.Allowed orchestrator workflow) :=
  inferInstanceAs (Decidable (_ ≤ _))

end Position

/-- The attempt a fresh run begins with. -/
def firstPosition : Option Position := workflow.steps.head?.map fun step => { step := step, attempt := 1 }

/-- Where the outcomes lead, unless one of them fails the run. -/
def walk : Option Position → List ProviderOutcome → Option (Option Position)
  | pos, [] => some pos
  | none, _ :: _ => none
  | some p, outcome :: outcomes =>
    if p.Allowed orchestrator workflow then
      match p.after orchestrator workflow outcome with
      | .ok next => walk next outcomes
      | .error _ => none
    else none

/-- The step visits that begin on the way. -/
def visits : Option Position → List ProviderOutcome → ℕ
  | some p, outcome :: outcomes =>
    (if p.attempt = 1 then 1 else 0) +
      match p.after orchestrator workflow outcome with
      | .ok next => visits next outcomes
      | .error _ => 0
  | _, _ => 0

variable {orchestrator workflow}

@[simp] theorem walk_nil (pos : Option Position) : walk orchestrator workflow pos [] = some pos := by
  cases pos <;> rfl

@[simp] theorem visits_nil (pos : Option Position) : visits orchestrator workflow pos [] = 0 := by
  cases pos <;> rfl

@[simp] theorem visits_none (outcomes : List ProviderOutcome) :
    visits orchestrator workflow none outcomes = 0 := by
  cases outcomes <;> rfl

theorem walk_cons {p : Position} {outcome : ProviderOutcome} {outcomes : List ProviderOutcome}
    {fin : Option Position} (h : walk orchestrator workflow (some p) (outcome :: outcomes) = some fin) :
    p.Allowed orchestrator workflow ∧ ∃ next, p.after orchestrator workflow outcome = .ok next ∧
      walk orchestrator workflow next outcomes = some fin ∧
      visits orchestrator workflow (some p) (outcome :: outcomes) =
        (if p.attempt = 1 then 1 else 0) + visits orchestrator workflow next outcomes := by
  simp only [walk] at h
  split at h
  case isFalse => cases h
  case isTrue hallowed =>
    refine ⟨hallowed, ?_⟩
    cases hafter : p.after orchestrator workflow outcome with
    | error err => simp [hafter] at h
    | ok next =>
      simp only [hafter] at h
      exact ⟨next, rfl, h, by simp only [visits, hafter]⟩

theorem walk_none {outcomes : List ProviderOutcome} {fin : Option Position}
    (h : walk orchestrator workflow none outcomes = some fin) : outcomes = [] := by
  cases outcomes with
  | nil => rfl
  | cons outcome outcomes => cases h

/-- A step that every outcome leads back to is visited once per outcome. -/
theorem walk_replicate {p : Position} {outcome : ProviderOutcome}
    (hallowed : p.Allowed orchestrator workflow) (hfirst : p.attempt = 1)
    (hafter : p.after orchestrator workflow outcome = .ok (some p)) (n : ℕ) :
    walk orchestrator workflow (some p) (List.replicate n outcome) = some (some p) ∧
      visits orchestrator workflow (some p) (List.replicate n outcome) = n := by
  induction n with
  | zero => simp
  | succ n ih =>
    simp only [List.replicate_succ, walk, visits, hallowed, hafter, hfirst, if_true, ih.1, ih.2]
    exact ⟨trivial, Nat.add_comm 1 n⟩

end Walk

/-! ## The counters of a run -/

def Observation.isInvoked : Observation → Bool
  | .invoked _ _ => true
  | _ => false

/-- How often an observer has seen the provider called. -/
def invocations (trace : List Observation) : ℕ := trace.countP (·.isInvoked)

@[simp] theorem invocations_nil : invocations [] = 0 := rfl

@[simp] theorem invocations_wrote (w : StoreWrite) (trace : List Observation) :
    invocations (.wrote w :: trace) = invocations trace := rfl

@[simp] theorem invocations_ended (record : StepAttemptRecord) (trace : List Observation) :
    invocations (.ended record :: trace) = invocations trace := rfl

@[simp] theorem invocations_invoked (step : String) (attempt : ℕ) (trace : List Observation) :
    invocations (.invoked step attempt :: trace) = invocations trace + 1 := by
  simp [invocations, Observation.isInvoked]

/-- `max_total_iterations` as `resolve_execution_safety_limits` reads it, which
does not depend on the step. -/
def maxTotalIterationsOf (orchestrator : OrchestratorConfig) (workflow : WorkflowConfig) : ℕ :=
  ((workflow.limits.bind (·.maxTotalIterations)).or
    (orchestrator.workflowOrchestration.bind (·.maxTotalIterations))).getD
      ({} : ExecutionSafetyLimits).maxTotalIterations

@[simp] theorem resolve_maxTotalIterations (orchestrator : OrchestratorConfig)
    (workflow : WorkflowConfig) (step : WorkflowStepConfig) :
    (resolveExecutionSafetyLimits orchestrator workflow step).maxTotalIterations =
      maxTotalIterationsOf orchestrator workflow := rfl

/-- The limits are `u32` values. -/
def LimitsFit (orchestrator : OrchestratorConfig) : Prop :=
  ∀ workflow ∈ orchestrator.workflows, ∀ step ∈ workflow.steps,
    (resolveExecutionSafetyLimits orchestrator workflow step).maxTotalIterations ≤ Text.u32Max ∧
      (resolveExecutionSafetyLimits orchestrator workflow step).maxRetries ≤ Text.u32Max

instance (orchestrator : OrchestratorConfig) : Decidable (LimitsFit orchestrator) :=
  inferInstanceAs (Decidable (∀ workflow ∈ orchestrator.workflows, ∀ step ∈ workflow.steps, _ ∧ _))

/-- The step has its time limits left, at `now`. -/
def WithinTime (limits : ExecutionSafetyLimits) (run : WorkflowRunRecord)
    (now currentStepStartedAt : Int) : Prop :=
  i64SaturatingSub now run.startedAt ≤ u64AsI64 limits.runTimeoutSeconds ∧
    i64SaturatingSub now currentStepStartedAt ≤ u64AsI64 limits.stepTimeoutSeconds

/-- In time and within the retry limit, the total is all that is checked. -/
theorem enforceExecutionSafety_of_time {run : WorkflowRunRecord} {limits : ExecutionSafetyLimits}
    {now started : Int} {attempt : ℕ} (htime : WithinTime limits run now started)
    (hattempt : attempt ≤ u32WrappingSucc limits.maxRetries) :
    enforceExecutionSafety run limits now started attempt =
      if limits.maxTotalIterations ≤ run.totalIterations then
        .error (.maxIterationsExceeded limits.maxTotalIterations)
      else .ok () := by
  simp only [enforceExecutionSafety, not_lt.mpr htime.1, not_lt.mpr htime.2, not_lt.mpr hattempt,
    if_false]

/-- What an attempt is given: it stays in time, and the provider answers the
attempts with `outcomes`, in their order. -/
def Provided (outcomes : List ProviderOutcome) (trace : List Observation) : Control → Input → Prop
  | .attempting a, input => WithinTime a.limits a.run input.now input.now
  | .running a, input =>
    WithinTime a.limits a.run input.now a.startedAt ∧
      ∀ outcome, outcomes[invocations trace - 1]? = some outcome → input.outcome = outcome
  | _, _ => True

/-- Every attempt of a run is given what `Provided` says. -/
def Provides (outcomes : List ProviderOutcome) (s : System) (input : Input) : Prop :=
  s.process.todo = [] → Provided outcomes s.trace s.process.control input

/-! ## The engine on a walk -/

/-- A walk of a workflow, to its end or at least as far as the limit lets the
engine go. -/
structure Course (orchestrator : OrchestratorConfig) where
  workflow : WorkflowConfig
  outcomes : List ProviderOutcome
  fin : Option Position
  leads : walk orchestrator workflow (firstPosition workflow) outcomes = some fin
  long : fin = none ∨ maxTotalIterationsOf orchestrator workflow ≤ outcomes.length

namespace Course

variable {orchestrator : OrchestratorConfig} (c : Course orchestrator)

def limit : ℕ := maxTotalIterationsOf orchestrator c.workflow

/-- The step visits that begin within the limit. -/
def visits : ℕ :=
  Orchestration.visits orchestrator c.workflow (firstPosition c.workflow) (c.outcomes.take c.limit)

/-- After `i` attempts and `begun` visits the walk is at `pos`. -/
structure At (i begun : ℕ) (pos : Option Position) : Prop where
  leads : walk orchestrator c.workflow pos (c.outcomes.drop i) = some c.fin
  begun : begun +
    Orchestration.visits orchestrator c.workflow pos ((c.outcomes.take c.limit).drop i) = c.visits

variable {c} {i b : ℕ} {pos : Option Position} {p : Position}

theorem at_first : c.At 0 0 (firstPosition c.workflow) :=
  ⟨c.leads, by simp [visits]⟩

theorem At.begun_of_limit (h : c.At i b pos) (hi : c.limit ≤ i) : c.visits = b := by
  have hdrop : (c.outcomes.take c.limit).drop i = [] :=
    List.drop_eq_nil_of_le (by rw [List.length_take]; omega)
  rw [← h.begun, hdrop, visits_nil, Nat.add_zero]

/-- At the end of the workflow no outcome is left. -/
theorem At.of_none (h : c.At i b none) : c.visits = b ∧ c.outcomes.length ≤ i :=
  ⟨by rw [← h.begun, visits_none, Nat.add_zero], List.drop_eq_nil_iff.mp (walk_none h.leads)⟩

/-- Below the limit an attempt has an outcome, and the walk goes on from there. -/
theorem At.attempt (h : c.At i b (some p)) (hi : i < c.limit) :
    ∃ outcome next, c.outcomes[i]? = some outcome ∧ p.Allowed orchestrator c.workflow ∧
      p.after orchestrator c.workflow outcome = .ok next ∧
      c.At (i + 1) (b + if p.attempt = 1 then 1 else 0) next := by
  have hlt : i < c.outcomes.length := by
    by_contra hge
    have hdrop : c.outcomes.drop i = [] := List.drop_eq_nil_of_le (by omega)
    have hfin := h.leads
    rw [hdrop, walk_nil] at hfin
    rcases c.long with hnone | hlong
    · rw [hnone] at hfin
      cases hfin
    · have : c.limit ≤ c.outcomes.length := hlong
      omega
  have hleads := h.leads
  rw [List.drop_eq_getElem_cons hlt] at hleads
  obtain ⟨hallowed, next, hafter, hwalk, -⟩ := walk_cons hleads
  refine ⟨c.outcomes[i], next, List.getElem?_eq_getElem hlt, hallowed, hafter, hwalk, ?_⟩
  have htake : i < (c.outcomes.take c.limit).length := by rw [List.length_take]; omega
  rw [← h.begun, List.drop_eq_getElem_cons htake, List.getElem_take]
  simp only [Orchestration.visits, hafter]
  omega

/-! ### What holds at each control point -/

variable (c)

/-- How a run on the course ends: stopped by the loop guard, finished below the
limit, or failed at the limit. -/
def Ended (files : RunFiles) (trace : List Observation) : Prop :=
  (files.run.state = .running ∧ maxCycles < c.visits) ∨
  (files.run.state = .succeeded ∧ c.visits ≤ maxCycles ∧
    (c.outcomes.length < c.limit ∨ firstPosition c.workflow = none) ∧
    invocations trace = c.outcomes.length) ∨
  (files.run.state = .failed ∧ c.visits ≤ maxCycles ∧
    (c.limit ≤ c.outcomes.length ∧ firstPosition c.workflow ≠ none) ∧
    invocations trace = c.limit ∧
    files.run.terminalReason =
      some s!"engine start failed: {(OrchestratorError.maxIterationsExceeded c.limit).display}")

/-- A run whose next visit begins at the walk's position. -/
structure Entering (files : RunFiles) (trace : List Observation) (cycles : ℕ) : Prop where
  running : files.run.state = .running
  counted : invocations trace = files.run.totalIterations
  guarded : cycles ≤ maxCycles
  position :
    (files.run.currentStepId = none ∧ files.run.totalIterations = 0 ∧ cycles = 0) ∨
    (∃ id step, files.run.currentStepId = some id ∧ files.run.currentAttempt = none ∧
      findStep c.workflow id = .ok step ∧ files.run.totalIterations < c.limit ∧
      firstPosition c.workflow ≠ none ∧
      c.At files.run.totalIterations cycles (some { step := step, attempt := 1 }))

structure Visit (files : RunFiles) (a : Attempt) : Prop where
  workflow : a.workflow = c.workflow
  limits : a.limits = resolveExecutionSafetyLimits orchestrator c.workflow a.step
  step : a.step ∈ c.workflow.steps
  first : firstPosition c.workflow ≠ none
  running : files.run.state = .running
  startedAt : a.run.startedAt = files.run.startedAt
  attempt : 1 ≤ a.attempt
  cycles : a.cycles < maxCycles

/-- An attempt of the visit that is not counted yet. -/
structure Attempting (files : RunFiles) (a : Attempt) : Prop extends c.Visit files a where
  position : c.At files.run.totalIterations (a.cycles + if a.attempt = 1 then 0 else 1)
    (some { step := a.step, attempt := a.attempt })
  previous : a.previousIterations ≤ files.run.totalIterations

/-- An attempt of the visit that has been counted. -/
structure Settling (files : RunFiles) (a : Attempt) (record : StepAttemptRecord)
    (result : Except OrchestratorError StepEvaluation) : Prop extends c.Visit files a where
  total : files.run.totalIterations ≤ c.limit ∧ files.run.totalIterations ≤ c.outcomes.length
  previous : a.previousIterations < files.run.totalIterations
  allowed : a.attempt ≤ u32WrappingSucc a.limits.maxRetries
  inTime : WithinTime a.limits files.run record.endedAt a.startedAt
  after : ∃ outcome next, result = a.evaluate outcome ∧
    Position.after orchestrator c.workflow { step := a.step, attempt := a.attempt } outcome = .ok next ∧
    c.At files.run.totalIterations (a.cycles + 1) next

def Follows (files : RunFiles) (trace : List Observation) : Control → Prop
  | .idle => c.Ended files trace
  | .loading _ _ =>
    files.run.state = .queued ∧ files.run.currentStepId = none ∧
      files.run.totalIterations = 0 ∧ invocations trace = 0
  | .cycling run cycles =>
    run = files.run ∧
      (c.Entering files trace cycles ∨ (files.run.state ≠ .running ∧ c.Ended files trace))
  | .attempting a =>
    a.run = files.run ∧ c.Attempting files a ∧
      (files.run.totalIterations < c.limit ∨ files.run.totalIterations = 0) ∧
      invocations trace = files.run.totalIterations
  | .invoking a =>
    a.run = files.run ∧ c.Attempting files a ∧
      (files.run.totalIterations < c.limit ∨ files.run.totalIterations = 0) ∧
      invocations trace = files.run.totalIterations ∧
      WithinTime a.limits a.run a.startedAt a.startedAt
  | .running a =>
    c.Attempting files a ∧ files.run.totalIterations < c.limit ∧
      invocations trace = files.run.totalIterations + 1
  | .counting a record result =>
    c.Attempting files a ∧ files.run.totalIterations < c.limit ∧
      invocations trace = files.run.totalIterations + 1 ∧
      WithinTime a.limits files.run record.endedAt a.startedAt ∧
      ∃ outcome, c.outcomes[files.run.totalIterations]? = some outcome ∧
        result = a.evaluate outcome
  | .settling a record result =>
    c.Settling files a record result ∧ invocations trace = files.run.totalIterations
  | .reloading previousIterations cycles =>
    (c.Entering files trace (cycles + 1) ∧ previousIterations < files.run.totalIterations) ∨
      (files.run.state ≠ .running ∧ c.Ended files trace)

/-! ### One step -/

/-- The workflow of the run stays the same. -/
def OnCourse (files : RunFiles) (_ : List Observation) : Prop :=
  workflowForRun orchestrator files.run = .ok c.workflow

variable {c} {files : RunFiles} {trace : List Observation} {a : Attempt}

theorem Visit.maxTotalIterations (h : c.Visit files a) : a.limits.maxTotalIterations = c.limit := by
  rw [h.limits, resolve_maxTotalIterations, limit]

/-- The error exit at the limit. -/
theorem executeOrFail_follows (hcourse : c.OnCourse files trace) (hrun : files.run.state = .running)
    (hvisits : c.visits ≤ maxCycles)
    (hlong : c.limit ≤ c.outcomes.length ∧ firstPosition c.workflow ≠ none)
    (hcount : invocations trace = c.limit) (now : Int) :
    ProcessInv c.OnCourse c.Follows files trace
      (executeOrFail files.run now (.maxIterationsExceeded c.limit)) := by
  have hlive : files.run.state.isTerminal = false := by rw [hrun]; rfl
  obtain ⟨snapshot, -, he⟩ := executeOrFail_of_live hlive now (.maxIterationsExceeded c.limit)
  rw [he]
  exact ⟨hcourse, hcourse, hcourse, .inr (.inr ⟨rfl, hvisits, hlong, hcount, rfl⟩)⟩

/-- The successful exit. -/
theorem finishRun_follows (hcourse : c.OnCourse files trace) (hrun : files.run.state = .running)
    (hvisits : c.visits ≤ maxCycles)
    (hshort : c.outcomes.length < c.limit ∨ firstPosition c.workflow = none)
    (hcount : invocations trace = c.outcomes.length) (now at_ : Int) (summary : String) (n k : ℕ) :
    ProcessInv c.OnCourse c.Follows files trace (finishRun files.run now at_ summary n k) := by
  obtain ⟨snapshot, -, he⟩ := finishRun_running hrun now at_ summary n k
  rw [he]
  exact ⟨hcourse, hcourse, hcourse, .inr ⟨by simp [succeededRun],
    .inr (.inl ⟨rfl, hvisits, hshort, hcount⟩)⟩⟩

theorem findStep_head {step : WorkflowStepConfig} (h : c.workflow.steps.head? = some step) :
    findStep c.workflow step.id = .ok step := by
  cases hsteps : c.workflow.steps with
  | nil => simp [hsteps] at h
  | cons head tail =>
    obtain rfl : head = step := by simpa [hsteps] using h
    simp [findStep, hsteps]

/-- A visit that begins: `execute_next` up to its retry loop. -/
theorem executeNext_visit {cycles : ℕ} {id : String} {step : WorkflowStepConfig}
    (hcourse : c.OnCourse files trace) (hrun : files.run.state = .running)
    (hcount : invocations trace = files.run.totalIterations) (hguard : cycles < maxCycles)
    (hpointer : resolveNextStepPointer files files.run c.workflow = some { stepId := id, attempt := 1 })
    (hfind : findStep c.workflow id = .ok step) (hfirst : firstPosition c.workflow ≠ none)
    (hat : c.At files.run.totalIterations cycles (some { step := step, attempt := 1 }))
    (hroom : files.run.totalIterations < c.limit ∨ files.run.totalIterations = 0) (now : Int) :
    ProcessInv c.OnCourse c.Follows files trace
      (executeNext orchestrator files files.run now cycles) := by
  have hw : workflowForRun orchestrator files.run = .ok c.workflow := hcourse
  simp only [executeNext, hw, hpointer, hfind]
  exact ⟨hcourse, rfl, { workflow := rfl, limits := rfl, step := findStep_mem hfind, first := hfirst
                         running := hrun, startedAt := rfl, attempt := le_rfl, cycles := hguard
                         position := by simpa using hat
                         previous := le_rfl }, hroom, hcount⟩

theorem executeNext_follows {cycles : ℕ} (hcourse : c.OnCourse files trace)
    (h : c.Entering files trace cycles) (hguard : cycles < maxCycles) (now : Int) :
    ProcessInv c.OnCourse c.Follows files trace
      (executeNext orchestrator files files.run now cycles) := by
  obtain ⟨hrun, hcount, -, ⟨hid, htotal, rfl⟩ | ⟨id, step, hid, hattempt, hfind, hlt, hfirst, hat⟩⟩ := h
  · have hat := @at_first _ c
    cases hhead : c.workflow.steps.head? with
    | none =>
      have hfirst : firstPosition c.workflow = none := by simp [firstPosition, hhead]
      rw [hfirst] at hat
      obtain ⟨hvisits, hlen⟩ := hat.of_none
      have hw : workflowForRun orchestrator files.run = .ok c.workflow := hcourse
      simp only [executeNext, hw, resolveNextStepPointer, hid, hhead, Option.map_none]
      exact finishRun_follows hcourse hrun (by omega) (.inr hfirst) (by omega) _ _ _ _ _
    | some step =>
      have hfirst : firstPosition c.workflow = some { step := step, attempt := 1 } := by
        simp [firstPosition, hhead]
      have hat : c.At files.run.totalIterations 0 (some { step := step, attempt := 1 }) := by
        rw [htotal, ← hfirst]
        exact hat
      have hpointer : resolveNextStepPointer files files.run c.workflow =
          some { stepId := step.id, attempt := 1 } := by simp [resolveNextStepPointer, hid, hhead]
      exact executeNext_visit hcourse hrun hcount hguard hpointer (findStep_head hhead)
        (by rw [hfirst]; simp) hat (.inr htotal) now
  · have hpointer : resolveNextStepPointer files files.run c.workflow =
        some { stepId := id, attempt := 1 } := by simp [resolveNextStepPointer, hid, hattempt]
    exact executeNext_visit hcourse hrun hcount hguard hpointer hfind hfirst hat (.inl hlt) now

/-- The decision after a counted attempt. -/
theorem settle_follows {record : StepAttemptRecord} {result : Except OrchestratorError StepEvaluation}
    (hcourse : c.OnCourse files trace) (h : c.Settling files a record result)
    (hcount : invocations trace = files.run.totalIterations) :
    ProcessInv c.OnCourse c.Follows files trace (a.settle files.run record result) := by
  obtain ⟨outcome, next, rfl, hafter, hat⟩ := h.after
  have hcycles := h.cycles
  have hsafe := enforceExecutionSafety_of_time h.inTime h.allowed
  rw [h.maxTotalIterations] at hsafe
  by_cases hlimit : c.limit ≤ files.run.totalIterations
  · -- at the limit the attempt was the last one the engine makes
    have htotal : files.run.totalIterations = c.limit := le_antisymm h.total.1 hlimit
    have hvisits := hat.begun_of_limit hlimit
    simp only [Attempt.settle, hsafe, if_pos hlimit]
    exact executeOrFail_follows hcourse h.running (by omega) ⟨htotal ▸ h.total.2, h.first⟩
      (hcount.trans htotal) a.now
  · simp only [if_neg hlimit] at hsafe
    have hresult : a.evaluate outcome =
        Position.result c.workflow { step := a.step, attempt := a.attempt } outcome := by
      cases outcome <;> simp [Attempt.evaluate, Position.result, h.workflow]
    simp only [Position.after] at hafter
    rw [hresult]
    cases hr : Position.result c.workflow { step := a.step, attempt := a.attempt } outcome with
    | ok evaluation =>
      simp only [hr] at hafter
      cases hnext : evaluation.nextStepId with
      | none =>
        simp only [hnext, Except.ok.injEq] at hafter
        subst hafter
        obtain ⟨hvisits, hlen⟩ := hat.of_none
        have htotal := h.total.2
        simp only [Attempt.settle, hsafe, hnext]
        exact finishRun_follows hcourse h.running (by omega) (.inl (by omega)) (by omega) _ _ _ _ _
      | some id =>
        simp only [hnext] at hafter
        cases hfind : findStep c.workflow id with
        | error err => simp [hfind] at hafter
        | ok step =>
          simp only [hfind, Except.ok.injEq] at hafter
          subst hafter
          simp only [Attempt.settle, hsafe, hnext]
          exact ⟨hcourse, hcourse, hcourse, .inl ⟨⟨h.running, hcount, by omega,
            .inr ⟨id, step, rfl, rfl, hfind, by simpa using hlimit, h.first, hat⟩⟩, h.previous⟩⟩
    | error err =>
      have hretry : Position.canRetry orchestrator c.workflow
          { step := a.step, attempt := a.attempt } err = a.canRetry err := by
        rw [Attempt.canRetry, h.limits]
        rfl
      simp only [hr, hretry] at hafter
      cases hcan : a.canRetry err with
      | false => simp [hcan] at hafter
      | true =>
        simp only [hcan, if_true, Except.ok.injEq] at hafter
        subst hafter
        have hsucc : 1 ≤ Text.u32Succ a.attempt ∧ Text.u32Succ a.attempt ≠ 1 := by
          have hone := h.attempt
          simp only [Text.u32Succ, Text.u32Max]
          omega
        simp only [Attempt.settle, hsafe, hcan, if_true]
        exact ⟨hcourse, rfl, { workflow := h.workflow, limits := h.limits, step := h.step
                               first := h.first, running := h.running, startedAt := rfl
                               attempt := hsucc.1, cycles := h.cycles
                               position := by simpa only [hsucc.2, if_false] using hat
                               previous := h.previous.le }, .inl (by omega), hcount⟩

/-- The attempt is made, unless the limit is reached. -/
theorem invoking_follows (hcourse : c.OnCourse files trace) (input : Input)
    (h : c.Follows files trace (.invoking a)) :
    ProcessInv c.OnCourse c.Follows files
      ((Control.advance orchestrator files input (.invoking a)).2 ++ trace)
      (Control.advance orchestrator files input (.invoking a)).1 := by
  obtain ⟨hrun, hvisit, hroom, hcount, htime⟩ := h
  have hcycles := hvisit.cycles
  by_cases hlimit : c.limit ≤ files.run.totalIterations
  · -- only a run without any attempt can be at the limit here
    have hzero : files.run.totalIterations = 0 := by omega
    have hvisits := hvisit.position.begun_of_limit hlimit
    have hle : c.visits ≤ maxCycles := by
      rw [hvisits]
      split <;> omega
    have hsafe : enforceExecutionSafety a.run a.limits a.startedAt a.startedAt a.attempt =
        .error (.maxIterationsExceeded c.limit) := by
      unfold enforceExecutionSafety
      rw [hvisit.maxTotalIterations, hrun, if_pos hlimit]
    simp only [Control.advance, hsafe]
    rw [hrun]
    exact executeOrFail_follows hcourse hvisit.running hle ⟨by omega, hvisit.first⟩ (by omega) a.now
  · obtain ⟨outcome, next, -, hallowed, -⟩ := hvisit.position.attempt (by omega)
    have hattempt : a.attempt ≤ u32WrappingSucc a.limits.maxRetries := by
      rw [hvisit.limits]
      exact hallowed
    have hsafe := enforceExecutionSafety_of_time htime hattempt
    rw [hvisit.maxTotalIterations, hrun, if_neg hlimit] at hsafe
    simp only [Control.advance, hrun, hsafe]
    exact ⟨hcourse, { hvisit with position := hvisit.position }, by omega, by simp [hcount]⟩

theorem counting_follows (hfit : LimitsFit orchestrator) {record : StepAttemptRecord}
    {result : Except OrchestratorError StepEvaluation} (hcourse : c.OnCourse files trace)
    (input : Input) (h : c.Follows files trace (.counting a record result)) :
    ProcessInv c.OnCourse c.Follows files
      ((Control.advance orchestrator files input (.counting a record result)).2 ++ trace)
      (Control.advance orchestrator files input (.counting a record result)).1 := by
  obtain ⟨hvisit, hlt, hcount, htime, outcome, hget, rfl⟩ := h
  obtain ⟨outcome', next, hget', hallowed, hafter, hat⟩ := hvisit.position.attempt hlt
  obtain rfl : outcome' = outcome := by
    rw [hget] at hget'
    exact (Option.some.inj hget').symm
  have hlen : files.run.totalIterations < c.outcomes.length := (List.getElem?_eq_some_iff.mp hget).1
  have hsucc : Text.u32Succ files.run.totalIterations = files.run.totalIterations + 1 := by
    have hmax := (hfit c.workflow (workflowForRun_mem hcourse) a.step hvisit.step).1
    rw [resolve_maxTotalIterations] at hmax
    have : files.run.totalIterations < maxTotalIterationsOf orchestrator c.workflow := hlt
    simp only [Text.u32Succ]
    omega
  have hat : c.At (files.run.totalIterations + 1) (a.cycles + 1) next := by
    have hbegun : (a.cycles + if a.attempt = 1 then 0 else 1) + (if a.attempt = 1 then 1 else 0) =
        a.cycles + 1 := by split <;> rfl
    rw [← hbegun]
    exact hat
  have hprevious := hvisit.previous
  refine ⟨hcourse, hcourse, hcourse, ⟨⟨hvisit.workflow, hvisit.limits, hvisit.step, hvisit.first,
    hvisit.running, hvisit.startedAt, hvisit.attempt, hvisit.cycles⟩, ?_, ?_, ?_, htime,
    outcome', next, rfl, hafter, ?_⟩, ?_⟩
  · simp only [RunFiles.apply_progress_run, RunFiles.apply_run_run, hsucc]
    omega
  · simp only [RunFiles.apply_progress_run, RunFiles.apply_run_run, hsucc]
    omega
  · rw [hvisit.limits]
    exact hallowed
  · simpa only [RunFiles.apply_progress_run, RunFiles.apply_run_run, hsucc] using hat
  · simp only [RunFiles.apply_progress_run, RunFiles.apply_run_run, hsucc, invocations_wrote]
    exact hcount

/-- One step keeps the engine on the walk. -/
theorem control_follows (hfit : LimitsFit orchestrator) (files : RunFiles) (trace : List Observation)
    (input : Input) (control : Control) (hcourse : c.OnCourse files trace)
    (h : c.Follows files trace control) (hinput : Provided c.outcomes trace control input) :
    ProcessInv c.OnCourse c.Follows files
      ((Control.advance orchestrator files input control).2 ++ trace)
      (Control.advance orchestrator files input control).1 := by
  cases control with
  | idle => exact ⟨hcourse, h⟩
  | loading entry now =>
    obtain ⟨hstate, hid, htotal, hcount⟩ := h
    have henter : ∃ verb, enter entry files.run now = beginRun files.run now verb := by
      cases entry <;> simp [enter, hstate, RunState.isTerminal]
    obtain ⟨verb, henter⟩ := henter
    simp only [Control.advance, henter, beginRun, transitionState, hstate, RunState.canTransitionTo]
    exact ⟨hcourse, hcourse, hcourse, rfl,
      .inl ⟨rfl, hcount.trans htotal.symm, by simp, .inl ⟨hid, htotal, rfl⟩⟩⟩
  | cycling run cycles =>
    obtain ⟨rfl, hrun | ⟨hrun, hend⟩⟩ := h
    · by_cases hguard : cycles < maxCycles
      · simp only [Control.advance, hrun.running, ne_eq, not_true_eq_false, not_le.mpr hguard,
          or_self, if_false]
        exact executeNext_follows hcourse hrun hguard input.now
      · -- the guard leaves the run as it is, with a visit to go
        have hle := hrun.guarded
        obtain ⟨hid, htotal, rfl⟩ | ⟨id, step, hid, hattempt, hfind, hlt, hfirst, hat⟩ := hrun.position
        · exact absurd (by decide) hguard
        · obtain ⟨outcome, next, -, -, -, hnext⟩ := hat.attempt hlt
          have hvisits := hnext.begun
          simp only [if_true] at hvisits
          simp only [Control.advance, hrun.running, ne_eq, not_true_eq_false, not_lt.mp hguard,
            or_true, if_true]
          exact ⟨hcourse, .inl ⟨hrun.running, by omega⟩⟩
    · simp only [Control.advance, ne_eq, hrun, not_false_eq_true, true_or, if_true]
      exact ⟨hcourse, hend⟩
  | attempting a =>
    obtain ⟨hrun, hvisit, hroom, hcount⟩ := h
    have htime : WithinTime a.limits a.run input.now input.now := hinput
    rw [hrun] at htime
    simp only [Control.advance, markStepAttemptStarted, hrun]
    exact ⟨hcourse, hcourse, hcourse, rfl,
      { workflow := hvisit.workflow, limits := hvisit.limits, step := hvisit.step
        first := hvisit.first, running := hvisit.running, startedAt := rfl
        attempt := hvisit.attempt, cycles := hvisit.cycles, position := hvisit.position
        previous := hvisit.previous }, hroom, hcount, htime⟩
  | invoking a => exact invoking_follows hcourse input h
  | running a =>
    obtain ⟨hvisit, hlt, hcount⟩ := h
    obtain ⟨htime, hprovided⟩ := hinput
    obtain ⟨outcome, next, hget, -, -, -⟩ := hvisit.position.attempt hlt
    have houtcome : input.outcome = outcome := by
      apply hprovided
      rw [hcount]
      exact hget
    simp only [Control.advance]
    refine ⟨hcourse, hcourse, { hvisit with position := hvisit.position }, hlt, hcount, ?_,
      outcome, hget, by rw [houtcome]⟩
    have hended : (a.record input.now (a.evaluate input.outcome)).endedAt = input.now := by
      cases a.evaluate input.outcome <;> rfl
    rw [hended]
    exact ⟨by simpa [hvisit.startedAt] using htime.1, htime.2⟩
  | counting a record result => exact counting_follows hfit hcourse input h
  | settling a record result => exact settle_follows hcourse h.1 h.2
  | reloading n cycles =>
    obtain ⟨hrun, hprevious⟩ | ⟨hrun, hend⟩ := h
    · have hguard := hrun.guarded
      have hsucc : Text.u32Succ cycles = cycles + 1 := by
        simp only [Text.u32Succ, Text.u32Max]
        simp only [maxCycles] at hguard
        omega
      have hne : ¬ (files.run.state = .running ∧ files.run.totalIterations = n) := by omega
      simp only [Control.advance, if_neg hne, hsucc]
      exact ⟨hcourse, rfl, .inl hrun⟩
    · have hne : ¬ (files.run.state = .running ∧ files.run.totalIterations = n) :=
        fun h => hrun h.1
      simp only [Control.advance, if_neg hne]
      exact ⟨hcourse, rfl, .inr ⟨hrun, hend⟩⟩

/-- A whole run stays on the walk. -/
theorem run_follows (hfit : LimitsFit orchestrator) {s : System} {inputs : List Input}
    (hs : SystemInv c.OnCourse c.Follows s)
    (hm : Meets (System.advance orchestrator) (Provides c.outcomes) s inputs) :
    SystemInv c.OnCourse c.Follows (run (System.advance orchestrator) s inputs) := by
  have hstep : ∀ t input, SystemInv c.OnCourse c.Follows t → Provides c.outcomes t input →
      SystemInv c.OnCourse c.Follows (t.advance orchestrator input) :=
    fun t input h hinput => systemInv_advance_of (control_follows hfit) h input hinput
  exact run_invariant hstep hs hm

/-- Without time limits, a provider with one answer to everything provides a walk
on which it is the only one. -/
theorem meets_constant (hfit : LimitsFit orchestrator) {input : Input} {inputs : List Input}
    (htime : ∀ step record now started,
      WithinTime (resolveExecutionSafetyLimits orchestrator c.workflow step) record now started)
    (houtcomes : ∀ outcome ∈ c.outcomes, outcome = input.outcome)
    (hinputs : ∀ e ∈ inputs, e = input) {s : System} (hs : SystemInv c.OnCourse c.Follows s) :
    Meets (System.advance orchestrator) (Provides c.outcomes) s inputs := by
  have hprovides : ∀ t, SystemInv c.OnCourse c.Follows t → Provides c.outcomes t input := by
    intro t h htodo
    obtain ⟨files, ⟨todo, control⟩, trace⟩ := t
    obtain rfl : todo = [] := htodo
    cases control with
    | attempting a =>
      have hat : c.Follows files trace (.attempting a) := h.2
      change WithinTime a.limits a.run _ _
      rw [hat.2.1.limits]
      exact htime _ _ _ _
    | running a =>
      have hat : c.Follows files trace (.running a) := h.2
      refine ⟨?_, fun outcome hget => (houtcomes outcome (List.mem_of_getElem? hget)).symm⟩
      rw [hat.1.limits]
      exact htime _ _ _ _
    | _ => trivial
  refine meets_of_invariant (fun t e hmem h => ?_) hs
  obtain rfl := hinputs e hmem
  exact ⟨hprovides t h, systemInv_advance_of (control_follows hfit) h e (hprovides t h)⟩

end Course

end Direclaw.Orchestration
