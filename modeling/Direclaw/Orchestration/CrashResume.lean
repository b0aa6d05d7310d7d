import Direclaw.Orchestration.WorkflowEngine

/-!
# Crashes and resumes

What a run says after any number of crashes and resumes. `resume` rebuilds the
decision from the step pointer in the record and the `result.json` it points
to. That file encodes a failed attempt and a finished workflow alike (no next
step), and it is keyed by step and attempt number, which start again at 1 on
every visit of a step. Both results below therefore carry a condition on where
the crash falls; the counterexamples show the condition is needed.
-/

namespace Direclaw.Orchestration

open Direclaw.Lib

/-! ## Observations -/

def lastEnded : List Observation → Option StepAttemptRecord
  | [] => none
  | .ended record :: _ => some record
  | _ :: trace => lastEnded trace

@[simp] theorem lastEnded_wrote (w : StoreWrite) (trace : List Observation) :
    lastEnded (.wrote w :: trace) = lastEnded trace := rfl

@[simp] theorem lastEnded_invoked (step : String) (attempt : ℕ) (trace : List Observation) :
    lastEnded (.invoked step attempt :: trace) = lastEnded trace := rfl

@[simp] theorem lastEnded_ended (record : StepAttemptRecord) (trace : List Observation) :
    lastEnded (.ended record :: trace) = some record := rfl

/-- A result that ends the workflow: succeeded, with no step after it. -/
def StepAttemptRecord.Final (record : StepAttemptRecord) : Prop :=
  record.state = .succeeded ∧ record.nextStepId = none

/-- A succeeded run ended with a final attempt. -/
def SucceededSound (s : System) : Prop :=
  s.files.run.state = .succeeded → ∃ record, lastEnded s.trace = some record ∧ record.Final

/-- The `result.json` under the record's step pointer. -/
def RunFiles.currentResult (files : RunFiles) : Option StepAttemptRecord :=
  match files.run.currentStepId, files.run.currentAttempt with
  | some step, some attempt => files.loadStepAttempt step attempt
  | _, _ => none

/-- The pointer of a live run does not lead to the result of a failed attempt. -/
def RunFiles.PointerSound (files : RunFiles) : Prop :=
  files.run.state.isTerminal = true ∨ files.currentResult.all (·.state == .succeeded) = true

instance RunFiles.PointerSound.decidable (files : RunFiles) : Decidable files.PointerSound :=
  inferInstanceAs (Decidable (_ ∨ _))

/-- Crashes come only while the pointer is sound. -/
def CrashAtSoundPointer (s : System) : EngineEvent → Prop
  | .crash => s.files.PointerSound
  | _ => True

instance CrashAtSoundPointer.decidable (s : System) : ∀ e, Decidable (CrashAtSoundPointer s e)
  | .crash => inferInstanceAs (Decidable s.files.PointerSound)
  | .call _ _ | .engine _ => inferInstanceAs (Decidable True)

/-! ## The invariant -/

/-- No stored result ends the workflow. -/
def RunFiles.NoFinalStored (files : RunFiles) : Prop :=
  ∀ step attempt record, files.results step attempt = some record → ¬ record.Final

/-- Either no final result is stored, or the one the pointer leads to is, and it
is the attempt that ended last. -/
def Unfinished (files : RunFiles) (trace : List Observation) : Prop :=
  files.NoFinalStored ∨
    ∃ record, files.currentResult = some record ∧ record.Final ∧ lastEnded trace = some record

/-- What holds between any two file accesses. -/
def Base (files : RunFiles) (trace : List Observation) : Prop :=
  (files.run.state = .succeeded → ∃ record, lastEnded trace = some record ∧ record.Final) ∧
  (files.run.state.isTerminal = false → Unfinished files trace)

/-- The record of an attempt and its result say the same. -/
def Records (record : StepAttemptRecord) : Except OrchestratorError StepEvaluation → Prop
  | .ok evaluation => record.state = .succeeded ∧ record.nextStepId = evaluation.nextStepId
  | .error _ => record.state ≠ .succeeded

/-- What holds at a control point with no write queued. -/
def AtControl (files : RunFiles) (trace : List Observation) : Control → Prop
  | .idle | .loading _ _ | .reloading _ _ => files.PointerSound
  | .cycling run _ => run = files.run ∧ files.PointerSound
  | .attempting a => a.run = files.run ∧ files.run.state = .running ∧ files.NoFinalStored
  | .invoking a | .running a =>
    a.run = files.run ∧ files.run.state = .running ∧ files.NoFinalStored ∧
      files.run.currentStepId = some a.step.id ∧ files.run.currentAttempt = some a.attempt
  | .counting _ record result | .settling _ record result =>
    files.run.state = .running ∧ lastEnded trace = some record ∧ Records record result ∧
      (¬ record.Final → files.NoFinalStored)

/-! ## One control step -/

section Steps

variable {files : RunFiles} {trace : List Observation}

theorem base_of_running (h : files.run.state = .running) (hu : Unfinished files trace) :
    Base files trace := by
  refine ⟨fun hs => ?_, fun _ => hu⟩
  rw [h] at hs
  cases hs

theorem base_of_failed (h : files.run.state = .failed) : Base files trace := by
  refine ⟨fun hs => ?_, fun ht => ?_⟩
  · rw [h] at hs
    cases hs
  · rw [h] at ht
    cases ht

variable {run : WorkflowRunRecord} {record : StepAttemptRecord} {now : Int}

theorem RunFiles.NoFinalStored.current (hno : files.NoFinalStored)
    (hcur : files.currentResult = some record) : ¬ record.Final := by
  unfold RunFiles.currentResult at hcur
  split at hcur
  · exact hno _ _ _ hcur
  · cases hcur

/-- A live run whose pointer leads to no final result has none stored. -/
theorem noFinalStored_of_current (hbase : Base files trace) (hrun : files.run.state = .running)
    (hcur : ∀ record, files.currentResult = some record → ¬ record.Final) :
    files.NoFinalStored := by
  rcases hbase.2 (by rw [hrun]; rfl) with h | ⟨record, hc, hf, _⟩
  · exact h
  · exact absurd hf (hcur record hc)

theorem executeOrFail_inv {err : OrchestratorError} (hbase : Base files trace)
    (hrun : run.state = .running) :
    ProcessInv Base AtControl files trace (executeOrFail run now err) := by
  rcases executeOrFail_cases run now err with ⟨ht, _⟩ | ⟨_, record, snapshot, hr, he⟩
  · rw [hrun] at ht
    cases ht
  · rw [he]
    exact ⟨hbase, base_of_failed hr, base_of_failed hr, .inl (by simp [hr, RunState.isTerminal])⟩

/-- A run is finished only right after its final attempt. -/
theorem finishRun_inv {now at_ : Int} {summary : String} {n c : ℕ} (hbase : Base files trace)
    (hrun : run.state = .running) (hfinal : ∃ record, lastEnded trace = some record ∧ record.Final)
    : ProcessInv Base AtControl files trace (finishRun run now at_ summary n c) := by
  rcases finishRun_cases run now at_ summary n c with ⟨_, record, snapshot, hr, he⟩ | ⟨hs, _⟩
  · rw [he]
    have hdone : ∀ (f : RunFiles) (t : List Observation), f.run.state = .succeeded →
        lastEnded t = lastEnded trace → Base f t := by
      intro f t hf ht
      refine ⟨fun _ => by rw [ht]; exact hfinal, fun hl => ?_⟩
      rw [hf] at hl
      cases hl
    exact ⟨hbase, hdone _ _ hr rfl, hdone _ _ hr rfl, .inl (by simp [hr, RunState.isTerminal])⟩
  · exact absurd hrun hs

/-- `resolve_next_step_pointer` finds nothing to do only behind a stored result
with no next step. -/
theorem resolveNextStepPointer_none {workflow : WorkflowConfig} (hsteps : workflow.steps ≠ [])
    (hrun : run = files.run) (h : resolveNextStepPointer files run workflow = none) :
    ∃ record, files.currentResult = some record ∧ record.nextStepId = none := by
  subst hrun
  unfold resolveNextStepPointer at h
  unfold RunFiles.currentResult
  split at h
  · next hstep =>
      cases hs : workflow.steps with
      | nil => exact absurd hs hsteps
      | cons s ss => simp [hs] at h
  · next step hstep =>
      split at h
      · cases h
      · next attempt hattempt =>
          rw [hstep, hattempt]
          split at h
          · next record hrecord => exact ⟨record, hrecord, by simpa using h⟩
          · cases h

/-- Whatever it finds, the pointer itself leads to no result that ends the run. -/
theorem resolveNextStepPointer_some {workflow : WorkflowConfig} {pointer : NextStepPointer}
    (hrun : run = files.run) (h : resolveNextStepPointer files run workflow = some pointer) :
    ∀ record, files.currentResult = some record → ¬ record.Final := by
  subst hrun
  intro record hrecord hfinal
  unfold resolveNextStepPointer at h
  unfold RunFiles.currentResult at hrecord
  split at hrecord
  · next step attempt hstep hattempt =>
      simp [hstep, hattempt, hrecord, hfinal.2] at h
  · cases hrecord

theorem executeNext_inv {orchestrator : OrchestratorConfig} {cycles : ℕ}
    (hvalid : ∀ w ∈ orchestrator.workflows, w.steps ≠ []) (hbase : Base files trace)
    (hrun : files.run.state = .running) (hsound : files.PointerSound) :
    ProcessInv Base AtControl files trace (executeNext orchestrator files files.run now cycles) := by
  rcases executeNext_cases orchestrator files files.run now cycles with
    ⟨err, he⟩ | ⟨workflow, hw, hp, he⟩ | ⟨workflow, pointer, step, _, hp, _, he⟩
  · rw [he]
    exact executeOrFail_inv hbase hrun
  · rw [he]
    obtain ⟨record, hcur, hnext⟩ :=
      resolveNextStepPointer_none (hvalid workflow (workflowForRun_mem hw)) rfl hp
    have hlive : files.run.state.isTerminal = false := by rw [hrun]; rfl
    have hok : record.state = .succeeded := by
      rcases hsound with ht | hall
      · rw [hlive] at ht
        cases ht
      · simpa [hcur] using hall
    refine finishRun_inv hbase hrun ?_
    rcases hbase.2 hlive with hno | ⟨record', _, hf, hl⟩
    · exact absurd ⟨hok, hnext⟩ (hno.current hcur)
    · exact ⟨record', hl, hf⟩
  · rw [he]
    have hno := noFinalStored_of_current hbase hrun (resolveNextStepPointer_some rfl hp)
    exact ⟨hbase, rfl, hrun, hno⟩

/-- Writing the result of the attempt under the pointer. -/
theorem result_unfinished (hno : files.NoFinalStored)
    (hstep : files.run.currentStepId = some record.stepId)
    (hattempt : files.run.currentAttempt = some record.attempt) (hl : lastEnded trace = some record)
    :
    Unfinished (files.apply (.result record)) trace ∧
      (¬ record.Final → (files.apply (.result record)).NoFinalStored) := by
  have hkeep : ¬ record.Final → (files.apply (.result record)).NoFinalStored := by
    intro hnot step attempt r hr
    rw [RunFiles.apply_result_results] at hr
    split at hr
    · cases hr
      exact hnot
    · exact hno _ _ _ hr
  refine ⟨?_, hkeep⟩
  by_cases hf : record.Final
  · refine .inr ⟨record, ?_, hf, hl⟩
    simp [RunFiles.currentResult, hstep, hattempt, RunFiles.loadStepAttempt,
      RunFiles.apply_result_results]
  · exact .inl (hkeep hf)

theorem record_records (a : Attempt) (endedAt : Int)
    (result : Except OrchestratorError StepEvaluation) :
    Records (a.record endedAt result) result := by
  cases result with
  | ok evaluation => exact ⟨rfl, rfl⟩
  | error err =>
    simp only [Records, Attempt.record]
    split <;> simp

theorem enter_inv {entry : Entry} (hbase : Base files trace) (hsound : files.PointerSound) :
    ProcessInv Base AtControl files trace (enter entry files.run now) := by
  rcases enter_cases entry files.run now with he | he | ⟨hs, verb, he⟩
  · rw [he]
    exact ⟨hbase, hsound⟩
  · rw [he]
    exact ⟨hbase, rfl, hsound⟩
  · obtain ⟨record, snapshot, hr, hstep, hattempt, hb⟩ := beginRun_eq files.run now verb hs
    rw [he, hb]
    have hlive : files.run.state.isTerminal = false := by rcases hs with h | h <;> rw [h] <;> rfl
    -- only the state changes, so the pointer leads where it led before
    have hcur : (files.apply (.run .transitionState record)).currentResult =
        files.currentResult := by
      simp only [RunFiles.currentResult, RunFiles.apply_run_run, hstep, hattempt]
      rfl
    have hun : Unfinished (files.apply (.run .transitionState record)) trace := by
      rcases hbase.2 hlive with hno | ⟨r, hc, hf, hl⟩
      · exact .inl hno
      · exact .inr ⟨r, by rw [hcur, hc], hf, hl⟩
    have hall := hsound.resolve_left (by rw [hlive]; exact Bool.false_ne_true)
    rw [← hcur] at hall
    exact ⟨hbase, base_of_running hr hun, base_of_running hr hun, rfl, .inr hall⟩

theorem settle_inv {a : Attempt} {result : Except OrchestratorError StepEvaluation}
    (hbase : Base files trace) (hat : AtControl files trace (.settling a record result)) :
    ProcessInv Base AtControl files trace (a.settle files.run record result) := by
  obtain ⟨hrun, hl, hrec, hno⟩ := hat
  rcases a.settle_cases files.run record result with
    ⟨err, he⟩ | ⟨evaluation, next, summary, action, hr, hn, he⟩ | ⟨evaluation, summary, hr, hn, he⟩ |
      ⟨err, hr, _, _, he⟩
  · rw [he]
    exact executeOrFail_inv hbase hrun
  · rw [he]
    subst hr
    have hkeep : files.NoFinalStored := hno (fun hf => by simp [← hrec.2, hf.2] at hn)
    exact ⟨hbase, base_of_running hrun (.inl hkeep), base_of_running hrun (.inl hkeep), .inr rfl⟩
  · rw [he]
    subst hr
    exact finishRun_inv hbase hrun ⟨record, hl, hrec.1, hrec.2.trans hn⟩
  · rw [he]
    subst hr
    exact ⟨hbase, rfl, hrun, hno fun hf => hrec hf.1⟩

/-- Every control point keeps the invariant. -/
theorem control_inv {orchestrator : OrchestratorConfig}
    (hvalid : ∀ w ∈ orchestrator.workflows, w.steps ≠ []) (input : Input) (control : Control)
    (hbase : Base files trace) (hat : AtControl files trace control) :
    ProcessInv Base AtControl files
      ((Control.advance orchestrator files input control).2 ++ trace)
      (Control.advance orchestrator files input control).1 := by
  cases control with
  | idle => exact ⟨hbase, hat⟩
  | loading entry now => exact enter_inv hbase hat
  | cycling run cycles =>
    obtain ⟨rfl, hsound⟩ := hat
    simp only [Control.advance]
    split
    · exact ⟨hbase, hsound⟩
    · next hgo =>
        exact executeNext_inv hvalid hbase (by simpa using (not_or.mp hgo).1) hsound
  | attempting a =>
    obtain ⟨hrun, hst, hno⟩ := hat
    have hst' : a.run.state = .running := by rw [hrun]; exact hst
    exact ⟨hbase, base_of_running hst' (.inl hno), base_of_running hst' (.inl hno),
      rfl, hst', hno, rfl, rfl⟩
  | invoking a =>
    obtain ⟨hrun, hst, hno, hptr⟩ := hat
    simp only [Control.advance]
    split
    · exact executeOrFail_inv hbase (by rw [hrun]; exact hst)
    · exact ⟨base_of_running hst (.inl hno), hrun, hst, hno, hptr⟩
  | running a =>
    obtain ⟨hrun, hst, hno, hstep, hattempt⟩ := hat
    -- the result is stored under the pointer the attempt was marked with
    have hkeys : ∀ result, (a.record input.now result).stepId = a.step.id ∧
        (a.record input.now result).attempt = a.attempt := by
      intro result
      cases result <;> exact ⟨rfl, rfl⟩
    obtain ⟨hk₁, hk₂⟩ := hkeys (a.evaluate input.outcome)
    have hout := result_unfinished hno (by rw [hstep, hk₁]) (by rw [hattempt, hk₂])
      (lastEnded_ended (a.record input.now (a.evaluate input.outcome)) trace)
    exact ⟨base_of_running hst (.inl hno), base_of_running hst hout.1, hst, rfl,
      record_records a input.now _, hout.2⟩
  | counting a record result =>
    obtain ⟨hst, hl, hrec, hno⟩ := hat
    have hun := hbase.2 (by rw [hst]; rfl)
    exact ⟨hbase, base_of_running hst hun, base_of_running hst hun, hst, hl, hrec, hno⟩
  | settling a record result => exact settle_inv hbase hat
  | reloading n c =>
    simp only [Control.advance]
    split
    · exact ⟨hbase, hat⟩
    · exact ⟨hbase, rfl, hat⟩

end Steps

/-! ## Whole runs -/

theorem step_inv {orchestrator : OrchestratorConfig}
    (hvalid : ∀ w ∈ orchestrator.workflows, w.steps ≠ []) (s : System) (e : EngineEvent)
    (h : SystemInv Base AtControl s) (hok : CrashAtSoundPointer s e) :
    SystemInv Base AtControl (engineStep orchestrator s e) := by
  cases e with
  | call entry now =>
    simp only [engineStep]
    split
    · next htodo hcontrol =>
        unfold SystemInv ProcessInv at h ⊢
        rw [htodo, hcontrol] at h
        exact h
    · exact h
  | engine input =>
    exact systemInv_advance_of
      (fun _ _ input control hbase hat (_ : True) => control_inv hvalid input control hbase hat) h
      input fun _ => trivial
  | crash => exact ⟨h.base_now, hok⟩

theorem created_inv (runId workflowId : String) (now : Int) :
    SystemInv Base AtControl (System.created runId workflowId now) :=
  ⟨⟨fun h => (by cases h), fun _ => .inl (fun _ _ _ h => by cases h)⟩, .inr rfl⟩

/-- **Crash/resume soundness.** Along every run of a validated orchestrator, with
any provider outcomes and any number of crashes and resumes, a run is
`Succeeded` only if the attempt that ended last succeeded with no next step,
provided no crash leaves a live run's pointer on the result of a failed
attempt. -/
theorem run_succeeded_sound (orchestrator : OrchestratorConfig) (runId workflowId : String)
    (now : Int) (events : List EngineEvent)
    (hvalid : validateSetupInvariants orchestrator = .ok ())
    (hcrash : Meets (engineStep orchestrator) CrashAtSoundPointer
      (System.created runId workflowId now) events) :
    SucceededSound (run (engineStep orchestrator) (System.created runId workflowId now) events) := by
  have hsteps := validateSetupInvariants_steps hvalid
  have hinv := run_invariant (step_inv hsteps) (created_inv runId workflowId now) hcrash
  exact hinv.base_now.1

/-! ### A crash at the wrong moment -/

/-- A task step that validation accepts. -/
def sampleStep (id : String) (next : Option String) : WorkflowStepConfig where
  id := id
  agent := "worker"
  next := next
  outputs := [⟨"summary", true⟩]
  outputFiles := [("summary", "summary.txt")]
  finalOutputPriority := [⟨"summary", true⟩]

/-- An orchestrator with one workflow of the given steps. -/
def sampleOrchestrator (steps : List WorkflowStepConfig) : OrchestratorConfig where
  id := "main"
  selectorAgent := "router"
  defaultWorkflow := "flow"
  agents := [("router", { model := "default", canOrchestrateWorkflows := true }),
    ("worker", { model := "default" })]
  workflows := [{ id := "flow", steps := steps }]

def providerDown : Input := { now := 1, outcome := .failure (.stepExecution "plan" "timed out") }

def providerAnswers : Input := { now := 1, outcome := .outputs [("summary", .str "done")] }

def engineSteps (n : ℕ) (input : Input) : List EngineEvent := List.replicate n (.engine input)

/-- The provider fails, `result.json` is written, the process dies. -/
def crashAfterFailure : List EngineEvent :=
  .call .start 0 :: engineSteps 10 providerDown ++
    .crash :: .call .resume 5 :: engineSteps 3 providerDown

/-- The process dies while the provider runs. -/
def crashWhileRunning : List EngineEvent :=
  .call .start 0 :: engineSteps 8 providerDown ++
    .crash :: .call .resume 5 :: engineSteps 13 providerAnswers

/-- A run whose only attempt failed is reported `Succeeded` by the resume. -/
theorem crash_after_failure_succeeds :
    validateSetupInvariants (sampleOrchestrator [sampleStep "plan" none]) = .ok () ∧
    ¬ SucceededSound (run (engineStep (sampleOrchestrator [sampleStep "plan" none]))
      (System.created "run-1" "flow" 0) crashAfterFailure) := by
  refine ⟨rfl, fun h => ?_⟩
  obtain ⟨record, hl, hf⟩ := h rfl
  cases hl
  exact absurd hf.1 (by decide)

theorem run_succeeded_sound_crash_while_running :
    (run (engineStep (sampleOrchestrator [sampleStep "plan" none]))
      (System.created "run-1" "flow" 0) crashWhileRunning).files.run.state = .succeeded ∧
    SucceededSound (run (engineStep (sampleOrchestrator [sampleStep "plan" none]))
      (System.created "run-1" "flow" 0) crashWhileRunning) :=
  ⟨rfl, run_succeeded_sound _ _ _ _ _ rfl (by decide)⟩

end Direclaw.Orchestration
