import Direclaw.Orchestration.Budgets

/-!
# The iteration limit

`enforce_execution_safety` compares the total with `>=`, once before an attempt
and once after the attempt has been counted. Before an attempt that is the right
test; after it, an attempt that used the last iteration is refused although it
was within the limit. So a workflow that needs exactly `max_total_iterations`
attempts fails, and the error says that the limit was exceeded.

A workflow that has to make more than ten thousand step visits within its limit
is stopped by the guard of `run_until_non_running` before any of this.
-/

namespace Direclaw.Orchestration

open Direclaw.Lib

/-- A run as `create_run` leaves it. -/
structure WorkflowRunRecord.Fresh (run : WorkflowRunRecord) : Prop where
  state : run.state = .queued
  currentStepId : run.currentStepId = none
  currentAttempt : run.currentAttempt = none
  totalIterations : run.totalIterations = 0

/-- `start` or `resume` is called on a run. -/
def System.entering (files : RunFiles) (entry : Entry) (now : Int) : System :=
  { files := files, process := { control := .loading entry now } }

/-- The limit is exact for a workflow of `k` attempts: the run succeeds just when
the limit allows them all, and otherwise fails for the limit, after as many as it
allows. -/
def ExactAt (limit k : ℕ) (s : System) : Prop :=
  (s.files.run.state = .succeeded ↔ k ≤ limit) ∧
  (limit < k →
    s.files.run.state = .failed ∧
    s.files.run.terminalReason =
      some s!"engine start failed: {(OrchestratorError.maxIterationsExceeded limit).display}" ∧
    invocations s.trace = limit)

/-- A fresh run whose provider leads the workflow to its end after
`outcomes.length` attempts. The limit is exact unless the attempts are just as
many as it allows, or the step visits within it are more than the loop guard
allows. -/
theorem iteration_limit_exact_iff (orchestrator : OrchestratorConfig) (files : RunFiles)
    (workflow : WorkflowConfig) (outcomes : List ProviderOutcome) (entry : Entry) (now : Int)
    (inputs : List Input) (hfit : LimitsFit orchestrator) (hfresh : files.run.Fresh)
    (hworkflow : workflowForRun orchestrator files.run = .ok workflow)
    (hfinishes : walk orchestrator workflow (firstPosition workflow) outcomes = some none)
    (hprovides : Meets (System.advance orchestrator) (Provides outcomes)
      (System.entering files entry now) inputs)
    (hlong : 20 * maxTotalIterationsOf orchestrator workflow + 15 < inputs.length) :
    (run (System.advance orchestrator) (System.entering files entry now) inputs).Done ∧
    (ExactAt (maxTotalIterationsOf orchestrator workflow) outcomes.length
        (run (System.advance orchestrator) (System.entering files entry now) inputs) ↔
      (outcomes.length ≠ maxTotalIterationsOf orchestrator workflow ∨ outcomes = []) ∧
        visits orchestrator workflow (firstPosition workflow)
          (outcomes.take (maxTotalIterationsOf orchestrator workflow)) ≤ maxCycles) := by
  have hlimit := iterationLimit_of_workflow hworkflow
  have hdone : (run (System.advance orchestrator) (System.entering files entry now) inputs).Done := by
    have hinv : SystemInv (InBudget orchestrator (maxTotalIterationsOf orchestrator workflow) 0)
        (AtBudget orchestrator (maxTotalIterationsOf orchestrator workflow) 0 True)
        (System.entering files entry now) :=
      ⟨⟨hlimit, Nat.zero_le _⟩,
        ⟨by simp [System.entering, hfresh.currentAttempt], hfresh.totalIterations.symm, rfl⟩,
        hfresh.totalIterations⟩
    refine run_ends hfit hinv (lt_of_le_of_lt ?_ hlong)
    simp only [System.stepsLeft, System.entering, Process.stepsLeft, Control.stepsLeft,
      List.length_nil, RunFiles.applyAll_nil]
    omega
  refine ⟨hdone, ?_⟩
  let c : Course orchestrator :=
    { workflow := workflow, outcomes := outcomes, fin := none, leads := hfinishes, long := .inl rfl }
  have hstart : SystemInv c.OnCourse c.Follows (System.entering files entry now) :=
    ⟨hworkflow, hfresh.state, hfresh.currentStepId, hfresh.totalIterations, rfl⟩
  have hend := Course.run_follows hfit hstart hprovides
  rw [SystemInv, ProcessInv, hdone.1, hdone.2] at hend
  rcases hend.2 with ⟨hrun, hmany⟩ | ⟨hsucceeded, hfew, hshort, -⟩ |
    ⟨hfailed, hfew, ⟨hle, hfirst⟩, hcount, hreason⟩
  · -- stopped by the loop guard
    constructor
    · rintro ⟨hiff, hover⟩
      by_cases hle : outcomes.length ≤ maxTotalIterationsOf orchestrator workflow
      · have := hiff.mpr hle
        rw [hrun] at this
        cases this
      · have := (hover (by omega)).1
        rw [hrun] at this
        cases this
    · rintro ⟨-, hfew⟩
      exact absurd hfew (not_le.mpr hmany)
  · -- finished below the limit, or without any step
    have hempty : firstPosition workflow = none → outcomes = [] := by
      intro hnone
      rw [hnone] at hfinishes
      exact walk_none hfinishes
    have hcases : outcomes.length < maxTotalIterationsOf orchestrator workflow ∨ outcomes = [] :=
      hshort.imp_right hempty
    constructor
    · intro _
      exact ⟨hcases.imp_left ne_of_lt, hfew⟩
    · intro _
      have hle : outcomes.length ≤ maxTotalIterationsOf orchestrator workflow := by
        rcases hcases with hlt | rfl
        · exact hlt.le
        · exact Nat.zero_le _
      exact ⟨⟨fun _ => hle, fun _ => hsucceeded⟩, fun hlt => absurd hle (not_le.mpr hlt)⟩
  · -- failed at the limit
    have hne : outcomes ≠ [] := by
      rintro rfl
      exact hfirst (Option.some.inj ((walk_nil _).symm.trans hfinishes))
    have hle : maxTotalIterationsOf orchestrator workflow ≤ outcomes.length := hle
    constructor
    · rintro ⟨hiff, -⟩
      refine ⟨.inl fun heq => ?_, hfew⟩
      have := hiff.mpr heq.le
      rw [hfailed] at this
      cases this
    · rintro ⟨hneq | hnil, -⟩
      · refine ⟨⟨fun h => ?_, fun h => absurd (le_antisymm h hle) hneq⟩,
          fun _ => ⟨hfailed, hreason, hcount⟩⟩
        rw [hfailed] at h
        cases h
      · exact absurd hnil hne

/-! ### A workflow of one attempt -/

/-- A workflow of one step, which the provider finishes at once. -/
def oneStepCourse (n : ℕ) : Course (patientOrchestrator [sampleStep "plan" none] n) where
  workflow := { id := "flow", steps := [sampleStep "plan" none] }
  outcomes := [providerAnswers.outcome]
  fin := none
  leads := rfl
  long := .inl rfl

theorem oneStep_provided {n : ℕ} (hfit : LimitsFit (patientOrchestrator [sampleStep "plan" none] n))
    (k : ℕ) :
    Meets (System.advance (patientOrchestrator [sampleStep "plan" none] n))
      (Provides [providerAnswers.outcome]) (System.entering (createRun "run-1" "flow" 0) .start 0)
      (List.replicate k providerAnswers) := by
  have hstart : SystemInv (oneStepCourse n).OnCourse (oneStepCourse n).Follows
      (System.entering (createRun "run-1" "flow" 0) .start 0) := ⟨rfl, rfl, rfl, rfl, rfl⟩
  exact Course.meets_constant hfit (patient_withinTime _ n rfl)
    (fun outcome h => List.mem_singleton.mp h) (fun e h => List.eq_of_mem_replicate h) hstart

theorem iteration_limit_exact_two :
    ExactAt 2 1 (run (System.advance (patientOrchestrator [sampleStep "plan" none] 2))
      (System.entering (createRun "run-1" "flow" 0) .start 0) (List.replicate 56 providerAnswers)) :=
  (iteration_limit_exact_iff (patientOrchestrator [sampleStep "plan" none] 2)
    (createRun "run-1" "flow" 0) { id := "flow", steps := [sampleStep "plan" none] }
    [providerAnswers.outcome] .start 0 (List.replicate 56 providerAnswers) (by decide)
    ⟨rfl, rfl, rfl, rfl⟩ rfl rfl (oneStep_provided (by decide) 56) (by decide)).2.mpr
    ⟨.inl (by decide), by decide⟩

/-- With a limit of one, the workflow of one attempt fails. -/
theorem last_iteration_refused :
    validateSetupInvariants (patientOrchestrator [sampleStep "plan" none] 1) = .ok () ∧
    Meets (System.advance (patientOrchestrator [sampleStep "plan" none] 1))
      (Provides [providerAnswers.outcome]) (System.entering (createRun "run-1" "flow" 0) .start 0)
      (List.replicate 36 providerAnswers) ∧
    ¬ ExactAt 1 1 (run (System.advance (patientOrchestrator [sampleStep "plan" none] 1))
      (System.entering (createRun "run-1" "flow" 0) .start 0) (List.replicate 36 providerAnswers)) := by
  refine ⟨rfl, oneStep_provided (by decide) 36, fun h => ?_⟩
  have hsucceeded := h.1.mpr le_rfl
  have hfailed : (run (System.advance (patientOrchestrator [sampleStep "plan" none] 1))
      (System.entering (createRun "run-1" "flow" 0) .start 0)
      (List.replicate 36 providerAnswers)).files.run.state = .failed := by rfl
  rw [hfailed] at hsucceeded
  cases hsucceeded

end Direclaw.Orchestration
