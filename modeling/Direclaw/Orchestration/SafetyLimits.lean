import Direclaw.Orchestration.ConfigValidation
import Direclaw.Orchestration.WorkflowEngine

/-!
# What the limits mean

`enforce_execution_safety` compares machine integers: `u64` seconds are cast to `i64`,
elapsed times saturate, and one is added to a `u32`. Here its verdict is compared with
the limits read as integers. No configuration is refused for the size of a limit, so
every value of the field types has to be looked at.
-/

namespace Direclaw.Orchestration

open Direclaw.Lib

/-! ## Arithmetic that is checked -/

/-- `u64 as i64`, where it keeps the value. -/
def u64ToI64 (n : ℕ) : Option Int := if (n : Int) ≤ i64Max then some n else none

/-- `u32` addition of one, where it does not overflow. -/
def u32CheckedSucc (n : ℕ) : Option ℕ := if n < Text.u32Max then some (n + 1) else none

/-- `enforce_execution_safety`; `none` if a cast or the addition leaves its type. -/
def enforceExecutionSafetyChecked (run : WorkflowRunRecord) (limits : ExecutionSafetyLimits)
    (now currentStepStartedAt : Int) (currentAttempt : ℕ) :
    Option (Except OrchestratorError Unit) :=
  if limits.maxTotalIterations ≤ run.totalIterations then
    some (.error (.maxIterationsExceeded limits.maxTotalIterations))
  else do
    let runTimeout ← u64ToI64 limits.runTimeoutSeconds
    if runTimeout < i64SaturatingSub now run.startedAt then
      return .error (.runTimeout limits.runTimeoutSeconds)
    let stepTimeout ← u64ToI64 limits.stepTimeoutSeconds
    if stepTimeout < i64SaturatingSub now currentStepStartedAt then
      return .error (.stepTimeout limits.stepTimeoutSeconds)
    let lastAttempt ← u32CheckedSucc limits.maxRetries
    if lastAttempt < currentAttempt then
      return .error (.selectorValidation
        s!"retry limit exceeded for step attempt {currentAttempt} (max retries {limits.maxRetries})")
    return .ok ()

variable {n : ℕ} {limit : ℕ}

theorem u64ToI64_eq_some (h : (n : Int) ≤ i64Max) : u64ToI64 n = some (n : Int) := if_pos h

theorem u64ToI64_eq_none (h : ¬ (n : Int) ≤ i64Max) : u64ToI64 n = none := if_neg h

theorem u64AsI64_of_le (h : (n : Int) ≤ i64Max) : u64AsI64 n = n := by
  refine if_pos ?_
  unfold i64Max at h
  omega

theorem u32CheckedSucc_eq_some (h : n < Text.u32Max) : u32CheckedSucc n = some (n + 1) :=
  if_pos h

theorem u32WrappingSucc_of_lt (h : n < Text.u32Max) : u32WrappingSucc n = n + 1 := by
  unfold Text.u32Max at h
  exact Nat.mod_eq_of_lt (by omega)

/-! ## The limits as integers -/

section Verdict

variable (run : WorkflowRunRecord) (limits : ExecutionSafetyLimits)
  (now currentStepStartedAt : Int) (currentAttempt : ℕ)

structure WithinLimits : Prop where
  iterations : run.totalIterations < limits.maxTotalIterations
  runTime : now - run.startedAt ≤ limits.runTimeoutSeconds
  stepTime : now - currentStepStartedAt ≤ limits.stepTimeoutSeconds
  attempts : currentAttempt ≤ limits.maxRetries + 1

/-- The verdict is that of the integers, and nothing wraps or panics on the way to it. -/
structure MeansItsLimits : Prop where
  exact : enforceExecutionSafety run limits now currentStepStartedAt currentAttempt = .ok () ↔
    WithinLimits run limits now currentStepStartedAt currentAttempt
  fits : (enforceExecutionSafetyChecked run limits now currentStepStartedAt
    currentAttempt).isSome = true

/-- The elapsed time, as far as an `i64` holds it, is past the limit. -/
def Expired (limit : ℕ) (elapsed : Int) : Prop := (limit : Int) < min i64Max elapsed

/-- The elapsed time is past the limit, but an `i64` does not hold it. -/
def Saturates (limit : ℕ) (elapsed : Int) : Prop := (limit : Int) = i64Max ∧ i64Max < elapsed

/-- Each limit that the checks come to has a value that its comparison can hold. -/
def ComparisonsFit : Prop :=
  run.totalIterations < limits.maxTotalIterations →
    (limits.runTimeoutSeconds : Int) ≤ i64Max ∧
    (¬ Expired limits.runTimeoutSeconds (now - run.startedAt) →
      (limits.stepTimeoutSeconds : Int) ≤ i64Max ∧
      (¬ Expired limits.stepTimeoutSeconds (now - currentStepStartedAt) →
        limits.maxRetries < Text.u32Max ∧
        (currentAttempt ≤ limits.maxRetries + 1 →
          ¬ Saturates limits.runTimeoutSeconds (now - run.startedAt) ∧
          ¬ Saturates limits.stepTimeoutSeconds (now - currentStepStartedAt))))

end Verdict

theorem lt_i64SaturatingSub_iff {now since : Int} (h : (limit : Int) ≤ i64Max) :
    u64AsI64 limit < i64SaturatingSub now since ↔ Expired limit (now - since) := by
  rw [u64AsI64_of_le h]
  unfold i64SaturatingSub Expired
  have hlow : i64Min < (limit : Int) := lt_of_lt_of_le (by decide) (Int.natCast_nonneg limit)
  rw [lt_max_iff]
  exact or_iff_right hlow.not_gt

/-- Short of the limit as an `i64` tells it, only saturation hides that it is passed. -/
theorem le_iff_not_saturates {elapsed : Int} (h : (limit : Int) ≤ i64Max)
    (hlive : ¬ Expired limit elapsed) : elapsed ≤ limit ↔ ¬ Saturates limit elapsed := by
  unfold Expired at hlive
  unfold Saturates
  rcases min_le_iff.mp (not_lt.mp hlive) with hmax | hle
  · have hlimit : (limit : Int) = i64Max := le_antisymm h hmax
    rw [hlimit, and_iff_right rfl, not_lt]
  · exact iff_of_true hle fun hsat => absurd hsat.2 (not_lt.mpr (hle.trans h))

theorem not_within_of_expired {elapsed : Int} (h : Expired limit elapsed) :
    ¬ elapsed ≤ limit :=
  not_le.mpr (h.trans_le (min_le_right _ _))

variable {run : WorkflowRunRecord} {limits : ExecutionSafetyLimits}
  {now currentStepStartedAt : Int} {currentAttempt : ℕ}

/-! ## One check after the other -/

theorem meansItsLimits_of_iterations (h : limits.maxTotalIterations ≤ run.totalIterations) :
    MeansItsLimits run limits now currentStepStartedAt currentAttempt := by
  refine ⟨?_, ?_⟩
  · rw [enforceExecutionSafety, if_pos h]
    exact iff_of_false nofun fun hwithin => hwithin.iterations.not_ge h
  · rw [enforceExecutionSafetyChecked, if_pos h]
    rfl

theorem meansItsLimits_of_runTime (hrun : (limits.runTimeoutSeconds : Int) ≤ i64Max)
    (h : Expired limits.runTimeoutSeconds (now - run.startedAt)) :
    MeansItsLimits run limits now currentStepStartedAt currentAttempt := by
  by_cases htotal : limits.maxTotalIterations ≤ run.totalIterations
  · exact meansItsLimits_of_iterations htotal
  · have hlt := (lt_i64SaturatingSub_iff hrun).mpr h
    refine ⟨?_, ?_⟩
    · rw [enforceExecutionSafety, if_neg htotal, if_pos hlt]
      exact iff_of_false nofun fun hwithin => not_within_of_expired h hwithin.runTime
    · rw [u64AsI64_of_le hrun] at hlt
      simp [enforceExecutionSafetyChecked, htotal, u64ToI64_eq_some hrun, hlt]

/-- The checks up to the step timeout have passed. -/
structure PastRunTime (run : WorkflowRunRecord) (limits : ExecutionSafetyLimits) (now : Int) :
    Prop where
  iterations : run.totalIterations < limits.maxTotalIterations
  fits : (limits.runTimeoutSeconds : Int) ≤ i64Max
  live : ¬ Expired limits.runTimeoutSeconds (now - run.startedAt)

theorem meansItsLimits_of_stepTime (hpast : PastRunTime run limits now)
    (hstep : (limits.stepTimeoutSeconds : Int) ≤ i64Max)
    (h : Expired limits.stepTimeoutSeconds (now - currentStepStartedAt)) :
    MeansItsLimits run limits now currentStepStartedAt currentAttempt := by
  have htotal := hpast.iterations.not_ge
  have hlive := (lt_i64SaturatingSub_iff hpast.fits).not.mpr hpast.live
  have hlt := (lt_i64SaturatingSub_iff hstep).mpr h
  refine ⟨?_, ?_⟩
  · rw [enforceExecutionSafety, if_neg htotal, if_neg hlive, if_pos hlt]
    exact iff_of_false nofun fun hwithin => not_within_of_expired h hwithin.stepTime
  · rw [u64AsI64_of_le hpast.fits] at hlive
    rw [u64AsI64_of_le hstep] at hlt
    simp [enforceExecutionSafetyChecked, htotal, u64ToI64_eq_some hpast.fits, hlive,
      u64ToI64_eq_some hstep, hlt]

/-- The last check decides, as long as the elapsed times did not saturate. -/
theorem meansItsLimits_of_attempts (hpast : PastRunTime run limits now)
    (hstep : (limits.stepTimeoutSeconds : Int) ≤ i64Max)
    (hlive : ¬ Expired limits.stepTimeoutSeconds (now - currentStepStartedAt))
    (hretries : limits.maxRetries < Text.u32Max) :
    MeansItsLimits run limits now currentStepStartedAt currentAttempt ↔
      (currentAttempt ≤ limits.maxRetries + 1 →
        ¬ Saturates limits.runTimeoutSeconds (now - run.startedAt) ∧
        ¬ Saturates limits.stepTimeoutSeconds (now - currentStepStartedAt)) := by
  have htotal := hpast.iterations.not_ge
  have hrunLive := (lt_i64SaturatingSub_iff hpast.fits).not.mpr hpast.live
  have hstepLive := (lt_i64SaturatingSub_iff hstep).not.mpr hlive
  have hok : enforceExecutionSafety run limits now currentStepStartedAt currentAttempt = .ok () ↔
      currentAttempt ≤ limits.maxRetries + 1 := by
    rw [enforceExecutionSafety, if_neg htotal, if_neg hrunLive, if_neg hstepLive,
      u32WrappingSucc_of_lt hretries]
    split
    · next hover => exact iff_of_false nofun (not_le.mpr hover)
    · next hunder => exact iff_of_true rfl (not_lt.mp hunder)
  have hfits : (enforceExecutionSafetyChecked run limits now currentStepStartedAt
      currentAttempt).isSome = true := by
    rw [u64AsI64_of_le hpast.fits] at hrunLive
    rw [u64AsI64_of_le hstep] at hstepLive
    simp only [enforceExecutionSafetyChecked, htotal, u64ToI64_eq_some hpast.fits, hrunLive,
      u64ToI64_eq_some hstep, hstepLive, u32CheckedSucc_eq_some hretries, if_false, bind,
      Option.bind, pure]
    split <;> rfl
  rw [← le_iff_not_saturates hpast.fits hpast.live, ← le_iff_not_saturates hstep hlive]
  constructor
  · intro hmeans hattempt
    have hwithin := hmeans.exact.mp (hok.mpr hattempt)
    exact ⟨hwithin.runTime, hwithin.stepTime⟩
  · intro h
    refine ⟨⟨fun hpassed => ?_, fun hwithin => hok.mpr hwithin.attempts⟩, hfits⟩
    have hattempt := hok.mp hpassed
    exact ⟨hpast.iterations, (h hattempt).1, (h hattempt).2, hattempt⟩

/-- **Safety limits.** The verdict is the integers' one, with nothing wrapped, exactly if
every limit that is compared fits its comparison. -/
theorem limits_mean_integers_iff (run : WorkflowRunRecord) (limits : ExecutionSafetyLimits)
    (now currentStepStartedAt : Int) (currentAttempt : ℕ) :
    MeansItsLimits run limits now currentStepStartedAt currentAttempt ↔
      ComparisonsFit run limits now currentStepStartedAt currentAttempt := by
  by_cases htotal : limits.maxTotalIterations ≤ run.totalIterations
  · exact iff_of_true (meansItsLimits_of_iterations htotal) fun hlt => absurd htotal hlt.not_ge
  have hiterations := not_le.mp htotal
  unfold ComparisonsFit
  rw [forall_prop_of_true hiterations]
  -- the checks in their order: one that fails ends the function
  by_cases hrun : (limits.runTimeoutSeconds : Int) ≤ i64Max
  swap
  · refine iff_of_false (fun h => ?_) fun h => hrun h.1
    have hfits := h.fits
    simp [enforceExecutionSafetyChecked, htotal, u64ToI64_eq_none hrun] at hfits
  rw [and_iff_right hrun]
  by_cases hexpired : Expired limits.runTimeoutSeconds (now - run.startedAt)
  · exact iff_of_true (meansItsLimits_of_runTime hrun hexpired) fun hlive => absurd hexpired hlive
  have hpast : PastRunTime run limits now := ⟨hiterations, hrun, hexpired⟩
  have hrunLive := (lt_i64SaturatingSub_iff hrun).not.mpr hexpired
  rw [u64AsI64_of_le hrun] at hrunLive
  rw [forall_prop_of_true hexpired]
  by_cases hstep : (limits.stepTimeoutSeconds : Int) ≤ i64Max
  swap
  · refine iff_of_false (fun h => ?_) fun h => hstep h.1
    have hfits := h.fits
    simp [enforceExecutionSafetyChecked, htotal, u64ToI64_eq_some hrun, hrunLive,
      u64ToI64_eq_none hstep] at hfits
  rw [and_iff_right hstep]
  by_cases hstepExpired : Expired limits.stepTimeoutSeconds (now - currentStepStartedAt)
  · exact iff_of_true (meansItsLimits_of_stepTime hpast hstep hstepExpired) fun hlive =>
      absurd hstepExpired hlive
  have hstepLive := (lt_i64SaturatingSub_iff hstep).not.mpr hstepExpired
  rw [u64AsI64_of_le hstep] at hstepLive
  rw [forall_prop_of_true hstepExpired]
  by_cases hretries : limits.maxRetries < Text.u32Max
  · rw [and_iff_right hretries]
    exact meansItsLimits_of_attempts hpast hstep hstepExpired hretries
  · -- one more than the largest number of retries is no `u32`
    refine iff_of_false (fun h => ?_) fun h => hretries h.1
    have hfits := h.fits
    simp [enforceExecutionSafetyChecked, htotal, u64ToI64_eq_some hrun, hrunLive,
      u64ToI64_eq_some hstep, hstepLive, u32CheckedSucc, hretries] at hfits

/-! ## Which limits a configuration can have -/

/-- A configuration whose only step runs under the given limits. -/
def limitedOrchestrator (limits : ExecutionSafetyLimits) : OrchestratorConfig where
  id := "main"
  selectorAgent := "router"
  defaultWorkflow := "flow"
  agents := [("router", { model := "default", canOrchestrateWorkflows := true })]
  workflows := [{
    id := "flow"
    description := "one step"
    tags := ["flow"]
    limits := some {
      maxTotalIterations := some limits.maxTotalIterations
      runTimeoutSeconds := some limits.runTimeoutSeconds }
    steps := [{
      id := "plan"
      agent := "router"
      prompt := "plan"
      outputs := [⟨"summary", true⟩]
      outputFiles := [("summary", "summary.txt")]
      finalOutputPriority := [⟨"summary", true⟩]
      limits := some { maxRetries := some limits.maxRetries } }] }]
  workflowOrchestration := some { defaultStepTimeoutSeconds := some limits.stepTimeoutSeconds }

def limitedSettings : Settings where
  workspacesPath := "/ws"
  orchestrators := [("main", {})]

theorem validate_limitedOrchestrator (limits : ExecutionSafetyLimits) :
    (limitedOrchestrator limits).validate limitedSettings "main" = .ok () := by
  -- no check reads a limit
  have hsame : (limitedOrchestrator limits).validate limitedSettings "main" =
      (limitedOrchestrator {}).validate limitedSettings "main" := rfl
  rw [hsame]
  decide

/-- Every choice of limits is accepted, and is what the engine goes by. -/
theorem limits_accepted (limits : ExecutionSafetyLimits) :
    (limitedOrchestrator limits).validate limitedSettings "main" = .ok () ∧
    ∃ workflow ∈ (limitedOrchestrator limits).workflows, ∃ step ∈ workflow.steps,
      resolveExecutionSafetyLimits (limitedOrchestrator limits) workflow step = limits :=
  ⟨validate_limitedOrchestrator limits, _, List.mem_singleton_self _, _,
    List.mem_singleton_self _, rfl⟩

/-- The largest run timeout expires at once. -/
def longestTimeout : ExecutionSafetyLimits := { runTimeoutSeconds := 2 ^ 64 - 1 }

def freshRun : WorkflowRunRecord :=
  { runId := "run-1", workflowId := "flow", state := .running, startedAt := 0, updatedAt := 0 }

/-- A run that has just begun is past the largest run timeout there is. -/
theorem longest_timeout_expires_at_once :
    (limitedOrchestrator longestTimeout).validate limitedSettings "main" = .ok () ∧
    WithinLimits freshRun longestTimeout 0 0 1 ∧
    enforceExecutionSafety freshRun longestTimeout 0 0 1 =
      .error (.runTimeout longestTimeout.runTimeoutSeconds) ∧
    ¬ MeansItsLimits freshRun longestTimeout 0 0 1 := by
  have hwithin : WithinLimits freshRun longestTimeout 0 0 1 :=
    ⟨by decide, by decide, by decide, by decide⟩
  have hverdict : enforceExecutionSafety freshRun longestTimeout 0 0 1 =
      .error (.runTimeout longestTimeout.runTimeoutSeconds) := rfl
  refine ⟨(limits_accepted longestTimeout).1, hwithin, hverdict, fun h => ?_⟩
  have hok := h.exact.mpr hwithin
  rw [hverdict] at hok
  cases hok

end Direclaw.Orchestration
