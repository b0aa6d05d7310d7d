import Direclaw.Orchestration.OpenAttempt
import Direclaw.Lib.OrderedMap
import Mathlib.Data.List.MinMax

/-!
# The outputs a step is given

`load_latest_step_outputs` (`orchestration/step_execution.rs`) gathers what the
other steps of the workflow have produced, for the prompt of the step that is
about to run. It reads every `result.json` of a step and keeps the succeeded one
with the largest attempt number. The numbers start again at 1 on every visit of
a step, so the largest number is the latest success only as long as no visit
succeeds in fewer attempts than a visit before it needed.
-/

namespace Direclaw.Orchestration

open Direclaw.Lib

/-! ## What is read -/

/-- One entry of a step's `attempts` directory, against the best one so far. -/
def laterAttempt (files : RunFiles) (step : String) (latest : Option (ℕ × StepAttemptRecord))
    (attempt : ℕ) : Option (ℕ × StepAttemptRecord) :=
  match files.results step attempt with
  | none => latest
  | some record =>
    if record.state ≠ .succeeded then latest
    else match latest with
      | some (current, held) =>
        if attempt ≤ current then some (current, held) else some (attempt, record)
      | none => some (attempt, record)

/-- The scan of `attempts_root`. `entries` are the numbers that the names of the
directory's entries spell, in the order of the listing. -/
def latestAttempt (files : RunFiles) (step : String) (entries : List ℕ) :
    Option (ℕ × StepAttemptRecord) :=
  entries.foldl (laterAttempt files step) none

def addStepOutputs (entries : String → List ℕ) (files : RunFiles) (currentStepId : String)
    (outputs : List (String × Outputs)) (step : WorkflowStepConfig) : List (String × Outputs) :=
  if step.id = currentStepId then outputs
  else match latestAttempt files step.id (entries step.id) with
    | some (_, attempt) => OrderedMap.insert step.id attempt.outputs outputs
    | none => outputs

def loadLatestStepOutputs (entries : String → List ℕ) (files : RunFiles)
    (workflow : WorkflowConfig) (currentStepId : String) : List (String × Outputs) :=
  workflow.steps.foldl (addStepOutputs entries files currentStepId) []

/-- A listing misses no attempt that has a result. -/
def Lists (files : RunFiles) (entries : String → List ℕ) : Prop :=
  ∀ step attempt, files.results step attempt ≠ none → attempt ∈ entries step

section Scan

variable {entries : String → List ℕ} {files : RunFiles} {workflow : WorkflowConfig}
  {step current : String}

/-- The succeeded attempt under a number. -/
def succeededAt (files : RunFiles) (step : String) (attempt : ℕ) : Option (ℕ × StepAttemptRecord) :=
  match files.results step attempt with
  | none => none
  | some record => if record.state = .succeeded then some (attempt, record) else none

theorem succeededAt_eq_some {attempt : ℕ} {found : ℕ × StepAttemptRecord} :
    succeededAt files step attempt = some found ↔
      files.results step attempt = some found.2 ∧ found.2.state = .succeeded ∧
        found.1 = attempt := by
  obtain ⟨number, record⟩ := found
  unfold succeededAt
  cases files.results step attempt with
  | none => exact iff_of_false nofun fun h => nomatch h.1
  | some held =>
    show (if held.state = .succeeded then some (attempt, held) else none) =
      some (number, record) ↔ _
    by_cases hstate : held.state = .succeeded
    · rw [if_pos hstate]
      constructor
      · rintro ⟨⟩
        exact ⟨rfl, hstate, rfl⟩
      · rintro ⟨hheld, -, rfl⟩
        cases hheld
        rfl
    · rw [if_neg hstate]
      refine iff_of_false nofun ?_
      rintro ⟨hheld, hsucceeded, -⟩
      cases hheld
      exact hstate hsucceeded

/-- The scan is the argument of the maximum, and of equal numbers the first. -/
theorem latestAttempt_eq_argmax (list : List ℕ) :
    latestAttempt files step list = (list.filterMap (succeededAt files step)).argmax Prod.fst := by
  unfold latestAttempt List.argmax
  rw [List.foldl_filterMap]
  congr 1
  funext latest attempt
  unfold laterAttempt succeededAt
  cases files.results step attempt with
  | none => rfl
  | some record =>
    by_cases hstate : record.state = .succeeded
    · cases latest with
      | none => simp [hstate, List.argAux]
      | some held =>
        obtain ⟨current, held⟩ := held
        by_cases hle : attempt ≤ current
        · simp [hstate, List.argAux, hle, not_lt.mpr hle]
        · simp [hstate, List.argAux, hle, not_le.mp hle]
    · simp [hstate]

/-- The largest number wins, wherever the listing has it. -/
theorem latestAttempt_of_largest {list : List ℕ} {attempt : ℕ} {record : StepAttemptRecord}
    (hmem : attempt ∈ list) (hstored : files.results step attempt = some record)
    (hstate : record.state = .succeeded)
    (hlargest : ∀ other held, files.results step other = some held → held.state = .succeeded →
      other ≤ attempt) :
    latestAttempt files step list = some (attempt, record) := by
  have hfound : (attempt, record) ∈ list.filterMap (succeededAt files step) :=
    List.mem_filterMap.mpr ⟨attempt, hmem, succeededAt_eq_some.mpr ⟨hstored, hstate, rfl⟩⟩
  rw [latestAttempt_eq_argmax]
  cases hmax : (list.filterMap (succeededAt files step)).argmax Prod.fst with
  | none =>
    rw [List.argmax_eq_none.mp hmax] at hfound
    cases hfound
  | some found =>
    obtain ⟨other, -, hother⟩ := List.mem_filterMap.mp (List.argmax_mem hmax)
    obtain ⟨hheld, hsucceeded, rfl⟩ := succeededAt_eq_some.mp hother
    -- one number holds one record
    have heq : found.1 = attempt :=
      le_antisymm (hlargest _ _ hheld hsucceeded) (List.le_of_mem_argmax hfound hmax)
    obtain ⟨number, held⟩ := found
    obtain rfl : number = attempt := heq
    rw [hstored] at hheld
    cases hheld
    rfl

theorem latestAttempt_of_none {list : List ℕ}
    (h : ∀ attempt held, files.results step attempt = some held → held.state ≠ .succeeded) :
    latestAttempt files step list = none := by
  rw [latestAttempt_eq_argmax, List.argmax_eq_none, List.filterMap_eq_nil_iff]
  intro attempt _
  rw [Option.eq_none_iff_forall_ne_some]
  intro found hfound
  obtain ⟨hheld, hsucceeded, -⟩ := succeededAt_eq_some.mp hfound
  exact h attempt _ hheld hsucceeded

variable {config : WorkflowStepConfig}

theorem lookup_addStepOutputs_self {outputs : List (String × Outputs)} (hkey : config.id = step)
    (hother : step ≠ current) :
    (addStepOutputs entries files current outputs config).lookup step =
      ((latestAttempt files step (entries step)).map (·.2.outputs)).or (outputs.lookup step) := by
  subst hkey
  unfold addStepOutputs
  rw [if_neg hother]
  cases latestAttempt files config.id (entries config.id) with
  | none => rfl
  | some found => exact OrderedMap.lookup_insert_self _ _ _

theorem lookup_addStepOutputs_of_ne {outputs : List (String × Outputs)} (hkey : config.id ≠ step) :
    (addStepOutputs entries files current outputs config).lookup step = outputs.lookup step := by
  unfold addStepOutputs
  split
  · rfl
  · cases latestAttempt files config.id (entries config.id) with
    | none => rfl
    | some found => exact OrderedMap.lookup_insert_of_ne hkey.symm _ _

/-- Every other step of the workflow has the outputs that its own scan finds. -/
theorem lookup_loadLatestStepOutputs (hmem : config ∈ workflow.steps) (hother : config.id ≠ current)
    :
    (loadLatestStepOutputs entries files workflow current).lookup config.id =
      (latestAttempt files config.id (entries config.id)).map (·.2.outputs) := by
  have hfold : ∀ steps : List WorkflowStepConfig,
      (steps.foldl (addStepOutputs entries files current) []).lookup config.id =
        if config.id ∈ steps.map (·.id) then
          (latestAttempt files config.id (entries config.id)).map (·.2.outputs)
        else none := by
    intro steps
    induction steps using List.reverseRecOn with
    | nil => rfl
    | append_singleton steps step ih =>
      rw [List.foldl_append, List.foldl_cons, List.foldl_nil]
      by_cases hkey : step.id = config.id
      · have hmem : config.id ∈ (steps ++ [step]).map (·.id) := by
          rw [← hkey]
          exact List.mem_map_of_mem (List.mem_append_right _ List.mem_cons_self)
        rw [lookup_addStepOutputs_self hkey hother, ih, if_pos hmem]
        cases latestAttempt files config.id (entries config.id) with
        | none => simp
        | some found => rfl
      · have hmem : config.id ∈ (steps ++ [step]).map (·.id) ↔ config.id ∈ steps.map (·.id) := by
          simp [Ne.symm hkey]
        rw [lookup_addStepOutputs_of_ne hkey, ih, if_congr hmem rfl rfl]
  rw [loadLatestStepOutputs, hfold, if_pos (List.mem_map_of_mem hmem)]

end Scan

/-! ## The last success -/

def lastSucceeded (step : String) : List Observation → Option StepAttemptRecord
  | [] => none
  | .wrote (.result record) :: trace =>
    if record.stepId = step ∧ record.state = .succeeded then some record
    else lastSucceeded step trace
  | _ :: trace => lastSucceeded step trace

theorem lastSucceeded_state {step : String} {trace : List Observation} {record : StepAttemptRecord}
    (h : lastSucceeded step trace = some record) : record.state = .succeeded := by
  fun_induction lastSucceeded step trace with
  | case1 => cases h
  | case2 held trace hheld =>
    cases h
    exact hheld.2
  | case3 held trace hheld ih => exact ih h
  | case4 seen trace hseen ih => exact ih h

section Result

variable {step : String} {record : StepAttemptRecord} {trace : List Observation}

theorem lastSucceeded_result_self (h : record.state = .succeeded) :
    lastSucceeded record.stepId (.wrote (.result record) :: trace) = some record :=
  if_pos ⟨rfl, h⟩

theorem lastSucceeded_result_of_ne (h : step ≠ record.stepId) :
    lastSucceeded step (.wrote (.result record) :: trace) = lastSucceeded step trace :=
  if_neg fun hboth => h hboth.1.symm

theorem lastSucceeded_result_of_failed (h : record.state ≠ .succeeded) :
    lastSucceeded step (.wrote (.result record) :: trace) = lastSucceeded step trace :=
  if_neg fun hboth => h hboth.2

end Result

/-! ## Where the last success is found

`results` are the stored results by step and number, `last` the last success of
each step. -/

section Numbers

variable (results : String → ℕ → Option StepAttemptRecord)
  (last : String → Option StepAttemptRecord)

/-- The last success of a step is still there under its number. -/
def Kept (step : String) : Prop :=
  ∀ record, last step = some record → results step record.attempt = some record

/-- A new visit has come to the number of the last success, or past it, and what is
stored under the visit's own number leads nowhere. -/
def Overtaken (step : String) (attempt : ℕ) : Prop :=
  (∀ record, last step = some record → record.attempt ≤ attempt) ∧
    ∀ record, results step attempt = some record → record.nextStepId = none

/-- What holds during attempt `attempt` of a visit of `step`. -/
structure Visiting (step : String) (attempt : ℕ) : Prop where
  others : ∀ other, other ≠ step → Kept results last other
  current : Kept results last step ∨ Overtaken results last step attempt
  machine : attempt ≤ Text.u32Max

structure NumberedResults : Prop where
  leads : ∀ step attempt record, results step attempt = some record →
    record.nextStepId ≠ none → record.state = .succeeded
  bounded : ∀ step attempt record, results step attempt = some record →
    record.state = .succeeded → ∃ latest, last step = some latest ∧ attempt ≤ latest.attempt

/-- What the step pointer of a live run says. -/
def AtPointer : Option String → Option ℕ → Prop
  | some step, some attempt => Visiting results last step attempt
  | _, _ => ∀ step, Kept results last step

variable {results last} {step : String} {attempt next : ℕ}

theorem visiting_of_kept (h : ∀ step, Kept results last step) (hmachine : attempt ≤ Text.u32Max) :
    Visiting results last step attempt :=
  ⟨fun other _ => h other, .inl (h step), hmachine⟩

theorem Visiting.kept (h : Visiting results last step attempt) (hstep : Kept results last step) :
    ∀ other, Kept results last other := by
  intro other
  by_cases hother : other = step
  · rw [hother]
    exact hstep
  · exact h.others other hother

theorem Visiting.retry (h : Visiting results last step attempt)
    (hnumbers : NumberedResults results last) :
    Visiting results last step (Text.u32Succ attempt) := by
  have hmachine := h.machine
  have hle : attempt ≤ Text.u32Succ attempt ∧ Text.u32Succ attempt ≤ Text.u32Max := by
    unfold Text.u32Succ
    omega
  refine ⟨h.others, ?_, hle.2⟩
  rcases h.current with hkept | ⟨hpast, hnowhere⟩
  · exact .inl hkept
  · refine .inr ⟨fun record hrecord => (hpast record hrecord).trans hle.1, fun record hrecord => ?_⟩
    by_contra hnext
    -- a result that leads on has succeeded, and no success has a larger number
    obtain ⟨latest, hlatest, hbound⟩ :=
      hnumbers.bounded _ _ _ hrecord (hnumbers.leads _ _ _ hrecord hnext)
    have heq : Text.u32Succ attempt = attempt :=
      le_antisymm (hbound.trans (hpast latest hlatest)) hle.1
    rw [heq] at hrecord
    exact hnext (hnowhere record hrecord)

end Numbers

/-! ## Every step of the engine -/

/-- An attempt that succeeds does so under no smaller number than the last success
of its step. -/
def SucceedsLater (trace : List Observation) : Control → Input → Prop
  | .running a, input => (a.evaluate input.outcome).isOk = true →
      ∀ latest ∈ lastSucceeded a.step.id trace, latest.attempt ≤ a.attempt
  | _, _ => True

instance SucceedsLater.decidable (trace : List Observation) :
    ∀ (control : Control) (input : Input), Decidable (SucceedsLater trace control input)
  | .running a, input =>
    inferInstanceAs (Decidable ((a.evaluate input.outcome).isOk = true →
      ∀ latest ∈ lastSucceeded a.step.id trace, latest.attempt ≤ a.attempt))
  | .idle, _ | .loading _ _, _ | .cycling _ _, _ | .attempting _, _ | .invoking _, _
  | .counting _ _ _, _ | .settling _ _ _, _ | .reloading _ _, _ => isTrue trivial

/-- The condition on one step of a run. -/
def KeepsLatest (s : System) : EngineEvent → Prop
  | .engine input => s.process.todo.isEmpty = true → SucceedsLater s.trace s.process.control input
  | _ => True

instance KeepsLatest.decidable (s : System) : ∀ e : EngineEvent, Decidable (KeepsLatest s e)
  | .engine input =>
    inferInstanceAs (Decidable (s.process.todo.isEmpty = true →
      SucceedsLater s.trace s.process.control input))
  | .call _ _ | .crash => isTrue trivial

/-- While a provider runs, the outputs gathered for its prompt are those of the last
success of each other step. -/
def GivesLatest (s : System) : Prop :=
  ∀ a, s.process.todo = [] → s.process.control = .running a →
    ∀ entries, Lists s.files entries → ∀ step ∈ a.workflow.steps, step.id ≠ a.step.id →
      (loadLatestStepOutputs entries s.files a.workflow a.step.id).lookup step.id =
        (lastSucceeded step.id s.trace).map (·.outputs)

section Invariant

/-- What holds between any two file accesses. -/
structure LatestBase (files : RunFiles) (trace : List Observation) : Prop where
  numbers : NumberedResults files.results (lastSucceeded · trace)
  live : files.run.state.isTerminal = false →
    AtPointer files.results (lastSucceeded · trace) files.run.currentStepId files.run.currentAttempt

/-- The attempt `a` is under the pointer, and the files are as its visit leaves them. -/
structure AtAttempt (files : RunFiles) (trace : List Observation) (a : Attempt) : Prop where
  step : files.run.currentStepId = some a.step.id
  attempt : files.run.currentAttempt = some a.attempt
  visiting : Visiting files.results (lastSucceeded · trace) a.step.id a.attempt

def LatestAt (files : RunFiles) (trace : List Observation) : Control → Prop
  | .idle | .loading _ _ | .reloading _ _ => True
  | .cycling run _ => run = files.run
  | .attempting a => Visiting files.results (lastSucceeded · trace) a.step.id a.attempt
  | .invoking a | .running a => AtAttempt files trace a
  | .counting a _ result | .settling a _ result =>
    AtAttempt files trace a ∧
      (result.isOk = true → ∀ step, Kept files.results (lastSucceeded · trace) step)

variable {orchestrator : OrchestratorConfig} {files : RunFiles} {trace : List Observation}

theorem latestBase_of_terminal (origin : RunWriteOrigin) {record : WorkflowRunRecord}
    (hbase : LatestBase files trace) (h : record.state.isTerminal = true) :
    LatestBase (files.apply (.run origin record)) (.wrote (.run origin record) :: trace) := by
  refine ⟨hbase.numbers, fun hlive => ?_⟩
  rw [RunFiles.apply_run_run, h] at hlive
  cases hlive

/-- A write of the run record that moves the pointer to where `h` says. -/
theorem latestBase_run (origin : RunWriteOrigin) (record : WorkflowRunRecord)
    (hbase : LatestBase files trace)
    (h : AtPointer files.results (lastSucceeded · trace) record.currentStepId
      record.currentAttempt) :
    LatestBase (files.apply (.run origin record)) (.wrote (.run origin record) :: trace) :=
  ⟨hbase.numbers, fun _ => h⟩

theorem latestBase_progress {snapshot : ProgressSnapshot} (hbase : LatestBase files trace) :
    LatestBase (files.apply (.progress snapshot)) (.wrote (.progress snapshot) :: trace) :=
  ⟨hbase.numbers, hbase.live⟩

theorem AtAttempt.pointer {a : Attempt} (h : AtAttempt files trace a) :
    AtPointer files.results (lastSucceeded · trace) files.run.currentStepId
      files.run.currentAttempt := by
  rw [h.step, h.attempt]
  exact h.visiting

theorem executeOrFail_latest {run : WorkflowRunRecord} {now : Int} {err : OrchestratorError}
    (hbase : LatestBase files trace) :
    ProcessInv LatestBase LatestAt files trace (executeOrFail run now err) := by
  rcases executeOrFail_cases run now err with ⟨_, he⟩ | ⟨_, record, snapshot, hr, he⟩
  · rw [he]
    exact ⟨hbase, trivial⟩
  · rw [he]
    have hfailed := latestBase_of_terminal .transitionState hbase
      (show record.state.isTerminal = true by rw [hr]; rfl)
    exact ⟨hbase, hfailed, latestBase_progress hfailed, trivial⟩

theorem finishRun_latest {run : WorkflowRunRecord} {now at_ : Int} {summary : String} {n c : ℕ}
    (hbase : LatestBase files trace) :
    ProcessInv LatestBase LatestAt files trace (finishRun run now at_ summary n c) := by
  rcases finishRun_cases run now at_ summary n c with
    ⟨_, record, snapshot, hr, he⟩ | ⟨_, run', err, _, he⟩
  · rw [he]
    have hdone := latestBase_of_terminal .transitionState hbase
      (show record.state.isTerminal = true by rw [hr]; rfl)
    exact ⟨hbase, hdone, latestBase_progress hdone, trivial⟩
  · rw [he]
    exact executeOrFail_latest hbase

/-- Where the pointer leads, the visit can begin or go on. -/
theorem pointer_visiting {workflow : WorkflowConfig} {pointer : NextStepPointer}
    (h : AtPointer files.results (lastSucceeded · trace) files.run.currentStepId
      files.run.currentAttempt)
    (hp : resolveNextStepPointer files files.run workflow = some pointer) :
    Visiting files.results (lastSucceeded · trace) pointer.stepId pointer.attempt := by
  have hone : 1 ≤ Text.u32Max := by decide
  unfold resolveNextStepPointer at hp
  cases hstep : files.run.currentStepId with
  | none =>
    rw [hstep] at h hp
    obtain ⟨first, -, rfl⟩ := Option.map_eq_some_iff.mp hp
    exact visiting_of_kept h hone
  | some step =>
    cases hattempt : files.run.currentAttempt with
    | none =>
      rw [hstep, hattempt] at h
      simp only [hstep, hattempt, Option.some.injEq] at hp
      subst hp
      exact visiting_of_kept h hone
    | some attempt =>
      rw [hstep, hattempt] at h
      simp only [hstep, hattempt] at hp
      cases hload : files.loadStepAttempt step attempt with
      | none =>
        simp only [hload, Option.some.injEq] at hp
        subst hp
        exact h
      | some record =>
        simp only [hload] at hp
        obtain ⟨next, hnext, rfl⟩ := Option.map_eq_some_iff.mp hp
        rcases h.current with hkept | ⟨-, hnowhere⟩
        · exact visiting_of_kept (h.kept hkept) hone
        · rw [hnowhere record hload] at hnext
          cases hnext

theorem NumberedResults.store {record : StepAttemptRecord}
    (h : NumberedResults files.results (lastSucceeded · trace))
    (hleads : record.nextStepId ≠ none → record.state = .succeeded)
    (hlater : record.state = .succeeded →
      ∀ latest ∈ lastSucceeded record.stepId trace, latest.attempt ≤ record.attempt) :
    NumberedResults (files.apply (.result record)).results
      (lastSucceeded · (.wrote (.result record) :: trace)) := by
  constructor
  · intro step attempt held hheld hnext
    rw [RunFiles.apply_result_results] at hheld
    split at hheld
    · cases hheld
      exact hleads hnext
    · exact h.leads step attempt held hheld hnext
  · intro step attempt held hheld hstate
    rw [RunFiles.apply_result_results] at hheld
    by_cases hown : record.stepId = step ∧ record.state = .succeeded
    · obtain ⟨rfl, hsucceeded⟩ := hown
      refine ⟨record, lastSucceeded_result_self hsucceeded, ?_⟩
      split at hheld
      · next hkey => exact hkey.2.le
      · obtain ⟨latest, hlatest, hle⟩ := h.bounded _ _ _ hheld hstate
        exact hle.trans (hlater hsucceeded latest hlatest)
    · have hsame : lastSucceeded step (.wrote (.result record) :: trace) =
          lastSucceeded step trace := if_neg hown
      split at hheld
      · next hkey =>
          cases hheld
          exact absurd ⟨hkey.1.symm, hstate⟩ hown
      · obtain ⟨latest, hlatest, hle⟩ := h.bounded _ _ _ hheld hstate
        exact ⟨latest, hsame.trans hlatest, hle⟩

theorem kept_of_succeeded {record : StepAttemptRecord} (h : record.state = .succeeded) :
    Kept (files.apply (.result record)).results
      (lastSucceeded · (.wrote (.result record) :: trace)) record.stepId := by
  intro latest hlatest
  have hself := (lastSucceeded_result_self h).symm.trans hlatest
  cases hself
  rw [RunFiles.apply_result_results, if_pos ⟨rfl, rfl⟩]

/-- A failure may replace the last success, with a result that leads nowhere. -/
theorem current_of_failed {record : StepAttemptRecord} (h : record.state ≠ .succeeded)
    (hnowhere : record.nextStepId = none)
    (hvisit : Visiting files.results (lastSucceeded · trace) record.stepId record.attempt) :
    Kept (files.apply (.result record)).results
        (lastSucceeded · (.wrote (.result record) :: trace)) record.stepId ∨
      Overtaken (files.apply (.result record)).results
        (lastSucceeded · (.wrote (.result record) :: trace)) record.stepId record.attempt := by
  have hsame : ∀ {latest : StepAttemptRecord},
      lastSucceeded record.stepId (.wrote (.result record) :: trace) = some latest →
        lastSucceeded record.stepId trace = some latest :=
    fun hlatest => (lastSucceeded_result_of_failed h).symm.trans hlatest
  have hstored : ∀ held, (files.apply (.result record)).results record.stepId record.attempt =
      some held → held.nextStepId = none := by
    intro held hheld
    rw [RunFiles.apply_result_results, if_pos ⟨rfl, rfl⟩] at hheld
    cases hheld
    exact hnowhere
  rcases hvisit.current with hkept | ⟨hpast, -⟩
  · by_cases hover : ∃ latest, lastSucceeded record.stepId trace = some latest ∧
        latest.attempt = record.attempt
    · obtain ⟨latest, hlatest, hnumber⟩ := hover
      refine .inr ⟨fun other hother => ?_, hstored⟩
      have heq := hlatest.symm.trans (hsame hother)
      cases heq
      exact hnumber.le
    · refine .inl fun latest hlatest => ?_
      have hold := hsame hlatest
      rw [RunFiles.apply_result_results, if_neg fun hkey => hover ⟨latest, hold, hkey.2⟩]
      exact hkept latest hold
  · exact .inr ⟨fun latest hlatest => hpast latest (hsame hlatest), hstored⟩

theorem result_latest {a : Attempt} {record : StepAttemptRecord} (hbase : LatestBase files trace)
    (hat : AtAttempt files trace a) (hid : record.stepId = a.step.id)
    (hnumber : record.attempt = a.attempt)
    (hleads : record.nextStepId ≠ none → record.state = .succeeded)
    (hlater : record.state = .succeeded →
      ∀ latest ∈ lastSucceeded a.step.id trace, latest.attempt ≤ a.attempt) :
    LatestBase (files.apply (.result record)) (.wrote (.result record) :: trace) ∧
      AtAttempt (files.apply (.result record)) (.wrote (.result record) :: trace) a ∧
        (record.state = .succeeded → ∀ step, Kept (files.apply (.result record)).results
          (lastSucceeded · (.wrote (.result record) :: trace)) step) := by
  have hvisit := hat.visiting
  rw [← hid, ← hnumber] at hvisit
  rw [← hid, ← hnumber] at hlater
  have hothers : ∀ other, other ≠ record.stepId → Kept (files.apply (.result record)).results
      (lastSucceeded · (.wrote (.result record) :: trace)) other := by
    intro other hother latest hlatest
    have hold := (lastSucceeded_result_of_ne hother).symm.trans hlatest
    rw [RunFiles.apply_result_results, if_neg fun h => hother h.1]
    exact hvisit.others other hother latest hold
  have hafter : Visiting (files.apply (.result record)).results
      (lastSucceeded · (.wrote (.result record) :: trace)) record.stepId record.attempt := by
    refine ⟨hothers, ?_, hvisit.machine⟩
    by_cases hstate : record.state = .succeeded
    · exact .inl (kept_of_succeeded hstate)
    · refine current_of_failed hstate ?_ hvisit
      by_contra hnext
      exact hstate (hleads hnext)
  rw [hid, hnumber] at hafter
  have hattempt : AtAttempt (files.apply (.result record)) (.wrote (.result record) :: trace) a :=
    ⟨hat.step, hat.attempt, hafter⟩
  refine ⟨⟨hbase.numbers.store hleads hlater, fun _ => hattempt.pointer⟩, hattempt, ?_⟩
  intro hstate
  refine hafter.kept ?_
  rw [← hid]
  exact kept_of_succeeded hstate

theorem attempt_record_keys (a : Attempt) (endedAt : Int)
    (result : Except OrchestratorError StepEvaluation) :
    (a.record endedAt result).stepId = a.step.id ∧ (a.record endedAt result).attempt = a.attempt ∧
      ((a.record endedAt result).nextStepId ≠ none → (a.record endedAt result).state = .succeeded) ∧
        ((a.record endedAt result).state = .succeeded ↔ result.isOk = true) := by
  cases result with
  | ok evaluation => exact ⟨rfl, rfl, fun _ => rfl, iff_of_true rfl rfl⟩
  | error err =>
    refine ⟨rfl, rfl, fun h => absurd rfl h, iff_of_false ?_ Bool.false_ne_true⟩
    simp only [Attempt.record]
    split
    · decide
    · decide

theorem control_latest (input : Input) (control : Control) (hbase : LatestBase files trace)
    (hat : LatestAt files trace control) (hok : SucceedsLater trace control input) :
    ProcessInv LatestBase LatestAt files
      ((Control.advance orchestrator files input control).2 ++ trace)
      (Control.advance orchestrator files input control).1 := by
  cases control with
  | idle => exact ⟨hbase, trivial⟩
  | loading entry now =>
    simp only [Control.advance]
    rcases enter_cases entry files.run now with he | he | ⟨hs, verb, he⟩
    · rw [he]
      exact ⟨hbase, trivial⟩
    · rw [he]
      exact ⟨hbase, rfl⟩
    · obtain ⟨record, snapshot, _, hstep, hattempt, hb⟩ := beginRun_eq files.run now verb hs
      rw [he, hb]
      have hlive : files.run.state.isTerminal = false := by
        rcases hs with h | h <;> rw [h] <;> rfl
      have hptr := hbase.live hlive
      rw [← hstep, ← hattempt] at hptr
      have hrunning := latestBase_run .transitionState record hbase hptr
      exact ⟨hbase, hrunning, latestBase_progress hrunning, rfl⟩
  | cycling run cycles =>
    cases hat
    simp only [Control.advance]
    split
    · exact ⟨hbase, trivial⟩
    · next hgo =>
        have hrun : files.run.state = .running := by simpa using (not_or.mp hgo).1
        rcases executeNext_cases orchestrator files files.run input.now cycles with
          ⟨err, he⟩ | ⟨workflow, _, _, he⟩ | ⟨workflow, pointer, step, _, hp, hf, he⟩
        · rw [he]
          exact executeOrFail_latest hbase
        · rw [he]
          exact finishRun_latest hbase
        · rw [he]
          have hvisit := pointer_visiting (hbase.live (by rw [hrun]; rfl)) hp
          rw [← findStep_id hf] at hvisit
          exact ⟨hbase, hvisit⟩
  | attempting a =>
    -- the mark moves the pointer to the attempt
    have hmarked := latestBase_run .markStepAttemptStarted
      (markStepAttemptStarted a.run a.step.id a.attempt input.now).1 hbase hat
    exact ⟨hbase, hmarked, latestBase_progress hmarked, rfl, rfl, hat⟩
  | invoking a =>
    simp only [Control.advance]
    split
    · exact executeOrFail_latest hbase
    · exact ⟨⟨hbase.numbers, hbase.live⟩, hat.step, hat.attempt, hat.visiting⟩
  | running a =>
    obtain ⟨hid, hnumber, hleads, hstate⟩ :=
      attempt_record_keys a input.now (a.evaluate input.outcome)
    have hended : LatestBase files
        (.ended (a.record input.now (a.evaluate input.outcome)) :: trace) :=
      ⟨hbase.numbers, hbase.live⟩
    obtain ⟨hnext, hptr, hkept⟩ := result_latest hended ⟨hat.step, hat.attempt, hat.visiting⟩ hid
      hnumber hleads fun h => hok (hstate.mp h)
    exact ⟨hended, hnext, hptr, fun h => hkept (hstate.mpr h)⟩
  | counting a record result =>
    obtain ⟨hptr, hkept⟩ := hat
    have hcounted := latestBase_run .persistStepAttempt
      { files.run with
        totalIterations := Text.u32Succ files.run.totalIterations
        updatedAt := record.endedAt } hbase hptr.pointer
    exact ⟨hbase, hcounted, latestBase_progress hcounted,
      ⟨hptr.step, hptr.attempt, hptr.visiting⟩, hkept⟩
  | settling a record result =>
    obtain ⟨hptr, hkept⟩ := hat
    simp only [Control.advance]
    rcases a.settle_cases files.run record result with
      ⟨err, he⟩ | ⟨evaluation, next, summary, action, hr, _, he⟩ |
        ⟨evaluation, summary, _, _, he⟩ | ⟨err, _, _, _, he⟩
    · rw [he]
      exact executeOrFail_latest hbase
    · rw [he]
      have hall := hkept (by rw [hr]; rfl)
      let moved := { files.run with currentStepId := some next, currentAttempt := none }
      have hmoved := latestBase_run .checkpoint
        (checkpoint moved record.endedAt summary false action).1 hbase hall
      exact ⟨hbase, hmoved, latestBase_progress hmoved, trivial⟩
    · rw [he]
      exact finishRun_latest hbase
    · rw [he]
      exact ⟨hbase, hptr.visiting.retry hbase.numbers⟩
  | reloading n c =>
    simp only [Control.advance]
    split
    · exact ⟨hbase, trivial⟩
    · exact ⟨hbase, rfl⟩

theorem step_latest (s : System) (e : EngineEvent) (h : SystemInv LatestBase LatestAt s)
    (hok : KeepsLatest s e) : SystemInv LatestBase LatestAt (engineStep orchestrator s e) := by
  refine systemInv_step_of (fun _ _ => trivial) (fun _ _ _ _ => trivial)
    (fun _ _ => control_latest) h e ?_
  rintro input rfl htodo
  exact hok (by rw [htodo]; rfl)

theorem created_latest (runId workflowId : String) (now : Int) :
    SystemInv LatestBase LatestAt (System.created runId workflowId now) := by
  refine ⟨⟨⟨?_, ?_⟩, fun _ => ?_⟩, trivial⟩
  · exact fun _ _ _ h => nomatch h
  · exact fun _ _ _ h => nomatch h
  · exact fun _ _ h => nomatch h

end Invariant

/-- While `a` runs, every other step has its last success under the largest number. -/
theorem AtAttempt.givesLatest {files : RunFiles} {trace : List Observation} {a : Attempt}
    (hbase : LatestBase files trace) (h : AtAttempt files trace a) {entries : String → List ℕ}
    (hlists : Lists files entries) {step : WorkflowStepConfig} (hmem : step ∈ a.workflow.steps)
    (hother : step.id ≠ a.step.id) :
    (loadLatestStepOutputs entries files a.workflow a.step.id).lookup step.id =
      (lastSucceeded step.id trace).map (·.outputs) := by
  rw [lookup_loadLatestStepOutputs hmem hother]
  cases hlast : lastSucceeded step.id trace with
  | none =>
    rw [latestAttempt_of_none]
    · rfl
    · intro attempt held hheld hstate
      obtain ⟨latest, hlatest, -⟩ := hbase.numbers.bounded _ _ _ hheld hstate
      rw [hlast] at hlatest
      cases hlatest
  | some latest =>
    have hkept := h.visiting.others _ hother latest hlast
    rw [latestAttempt_of_largest (hlists _ _ (by rw [hkept]; nofun)) hkept
      (lastSucceeded_state hlast)]
    · rfl
    · intro other held hheld hstate
      obtain ⟨latest', hlatest', hle⟩ := hbase.numbers.bounded _ _ _ hheld hstate
      rw [hlast] at hlatest'
      cases hlatest'
      exact hle

/-- **Step inputs.** In every run in which no attempt of a step succeeds under a smaller
number than the step's last success, every provider is called with the outputs of the
last success of each other step. -/
theorem run_gives_latest (orchestrator : OrchestratorConfig) (runId workflowId : String) (now : Int)
    (events : List EngineEvent)
    (h : Meets (engineStep orchestrator) KeepsLatest (System.created runId workflowId now) events) :
    GivesLatest (run (engineStep orchestrator) (System.created runId workflowId now) events) := by
  intro a htodo hcontrol entries hlists step hmem hother
  have hinv := run_invariant (step_latest)
    (created_latest runId workflowId now) h
  unfold SystemInv ProcessInv at hinv
  rw [htodo, hcontrol] at hinv
  exact AtAttempt.givesLatest hinv.1 hinv.2 hlists hmem hother

/-- The numbers under which results of a step were written. -/
def writtenAttempts (trace : List Observation) (step : String) : List ℕ :=
  trace.filterMap fun
    | .wrote (.result record) => if record.stepId = step then some record.attempt else none
    | _ => none

theorem Stored.lists {files : RunFiles} {trace : List Observation} (h : Stored files trace) :
    Lists files (writtenAttempts trace) := by
  intro step attempt hfile
  obtain ⟨record, hrecord⟩ := Option.ne_none_iff_exists'.mp hfile
  obtain ⟨hmem, hstep, hattempt⟩ := h step attempt record hrecord
  exact List.mem_filterMap.mpr ⟨_, hmem, by rw [← hattempt]; exact if_pos hstep⟩

/-! ### A second visit that needs fewer attempts -/

def planning (text : String) : Input :=
  { now := 1, outcome := .outputs [("summary", .str text)] }

/-- `plan` fails once before it answers, is visited again after `build` and answers at
once; then `build` runs again. -/
def quickerVisit : List EngineEvent :=
  .call .start 0 :: (engineSteps 10 providerDown ++ engineSteps 28 (planning "first plan") ++
    engineSteps 22 (planning "second plan"))

/-- `plan` answers at once, and needs a second attempt when it is visited again. -/
def slowerVisit : List EngineEvent :=
  .call .start 0 :: (engineSteps 36 (planning "first plan") ++ engineSteps 1 providerDown ++
    engineSteps 26 (planning "second plan"))


set_option maxRecDepth 4000 in
/-- `build` is given the first plan after the second one was made. -/
theorem quicker_visit_gives_first_plan :
    validateSetupInvariants loopOrchestrator = .ok () ∧
    ¬ GivesLatest (run (engineStep loopOrchestrator) (System.created "run-1" "flow" 0)
      quickerVisit) := by
  refine ⟨rfl, fun h => ?_⟩
  have hplan := h _ rfl rfl _ (run_stored loopOrchestrator "run-1" "flow" 0 quickerVisit).lists
    (sampleStep "plan" none) (.head _) (by decide)
  have hfirst : some [("summary", Json.str "first plan")] =
      some [("summary", Json.str "second plan")] := hplan
  simp at hfirst

/-- The run with a slower second visit is an admitted one. -/
theorem run_gives_latest_slowerVisit :
    GivesLatest (run (engineStep loopOrchestrator) (System.created "run-1" "flow" 0) slowerVisit) :=
  run_gives_latest loopOrchestrator "run-1" "flow" 0 slowerVisit (by decide)

end Direclaw.Orchestration
