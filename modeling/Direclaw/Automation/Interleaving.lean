import Direclaw.Automation.CallPrograms
import Direclaw.Automation.DueJobs

/-!
# Calls that overlap

No call of the scheduler takes a lock, so ticks, completions and edits overlap. They leave
what they leave one after the other when the accesses that conflict come in that order: a
completion is not lost, and a job that was paused or deleted is not enabled again.
-/

namespace Direclaw.Automation

open Direclaw.Lib Direclaw.Orchestration Direclaw.Queue

/-! ## What the calls after a call keep -/

section Kept

variable {env : SchedulerEnv} {files : SchedulerFiles} {k executionId : String}
  {call : StoredCall} {calls : List StoredCall}

theorem outcome_aboutStored (hnamed : Named files) :
    ∀ w ∈ (call.op.outcome env files).2, AboutStored files w := by
  intro w hw
  cases call with
  | edit change jobId now =>
    simp only [StoredCall.op, SchedulerOp.outcome, editJob, SchedulerFiles.load] at hw
    cases hjob : files.jobs.lookup jobId with
    | none =>
      rw [hjob] at hw
      cases hw
    | some job =>
      simp only [hjob] at hw
      cases happly : change.apply env.zones jobId now job with
      | error err =>
        simp only [happly] at hw
        cases hw
      | ok job' =>
        simp only [happly] at hw
        cases List.mem_singleton.mp hw
        exact edited_aboutStored hnamed hjob happly
  | tick now clock listings =>
    rcases mem_tick_writes hw with ⟨job, hjob, files', state', hw⟩ | ⟨state, rfl⟩
    · intro jobId hid
      rw [handleJob_writes hw] at hid
      cases hid
      exact hnamed.mem_jobs hjob
    · exact state_aboutStored state
  | complete jobId executionId succeeded now =>
    simp only [StoredCall.op, SchedulerOp.outcome, completeExecution, Outcome.ofWrites,
      SchedulerFiles.load] at hw
    rcases List.mem_cons.mp hw with rfl | hw
    · exact state_aboutStored _
    · cases hjob : files.jobs.lookup jobId with
      | none =>
        rw [hjob] at hw
        cases hw
      | some job =>
        rw [hjob] at hw
        exact completionWrites_aboutStored hnamed hjob w hw

theorem Named.afterCalls (hnamed : Named files) :
    Named (Automation.afterCalls env files calls) := by
  induction calls generalizing files with
  | nil => exact hnamed
  | cons call calls ih =>
    show Named (Automation.afterCalls env (call.op.outcome env files).1 calls)
    refine ih ?_
    rw [SchedulerOp.outcome_files]
    exact hnamed.applyAll

theorem afterCalls_invariant {I : SchedulerFiles → Prop} (hnamed : Named files)
    (hcall : ∀ call ∈ calls, ∀ files, Named files → I files → I (call.op.outcome env files).1)
    (h : I files) : I (afterCalls env files calls) := by
  induction calls generalizing files with
  | nil => exact h
  | cons call calls ih =>
    have hnext : Named (call.op.outcome env files).1 := by
      rw [SchedulerOp.outcome_files]
      exact hnamed.applyAll
    exact ih hnext (fun c hc => hcall c (List.mem_cons_of_mem _ hc))
      (hcall call List.mem_cons_self files hnamed h)

/-! ### Jobs that are stopped -/

def Stopped (k : String) (files : SchedulerFiles) : Prop :=
  ∀ job, files.jobs.lookup k = some job → job.state ≠ .enabled

def StoredCall.Resumes (k : String) : StoredCall → Prop
  | .edit .resume jobId _ => jobId = k
  | .edit .. | .tick .. | .complete .. => False

variable {now : Int}

theorem JobEdit.apply_stopped {zones : TimeZones} {change : JobEdit} {jobId : String}
    {job job' : ScheduledJob} (h : change.apply zones jobId now job = .ok job')
    (hstopped : job.state ≠ .enabled) (hresume : change ≠ .resume) : job'.state ≠ .enabled := by
  cases change with
  | update patch =>
    obtain ⟨_, _, hstate, _⟩ := updateJob_ok h
    rwa [hstate]
  | pause | delete =>
    rw [(moveJob_ok h).2]
    rintro ⟨⟩
  | resume => exact absurd rfl hresume
  | runNow => exact absurd (runNow_ok h).1 hstopped

theorem stopped_edit {change : JobEdit} {job : ScheduledJob} (hnamed : Named files)
    (hchange : change = .pause ∨ change = .delete)
    (hok : (editJob env change k now files).result = .ok job) :
    Stopped k (editJob env change k now files).files := by
  unfold editJob at hok ⊢
  split at hok
  · cases hok
  · next loaded hload =>
      split at hok
      · cases hok
      · next job' happly =>
          have hid : job'.jobId = k := by
            rw [(JobEdit.apply_keeps happly).1, hnamed (load_eq_ok hload)]
          have hstate : job'.state ≠ .enabled := by
            rcases hchange with rfl | rfl
            all_goals
              rw [(moveJob_ok happly).2]
              rintro ⟨⟩
          intro job'' hlookup
          change (files.apply (.job job')).jobs.lookup k = some job'' at hlookup
          rw [SchedulerFiles.lookup_apply_job, if_pos hid.symm] at hlookup
          cases hlookup
          exact hstate

theorem Stopped.outcome (hnamed : Named files) (h : Stopped k files) (hcall : ¬ call.Resumes k) :
    Stopped k (call.op.outcome env files).1 := by
  rw [SchedulerOp.outcome_files]
  intro job' hlookup
  rcases lookup_applyAll files (call.op.outcome env files).2 k with
    hsame | ⟨_, hwritten, hid, hmem⟩
  · exact h job' (hsame ▸ hlookup)
  rw [hwritten] at hlookup
  cases hlookup
  rcases SchedulerOp.job_write hmem with ⟨_, _, _, hop, _⟩ |
    ⟨change, jobId, now, job, hop, hjob, happly⟩ | ⟨now, clock, job, next, hop, hjob, hjob'⟩ |
    ⟨_, _, _, _, job, hop, hjob, rfl⟩
  · cases call <;> cases hop
  · obtain rfl : jobId = k := by rw [← hid, (JobEdit.apply_keeps happly).1, hnamed hjob]
    refine JobEdit.apply_stopped happly (h job hjob) ?_
    rintro rfl
    cases call <;> cases hop
    exact hcall rfl
  · have hstored := hnamed.lookup hjob
    rcases hjob' with rfl | rfl
    all_goals
      have hstate := h job (hid ▸ hstored)
      simp only [skippedJob, dispatchedJob]
      split
      · rintro ⟨⟩
      · exact hstate
  · obtain rfl : _ = k := hid
    exact h job (hnamed hjob ▸ hjob)

/-! ### Executions that are over -/

/-- The execution is not active, and the run history of a stored job keeps it from being
dispatched again. -/
structure Retired (k executionId : String) (files : SchedulerFiles) (state : SchedulerState) :
    Prop where
  inactive : ∀ active ∈ state.activeExecutions,
    ¬ (active.jobId = k ∧ active.executionId = executionId)
  recorded : k ∈ files.jobs → Recorded files k executionId

theorem Retired.handleJob {nanos : ℕ} {state state' : SchedulerState} {job : ScheduledJob}
    {made : Option DispatchedRun} (hs : Sanitized executionId)
    (h : Retired k executionId files state) (hstored : job.jobId ∈ files.jobs)
    (hok : (Automation.handleJob env now nanos files state job).result = .ok (state', made)) :
    Retired k executionId
      (files.applyAll (Automation.handleJob env now nanos files state job).writes) state' := by
  refine ⟨?_, fun hk => (h.recorded ?_).applyAll hs handleJob_sanitized⟩
  · rcases handleJob_cases env now nanos files state job with
      ⟨_, he⟩ | ⟨_, ⟨_, _, he⟩ | ⟨_, _, he⟩⟩ | ⟨_, _, he⟩ | ⟨n, hdue, ⟨_, _, he⟩ | ⟨_, _, he⟩⟩
    all_goals rw [he] at hok
    all_goals cases hok
    all_goals try exact h.inactive
    intro active hactive
    rcases List.mem_append.mp hactive with hold | hnew
    · exact h.inactive active hold
    · -- a recorded execution is a duplicate, not due
      cases List.mem_singleton.mp hnew
      rintro ⟨rfl, rfl⟩
      obtain ⟨_, _, _, _, _, hnot⟩ := turnOf_due hdue
      exact hnot (.inr (h.recorded hstored).executionExists)
  · exact (mem_jobs_applyAll (handleJob_aboutStored hstored)).mp hk

theorem Retired.tick {clock : String → ℕ} (hnamed : Named files) (hs : Sanitized executionId)
    (h : Retired k executionId files files.state) :
    ∀ active ∈ (Automation.tick env now clock files).files.state.activeExecutions,
      ¬ (active.jobId = k ∧ active.executionId = executionId) := by
  have hrecovered : Retired k executionId files (recoverStaleActiveExecutions now files.state) :=
    ⟨fun active hactive => h.inactive active (List.mem_filter.mp hactive).1, h.recorded⟩
  have hloop := handleJobs_invariant env now clock
    (I := fun files' state _ =>
      Retired k executionId files' state ∧ ∀ job ∈ files.listAll, job.jobId ∈ files'.jobs)
    (E := fun _ _ => True) files.listAll files _ []
    (fun job hjob files' state _ state' made hI hok => by
      refine ⟨hI.1.handleJob hs (hI.2 job hjob) hok, fun job' hjob' => ?_⟩
      exact (mem_jobs_applyAll (handleJob_aboutStored (hI.2 job hjob))).mpr (hI.2 job' hjob'))
    (fun _ _ _ _ _ _ _ _ => trivial) [] ⟨hrecovered, fun job hjob => hnamed.mem_jobs hjob⟩
  unfold Automation.tick
  simp only
  split
  · rw [handleJobs_state]
    exact h.inactive
  · next hresult =>
      rw [hresult] at hloop
      exact hloop.1.inactive

theorem Retired.outcome (hnamed : Named files) (hs : Sanitized executionId)
    (hcall : SanitizedCompletion {} call.op) (h : Retired k executionId files files.state) :
    Retired k executionId (call.op.outcome env files).1 (call.op.outcome env files).1.state := by
  refine ⟨?_, ?_⟩
  · rcases state_outcome env files call.op with hstate | ⟨_, _, _, _, _, hstate⟩ |
      ⟨now, clock, hop⟩
    · rw [hstate]
      exact h.inactive
    · rw [hstate]
      exact fun active hactive => h.inactive active (List.mem_filter.mp hactive).1
    · rw [hop]
      exact h.tick hnamed hs
  · rw [SchedulerOp.outcome_files]
    intro hk
    have hstored := (mem_jobs_applyAll (outcome_aboutStored hnamed)).mp hk
    exact (h.recorded hstored).applyAll hs hcall.records

theorem retired_complete (hnamed : Named files) (hs : Sanitized executionId) (succeeded : Bool)
    (now : Int) :
    let files' := (completeExecution env k executionId succeeded now files).files
    Retired k executionId files' files'.state := by
  have hop : SanitizedCompletion {} (.complete k executionId succeeded now) := hs
  have habout : ∀ w ∈ ((StoredCall.complete k executionId succeeded now).op.outcome env files).2,
      AboutStored files w := outcome_aboutStored hnamed
  refine ⟨?_, fun hk => ?_⟩
  · have hstate : (completeExecution env k executionId succeeded now files).files.state =
        files.state.retire k executionId := by
      simp only [completeExecution, Outcome.ofWrites]
      unfold completionWrites
      split <;> rfl
    rw [hstate]
    intro active hactive hboth
    have hkept := (List.mem_filter.mp hactive).2
    simp [hboth] at hkept
  · -- the job is stored, so the completion has recorded the execution
    obtain ⟨job, hjob⟩ := lookup_of_mem ((mem_jobs_applyAll habout).mp hk)
    have hwritten : SchedulerWrite.record
        { jobId := job.jobId, executionId := executionId, triggeredAt := now
          status := if succeeded then .completed else .failed, createdAt := now } ∈
        (completeExecution env k executionId succeeded now files).writes := by
      simp only [completeExecution, Outcome.ofWrites, SchedulerFiles.load, hjob, completionWrites]
      exact List.mem_cons_of_mem _ (List.mem_cons_of_mem _ List.mem_cons_self)
    have hrecorded : Recorded (files.applyAll _) job.jobId executionId :=
      recorded_of_mem hwritten hop.records
    simp only [hnamed hjob] at hrecorded
    exact hrecorded

end Kept

/-! ## The calls overlap -/

section Overlap

variable {env : SchedulerEnv} {files : SchedulerFiles} {calls : List StoredCall}

def overlapping (env : SchedulerEnv) (files : SchedulerFiles) (calls : List StoredCall) :
    Concurrent SchedulerKey.Value :=
  .start files.contents (calls.map (·.program env))

structure Serialized (env : SchedulerEnv) (files : SchedulerFiles) (calls : List StoredCall)
    (store : ∀ key : SchedulerKey, key.Value) : Prop where
  same : store = (afterCalls env files calls).contents
  /-- A completed execution is not active. -/
  completed : ∀ k executionId succeeded now, .complete k executionId succeeded now ∈ calls →
    (∀ call ∈ calls, SanitizedCompletion {} call.op) →
    ∀ active ∈ (store .state : SchedulerState).activeExecutions,
      ¬ (active.jobId = k ∧ active.executionId = executionId)
  /-- A job that was paused or deleted, and not resumed since, is not enabled. -/
  stopped : ∀ before change k now after job, calls = before ++ .edit change k now :: after →
    change = .pause ∨ change = .delete →
    (editJob env change k now (afterCalls env files before)).result = .ok job →
    (∀ call ∈ after, ¬ call.Resumes k) →
    ∀ job' : ScheduledJob, store (.job k) = some job' → job'.state ≠ .enabled

theorem afterCalls_append (before after : List StoredCall) :
    afterCalls env files (before ++ after) = afterCalls env (afterCalls env files before) after :=
  List.foldl_append

theorem afterCalls_completed {k executionId : String} {succeeded : Bool} {now : Int}
    (hnamed : Named files) (hmem : .complete k executionId succeeded now ∈ calls)
    (hsanitized : ∀ call ∈ calls, SanitizedCompletion {} call.op) :
    ∀ active ∈ (afterCalls env files calls).state.activeExecutions,
      ¬ (active.jobId = k ∧ active.executionId = executionId) := by
  obtain ⟨before, after, rfl⟩ := List.append_of_mem hmem
  have hs : Sanitized executionId := hsanitized _ hmem
  have hbefore : Named (afterCalls env files before) := hnamed.afterCalls
  have hdone := @retired_complete env _ k _ hbefore hs succeeded now
  have hnext : Named (completeExecution env k executionId succeeded now
      (afterCalls env files before)).files := hbefore.applyAll
  have hlater := @afterCalls_invariant env _ after
    (fun files => Retired k executionId files files.state) hnext
    (fun call hcall files hnamed h => h.outcome hnamed hs
      (hsanitized call (List.mem_append_right _ (List.mem_cons_of_mem _ hcall)))) hdone
  rw [afterCalls_append]
  exact hlater.inactive

theorem afterCalls_stopped {before after : List StoredCall} {change : JobEdit} {k : String}
    {now : Int} {job : ScheduledJob} (hnamed : Named files)
    (hchange : change = .pause ∨ change = .delete)
    (hok : (editJob env change k now (afterCalls env files before)).result = .ok job)
    (hafter : ∀ call ∈ after, ¬ call.Resumes k) :
    Stopped k (afterCalls env files (before ++ .edit change k now :: after)) := by
  have hbefore : Named (afterCalls env files before) := hnamed.afterCalls
  have hnext : Named (editJob env change k now (afterCalls env files before)).files := by
    have hfiles : (editJob env change k now (afterCalls env files before)).files = _ :=
      SchedulerOp.outcome_files (.edit change k now)
    rw [hfiles]
    exact hbefore.applyAll
  rw [afterCalls_append]
  show Stopped k
    (afterCalls env (editJob env change k now (afterCalls env files before)).files after)
  exact afterCalls_invariant hnext
    (fun call hcall files hnamed h => h.outcome hnamed (hafter call hcall))
    (stopped_edit hbefore hchange hok)

/-- **Calls that do not overtake each other are serialised.** Of two accesses that
conflict, the one of the earlier call comes first. -/
theorem overlapping_calls_serialize {ops : List SchedulerOp} {events : List ℕ}
    (horder : Meets Concurrent.step Concurrent.InOrder
      (overlapping env (reached env ops).files calls) events)
    (hended : ∀ i < calls.length, ((run Concurrent.step
      (overlapping env (reached env ops).files calls) events).programs i).access = none) :
    Serialized env (reached env ops).files calls
      (run Concurrent.step (overlapping env (reached env ops).files calls) events).store := by
  have hnamed : Named (reached env ops).files := (storeInv_reached ops).named
  have hsame : (run Concurrent.step (overlapping env (reached env ops).files calls) events).store =
      (afterCalls env (reached env ops).files calls).contents :=
    (run_eq_serial (reached env ops).files.contents
      (calls.map fun call : StoredCall => call.program env) horder
      (by rwa [List.length_map])).trans (exec_programs hnamed calls)
  refine ⟨hsame, ?_, ?_⟩
  · intro k executionId succeeded now hmem hsanitized
    rw [hsame]
    exact afterCalls_completed hnamed hmem hsanitized
  · rintro before change k now after job rfl hchange hok hafter
    rw [hsame]
    exact afterCalls_stopped hnamed hchange hok hafter

end Overlap

/-! ## A completion and a tick -/

section Runs

def DirectoryOrder.sorted (α : Type) [LinearOrder α] : DirectoryOrder α where
  list names := Quotient.liftOn names.val (List.insertionSort (· ≤ ·)) fun l l' hperm =>
    have hsorted := (List.perm_insertionSort (· ≤ ·) l).trans
      (hperm.trans (List.perm_insertionSort (· ≤ ·) l').symm)
    hsorted.eq_of_pairwise' (List.pairwise_insertionSort _ l) (List.pairwise_insertionSort _ l')
  nodup names := by
    obtain ⟨⟨l⟩, hnodup⟩ := names
    exact (List.perm_insertionSort _ l).nodup_iff.mpr hnodup
  mem_list names name := by
    obtain ⟨⟨l⟩, hnodup⟩ := names
    exact List.mem_insertionSort _

def byName : Listings where
  jobs := DirectoryOrder.sorted String
  runs := DirectoryOrder.sorted (List Char)

/-- A job with an execution under way. -/
def dispatchedOnce : List SchedulerOp := [.create everyMinuteJob 0 7, .tick 60 fun _ => 0]

def completedAt90 : StoredCall := .complete "job-eng-7" "exec-job-eng-7-60" true 90

def tickAt (now : Int) : StoredCall := .tick now (fun _ => 0) byName

def afterEvents (calls : List StoredCall) (events : List ℕ) : Concurrent SchedulerKey.Value :=
  run Concurrent.step (overlapping utcEnv (reached utcEnv dispatchedOnce).files calls) events

theorem completedAt90_sanitized {now : Int} :
    ∀ call ∈ [completedAt90, tickAt now], SanitizedCompletion {} call.op := by
  intro call hmem
  rcases List.mem_cons.mp hmem with rfl | hmem
  · show sanitizeId "exec-job-eng-7-60" = "exec-job-eng-7-60"
    decide
  · cases List.mem_singleton.mp hmem
    trivial

/-- The tick has read the state and the directory when the completion goes on to the job. -/
theorem overlapping_calls_serialize_completion :
    let s := afterEvents [completedAt90, tickAt 120]
      [0, 0, 1, 1, 0, 0, 0, 0, 1, 1, 1, 1, 1, 1, 1, 1]
    Serialized utcEnv (reached utcEnv dispatchedOnce).files [completedAt90, tickAt 120] s.store ∧
      (s.store .state : SchedulerState).activeExecutions.map (·.executionId) =
        ["exec-job-eng-7-120"] :=
  ⟨overlapping_calls_serialize (by decide) (by decide), by decide⟩

/-- Between the tick's reading of the state and its save, the completion is lost. -/
theorem completed_execution_reappears :
    ¬ ∀ ops calls events, (∀ i < calls.length, ((run Concurrent.step
        (overlapping utcEnv (reached utcEnv ops).files calls) events).programs i).access = none) →
      ∃ order, order.Perm calls ∧
        (run Concurrent.step (overlapping utcEnv (reached utcEnv ops).files calls) events).store =
          (afterCalls utcEnv (reached utcEnv ops).files order).contents := by
  intro hall
  obtain ⟨order, hperm, hstore⟩ := hall dispatchedOnce [completedAt90, tickAt 90]
    [1, 0, 0, 0, 0, 0, 0, 1, 1, 1] (by decide)
  have hactive : (⟨"job-eng-7", "exec-job-eng-7-60", 60⟩ : ActiveExecution) ∈
      ((afterEvents [completedAt90, tickAt 90] [1, 0, 0, 0, 0, 0, 0, 1, 1, 1]).store .state :
        SchedulerState).activeExecutions := by
    decide
  unfold afterEvents at hactive
  rw [hstore] at hactive
  have hnamed : Named (reached utcEnv dispatchedOnce).files :=
    (storeInv_reached dispatchedOnce).named
  have hcompleted := @afterCalls_completed utcEnv _ _ _ _ _ _ hnamed
    (hperm.symm.subset List.mem_cons_self) fun call hcall =>
      completedAt90_sanitized call (hperm.subset hcall)
  exact hcompleted _ hactive ⟨rfl, rfl⟩

end Runs

end Direclaw.Automation
