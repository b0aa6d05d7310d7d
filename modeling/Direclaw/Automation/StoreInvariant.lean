import Direclaw.Automation.TickLoop

/-!
# The scheduler's files over whole runs

What every call keeps: jobs are stored under ids that `create` made, with a schedule
that passed its checks; a record of the run history is never replaced by that of
another execution; and what the state lists as recently dispatched is in the run
history. The last one makes the trimmed list and the history agree on duplicates,
so that each job of a tick can be looked at on its own.
-/

namespace Direclaw.Automation

open Direclaw.Lib Direclaw.Orchestration Direclaw.Queue

/-! ## Job files -/

/-- Every stored job meets `P`. -/
def JobsMeet (P : ScheduledJob → Prop) (files : SchedulerFiles) : Prop :=
  ∀ ⦃k job⦄, files.jobs.lookup k = some job → P job

/-- A job file is named after its job. -/
def Named (files : SchedulerFiles) : Prop :=
  ∀ ⦃k job⦄, files.jobs.lookup k = some job → job.jobId = k

section JobFiles

variable {P : ScheduledJob → Prop} {files : SchedulerFiles} {ws : List SchedulerWrite}

/-- A job file is as it was, or as it was written last. -/
theorem lookup_applyAll (files : SchedulerFiles) (ws : List SchedulerWrite) (k : String) :
    (files.applyAll ws).jobs.lookup k = files.jobs.lookup k ∨
      ∃ job, (files.applyAll ws).jobs.lookup k = some job ∧ job.jobId = k ∧ .job job ∈ ws := by
  induction ws generalizing files with
  | nil => exact .inl rfl
  | cons w ws ih =>
    rw [SchedulerFiles.applyAll_cons]
    rcases ih (files.apply w) with hsame | ⟨job, hlookup, hid, hmem⟩
    · rw [hsame]
      cases w with
      | job j =>
        rw [SchedulerFiles.lookup_apply_job]
        split
        · next hk => exact .inr ⟨j, rfl, hk.symm, List.mem_cons_self⟩
        · exact .inl rfl
      | trigger _ => exact .inl rfl
      | record _ => exact .inl rfl
      | state _ => exact .inl rfl
    · exact .inr ⟨job, hlookup, hid, List.mem_cons_of_mem _ hmem⟩

theorem JobsMeet.applyAll (h : JobsMeet P files) (hws : ∀ job, .job job ∈ ws → P job) :
    JobsMeet P (files.applyAll ws) := by
  intro k job hk
  rcases lookup_applyAll files ws k with hsame | ⟨job', hlookup, _, hmem⟩
  · exact h (hsame ▸ hk)
  · rw [hlookup] at hk
    cases hk
    exact hws job hmem

theorem Named.applyAll (h : Named files) : Named (files.applyAll ws) := by
  intro k job hk
  rcases lookup_applyAll files ws k with hsame | ⟨job', hlookup, hid, _⟩
  · exact h (hsame ▸ hk)
  · rw [hlookup] at hk
    cases hk
    exact hid

theorem Named.lookup (h : Named files) {job : ScheduledJob} (hjob : job ∈ files.listAll) :
    files.jobs.lookup job.jobId = some job := by
  obtain ⟨k, hk⟩ := SchedulerFiles.mem_listAll.mp hjob
  rwa [h hk]

theorem Named.nodup_listAll (h : Named files) : (files.listAll.map (·.jobId)).Nodup := by
  have hkeys : files.jobs.entries.map (fun e => e.2.jobId) = files.jobs.keys := by
    apply List.map_congr_left
    rintro ⟨k, job⟩ hmem
    exact h (AList.mem_lookup_iff.mpr hmem)
  have hperm := (List.perm_insertionSort (fun a b : ScheduledJob => a.jobId ≤ b.jobId)
    (files.jobs.entries.map (·.2))).map (·.jobId)
  refine (List.Perm.nodup_iff hperm).mpr ?_
  rw [List.map_map]
  change (files.jobs.entries.map fun e => e.2.jobId).Nodup
  rw [hkeys]
  exact files.jobs.keys_nodup

end JobFiles

/-! ## The writes of a call -/

section Writes

variable {env : SchedulerEnv} {files : SchedulerFiles}

variable {now : Int} {job : ScheduledJob} {nanos : ℕ}

/-- A turn rewrites its job in one of two ways. -/
theorem handleJob_job {state : SchedulerState} {job job' : ScheduledJob}
    (h : .job job' ∈ (handleJob env now nanos files state job).writes) :
    ∃ next, job' = skippedJob now job next ∨ job' = dispatchedJob now job next := by
  rcases handleJob_cases env now nanos files state job with
    ⟨_, he⟩ | ⟨_, ⟨_, _, he⟩ | ⟨next, _, he⟩⟩ | ⟨_, _, he⟩ | ⟨_, _, ⟨_, _, he⟩ | ⟨next, _, he⟩⟩
  all_goals rw [he] at h
  all_goals simp at h
  · exact ⟨next, .inl h⟩
  · exact ⟨next, .inr h⟩

theorem handleJob_record {state : SchedulerState} {record : RunRecord}
    (h : .record record ∈ (handleJob env now nanos files state job).writes) :
    record.jobId = job.jobId ∧ (record.executionId = skipExecutionId nanos ∨
      ∃ n, record.executionId = executionIdFor job.jobId n) := by
  rcases handleJob_cases env now nanos files state job with
    ⟨_, he⟩ | ⟨_, ⟨_, _, he⟩ | ⟨_, _, he⟩⟩ | ⟨n, _, he⟩ | ⟨n, _, ⟨_, _, he⟩ | ⟨_, _, he⟩⟩
  all_goals rw [he] at h
  all_goals simp at h
  all_goals rw [h]
  · exact ⟨rfl, .inl rfl⟩
  · exact ⟨rfl, .inr ⟨n, rfl⟩⟩
  · exact ⟨rfl, .inr ⟨n, rfl⟩⟩

theorem handleJob_trigger {state : SchedulerState} {envelope : ScheduledTriggerEnvelope}
    (h : .trigger envelope ∈ (handleJob env now nanos files state job).writes) :
    ∃ n, turnOf now files state job = .due n ∧
      envelope = triggerEnvelope now job (executionIdFor job.jobId n) := by
  rcases handleJob_cases env now nanos files state job with
    ⟨_, he⟩ | ⟨_, ⟨_, _, he⟩ | ⟨_, _, he⟩⟩ | ⟨_, _, he⟩ | ⟨n, hturn, ⟨_, _, he⟩ | ⟨_, _, he⟩⟩
  all_goals rw [he] at h
  all_goals simp at h
  · exact ⟨n, hturn, h⟩
  · exact ⟨n, hturn, h⟩

theorem mem_tick_writes {clock : String → ℕ} {w : SchedulerWrite}
    (h : w ∈ (tick env now clock files).writes) :
    (∃ job ∈ files.listAll, ∃ files' state',
      w ∈ (handleJob env now (clock job.jobId) files' state' job).writes) ∨
      ∃ state, w = .state state := by
  unfold tick at h
  simp only at h
  split at h
  · exact .inl (handleJobs_writes h)
  · rcases List.mem_append.mp h with h | h
    · exact .inl (handleJobs_writes h)
    · exact .inr ⟨_, List.mem_singleton.mp h⟩

theorem tick_files {clock : String → ℕ} :
    (tick env now clock files).files = files.applyAll (tick env now clock files).writes := by
  unfold tick
  simp only
  split
  · exact handleJobs_files
  · rw [SchedulerFiles.applyAll_append, ← handleJobs_files]
    rfl

theorem load_eq_ok {runtimeRoot jobId : String} {job : ScheduledJob}
    (h : files.load runtimeRoot jobId = .ok job) : files.jobs.lookup jobId = some job := by
  unfold SchedulerFiles.load at h
  split at h
  · next job' hlookup =>
      cases h
      exact hlookup
  · cases h

/-- What a call leaves is what it wrote. -/
theorem SchedulerOp.outcome_files (op : SchedulerOp) :
    (op.outcome env files).1 = files.applyAll (op.outcome env files).2 := by
  cases op with
  | create input now nanos =>
    simp only [SchedulerOp.outcome, createJob]
    split <;> rfl
  | edit change jobId now =>
    simp only [SchedulerOp.outcome, editJob]
    split
    · rfl
    · split <;> rfl
  | tick now clock => exact tick_files
  | complete jobId executionId succeeded now => rfl

/-- The four ways a job file gets written. -/
theorem SchedulerOp.job_write {op : SchedulerOp} {job' : ScheduledJob}
    (h : .job job' ∈ (op.outcome env files).2) :
    (∃ input now nanos, op = .create input now nanos ∧
      newJob env.zones input now nanos = .ok job') ∨
    (∃ change jobId now job, op = .edit change jobId now ∧ files.jobs.lookup jobId = some job ∧
      change.apply env.zones jobId now job = .ok job') ∨
    (∃ now clock job next, op = .tick now clock ∧ job ∈ files.listAll ∧
      (job' = skippedJob now job next ∨ job' = dispatchedJob now job next)) ∨
    ∃ jobId executionId succeeded now job, op = .complete jobId executionId succeeded now ∧
      files.jobs.lookup jobId = some job ∧
      job' = { job with
        lastResult := some (if succeeded then "succeeded" else "failed"), updatedAt := now } := by
  cases op with
  | create input now nanos =>
    refine .inl ⟨input, now, nanos, rfl, ?_⟩
    simp only [SchedulerOp.outcome, createJob] at h
    split at h
    · cases h
    · next job hnew =>
        cases List.mem_singleton.mp h
        exact hnew
  | edit change jobId now =>
    refine .inr (.inl ?_)
    simp only [SchedulerOp.outcome, editJob] at h
    split at h
    · cases h
    · next job hload =>
        split at h
        · cases h
        · next job'' happly =>
            cases List.mem_singleton.mp h
            exact ⟨change, jobId, now, job, rfl, load_eq_ok hload, happly⟩
  | tick now clock =>
    refine .inr (.inr (.inl ?_))
    rcases mem_tick_writes h with ⟨job, hjob, _, _, hw⟩ | ⟨state, hstate⟩
    · obtain ⟨next, hnext⟩ := handleJob_job hw
      exact ⟨now, clock, job, next, rfl, hjob, hnext⟩
    · cases hstate
  | complete jobId executionId succeeded now =>
    refine .inr (.inr (.inr ⟨jobId, executionId, succeeded, now, ?_⟩))
    simp only [SchedulerOp.outcome, completeExecution, Outcome.ofWrites] at h
    unfold completionWrites at h
    split at h
    · simp at h
    · next job hload =>
        simp only [List.mem_cons, reduceCtorEq, SchedulerWrite.job.injEq, List.not_mem_nil,
          or_false, false_or] at h
        exact ⟨job, rfl, load_eq_ok hload, h⟩

end Writes

/-! ## Accepted jobs -/

/-- The id was made by `create` and the schedule passed its checks. -/
structure Accepted (zones : TimeZones) (job : ScheduledJob) : Prop where
  created : CreatedId job.jobId
  valid : validateSchedule zones job.schedule = .ok ()

theorem JobEdit.apply_accepted {zones : TimeZones} {change : JobEdit} {jobId : String} {now : Int}
    {job job' : ScheduledJob} (hjob : Accepted zones job)
    (h : change.apply zones jobId now job = .ok job') : Accepted zones job' := by
  refine ⟨(JobEdit.apply_keeps h).1 ▸ hjob.created, ?_⟩
  cases change with
  | update patch =>
    obtain ⟨_, _, _, _, _, ⟨_, hsame, _⟩ | ⟨schedule, _, hnew, hvalid, _⟩⟩ := updateJob_ok h
    · rw [hsame]
      exact hjob.valid
    · rw [hnew]
      exact hvalid
  | pause | resume | delete =>
    rw [(moveJob_ok h).2]
    exact hjob.valid
  | runNow =>
    rw [(runNow_ok h).2]
    exact hjob.valid

section Reach

variable {env : SchedulerEnv}

/-- What every reachable store is like. -/
structure StoreInv (env : SchedulerEnv) (files : SchedulerFiles) : Prop where
  named : Named files
  accepted : JobsMeet (Accepted env.zones) files

theorem StoreInv.outcome {files : SchedulerFiles} (h : StoreInv env files) (op : SchedulerOp) :
    StoreInv env (op.outcome env files).1 := by
  rw [op.outcome_files]
  refine ⟨h.named.applyAll, h.accepted.applyAll ?_⟩
  intro job' hwrite
  rcases SchedulerOp.job_write hwrite with ⟨input, now, nanos, _, hnew⟩ |
    ⟨change, jobId, now, job, _, hlookup, happly⟩ |
    ⟨now, clock, job, next, _, hmem, hjob'⟩ | ⟨_, _, _, _, job, _, hlookup, rfl⟩
  · obtain ⟨hvalid, hid, hschedule, _⟩ := newJob_ok hnew
    exact ⟨⟨_, _, hid⟩, hschedule ▸ hvalid⟩
  · exact JobEdit.apply_accepted (h.accepted hlookup) happly
  · have hjob := h.accepted (h.named.lookup hmem)
    rcases hjob' with rfl | rfl
    · exact ⟨hjob.created, hjob.valid⟩
    · exact ⟨hjob.created, hjob.valid⟩
  · have hjob := h.accepted hlookup
    exact ⟨hjob.created, hjob.valid⟩

theorem StoreInv.empty : StoreInv env {} := by
  constructor <;> intro k job hk <;> cases hk

theorem schedulerStep_files (s : SchedulerSystem) (op : SchedulerOp) :
    (schedulerStep env s op).files = (op.outcome env s.files).1 := rfl

theorem schedulerStep_log (s : SchedulerSystem) (op : SchedulerOp) :
    (schedulerStep env s op).log = s.log ++ (op.outcome env s.files).2 := rfl

/-- What these calls make of an empty store. -/
def reached (env : SchedulerEnv) (ops : List SchedulerOp) : SchedulerSystem :=
  Lib.run (schedulerStep env) {} ops

theorem reached_append_singleton (ops : List SchedulerOp) (op : SchedulerOp) :
    reached env (ops ++ [op]) = schedulerStep env (reached env ops) op :=
  Lib.run_append (schedulerStep env) {} ops [op]

theorem storeInv_reached (ops : List SchedulerOp) : StoreInv env (reached env ops).files :=
  Lib.run_invariant' (I := fun s : SchedulerSystem => StoreInv env s.files)
    (fun _ op h => h.outcome op) ops StoreInv.empty

end Reach

/-! ## The run history -/

theorem runFileName_injective {t t' : Int} {id id' : String} (hid : Sanitized id)
    (hid' : Sanitized id') (h : runFileName t id = runFileName t' id') : t = t' ∧ id = id' := by
  have hs : sanitizeId id = id := hid
  have hs' : sanitizeId id' = id' := hid'
  simp only [runFileName, hs, hs', List.append_assoc, List.cons_append] at h
  obtain ⟨ht, hrest⟩ := decimalInt_dash_injective h
  exact ⟨ht, String.toList_inj.mp (List.append_cancel_right hrest)⟩

/-- The history of the job has a file for the execution. -/
def Recorded (files : SchedulerFiles) (jobId executionId : String) : Prop :=
  ∃ t record, files.runs.lookup (jobId, runFileName t executionId) = some record ∧
    record.executionId = executionId

/-- No record among the writes can take the place of another execution's. -/
def SanitizedRecords (ws : List SchedulerWrite) : Prop :=
  ∀ record, .record record ∈ ws → Sanitized record.executionId

section History

variable {files : SchedulerFiles} {ws : List SchedulerWrite} {jobId executionId : String}

theorem Recorded.executionExists (h : Recorded files jobId executionId) :
    files.executionExists jobId executionId = true := by
  obtain ⟨t, record, hlookup, hid⟩ := h
  exact SchedulerFiles.executionExists_iff.mpr ⟨_, record, hlookup, rfl, hid⟩

theorem Recorded.apply (hs : Sanitized executionId) (h : Recorded files jobId executionId)
    {w : SchedulerWrite} (hw : SanitizedRecords [w]) :
    Recorded (files.apply w) jobId executionId := by
  obtain ⟨t, record, hlookup, hid⟩ := h
  cases w with
  | record r =>
    have hr := hw r List.mem_cons_self
    by_cases hpath : (jobId, runFileName t executionId) = r.path
    · refine ⟨t, r, ?_, ?_⟩
      · rw [SchedulerFiles.lookup_apply_record, if_pos hpath]
      · obtain ⟨_, hname⟩ := Prod.mk.inj hpath
        exact (runFileName_injective hs hr hname).2.symm
    · refine ⟨t, record, ?_, hid⟩
      rw [SchedulerFiles.lookup_apply_record, if_neg hpath, hlookup]
  | trigger _ => exact ⟨t, record, hlookup, hid⟩
  | job _ => exact ⟨t, record, hlookup, hid⟩
  | state _ => exact ⟨t, record, hlookup, hid⟩

theorem SanitizedRecords.cons {w : SchedulerWrite} (h : SanitizedRecords (w :: ws)) :
    SanitizedRecords [w] ∧ SanitizedRecords ws := by
  constructor
  · intro r hr
    obtain rfl := List.mem_singleton.mp hr
    exact h r List.mem_cons_self
  · exact fun r hr => h r (List.mem_cons_of_mem _ hr)

theorem SanitizedRecords.state (st : SchedulerState) : SanitizedRecords [.state st] := by
  intro r hr
  cases List.mem_singleton.mp hr

/-- What is in the history stays there. -/
theorem Recorded.applyAll (hs : Sanitized executionId) (h : Recorded files jobId executionId)
    (hws : SanitizedRecords ws) : Recorded (files.applyAll ws) jobId executionId := by
  induction ws generalizing files with
  | nil => exact h
  | cons w ws ih =>
    obtain ⟨hw, hws⟩ := hws.cons
    exact ih (h.apply hs hw) hws

theorem recorded_of_mem {record : RunRecord} (h : .record record ∈ ws) (hws : SanitizedRecords ws) :
    Recorded (files.applyAll ws) record.jobId record.executionId := by
  induction ws generalizing files with
  | nil => cases h
  | cons w ws ih =>
    have hs := hws record h
    obtain ⟨_, htail⟩ := hws.cons
    rcases List.mem_cons.mp h with rfl | h
    · have hlookup : (files.apply (.record record)).runs.lookup record.path = some record := by
        rw [SchedulerFiles.lookup_apply_record, if_pos rfl]
      rw [SchedulerFiles.applyAll_cons]
      exact Recorded.applyAll hs ⟨record.triggeredAt, record, hlookup, rfl⟩ htail
    · exact ih h htail

theorem sanitized_skipExecutionId (nanos : ℕ) : Sanitized (skipExecutionId nanos) := by
  apply sanitized_ofList
  intro c hc
  rcases List.mem_append.mp hc with hc | hc
  · exact sanitizeChar_tags.2.2 c hc
  · exact sanitizeChar_of_mem_decimal hc

theorem handleJob_sanitized {env : SchedulerEnv} {now : Int} {nanos : ℕ} {state : SchedulerState}
    {job : ScheduledJob} : SanitizedRecords (handleJob env now nanos files state job).writes := by
  intro record h
  rcases (handleJob_record h).2 with hid | ⟨n, hid⟩
  · rw [hid]
    exact sanitized_skipExecutionId nanos
  · rw [hid]
    exact sanitized_executionIdFor job.jobId n

theorem handleJobs_sanitized {env : SchedulerEnv} {now : Int} {clock : String → ℕ}
    {state : SchedulerState} {jobs : List ScheduledJob} {dispatched : List DispatchedRun} :
    SanitizedRecords (handleJobs env now clock jobs files state dispatched).writes := by
  intro record h
  obtain ⟨job, _, files', state', hw⟩ := handleJobs_writes h
  exact handleJob_sanitized record hw

end History

/-! ## Recent runs -/

/-- Completions name executions by ids that survive `sanitize_id`, as the ids that the
scheduler makes up do. -/
def SanitizedCompletion (_ : SchedulerSystem) : SchedulerOp → Prop
  | .complete _ executionId _ _ => Sanitized executionId
  | .create .. | .edit .. | .tick .. => True

/-- Every recent run is an execution of some job and is in that job's history. -/
def RecentRecorded (files : SchedulerFiles) (state : SchedulerState) : Prop :=
  ∀ ⦃id⦄, id ∈ state.recentExecutionIds →
    ∃ k n, CreatedId k ∧ id = executionIdFor k n ∧ Recorded files k id

section Recent

variable {env : SchedulerEnv} {files : SchedulerFiles} {state state' : SchedulerState}
  {ws : List SchedulerWrite}

theorem RecentRecorded.recentInHistory (h : RecentRecorded files state) :
    RecentInHistory files state := by
  intro k n hk hmem
  obtain ⟨k', n', hk', hid, hrecorded⟩ := h hmem
  obtain ⟨rfl, rfl⟩ := executionIdFor_injective hk hk' hid
  exact hrecorded.executionExists

theorem RecentRecorded.applyAll (h : RecentRecorded files state) (hws : SanitizedRecords ws) :
    RecentRecorded (files.applyAll ws) state := by
  intro id hid
  obtain ⟨k, n, hk, rfl, hrecorded⟩ := h hid
  exact ⟨k, n, hk, rfl, hrecorded.applyAll (sanitized_executionIdFor k n) hws⟩

variable {clock : String → ℕ} {now : Int}

theorem RecentRecorded.handleJob {nanos : ℕ} {job : ScheduledJob} {made : Option DispatchedRun}
    (h : RecentRecorded files state) (hk : CreatedId job.jobId)
    (hok : (Automation.handleJob env now nanos files state job).result = .ok (state', made)) :
    RecentRecorded
      (files.applyAll (Automation.handleJob env now nanos files state job).writes) state' := by
  have hrecords := @handleJob_sanitized files env now nanos state job
  have hkept := h.applyAll hrecords
  rcases handleJob_cases env now nanos files state job with
    ⟨_, he⟩ | ⟨_, ⟨_, _, he⟩ | ⟨_, _, he⟩⟩ | ⟨_, _, he⟩ | ⟨n, _, ⟨_, _, he⟩ | ⟨_, _, he⟩⟩
  all_goals rw [he] at hok hkept hrecords ⊢
  all_goals cases hok
  all_goals try exact hkept
  -- the run that was just dispatched is recorded by the last write
  intro id hid
  rcases mem_pushRecent hid with hid | rfl
  · exact hkept hid
  · refine ⟨job.jobId, n, hk, rfl, ?_⟩
    exact recorded_of_mem (List.mem_cons_of_mem _ (List.mem_cons_of_mem _ List.mem_cons_self))
      hrecords

theorem RecentRecorded.handleJobs {now : Int} {clock : String → ℕ} {jobs : List ScheduledJob}
    {dispatched dispatched' : List DispatchedRun} (h : RecentRecorded files state)
    (hcreated : ∀ job ∈ jobs, CreatedId job.jobId)
    (hok : (Automation.handleJobs env now clock jobs files state dispatched).result =
      .ok (state', dispatched')) :
    RecentRecorded (Automation.handleJobs env now clock jobs files state dispatched).files
      state' := by
  have hloop := handleJobs_invariant env now clock
    (I := fun files state _ => RecentRecorded files state) (E := fun _ _ => True) jobs files state
    dispatched
    (fun job hjob _ _ _ _ _ hI hok => hI.handleJob (hcreated job hjob) hok)
    (fun _ _ _ _ _ _ _ _ => trivial) [] h
  rw [hok] at hloop
  exact hloop

theorem state_applyAll (hws : ∀ st, .state st ∉ ws) : (files.applyAll ws).state = files.state := by
  induction ws generalizing files with
  | nil => rfl
  | cons w ws ih =>
    rw [SchedulerFiles.applyAll_cons, ih fun st h => hws st (List.mem_cons_of_mem _ h)]
    cases w with
    | state st => exact absurd List.mem_cons_self (hws st)
    | trigger _ => rfl
    | job _ => rfl
    | record _ => rfl

/-- The turns of a tick leave the state file alone. -/
theorem handleJobs_state {jobs : List ScheduledJob} {dispatched : List DispatchedRun} :
    (Automation.handleJobs env now clock jobs files state dispatched).files.state = files.state := by
  rw [handleJobs_files]
  apply state_applyAll
  intro st h
  obtain ⟨job, _, _, _, hw⟩ := handleJobs_writes h
  cases handleJob_writes hw

theorem SanitizedCompletion.records {s : SchedulerSystem} {op : SchedulerOp}
    (h : SanitizedCompletion s op) : SanitizedRecords (op.outcome env files).2 := by
  intro record hwrite
  cases op with
  | create input now nanos =>
    simp only [SchedulerOp.outcome, createJob] at hwrite
    split at hwrite
    · cases hwrite
    · cases List.mem_singleton.mp hwrite
  | edit change jobId now =>
    simp only [SchedulerOp.outcome, editJob] at hwrite
    split at hwrite
    · cases hwrite
    · split at hwrite
      · cases hwrite
      · cases List.mem_singleton.mp hwrite
  | tick now clock =>
    rcases mem_tick_writes hwrite with ⟨job, _, _, _, hw⟩ | ⟨st, hst⟩
    · exact handleJob_sanitized record hw
    · cases hst
  | complete jobId executionId succeeded now =>
    simp only [SchedulerOp.outcome, completeExecution, Outcome.ofWrites] at hwrite
    unfold completionWrites at hwrite
    split at hwrite
    · simp at hwrite
    · simp only [List.mem_cons, reduceCtorEq, SchedulerWrite.record.injEq, List.not_mem_nil,
        or_false, false_or] at hwrite
      rw [hwrite]
      exact h

theorem state_outcome (env : SchedulerEnv) (files : SchedulerFiles) (op : SchedulerOp) :
    (op.outcome env files).1.state = files.state ∨
      (∃ jobId executionId succeeded now, op = .complete jobId executionId succeeded now ∧
        (op.outcome env files).1.state = files.state.retire jobId executionId) ∨
      ∃ now clock, op = .tick now clock := by
  cases op with
  | create input now nanos =>
    refine .inl ?_
    simp only [SchedulerOp.outcome, createJob]
    split <;> rfl
  | edit change jobId now =>
    refine .inl ?_
    simp only [SchedulerOp.outcome, editJob]
    split
    · rfl
    · split <;> rfl
  | tick now clock => exact .inr (.inr ⟨now, clock, rfl⟩)
  | complete jobId executionId succeeded now =>
    refine .inr (.inl ⟨jobId, executionId, succeeded, now, rfl, ?_⟩)
    simp only [SchedulerOp.outcome, completeExecution, Outcome.ofWrites]
    unfold completionWrites
    split <;> rfl

theorem RecentRecorded.tick (hinv : StoreInv env files) (h : RecentRecorded files files.state) :
    RecentRecorded (Automation.tick env now clock files).files
      (Automation.tick env now clock files).files.state := by
  unfold Automation.tick
  simp only
  cases hloop : (Automation.handleJobs env now clock files.listAll files
      (recoverStaleActiveExecutions now files.state) []).result with
  | error err =>
    simp only [handleJobs_state]
    rw [handleJobs_files]
    exact h.applyAll handleJobs_sanitized
  | ok done =>
    obtain ⟨state', dispatched'⟩ := done
    have hrecovered : RecentRecorded files (recoverStaleActiveExecutions now files.state) := h
    have hcreated : ∀ job ∈ files.listAll, CreatedId job.jobId :=
      fun job hjob => (hinv.accepted (hinv.named.lookup hjob)).created
    have hdone := hrecovered.handleJobs hcreated hloop
    exact fun _ hid => hdone hid

/-- The stores that calls with sanitized completions lead to. -/
structure HistoryInv (env : SchedulerEnv) (files : SchedulerFiles) : Prop where
  store : StoreInv env files
  recent : RecentRecorded files files.state

theorem HistoryInv.recentInHistory (h : HistoryInv env files) (now : Int) :
    RecentInHistory files (recoverStaleActiveExecutions now files.state) :=
  h.recent.recentInHistory

theorem HistoryInv.step {s : SchedulerSystem} {op : SchedulerOp} (h : HistoryInv env s.files)
    (hop : SanitizedCompletion s op) : HistoryInv env (schedulerStep env s op).files := by
  refine ⟨h.store.outcome op, ?_⟩
  rw [schedulerStep_files]
  have hkept : RecentRecorded (op.outcome env s.files).1 s.files.state := by
    rw [op.outcome_files]
    exact h.recent.applyAll hop.records
  rcases state_outcome env s.files op with hstate | ⟨jobId, executionId, _, _, _, hstate⟩ |
    ⟨now, clock, rfl⟩
  · rw [hstate]
    exact hkept
  · rw [hstate]
    exact fun _ hid => hkept hid
  · exact h.recent.tick h.store

theorem HistoryInv.empty : HistoryInv env {} :=
  ⟨StoreInv.empty, fun _ hid => by cases hid⟩

theorem historyInv_reached {ops : List SchedulerOp}
    (h : Lib.Meets (schedulerStep env) SanitizedCompletion {} ops) :
    HistoryInv env (reached env ops).files :=
  Lib.run_invariant (I := fun s : SchedulerSystem => HistoryInv env s.files)
    (fun _ _ hI hop => hI.step hop) HistoryInv.empty h

end Recent

end Direclaw.Automation
