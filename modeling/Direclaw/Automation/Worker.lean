import Direclaw.Automation.Jobs
import Direclaw.Lib.Run
import Direclaw.Queue.Paths
import Mathlib.Data.List.Sort

/-!
# The scheduler worker

`tick` and `complete_execution` of `orchestration/scheduler.rs` over the files below
`automation/`: one per job, the scheduler state, and the run history of each job.
What a call does is a list of file writes, in order, and what it returns; a call
that fails has made the writes that come before the failure. A trigger goes to the
queue, which is not one of these files.

The audit log is written and never read, and is left out.
-/

namespace Direclaw.Automation

open Direclaw.Lib Direclaw.Orchestration Direclaw.Queue

/-! ## Files -/

inductive RunStatus : Type where
  | dispatched
  | skippedMissed
  | skippedDuplicate
  | completed
  | failed
deriving DecidableEq, Repr

structure ActiveExecution where
  jobId : String
  executionId : String
  startedAt : Int
deriving DecidableEq, Repr

structure RunRecord where
  jobId : String
  executionId : String
  triggeredAt : Int
  status : RunStatus
  createdAt : Int
deriving DecidableEq, Repr

structure SchedulerState where
  lastTickAt : Option Int := none
  recentExecutionIds : List String := []
  activeExecutions : List ActiveExecution := []
deriving DecidableEq, Repr

structure DispatchedRun where
  jobId : String
  executionId : String
  triggeredAt : Int
deriving DecidableEq, Repr

/-- A job file is named after the job; a file of the run history after its job, the
time and the execution. A missing state file reads as the default. -/
structure SchedulerFiles where
  jobs : AList fun _ : String => ScheduledJob := ∅
  state : SchedulerState := {}
  runs : AList fun _ : String × List Char => RunRecord := ∅

/-- One atomic file write. -/
inductive SchedulerWrite : Type where
  | trigger (envelope : ScheduledTriggerEnvelope)
  | job (job : ScheduledJob)
  | record (record : RunRecord)
  | state (state : SchedulerState)

def runFileName (triggeredAt : Int) (executionId : String) : List Char :=
  decimalInt triggeredAt ++ '-' :: (sanitizeId executionId).toList ++ jsonSuffix

def RunRecord.path (record : RunRecord) : String × List Char :=
  (record.jobId, runFileName record.triggeredAt record.executionId)

namespace SchedulerFiles

def apply (files : SchedulerFiles) : SchedulerWrite → SchedulerFiles
  | .trigger _ => files
  | .job job => { files with jobs := files.jobs.insert job.jobId job }
  | .record record => { files with runs := files.runs.insert record.path record }
  | .state state => { files with state := state }

def applyAll (files : SchedulerFiles) (writes : List SchedulerWrite) : SchedulerFiles :=
  writes.foldl apply files

def jobPath (runtimeRoot jobId : String) : String :=
  joinPath (joinPath runtimeRoot "automation/jobs") s!"{jobId}.json"

def load (files : SchedulerFiles) (runtimeRoot jobId : String) : Except String ScheduledJob :=
  match files.jobs.lookup jobId with
  | some job => .ok job
  | none =>
    .error (s!"failed to read {jobPath runtimeRoot jobId}: " ++
      "No such file or directory (os error 2)")

def listAll (files : SchedulerFiles) : List ScheduledJob :=
  (files.jobs.entries.map (·.2)).insertionSort fun a b => a.jobId ≤ b.jobId

def executionExists (files : SchedulerFiles) (jobId executionId : String) : Bool :=
  files.runs.entries.any fun e => e.1.1 == jobId && e.2.executionId == executionId

/-! ### Reading back -/

section
variable (files : SchedulerFiles)

theorem lookup_apply_job (job : ScheduledJob) (k : String) :
    (files.apply (.job job)).jobs.lookup k =
      if k = job.jobId then some job else files.jobs.lookup k := by
  simp only [apply]
  split
  · next h => rw [h, AList.lookup_insert]
  · next h => exact AList.lookup_insert_ne h

theorem lookup_apply_record (record : RunRecord) (k : String × List Char) :
    (files.apply (.record record)).runs.lookup k =
      if k = record.path then some record else files.runs.lookup k := by
  simp only [apply]
  split
  · next h => rw [h, AList.lookup_insert]
  · next h => exact AList.lookup_insert_ne h

@[simp] theorem apply_trigger (e : ScheduledTriggerEnvelope) : files.apply (.trigger e) = files := rfl

@[simp] theorem apply_job_state (j : ScheduledJob) : (files.apply (.job j)).state = files.state := rfl

@[simp] theorem apply_job_runs (j : ScheduledJob) : (files.apply (.job j)).runs = files.runs := rfl

@[simp] theorem apply_record_jobs (r : RunRecord) : (files.apply (.record r)).jobs = files.jobs := rfl

@[simp] theorem apply_record_state (r : RunRecord) :
    (files.apply (.record r)).state = files.state := rfl

@[simp] theorem apply_state_jobs (s : SchedulerState) : (files.apply (.state s)).jobs = files.jobs := rfl

@[simp] theorem apply_state_runs (s : SchedulerState) : (files.apply (.state s)).runs = files.runs := rfl

@[simp] theorem apply_state_state (s : SchedulerState) : (files.apply (.state s)).state = s := rfl

@[simp] theorem applyAll_nil : files.applyAll [] = files := rfl

@[simp] theorem applyAll_cons (w : SchedulerWrite) (ws : List SchedulerWrite) :
    files.applyAll (w :: ws) = (files.apply w).applyAll ws := rfl

theorem applyAll_append (ws vs : List SchedulerWrite) :
    files.applyAll (ws ++ vs) = (files.applyAll ws).applyAll vs := by
  simp [applyAll, List.foldl_append]

variable {files}

theorem mem_listAll {job : ScheduledJob} :
    job ∈ files.listAll ↔ ∃ k, files.jobs.lookup k = some job := by
  rw [listAll, List.mem_insertionSort, List.mem_map]
  constructor
  · rintro ⟨⟨k, j⟩, hmem, rfl⟩
    exact ⟨k, AList.mem_lookup_iff.mpr hmem⟩
  · rintro ⟨k, hk⟩
    exact ⟨⟨k, job⟩, AList.mem_lookup_iff.mp hk, rfl⟩

theorem executionExists_iff {jobId executionId : String} :
    files.executionExists jobId executionId = true ↔
      ∃ key record, files.runs.lookup key = some record ∧ key.1 = jobId ∧
        record.executionId = executionId := by
  rw [executionExists, List.any_eq_true]
  constructor
  · rintro ⟨⟨key, record⟩, hmem, h⟩
    simp only [Bool.and_eq_true, beq_iff_eq] at h
    exact ⟨key, record, AList.mem_lookup_iff.mpr hmem, h.1, h.2⟩
  · rintro ⟨key, record, hlookup, hjob, hid⟩
    refine ⟨⟨key, record⟩, AList.mem_lookup_iff.mp hlookup, ?_⟩
    simp [hjob, hid]

end

end SchedulerFiles

/-! ## One job of a tick -/

/-- What is asked from outside. -/
structure SchedulerEnv where
  runtimeRoot : String
  zones : TimeZones

/-- The writes of one job's turn, and the state it leaves in memory. -/
structure Handling where
  writes : List SchedulerWrite
  result : Except String (SchedulerState × Option DispatchedRun)

def skipExecutionId (nanos : ℕ) : String := String.ofList (skipTag ++ Text.decimal nanos)

section Tick

variable (env : SchedulerEnv) (now : Int)

/-- A missed run that is not made up for. -/
def skipMissed (nanos : ℕ) (state : SchedulerState) (job : ScheduledJob) : Handling :=
  match computeRecoveryNextRunAt env.zones job.schedule now with
  | .error err => { writes := [], result := .error err }
  | .ok nextRunAt =>
    let job := { job with
      nextRunAt := nextRunAt
      state := if nextRunAt.isNone then .disabled else job.state
      updatedAt := now
      lastResult := some "skipped_missed" }
    { writes := [.job job, .record
        { jobId := job.jobId, executionId := skipExecutionId nanos, triggeredAt := now
          status := .skippedMissed, createdAt := now }]
      result := .ok (state, none) }

/-- `recent_execution_ids` keeps the last 2048. -/
def pushRecent (recent : List String) (executionId : String) : List String :=
  let recent := recent ++ [executionId]
  if 2048 < recent.length then recent.drop (recent.length - 2048) else recent

def triggerEnvelope (job : ScheduledJob) (executionId : String) : ScheduledTriggerEnvelope where
  jobId := job.jobId
  executionId := executionId
  triggeredAt := Int64.ofInt now
  orchestratorId := job.orchestratorId
  targetAction := job.targetAction
  targetRef := job.targetRef

/-- The trigger is in the queue before the next run is computed. -/
def dispatchJob (state : SchedulerState) (job : ScheduledJob) (nextRunAt : Int)
    (executionId : String) : Handling :=
  let enqueued : SchedulerWrite := .trigger (triggerEnvelope now job executionId)
  let next :=
    if nextRunAt < now ∧ job.misfirePolicy = .fireOnceOnRecovery then
      computeRecoveryNextRunAt env.zones job.schedule now
    else computeNextRunAt env.zones job.schedule now (some nextRunAt)
  match next with
  | .error err => { writes := [enqueued], result := .error err }
  | .ok next =>
    let job := { job with
      lastRunAt := some now
      lastResult := some (if next.isNone then "completed" else "dispatched")
      nextRunAt := next
      state := if next.isNone then .disabled else job.state
      updatedAt := now }
    { writes := [enqueued, .job job, .record
        { jobId := job.jobId, executionId := executionId, triggeredAt := now
          status := .dispatched, createdAt := now }]
      result := .ok
        ({ state with
            recentExecutionIds := pushRecent state.recentExecutionIds executionId
            activeExecutions := state.activeExecutions ++
              [{ jobId := job.jobId, executionId := executionId, startedAt := now }] },
          some { jobId := job.jobId, executionId := executionId, triggeredAt := now }) }

def SchedulerState.isActive (state : SchedulerState) (jobId : String) : Bool :=
  state.activeExecutions.any (·.jobId == jobId)

def handleJob (nanos : ℕ) (files : SchedulerFiles) (state : SchedulerState) (job : ScheduledJob) :
    Handling :=
  let untouched : Handling := { writes := [], result := .ok (state, none) }
  if job.state ≠ .enabled then untouched
  else
    match job.nextRunAt with
    | none => untouched
    | some nextRunAt =>
      if now < nextRunAt then untouched
      else if nextRunAt < now ∧ job.misfirePolicy = .skipMissed then
        skipMissed env now nanos state job
      else if !job.allowOverlap && state.isActive job.jobId then untouched
      else
        let executionId := executionIdFor job.jobId nextRunAt
        if executionId ∈ state.recentExecutionIds ∨
            files.executionExists job.jobId executionId = true then
          { writes := [.record
              { jobId := job.jobId, executionId := executionId, triggeredAt := now
                status := .skippedDuplicate, createdAt := now }]
            result := .ok (state, none) }
        else dispatchJob env now state job nextRunAt executionId

/-! ### The five turns a job can take -/

/-- Which branch of the loop a job takes, with the run it is due for. -/
inductive Turn : Type where
  | waiting
  | missed
  | heldBack
  | duplicate (nextRunAt : Int)
  | due (nextRunAt : Int)
deriving DecidableEq, Repr

def turnOf (files : SchedulerFiles) (state : SchedulerState) (job : ScheduledJob) : Turn :=
  if job.state ≠ .enabled then .waiting
  else
    match job.nextRunAt with
    | none => .waiting
    | some nextRunAt =>
      if now < nextRunAt then .waiting
      else if nextRunAt < now ∧ job.misfirePolicy = .skipMissed then .missed
      else if !job.allowOverlap && state.isActive job.jobId then .heldBack
      else if executionIdFor job.jobId nextRunAt ∈ state.recentExecutionIds ∨
          files.executionExists job.jobId (executionIdFor job.jobId nextRunAt) = true then
        .duplicate nextRunAt
      else .due nextRunAt

/-- The record of a run that was dispatched before. -/
def duplicateRecord (job : ScheduledJob) (nextRunAt : Int) : RunRecord where
  jobId := job.jobId
  executionId := executionIdFor job.jobId nextRunAt
  triggeredAt := now
  status := .skippedDuplicate
  createdAt := now

theorem handleJob_eq (nanos : ℕ) (files : SchedulerFiles) (state : SchedulerState)
    (job : ScheduledJob) :
    handleJob env now nanos files state job =
      match turnOf now files state job with
      | .waiting | .heldBack => { writes := [], result := .ok (state, none) }
      | .missed => skipMissed env now nanos state job
      | .duplicate nextRunAt =>
        { writes := [.record (duplicateRecord now job nextRunAt)], result := .ok (state, none) }
      | .due nextRunAt =>
        dispatchJob env now state job nextRunAt (executionIdFor job.jobId nextRunAt) := by
  unfold handleJob turnOf
  split
  · rfl
  cases job.nextRunAt with
  | none => rfl
  | some nextRunAt =>
    simp only
    split
    · rfl
    split
    · rfl
    split
    · rfl
    split
    · rfl
    · rfl

/-! ## Whole calls -/

/-- What a call leaves, the writes it made, and what it returns. -/
structure Outcome (α : Type) where
  files : SchedulerFiles
  writes : List SchedulerWrite
  result : Except String α

/-- The loop of `tick`; `clock` gives the nanosecond reading made for a job. -/
def handleJobs (clock : String → ℕ) : List ScheduledJob → SchedulerFiles → SchedulerState →
    List DispatchedRun → Outcome (SchedulerState × List DispatchedRun)
  | [], files, state, dispatched => ⟨files, [], .ok (state, dispatched)⟩
  | job :: jobs, files, state, dispatched =>
    let handling := handleJob env now (clock job.jobId) files state job
    let files := files.applyAll handling.writes
    match handling.result with
    | .error err => ⟨files, handling.writes, .error err⟩
    | .ok (state, run) =>
      let rest := handleJobs clock jobs files state (dispatched ++ run.toList)
      { rest with writes := handling.writes ++ rest.writes }

def staleActiveExecutionMaxAgeSecs : Int := 86400

def recoverStaleActiveExecutions (state : SchedulerState) : SchedulerState :=
  { state with
    activeExecutions := state.activeExecutions.filter fun active =>
      decide (i64SaturatingSub now active.startedAt ≤ staleActiveExecutionMaxAgeSecs) }

def tick (clock : String → ℕ) (files : SchedulerFiles) : Outcome (List DispatchedRun) :=
  let loop := handleJobs env now clock files.listAll files
    (recoverStaleActiveExecutions now files.state) []
  match loop.result with
  | .error err => ⟨loop.files, loop.writes, .error err⟩
  | .ok (state, dispatched) =>
    let saved : SchedulerWrite := .state { state with lastTickAt := some now }
    ⟨loop.files.apply saved, loop.writes ++ [saved], .ok dispatched⟩

end Tick

section Calls

variable (env : SchedulerEnv)

/-- A call that makes these writes. -/
def Outcome.ofWrites {α : Type} (files : SchedulerFiles) (writes : List SchedulerWrite)
    (result : Except String α) : Outcome α :=
  ⟨files.applyAll writes, writes, result⟩

def SchedulerState.retire (state : SchedulerState) (jobId executionId : String) : SchedulerState :=
  { state with
    activeExecutions := state.activeExecutions.filter fun active =>
      !(active.jobId == jobId && active.executionId == executionId) }

/-- The job part of `complete_execution`: a job that is gone is not an error. -/
def completionWrites (executionId : String) (succeeded : Bool) (now : Int) :
    Except String ScheduledJob → List SchedulerWrite
  | .error _ => []
  | .ok job =>
    [.job { job with
        lastResult := some (if succeeded then "succeeded" else "failed"), updatedAt := now },
      .record
        { jobId := job.jobId, executionId := executionId, triggeredAt := now
          status := if succeeded then .completed else .failed, createdAt := now }]

def completeExecution (jobId executionId : String) (succeeded : Bool) (now : Int)
    (files : SchedulerFiles) : Outcome Unit :=
  .ofWrites files
    (.state (files.state.retire jobId executionId) ::
      completionWrites executionId succeeded now (files.load env.runtimeRoot jobId))
    (.ok ())

def createJob (input : NewJob) (now : Int) (nanos : ℕ) (files : SchedulerFiles) :
    Outcome ScheduledJob :=
  match newJob env.zones input now nanos with
  | .error err => .ofWrites files [] (.error err)
  | .ok job => .ofWrites files [.job job] (.ok job)

/-- `update`, `pause`, `resume`, `delete` and `run_now`. -/
def editJob (change : JobEdit) (jobId : String) (now : Int) (files : SchedulerFiles) :
    Outcome ScheduledJob :=
  match files.load env.runtimeRoot jobId with
  | .error err => .ofWrites files [] (.error err)
  | .ok job =>
    match change.apply env.zones jobId now job with
    | .error err => .ofWrites files [] (.error err)
    | .ok job => .ofWrites files [.job job] (.ok job)

inductive SchedulerOp : Type where
  | create (input : NewJob) (now : Int) (nanos : ℕ)
  | edit (change : JobEdit) (jobId : String) (now : Int)
  | tick (now : Int) (clock : String → ℕ)
  | complete (jobId executionId : String) (succeeded : Bool) (now : Int)

/-- The files and all writes so far, in order. -/
structure SchedulerSystem where
  files : SchedulerFiles := {}
  log : List SchedulerWrite := []

def SchedulerOp.outcome (files : SchedulerFiles) : SchedulerOp → SchedulerFiles × List SchedulerWrite
  | .create input now nanos =>
    let call := createJob env input now nanos files
    (call.files, call.writes)
  | .edit change jobId now =>
    let call := editJob env change jobId now files
    (call.files, call.writes)
  | .tick now clock =>
    let call := Automation.tick env now clock files
    (call.files, call.writes)
  | .complete jobId executionId succeeded now =>
    let call := completeExecution env jobId executionId succeeded now files
    (call.files, call.writes)

def schedulerStep (s : SchedulerSystem) (op : SchedulerOp) : SchedulerSystem :=
  let (files, writes) := op.outcome env s.files
  { files := files, log := s.log ++ writes }

end Calls

end Direclaw.Automation
