import Direclaw.Automation.StoreInvariant
import Direclaw.Lib.Serial

/-!
# Calls as programs on the files

The calls of the scheduler as programs that read or write one file at a time. Alone, a
program does what the call does.

A trigger goes to the queue, and no call here reads the queue.
-/

namespace Direclaw.Automation

open Direclaw.Lib Direclaw.Orchestration Direclaw.Queue

/-! ## The files as a store -/

/-- What one access reads or writes: a file, or the names in a directory. -/
inductive SchedulerKey : Type where
  | state
  | jobIds
  | job (jobId : String)
  | runNames (jobId : String)
  | run (path : String × List Char)
deriving DecidableEq, Repr

abbrev SchedulerKey.Value : SchedulerKey → Type
  | .state => SchedulerState
  | .jobIds => Finset String
  | .job _ => Option ScheduledJob
  | .runNames _ => Finset (List Char)
  | .run _ => Option RunRecord

abbrev SchedulerProgram := Program SchedulerKey.Value

namespace SchedulerFiles

/-- The files of the directory `automation/runs/<job id>`. -/
def runNames (files : SchedulerFiles) (jobId : String) : Finset (List Char) :=
  ((files.runs.keys.filter fun path => path.1 == jobId).map (·.2)).toFinset

def contents (files : SchedulerFiles) : ∀ key : SchedulerKey, key.Value
  | .state => files.state
  | .jobIds => files.jobs.keys.toFinset
  | .job jobId => files.jobs.lookup jobId
  | .runNames jobId => files.runNames jobId
  | .run path => files.runs.lookup path

theorem mem_runNames {files : SchedulerFiles} {jobId : String} {name : List Char} :
    name ∈ files.runNames jobId ↔ (jobId, name) ∈ files.runs := by
  rw [runNames, List.mem_toFinset, List.mem_map, AList.mem_keys]
  constructor
  · rintro ⟨⟨job, name'⟩, hmem, rfl⟩
    obtain ⟨hkeys, hjob⟩ := List.mem_filter.mp hmem
    rwa [← beq_iff_eq.mp hjob]
  · intro hmem
    exact ⟨_, List.mem_filter.mpr ⟨hmem, beq_self_eq_true jobId⟩, rfl⟩

end SchedulerFiles

/-- The order in which `read_dir` gives the names of a directory. -/
structure DirectoryOrder (α : Type) where
  list : Finset α → List α
  nodup : ∀ names, (list names).Nodup
  mem_list : ∀ names name, name ∈ list names ↔ name ∈ names

structure Listings where
  jobs : DirectoryOrder String
  runs : DirectoryOrder (List Char)

/-! ## Calls as programs -/

/-- The writes of a call, then `rest`. A record is a new file in its directory. -/
def perform : List SchedulerWrite → SchedulerProgram → SchedulerProgram
  | [], rest => rest
  | .trigger _ :: writes, rest => perform writes rest
  | .job job :: writes, rest => .write (.job job.jobId) (fun _ => some job) (perform writes rest)
  | .record record :: writes, rest =>
    .write (.runNames record.jobId)
      (fun (names : Finset (List Char)) => insert record.path.2 names)
      (.write (.run record.path) (fun _ => some record) (perform writes rest))
  | .state state :: writes, rest => .write .state (fun _ => state) (perform writes rest)

/-- The loop of `list_all`. -/
def loadJobs : List String → (List ScheduledJob → SchedulerProgram) → SchedulerProgram
  | [], next => next []
  | jobId :: ids, next =>
    .read (.job jobId) fun (job : Option ScheduledJob) =>
      match job with
      | none => .done
      | some job => loadJobs ids fun jobs => next (job :: jobs)

/-- The loop of `execution_exists`. -/
def findExecution (jobId executionId : String) : List (List Char) → (Bool → SchedulerProgram) →
    SchedulerProgram
  | [], next => next false
  | name :: names, next =>
    .read (.run (jobId, name)) fun (record : Option RunRecord) =>
      match record with
      | none => .done
      | some record =>
        if record.executionId = executionId then next true
        else findExecution jobId executionId names next

section Programs

variable (env : SchedulerEnv)

section Tick

variable (now : Int) (clock : String → ℕ) (listings : Listings)

/-- The turn of a job, which reads the run history when nothing before that decides. -/
def turnProgram (state : SchedulerState) (job : ScheduledJob) (next : Handling → SchedulerProgram) :
    SchedulerProgram :=
  match turnOf now {} state job with
  | .due nextRunAt =>
    let executionId := executionIdFor job.jobId nextRunAt
    .read (.runNames job.jobId) fun (names : Finset (List Char)) =>
      findExecution job.jobId executionId (listings.runs.list names) fun found =>
        next (if found then
          { writes := [.record (duplicateRecord now job nextRunAt)], result := .ok (state, none) }
        else dispatchJob env now state job nextRunAt executionId)
  | .waiting | .missed | .heldBack | .duplicate _ =>
    next (handleJob env now (clock job.jobId) {} state job)

/-- The loop of `tick`, and the save at its end. -/
def tickLoop : List ScheduledJob → SchedulerState → SchedulerProgram
  | [], state => perform [.state { state with lastTickAt := some now }] .done
  | job :: jobs, state =>
    turnProgram env now clock listings state job fun handling =>
      perform handling.writes
        (match handling.result with
          | .error _ => .done
          | .ok (state, _) => tickLoop jobs state)

def tickProgram : SchedulerProgram :=
  .read .state fun (state : SchedulerState) =>
    .read .jobIds fun (ids : Finset String) =>
      loadJobs (listings.jobs.list ids) fun jobs =>
        tickLoop env now clock listings (jobs.insertionSort fun a b => a.jobId ≤ b.jobId)
          (recoverStaleActiveExecutions now state)

end Tick

def completeProgram (jobId executionId : String) (succeeded : Bool) (now : Int) :
    SchedulerProgram :=
  .read .state fun (state : SchedulerState) =>
    perform [.state (state.retire jobId executionId)]
      (.read (.job jobId) fun (job : Option ScheduledJob) =>
        match job with
        | none => .done
        | some job => perform (completionWrites executionId succeeded now (.ok job)) .done)

/-- `update`, `pause`, `resume`, `delete` and `run_now`. -/
def editProgram (change : JobEdit) (jobId : String) (now : Int) : SchedulerProgram :=
  .read (.job jobId) fun (job : Option ScheduledJob) =>
    match job with
    | none => .done
    | some job =>
      match change.apply env.zones jobId now job with
      | .error _ => .done
      | .ok job => perform [.job job] .done

/-- The calls that work on stored jobs: all but `create`. -/
inductive StoredCall : Type where
  | edit (change : JobEdit) (jobId : String) (now : Int)
  | tick (now : Int) (clock : String → ℕ) (listings : Listings)
  | complete (jobId executionId : String) (succeeded : Bool) (now : Int)

def StoredCall.op : StoredCall → SchedulerOp
  | .edit change jobId now => .edit change jobId now
  | .tick now clock _ => .tick now clock
  | .complete jobId executionId succeeded now => .complete jobId executionId succeeded now

def StoredCall.program : StoredCall → SchedulerProgram
  | .edit change jobId now => editProgram env change jobId now
  | .tick now clock listings => tickProgram env now clock listings
  | .complete jobId executionId succeeded now => completeProgram jobId executionId succeeded now

/-- What calls leave one after the other. -/
def afterCalls (files : SchedulerFiles) (calls : List StoredCall) : SchedulerFiles :=
  calls.foldl (fun files call => (call.op.outcome env files).1) files

end Programs

/-! ## A program alone does what the call does -/

section Alone

variable {env : SchedulerEnv} {files : SchedulerFiles} {now : Int} {clock : String → ℕ}
  {listings : Listings} {state : SchedulerState} {job : ScheduledJob}

def AboutStored (files : SchedulerFiles) (w : SchedulerWrite) : Prop :=
  ∀ jobId, w.jobId? = some jobId → jobId ∈ files.jobs

variable {jobId executionId : String}

theorem mem_jobs_apply {w : SchedulerWrite} (hstored : AboutStored files w) :
    jobId ∈ (files.apply w).jobs ↔ jobId ∈ files.jobs := by
  cases w with
  | job job =>
    show jobId ∈ files.jobs.insert job.jobId job ↔ _
    rw [AList.mem_insert, or_iff_right_iff_imp]
    rintro rfl
    exact hstored _ rfl
  | trigger _ => exact Iff.rfl
  | record _ => exact Iff.rfl
  | state _ => exact Iff.rfl

theorem mem_jobs_applyAll {ws : List SchedulerWrite} (hstored : ∀ w ∈ ws, AboutStored files w)
    {jobId : String} : jobId ∈ (files.applyAll ws).jobs ↔ jobId ∈ files.jobs := by
  induction ws generalizing files with
  | nil => exact Iff.rfl
  | cons w ws ih =>
    have hw := hstored w List.mem_cons_self
    rw [SchedulerFiles.applyAll_cons, ih, mem_jobs_apply hw]
    intro v hv jobId hid
    exact (mem_jobs_apply hw).mpr (hstored v (List.mem_cons_of_mem _ hv) jobId hid)

theorem contents_apply_job {job : ScheduledJob} (hstored : job.jobId ∈ files.jobs) :
    (files.apply (.job job)).contents =
      Function.update files.contents (.job job.jobId) (some job) := by
  funext key
  cases key with
  | job jobId =>
    show (files.apply (.job job)).jobs.lookup jobId = _
    rw [SchedulerFiles.lookup_apply_job]
    by_cases hid : jobId = job.jobId
    · subst hid
      rw [Function.update_self, if_pos rfl]
    · rw [Function.update_of_ne (by simpa using hid), if_neg hid]
      rfl
  | jobIds =>
    show (files.apply (.job job)).jobs.keys.toFinset = files.jobs.keys.toFinset
    ext jobId
    rw [List.mem_toFinset, List.mem_toFinset, ← AList.mem_keys, ← AList.mem_keys]
    exact mem_jobs_apply fun _ hid => by cases hid; exact hstored
  | state => rfl
  | runNames jobId => rfl
  | run path => rfl

theorem contents_apply_record (record : RunRecord) :
    (files.apply (.record record)).contents =
      Function.update
        (Function.update files.contents (.runNames record.jobId)
          (insert record.path.2 (files.runNames record.jobId)))
        (.run record.path) (some record) := by
  funext key
  cases key with
  | run path =>
    show (files.apply (.record record)).runs.lookup path = _
    rw [SchedulerFiles.lookup_apply_record]
    by_cases hpath : path = record.path
    · subst hpath
      rw [Function.update_self, if_pos rfl]
    · rw [Function.update_of_ne (by simpa using hpath), if_neg hpath]
      rfl
  | runNames jobId =>
    rw [Function.update_of_ne (by simp)]
    show (files.apply (.record record)).runNames jobId = _
    have hmem : ∀ name, name ∈ (files.apply (.record record)).runNames jobId ↔
        (jobId, name) = record.path ∨ name ∈ files.runNames jobId := by
      intro name
      rw [SchedulerFiles.mem_runNames, SchedulerFiles.mem_runNames]
      exact AList.mem_insert _
    by_cases hid : jobId = record.jobId
    · subst hid
      rw [Function.update_self]
      ext name
      rw [hmem, Finset.mem_insert]
      exact or_congr_left ⟨fun h => (Prod.mk.inj h).2, fun h => by rw [h]; rfl⟩
    · rw [Function.update_of_ne (by simpa using hid)]
      show _ = files.runNames jobId
      ext name
      rw [hmem]
      exact or_iff_right fun h => hid (Prod.mk.inj h).1
  | state => rfl
  | jobIds => rfl
  | job jobId => rfl

theorem contents_apply_state (state : SchedulerState) :
    (files.apply (.state state)).contents = Function.update files.contents .state state := by
  funext key
  cases key <;> rfl

theorem exec_perform {ws : List SchedulerWrite} (hstored : ∀ w ∈ ws, AboutStored files w)
    (rest : SchedulerProgram) :
    (perform ws rest).exec files.contents = rest.exec (files.applyAll ws).contents := by
  induction ws generalizing files with
  | nil => rfl
  | cons w ws ih =>
    have hw := hstored w List.mem_cons_self
    have hws : ∀ v ∈ ws, AboutStored (files.apply w) v := fun v hv jobId hid =>
      (mem_jobs_apply hw).mpr (hstored v (List.mem_cons_of_mem _ hv) jobId hid)
    rw [SchedulerFiles.applyAll_cons, ← ih hws]
    cases w with
    | trigger envelope => rfl
    | job job =>
      rw [contents_apply_job (hw _ rfl)]
      rfl
    | record record =>
      rw [contents_apply_record]
      rfl
    | state state =>
      rw [contents_apply_state]
      rfl

/-! ### What a tick reads -/

theorem lookup_of_mem (hstored : jobId ∈ files.jobs) :
    ∃ job, files.jobs.lookup jobId = some job :=
  Option.isSome_iff_exists.mp (AList.lookup_isSome.mpr hstored)

theorem exec_loadJobs {ids : List String} (hstored : ∀ jobId ∈ ids, jobId ∈ files.jobs)
    (next : List ScheduledJob → SchedulerProgram) :
    (loadJobs ids next).exec files.contents =
      (next (ids.filterMap fun jobId => files.jobs.lookup jobId)).exec files.contents := by
  induction ids generalizing next with
  | nil => rfl
  | cons jobId ids ih =>
    obtain ⟨job, hjob⟩ := lookup_of_mem (hstored jobId List.mem_cons_self)
    have hread : (loadJobs (jobId :: ids) next).exec files.contents =
        (match files.jobs.lookup jobId with
          | none => Program.done
          | some job => loadJobs ids fun jobs => next (job :: jobs)).exec files.contents := rfl
    rw [hread, List.filterMap_cons, hjob]
    exact ih (fun k hk => hstored k (List.mem_cons_of_mem _ hk)) fun jobs => next (job :: jobs)

theorem filterMap_lookup_keys (files : SchedulerFiles) :
    (files.jobs.keys.filterMap fun jobId => files.jobs.lookup jobId) =
      files.jobs.entries.map (·.2) := by
  show (files.jobs.entries.map Sigma.fst).filterMap _ = _
  rw [List.filterMap_map, ← List.filterMap_eq_map]
  exact List.filterMap_congr fun e hmem => AList.mem_lookup_iff.mpr hmem

theorem sort_loaded (hnamed : Named files) (order : DirectoryOrder String) :
    ((order.list files.jobs.keys.toFinset).filterMap fun jobId =>
      files.jobs.lookup jobId).insertionSort (fun a b => a.jobId ≤ b.jobId) = files.listAll := by
  have hids : (order.list files.jobs.keys.toFinset).Perm files.jobs.keys := by
    rw [List.perm_ext_iff_of_nodup (order.nodup _) files.jobs.keys_nodup]
    intro jobId
    rw [order.mem_list, List.mem_toFinset]
  have hjobs := hids.filterMap fun jobId => files.jobs.lookup jobId
  rw [filterMap_lookup_keys] at hjobs
  have hperm := (List.perm_insertionSort (fun a b : ScheduledJob => a.jobId ≤ b.jobId) _).trans
    (hjobs.trans (List.perm_insertionSort (fun a b : ScheduledJob => a.jobId ≤ b.jobId) _).symm)
  refine hperm.eq_of_pairwise ?_ (List.pairwise_insertionSort _ _) (List.pairwise_insertionSort _ _)
  intro a b ha hb hab hba
  have ha := hnamed.lookup (hperm.subset ha)
  rw [le_antisymm hab hba, hnamed.lookup hb] at ha
  exact (Option.some.inj ha).symm

theorem exec_findExecution {names : List (List Char)}
    (hnames : ∀ name ∈ names, (jobId, name) ∈ files.runs) (next : Bool → SchedulerProgram) :
    (findExecution jobId executionId names next).exec files.contents =
      (next (names.any fun name => (files.runs.lookup (jobId, name)).any
        fun record => record.executionId == executionId)).exec files.contents := by
  induction names with
  | nil => rfl
  | cons name names ih =>
    obtain ⟨record, hrecord⟩ := Option.isSome_iff_exists.mp
      (AList.lookup_isSome.mpr (hnames name List.mem_cons_self))
    have hread : (findExecution jobId executionId (name :: names) next).exec files.contents =
        (match files.runs.lookup (jobId, name) with
          | none => Program.done
          | some record =>
            if record.executionId = executionId then next true
            else findExecution jobId executionId names next).exec files.contents := rfl
    rw [hread, List.any_cons, hrecord]
    simp only [Option.any_some]
    by_cases hid : record.executionId = executionId
    · rw [if_pos hid, beq_iff_eq.mpr hid, Bool.true_or]
    · rw [if_neg hid, beq_false_of_ne hid, Bool.false_or]
      exact ih fun n hn => hnames n (List.mem_cons_of_mem _ hn)

theorem any_runNames (order : DirectoryOrder (List Char)) (jobId executionId : String) :
    ((order.list (files.runNames jobId)).any fun name => (files.runs.lookup (jobId, name)).any
      fun record => record.executionId == executionId) =
        files.executionExists jobId executionId := by
  rw [Bool.eq_iff_iff, List.any_eq_true, SchedulerFiles.executionExists_iff]
  constructor
  · rintro ⟨name, _, h⟩
    obtain ⟨record, hlookup, hid⟩ := (Option.any_eq_true _ _).mp h
    exact ⟨_, record, hlookup, rfl, beq_iff_eq.mp hid⟩
  · rintro ⟨⟨job, name⟩, record, hlookup, rfl, rfl⟩
    have hmem : (job, name) ∈ files.runs := AList.lookup_isSome.mp (by rw [hlookup]; rfl)
    refine ⟨name, (order.mem_list _ _).mpr (SchedulerFiles.mem_runNames.mpr hmem), ?_⟩
    rw [hlookup]
    exact beq_self_eq_true record.executionId

/-- The run history decides only for a job that nothing else holds back. -/
theorem turnOf_history (now : Int) (files : SchedulerFiles) (state : SchedulerState)
    (job : ScheduledJob) :
    turnOf now files state job =
      match turnOf now {} state job with
      | .due nextRunAt =>
        if files.executionExists job.jobId (executionIdFor job.jobId nextRunAt) then
          .duplicate nextRunAt
        else .due nextRunAt
      | turn => turn := by
  unfold turnOf
  by_cases henabled : job.state ≠ .enabled
  · rw [if_pos henabled, if_pos henabled]
  rw [if_neg henabled, if_neg henabled]
  cases job.nextRunAt with
  | none => rfl
  | some n =>
    simp only
    by_cases hlater : now < n
    · rw [if_pos hlater, if_pos hlater]
    rw [if_neg hlater, if_neg hlater]
    by_cases hmissed : n < now ∧ job.misfirePolicy = .skipMissed
    · rw [if_pos hmissed, if_pos hmissed]
    rw [if_neg hmissed, if_neg hmissed]
    by_cases hheld : (!job.allowOverlap && state.isActive job.jobId) = true
    · rw [if_pos hheld, if_pos hheld]
    rw [if_neg hheld, if_neg hheld]
    by_cases hrecent : executionIdFor job.jobId n ∈ state.recentExecutionIds
    · rw [if_pos (.inl hrecent), if_pos (.inl hrecent)]
    · -- the recent runs do not tell, so the history is read
      have hnone : ¬ (executionIdFor job.jobId n ∈ state.recentExecutionIds ∨
          ({} : SchedulerFiles).executionExists job.jobId (executionIdFor job.jobId n) = true) :=
        not_or.mpr ⟨hrecent, Bool.false_ne_true⟩
      rw [if_neg hnone]
      simp only [hrecent, false_or]

theorem handleJob_history (env : SchedulerEnv) (now : Int) (nanos : ℕ) (files : SchedulerFiles)
    (state : SchedulerState) (job : ScheduledJob) :
    handleJob env now nanos files state job =
      match turnOf now {} state job with
      | .due nextRunAt =>
        if files.executionExists job.jobId (executionIdFor job.jobId nextRunAt) then
          { writes := [.record (duplicateRecord now job nextRunAt)], result := .ok (state, none) }
        else dispatchJob env now state job nextRunAt (executionIdFor job.jobId nextRunAt)
      | .waiting | .missed | .heldBack | .duplicate _ => handleJob env now nanos {} state job := by
  rw [handleJob_eq, handleJob_eq env now nanos {}, turnOf_history]
  cases turnOf now {} state job with
  | due nextRunAt =>
    by_cases hexists :
        files.executionExists job.jobId (executionIdFor job.jobId nextRunAt) = true
    · simp only [if_pos hexists]
    · simp only [if_neg hexists]
  | waiting => rfl
  | missed => rfl
  | heldBack => rfl
  | duplicate _ => rfl

theorem exec_turnProgram (next : Handling → SchedulerProgram) :
    (turnProgram env now clock listings state job next).exec files.contents =
      (next (handleJob env now (clock job.jobId) files state job)).exec files.contents := by
  rw [handleJob_history]
  unfold turnProgram
  cases turnOf now {} state job with
  | due nextRunAt =>
    have hnames : ∀ name ∈ listings.runs.list (files.runNames job.jobId),
        (job.jobId, name) ∈ files.runs := fun name hname =>
      SchedulerFiles.mem_runNames.mp ((listings.runs.mem_list _ _).mp hname)
    simp only
    rw [← any_runNames listings.runs]
    exact exec_findExecution hnames _
  | waiting => rfl
  | missed => rfl
  | heldBack => rfl
  | duplicate _ => rfl

/-! ### Whole calls alone -/

theorem handleJob_aboutStored {nanos : ℕ} (hstored : job.jobId ∈ files.jobs) :
    ∀ w ∈ (handleJob env now nanos files state job).writes, AboutStored files w := by
  intro w hw jobId hid
  rw [handleJob_writes hw] at hid
  cases hid
  exact hstored

theorem completionWrites_aboutStored (hnamed : Named files) {succeeded : Bool}
    (hjob : files.jobs.lookup jobId = some job) :
    ∀ w ∈ completionWrites executionId succeeded now (.ok job), AboutStored files w := by
  intro w hw k hid
  have hstored : jobId ∈ files.jobs := AList.lookup_isSome.mp (by rw [hjob]; rfl)
  simp only [completionWrites, List.mem_cons, List.not_mem_nil, or_false] at hw
  rcases hw with rfl | rfl
  all_goals cases hid
  all_goals exact hnamed hjob ▸ hstored

theorem edited_aboutStored (hnamed : Named files) {change : JobEdit} {job' : ScheduledJob}
    (hjob : files.jobs.lookup jobId = some job)
    (happly : change.apply env.zones jobId now job = .ok job') : AboutStored files (.job job') := by
  intro k hid
  cases hid
  rw [(JobEdit.apply_keeps happly).1, hnamed hjob]
  exact AList.lookup_isSome.mp (by rw [hjob]; rfl)

theorem state_aboutStored (state : SchedulerState) : AboutStored files (.state state) := by
  intro jobId hid
  cases hid

theorem exec_tickLoop {jobs : List ScheduledJob} (dispatched : List DispatchedRun)
    (hstored : ∀ job ∈ jobs, job.jobId ∈ files.jobs) :
    (tickLoop env now clock listings jobs state).exec files.contents =
      (match (handleJobs env now clock jobs files state dispatched).result with
        | .error _ => (handleJobs env now clock jobs files state dispatched).files
        | .ok (state', _) =>
          (handleJobs env now clock jobs files state dispatched).files.apply
            (.state { state' with lastTickAt := some now })).contents := by
  induction jobs generalizing files state dispatched with
  | nil => exact exec_perform (List.forall_mem_singleton.mpr (state_aboutStored _)) _
  | cons job jobs ih =>
    have habout : ∀ w ∈ (handleJob env now (clock job.jobId) files state job).writes,
        AboutStored files w := handleJob_aboutStored (hstored job List.mem_cons_self)
    unfold tickLoop
    rw [exec_turnProgram, exec_perform habout]
    cases hresult : (handleJob env now (clock job.jobId) files state job).result with
    | error err =>
      rw [handleJobs_cons_error hresult]
      rfl
    | ok made =>
      obtain ⟨state', made⟩ := made
      rw [handleJobs_cons_ok hresult]
      refine ih (dispatched ++ made.toList) fun job' hjob' => ?_
      exact (mem_jobs_applyAll habout).mpr (hstored job' (List.mem_cons_of_mem _ hjob'))

theorem Named.mem_jobs (hnamed : Named files) (hjob : job ∈ files.listAll) :
    job.jobId ∈ files.jobs :=
  AList.lookup_isSome.mp (by rw [hnamed.lookup hjob]; rfl)

theorem exec_tickProgram (hnamed : Named files) :
    (tickProgram env now clock listings).exec files.contents =
      (tick env now clock files).files.contents := by
  have hids : ∀ jobId ∈ listings.jobs.list files.jobs.keys.toFinset, jobId ∈ files.jobs := by
    intro jobId hmem
    rwa [listings.jobs.mem_list, List.mem_toFinset, ← AList.mem_keys] at hmem
  have hread : (tickProgram env now clock listings).exec files.contents =
      (loadJobs (listings.jobs.list files.jobs.keys.toFinset) fun jobs =>
        tickLoop env now clock listings (jobs.insertionSort fun a b => a.jobId ≤ b.jobId)
          (recoverStaleActiveExecutions now files.state)).exec files.contents := rfl
  rw [hread, exec_loadJobs hids, sort_loaded hnamed,
    exec_tickLoop [] fun job hjob => hnamed.mem_jobs hjob]
  unfold tick
  simp only
  cases (handleJobs env now clock files.listAll files
      (recoverStaleActiveExecutions now files.state) []).result with
  | error err => rfl
  | ok done => rfl

theorem exec_completeProgram (hnamed : Named files) {succeeded : Bool} :
    (completeProgram jobId executionId succeeded now).exec files.contents =
      (completeExecution env jobId executionId succeeded now files).files.contents := by
  have hread : (completeProgram jobId executionId succeeded now).exec files.contents =
      (perform [.state (files.state.retire jobId executionId)]
        (.read (.job jobId) fun (job : Option ScheduledJob) =>
          match job with
          | none => .done
          | some job =>
            perform (completionWrites executionId succeeded now (.ok job)) .done)).exec
        files.contents := rfl
  rw [hread, exec_perform (List.forall_mem_singleton.mpr (state_aboutStored _))]
  simp only [completeExecution, Outcome.ofWrites, SchedulerFiles.load, SchedulerFiles.applyAll_cons]
  show (match files.jobs.lookup jobId with
    | none => Program.done
    | some job => perform (completionWrites executionId succeeded now (.ok job)) .done).exec _ = _
  cases hjob : files.jobs.lookup jobId with
  | none => rfl
  | some job =>
    have habout : ∀ w ∈ completionWrites executionId succeeded now (.ok job),
        AboutStored (files.apply (.state (files.state.retire jobId executionId))) w :=
      completionWrites_aboutStored hnamed hjob
    exact exec_perform habout _

theorem exec_editProgram (hnamed : Named files) {change : JobEdit} :
    (editProgram env change jobId now).exec files.contents =
      (editJob env change jobId now files).files.contents := by
  show (match files.jobs.lookup jobId with
    | none => Program.done
    | some job =>
      match change.apply env.zones jobId now job with
      | .error _ => .done
      | .ok job => perform [.job job] .done).exec _ = _
  simp only [editJob, SchedulerFiles.load]
  cases hjob : files.jobs.lookup jobId with
  | none => rfl
  | some job =>
    simp only
    cases happly : change.apply env.zones jobId now job with
    | error err => rfl
    | ok job' =>
      exact exec_perform
        (List.forall_mem_singleton.mpr (edited_aboutStored hnamed hjob happly)) _

theorem exec_program (hnamed : Named files) (call : StoredCall) :
    (call.program env).exec files.contents = (call.op.outcome env files).1.contents := by
  cases call with
  | edit change jobId now => exact exec_editProgram hnamed
  | tick now clock listings => exact exec_tickProgram hnamed
  | complete jobId executionId succeeded now => exact exec_completeProgram hnamed

theorem exec_programs (hnamed : Named files) (calls : List StoredCall) :
    (calls.map (·.program env)).foldl (fun τ program => program.exec τ) files.contents =
      (afterCalls env files calls).contents := by
  induction calls generalizing files with
  | nil => rfl
  | cons call calls ih =>
    have hnext : Named (call.op.outcome env files).1 := by
      rw [SchedulerOp.outcome_files]
      exact hnamed.applyAll
    rw [List.map_cons, List.foldl_cons, exec_program hnamed]
    exact ih hnext

end Alone

end Direclaw.Automation
