import Direclaw.Automation.Worker

/-!
# The loop of a tick

What one turn of the loop does, the loop as a sequence of turns, and the frame: a
turn writes the files of its own job only, so a job in the middle of the loop finds
its files, its active executions and its history as they were when the tick began.
-/

namespace Direclaw.Automation

open Direclaw.Lib Direclaw.Orchestration Direclaw.Queue

/-! ## Frame -/

/-- The job a write is about; only the state file is about none. -/
def SchedulerWrite.jobId? : SchedulerWrite → Option String
  | .trigger e => some e.jobId
  | .job j => some j.jobId
  | .record r => some r.jobId
  | .state _ => none

structure SameJob (k : String) (files files' : SchedulerFiles) : Prop where
  job : files'.jobs.lookup k = files.jobs.lookup k
  history : ∀ executionId, files'.executionExists k executionId = files.executionExists k executionId

theorem SameJob.refl (k : String) (files : SchedulerFiles) : SameJob k files files :=
  ⟨rfl, fun _ => rfl⟩

theorem SameJob.trans {k : String} {a b c : SchedulerFiles} (h : SameJob k a b)
    (h' : SameJob k b c) : SameJob k a c :=
  ⟨h'.job.trans h.job, fun e => (h'.history e).trans (h.history e)⟩

theorem sameJob_apply {k : String} (files : SchedulerFiles) {w : SchedulerWrite}
    (h : w.jobId? ≠ some k) : SameJob k files (files.apply w) := by
  cases w with
  | trigger envelope => exact SameJob.refl k files
  | job job =>
    refine ⟨?_, fun _ => rfl⟩
    rw [SchedulerFiles.lookup_apply_job, if_neg]
    rintro rfl
    exact h rfl
  | record record =>
    refine ⟨rfl, fun executionId => ?_⟩
    have hpath : ∀ key : String × List Char, key.1 = k → key ≠ record.path := by
      rintro key rfl rfl
      exact h rfl
    rw [Bool.eq_iff_iff, SchedulerFiles.executionExists_iff, SchedulerFiles.executionExists_iff]
    constructor
    · rintro ⟨key, r, hlookup, hk, hid⟩
      rw [SchedulerFiles.lookup_apply_record, if_neg (hpath key hk)] at hlookup
      exact ⟨key, r, hlookup, hk, hid⟩
    · rintro ⟨key, r, hlookup, hk, hid⟩
      refine ⟨key, r, ?_, hk, hid⟩
      rw [SchedulerFiles.lookup_apply_record, if_neg (hpath key hk), hlookup]
  | state state => exact ⟨rfl, fun _ => rfl⟩

theorem sameJob_applyAll {k : String} {ws : List SchedulerWrite}
    (h : ∀ w ∈ ws, w.jobId? ≠ some k) (files : SchedulerFiles) :
    SameJob k files (files.applyAll ws) := by
  induction ws generalizing files with
  | nil => exact SameJob.refl k files
  | cons w ws ih =>
    refine (sameJob_apply files (h w List.mem_cons_self)).trans ?_
    exact ih (fun v hv => h v (List.mem_cons_of_mem _ hv)) (files.apply w)

/-! ## What one turn does -/

section Turns

variable {env : SchedulerEnv} {now : Int} {nanos : ℕ} {files : SchedulerFiles}
  {state : SchedulerState} {job : ScheduledJob}

/-- The time after the run that a job is due for. -/
def nextAfterRun (env : SchedulerEnv) (now : Int) (job : ScheduledJob) (nextRunAt : Int) :
    Except String (Option Int) :=
  if nextRunAt < now ∧ job.misfirePolicy = .fireOnceOnRecovery then
    computeRecoveryNextRunAt env.zones job.schedule now
  else computeNextRunAt env.zones job.schedule now (some nextRunAt)

def skippedJob (now : Int) (job : ScheduledJob) (next : Option Int) : ScheduledJob :=
  { job with
    nextRunAt := next
    state := if next.isNone then .disabled else job.state
    updatedAt := now
    lastResult := some "skipped_missed" }

/-- A job whose run was dispatched. -/
def dispatchedJob (now : Int) (job : ScheduledJob) (next : Option Int) : ScheduledJob :=
  { job with
    lastRunAt := some now
    lastResult := some (if next.isNone then "completed" else "dispatched")
    nextRunAt := next
    state := if next.isNone then .disabled else job.state
    updatedAt := now }

def dispatchRecord (now : Int) (job : ScheduledJob) (executionId : String) : RunRecord where
  jobId := job.jobId
  executionId := executionId
  triggeredAt := now
  status := .dispatched
  createdAt := now

def skipRecord (now : Int) (nanos : ℕ) (job : ScheduledJob) : RunRecord where
  jobId := job.jobId
  executionId := skipExecutionId nanos
  triggeredAt := now
  status := .skippedMissed
  createdAt := now

def SchedulerState.dispatch (state : SchedulerState) (now : Int) (jobId executionId : String) :
    SchedulerState :=
  { state with
    recentExecutionIds := pushRecent state.recentExecutionIds executionId
    activeExecutions := state.activeExecutions ++
      [{ jobId := jobId, executionId := executionId, startedAt := now }] }

theorem skipMissed_eq (nanos : ℕ) (state : SchedulerState) (job : ScheduledJob) :
    skipMissed env now nanos state job =
      match computeRecoveryNextRunAt env.zones job.schedule now with
      | .error err => { writes := [], result := .error err }
      | .ok next =>
        { writes := [.job (skippedJob now job next), .record (skipRecord now nanos job)]
          result := .ok (state, none) } := by
  unfold skipMissed
  cases computeRecoveryNextRunAt env.zones job.schedule now <;> rfl

theorem dispatchJob_eq (state : SchedulerState) (job : ScheduledJob) (nextRunAt : Int)
    (executionId : String) :
    dispatchJob env now state job nextRunAt executionId =
      match nextAfterRun env now job nextRunAt with
      | .error err =>
        { writes := [.trigger (triggerEnvelope now job executionId)], result := .error err }
      | .ok next =>
        { writes := [.trigger (triggerEnvelope now job executionId),
            .job (dispatchedJob now job next), .record (dispatchRecord now job executionId)]
          result := .ok (state.dispatch now job.jobId executionId,
            some { jobId := job.jobId, executionId := executionId, triggeredAt := now }) } := by
  change (match nextAfterRun env now job nextRunAt with | .error err => _ | .ok next => _) = _
  cases nextAfterRun env now job nextRunAt <;> rfl

/-- The seven ways a turn can end. -/
theorem handleJob_cases (env : SchedulerEnv) (now : Int) (nanos : ℕ) (files : SchedulerFiles)
    (state : SchedulerState) (job : ScheduledJob) :
    ((turnOf now files state job = .waiting ∨ turnOf now files state job = .heldBack) ∧
      handleJob env now nanos files state job = { writes := [], result := .ok (state, none) }) ∨
    (turnOf now files state job = .missed ∧
      ((∃ err, computeRecoveryNextRunAt env.zones job.schedule now = .error err ∧
        handleJob env now nanos files state job = { writes := [], result := .error err }) ∨
      ∃ next, computeRecoveryNextRunAt env.zones job.schedule now = .ok next ∧
        handleJob env now nanos files state job =
          { writes := [.job (skippedJob now job next), .record (skipRecord now nanos job)]
            result := .ok (state, none) })) ∨
    (∃ nextRunAt, turnOf now files state job = .duplicate nextRunAt ∧
      handleJob env now nanos files state job =
        { writes := [.record (duplicateRecord now job nextRunAt)], result := .ok (state, none) }) ∨
    (∃ nextRunAt, turnOf now files state job = .due nextRunAt ∧
      ((∃ err, nextAfterRun env now job nextRunAt = .error err ∧
        handleJob env now nanos files state job =
          { writes := [.trigger (triggerEnvelope now job (executionIdFor job.jobId nextRunAt))]
            result := .error err }) ∨
      ∃ next, nextAfterRun env now job nextRunAt = .ok next ∧
        handleJob env now nanos files state job =
          { writes := [.trigger (triggerEnvelope now job (executionIdFor job.jobId nextRunAt)),
              .job (dispatchedJob now job next),
              .record (dispatchRecord now job (executionIdFor job.jobId nextRunAt))]
            result := .ok (state.dispatch now job.jobId (executionIdFor job.jobId nextRunAt),
              some { jobId := job.jobId, executionId := executionIdFor job.jobId nextRunAt
                     triggeredAt := now }) })) := by
  rw [handleJob_eq]
  cases hturn : turnOf now files state job with
  | waiting => exact .inl ⟨.inl rfl, rfl⟩
  | heldBack => exact .inl ⟨.inr rfl, rfl⟩
  | missed =>
    refine .inr (.inl ⟨rfl, ?_⟩)
    simp only [skipMissed_eq]
    cases hnext : computeRecoveryNextRunAt env.zones job.schedule now with
    | error err => exact .inl ⟨err, rfl, rfl⟩
    | ok next => exact .inr ⟨next, rfl, rfl⟩
  | duplicate nextRunAt => exact .inr (.inr (.inl ⟨nextRunAt, rfl, rfl⟩))
  | due nextRunAt =>
    refine .inr (.inr (.inr ⟨nextRunAt, rfl, ?_⟩))
    simp only [dispatchJob_eq]
    cases hnext : nextAfterRun env now job nextRunAt with
    | error err => exact .inl ⟨err, rfl, rfl⟩
    | ok next => exact .inr ⟨next, rfl, rfl⟩

theorem handleJob_writes {w : SchedulerWrite}
    (h : w ∈ (handleJob env now nanos files state job).writes) : w.jobId? = some job.jobId := by
  rcases handleJob_cases env now nanos files state job with
    ⟨_, he⟩ | ⟨_, ⟨_, _, he⟩ | ⟨_, _, he⟩⟩ | ⟨_, _, he⟩ | ⟨_, _, ⟨_, _, he⟩ | ⟨_, _, he⟩⟩
  all_goals rw [he] at h
  · cases h
  · cases h
  · simp only [List.mem_cons, List.not_mem_nil, or_false] at h
    rcases h with rfl | rfl <;> rfl
  · obtain rfl := List.mem_singleton.mp h
    rfl
  · obtain rfl := List.mem_singleton.mp h
    rfl
  · simp only [List.mem_cons, List.not_mem_nil, or_false] at h
    rcases h with rfl | rfl | rfl <;> rfl

end Turns

/-! ## The loop -/

section Loop

variable {env : SchedulerEnv} {now : Int} {clock : String → ℕ} {files : SchedulerFiles}
  {state : SchedulerState} {job : ScheduledJob} {jobs : List ScheduledJob}
  {dispatched : List DispatchedRun}

theorem handleJobs_cons_error {err : String}
    (h : (handleJob env now (clock job.jobId) files state job).result = .error err) :
    handleJobs env now clock (job :: jobs) files state dispatched =
      let writes := (handleJob env now (clock job.jobId) files state job).writes
      ⟨files.applyAll writes, writes, .error err⟩ := by
  simp only [handleJobs, h]

theorem handleJobs_cons_ok {state' : SchedulerState} {made : Option DispatchedRun}
    (h : (handleJob env now (clock job.jobId) files state job).result = .ok (state', made)) :
    handleJobs env now clock (job :: jobs) files state dispatched =
      let writes := (handleJob env now (clock job.jobId) files state job).writes
      let rest := handleJobs env now clock jobs (files.applyAll writes) state'
        (dispatched ++ made.toList)
      { rest with writes := writes ++ rest.writes } := by
  simp only [handleJobs, h]

/-- **The loop rule.** What every turn keeps holds after the loop, unless a turn
fails; `E` is what is known then. -/
theorem handleJobs_invariant (env : SchedulerEnv) (now : Int) (clock : String → ℕ)
    {I : SchedulerFiles → SchedulerState → List SchedulerWrite → Prop}
    {E : SchedulerFiles → List SchedulerWrite → Prop} (jobs : List ScheduledJob)
    (files : SchedulerFiles) (state : SchedulerState) (dispatched : List DispatchedRun)
    (hok : ∀ job ∈ jobs, ∀ files state log state' made, I files state log →
      (handleJob env now (clock job.jobId) files state job).result = .ok (state', made) →
      I (files.applyAll (handleJob env now (clock job.jobId) files state job).writes) state'
        (log ++ (handleJob env now (clock job.jobId) files state job).writes))
    (herr : ∀ job ∈ jobs, ∀ files state log err, I files state log →
      (handleJob env now (clock job.jobId) files state job).result = .error err →
      E (files.applyAll (handleJob env now (clock job.jobId) files state job).writes)
        (log ++ (handleJob env now (clock job.jobId) files state job).writes))
    (log : List SchedulerWrite) (h : I files state log) :
    match (handleJobs env now clock jobs files state dispatched).result with
    | .ok (state', _) =>
      I (handleJobs env now clock jobs files state dispatched).files state'
        (log ++ (handleJobs env now clock jobs files state dispatched).writes)
    | .error _ =>
      E (handleJobs env now clock jobs files state dispatched).files
        (log ++ (handleJobs env now clock jobs files state dispatched).writes) := by
  induction jobs generalizing files state log dispatched with
  | nil => simpa [handleJobs] using h
  | cons job jobs ih =>
    cases hresult : (handleJob env now (clock job.jobId) files state job).result with
    | error err =>
      rw [handleJobs_cons_error hresult]
      exact herr job List.mem_cons_self files state log err h hresult
    | ok made =>
      obtain ⟨state', made⟩ := made
      rw [handleJobs_cons_ok hresult]
      have hnext := hok job List.mem_cons_self files state log state' made h hresult
      have hrest := ih _ _ (dispatched ++ made.toList)
        (fun j hj => hok j (List.mem_cons_of_mem _ hj))
        (fun j hj => herr j (List.mem_cons_of_mem _ hj)) _ hnext
      simpa only [List.append_assoc] using hrest

theorem handleJobs_files :
    (handleJobs env now clock jobs files state dispatched).files =
      files.applyAll (handleJobs env now clock jobs files state dispatched).writes := by
  induction jobs generalizing files state dispatched with
  | nil => rfl
  | cons job jobs ih =>
    cases hresult : (handleJob env now (clock job.jobId) files state job).result with
    | error err => rw [handleJobs_cons_error hresult]
    | ok made =>
      obtain ⟨state', made⟩ := made
      rw [handleJobs_cons_ok hresult]
      simp only [ih, SchedulerFiles.applyAll_append]

/-- A write of the loop is a write of somebody's turn. -/
theorem handleJobs_writes {w : SchedulerWrite}
    (h : w ∈ (handleJobs env now clock jobs files state dispatched).writes) :
    ∃ job ∈ jobs, ∃ files' state',
      w ∈ (handleJob env now (clock job.jobId) files' state' job).writes := by
  induction jobs generalizing files state dispatched with
  | nil => simp [handleJobs] at h
  | cons job jobs ih =>
    cases hresult : (handleJob env now (clock job.jobId) files state job).result with
    | error err =>
      rw [handleJobs_cons_error hresult] at h
      exact ⟨job, List.mem_cons_self, files, state, h⟩
    | ok made =>
      obtain ⟨state', made⟩ := made
      rw [handleJobs_cons_ok hresult] at h
      rcases List.mem_append.mp h with h | h
      · exact ⟨job, List.mem_cons_self, files, state, h⟩
      · obtain ⟨j, hj, hw⟩ := ih h
        exact ⟨j, List.mem_cons_of_mem _ hj, hw⟩

theorem handleJobs_append_error {jobs' : List ScheduledJob} {err : String}
    (h : (handleJobs env now clock jobs files state dispatched).result = .error err) :
    handleJobs env now clock (jobs ++ jobs') files state dispatched =
      handleJobs env now clock jobs files state dispatched := by
  induction jobs generalizing files state dispatched with
  | nil => cases h
  | cons job jobs ih =>
    rw [List.cons_append]
    cases hresult : (handleJob env now (clock job.jobId) files state job).result with
    | error err => rw [handleJobs_cons_error hresult, handleJobs_cons_error hresult]
    | ok made =>
      obtain ⟨state', made⟩ := made
      rw [handleJobs_cons_ok hresult] at h ⊢
      rw [handleJobs_cons_ok hresult]
      simp only [ih h]

theorem handleJobs_append_ok {jobs' : List ScheduledJob} {state' : SchedulerState}
    {dispatched' : List DispatchedRun}
    (h : (handleJobs env now clock jobs files state dispatched).result =
      .ok (state', dispatched')) :
    handleJobs env now clock (jobs ++ jobs') files state dispatched =
      let first := handleJobs env now clock jobs files state dispatched
      let rest := handleJobs env now clock jobs' first.files state' dispatched'
      { rest with writes := first.writes ++ rest.writes } := by
  induction jobs generalizing files state dispatched with
  | nil =>
    cases h
    rfl
  | cons job jobs ih =>
    rw [List.cons_append]
    cases hresult : (handleJob env now (clock job.jobId) files state job).result with
    | error err =>
      rw [handleJobs_cons_error hresult] at h
      cases h
    | ok made =>
      obtain ⟨state₁, made⟩ := made
      rw [handleJobs_cons_ok hresult] at h ⊢
      rw [handleJobs_cons_ok hresult]
      simp only [ih h, List.append_assoc]

end Loop

/-! ## One job among the others -/

def SchedulerState.activeOf (state : SchedulerState) (jobId : String) : List ActiveExecution :=
  state.activeExecutions.filter (·.jobId == jobId)

theorem SchedulerState.isActive_eq (state : SchedulerState) (jobId : String) :
    state.isActive jobId = !(state.activeOf jobId).isEmpty := by
  rw [SchedulerState.isActive, SchedulerState.activeOf, Bool.eq_iff_iff]
  simp [List.filter_eq_nil_iff]

/-- As seen from job `k` nothing has happened, except that its old runs may have been
dropped from the recent ones. -/
structure Elsewhere (k : String) (files files' : SchedulerFiles) (state state' : SchedulerState) :
    Prop where
  same : SameJob k files files'
  active : state'.activeOf k = state.activeOf k
  recent : ∀ t, executionIdFor k t ∈ state'.recentExecutionIds →
    executionIdFor k t ∈ state.recentExecutionIds

theorem Elsewhere.refl (k : String) (files : SchedulerFiles) (state : SchedulerState) :
    Elsewhere k files files state state :=
  ⟨SameJob.refl k files, rfl, fun _ h => h⟩

theorem Elsewhere.trans {k : String} {f₁ f₂ f₃ : SchedulerFiles} {s₁ s₂ s₃ : SchedulerState}
    (h : Elsewhere k f₁ f₂ s₁ s₂) (h' : Elsewhere k f₂ f₃ s₂ s₃) : Elsewhere k f₁ f₃ s₁ s₃ :=
  ⟨h.same.trans h'.same, h'.active.trans h.active, fun t ht => h.recent t (h'.recent t ht)⟩

/-- The run is in the history or among the recent ones. -/
def AlreadyDispatched (files : SchedulerFiles) (state : SchedulerState) (jobId : String)
    (nextRunAt : Int) : Prop :=
  executionIdFor jobId nextRunAt ∈ state.recentExecutionIds ∨
    files.executionExists jobId (executionIdFor jobId nextRunAt) = true

theorem Elsewhere.alreadyDispatched {k : String} {files files' : SchedulerFiles}
    {state state' : SchedulerState} (h : Elsewhere k files files' state state') {n : Int}
    (hd : AlreadyDispatched files' state' k n) : AlreadyDispatched files state k n := by
  rcases hd with hd | hd
  · exact .inl (h.recent n hd)
  · exact .inr (h.same.history _ ▸ hd)

/-- The guards of the loop, in order. -/
theorem turnOf_cases (now : Int) (files : SchedulerFiles) (state : SchedulerState)
    (job : ScheduledJob) :
    (turnOf now files state job = .waiting ∧
      (job.state = .enabled → ∀ n, job.nextRunAt = some n → now < n)) ∨
    ∃ n, job.state = .enabled ∧ job.nextRunAt = some n ∧ n ≤ now ∧
      ((turnOf now files state job = .missed ∧ n < now ∧ job.misfirePolicy = .skipMissed) ∨
        (¬ (n < now ∧ job.misfirePolicy = .skipMissed) ∧
          ((turnOf now files state job = .heldBack ∧
              job.allowOverlap = false ∧ state.isActive job.jobId = true) ∨
            ((job.allowOverlap = true ∨ state.isActive job.jobId = false) ∧
              ((turnOf now files state job = .duplicate n ∧
                  AlreadyDispatched files state job.jobId n) ∨
                (turnOf now files state job = .due n ∧
                  ¬ AlreadyDispatched files state job.jobId n)))))) := by
  unfold turnOf
  by_cases henabled : job.state = .enabled
  swap
  · exact .inl ⟨by rw [if_pos henabled], fun h => absurd h henabled⟩
  rw [if_neg (not_not.mpr henabled)]
  cases hnext : job.nextRunAt with
  | none => exact .inl ⟨rfl, fun _ n hn => by cases hn⟩
  | some n =>
    simp only
    by_cases hlater : now < n
    · rw [if_pos hlater]
      refine .inl ⟨rfl, fun _ m hm => ?_⟩
      cases hm
      exact hlater
    refine .inr ⟨n, henabled, rfl, not_lt.mp hlater, ?_⟩
    rw [if_neg hlater]
    by_cases hmissed : n < now ∧ job.misfirePolicy = .skipMissed
    · exact .inl ⟨by rw [if_pos hmissed], hmissed⟩
    refine .inr ⟨hmissed, ?_⟩
    rw [if_neg hmissed]
    by_cases hheld : (!job.allowOverlap && state.isActive job.jobId) = true
    · rw [if_pos hheld]
      simp only [Bool.and_eq_true, Bool.not_eq_true'] at hheld
      exact .inl ⟨rfl, hheld⟩
    rw [if_neg hheld]
    have hfree : job.allowOverlap = true ∨ state.isActive job.jobId = false := by
      cases hallow : job.allowOverlap <;> cases hactive : state.isActive job.jobId <;>
        simp [hallow, hactive] at hheld ⊢
    refine .inr ⟨hfree, ?_⟩
    by_cases hd : AlreadyDispatched files state job.jobId n
    · exact .inl ⟨if_pos hd, hd⟩
    · exact .inr ⟨if_neg hd, hd⟩

theorem turnOf_due {now n : Int} {files : SchedulerFiles} {state : SchedulerState}
    {job : ScheduledJob} (h : turnOf now files state job = .due n) :
    job.state = .enabled ∧ job.nextRunAt = some n ∧ n ≤ now ∧
      ¬ (n < now ∧ job.misfirePolicy = .skipMissed) ∧
      (job.allowOverlap = true ∨ state.isActive job.jobId = false) ∧
      ¬ AlreadyDispatched files state job.jobId n := by
  rcases turnOf_cases now files state job with ⟨ht, _⟩ | ⟨m, hstate, hnext, hle, ⟨ht, _⟩ |
    ⟨hmissed, ⟨ht, _⟩ | ⟨hfree, ⟨ht, _⟩ | ⟨ht, hnot⟩⟩⟩⟩
  all_goals rw [ht] at h
  all_goals cases h
  exact ⟨hstate, hnext, hle, hmissed, hfree, hnot⟩

/-- A turn depends on the job's own files and entries only. At worst its run has been
dropped from the recent ones in the meantime. -/
theorem turnOf_elsewhere (now : Int) {files files' : SchedulerFiles} {state state' : SchedulerState}
    {job : ScheduledJob} (h : Elsewhere job.jobId files files' state state') :
    turnOf now files' state' job = turnOf now files state job ∨
      ∃ n, turnOf now files state job = .duplicate n ∧ turnOf now files' state' job = .due n ∧
        AlreadyDispatched files state job.jobId n ∧
        ¬ AlreadyDispatched files' state' job.jobId n := by
  have hactive : state'.isActive job.jobId = state.isActive job.jobId := by
    rw [SchedulerState.isActive_eq, SchedulerState.isActive_eq, h.active]
  unfold turnOf
  split
  · exact .inl rfl
  cases job.nextRunAt with
  | none => exact .inl rfl
  | some n =>
    simp only [hactive]
    split
    · exact .inl rfl
    split
    · exact .inl rfl
    split
    · exact .inl rfl
    by_cases hd : AlreadyDispatched files state job.jobId n
    · by_cases hd' : AlreadyDispatched files' state' job.jobId n
      · exact .inl ((if_pos hd').trans (if_pos hd).symm)
      · exact .inr ⟨n, if_pos hd, if_neg hd', hd, hd'⟩
    · have hd' : ¬ AlreadyDispatched files' state' job.jobId n :=
        fun hd' => hd (h.alreadyDispatched hd')
      exact .inl ((if_neg hd').trans (if_neg hd).symm)

theorem mem_pushRecent {recent : List String} {executionId id : String}
    (h : id ∈ pushRecent recent executionId) : id ∈ recent ∨ id = executionId := by
  have hmem : id ∈ recent ++ [executionId] := by
    unfold pushRecent at h
    simp only at h
    split at h
    · exact List.mem_of_mem_drop h
    · exact h
  simpa using hmem

section Frame

variable {env : SchedulerEnv} {now : Int} {clock : String → ℕ} {files : SchedulerFiles}
  {state state' : SchedulerState} {job : ScheduledJob} {jobs : List ScheduledJob}
  {dispatched dispatched' : List DispatchedRun} {k : String}

theorem handleJob_elsewhere {nanos : ℕ} {made : Option DispatchedRun} (hk : CreatedId k)
    (hjob : CreatedId job.jobId) (hne : job.jobId ≠ k)
    (h : (handleJob env now nanos files state job).result = .ok (state', made)) :
    Elsewhere k files (files.applyAll (handleJob env now nanos files state job).writes) state
      state' := by
  have hsame : SameJob k files (files.applyAll (handleJob env now nanos files state job).writes) := by
    apply sameJob_applyAll
    intro w hw
    rw [handleJob_writes hw]
    exact fun heq => hne (Option.some.inj heq)
  rcases handleJob_cases env now nanos files state job with
    ⟨_, he⟩ | ⟨_, ⟨_, _, he⟩ | ⟨_, _, he⟩⟩ | ⟨_, _, he⟩ | ⟨n, _, ⟨_, _, he⟩ | ⟨_, _, he⟩⟩
  all_goals rw [he] at h hsame ⊢
  all_goals cases h
  all_goals refine ⟨hsame, ?_, ?_⟩
  all_goals try exact rfl
  all_goals try exact fun _ ht => ht
  · -- the new entry is another job's
    simp [SchedulerState.activeOf, SchedulerState.dispatch, List.filter_append, hne]
  · intro t ht
    rcases mem_pushRecent ht with ht | ht
    · exact ht
    · exact absurd (executionIdFor_injective hk hjob ht).1.symm hne

theorem handleJobs_elsewhere (hk : CreatedId k) (hcreated : ∀ job ∈ jobs, CreatedId job.jobId)
    (hne : ∀ job ∈ jobs, job.jobId ≠ k)
    (h : (handleJobs env now clock jobs files state dispatched).result = .ok (state', dispatched')) :
    Elsewhere k files (handleJobs env now clock jobs files state dispatched).files state state' := by
  have hstep : ∀ job ∈ jobs, ∀ files₁ state₁ (_ : List SchedulerWrite) state₂ made,
      Elsewhere k files files₁ state state₁ →
      (handleJob env now (clock job.jobId) files₁ state₁ job).result = .ok (state₂, made) →
      Elsewhere k files
        (files₁.applyAll (handleJob env now (clock job.jobId) files₁ state₁ job).writes) state state₂ :=
    fun job hjob _ _ _ _ _ hI hok =>
      hI.trans (handleJob_elsewhere hk (hcreated job hjob) (hne job hjob) hok)
  have hloop := handleJobs_invariant env now clock (E := fun _ _ => True) jobs files state
    dispatched hstep (fun _ _ _ _ _ _ _ _ => trivial) [] (Elsewhere.refl k files state)
  rw [h] at hloop
  exact hloop

/-- **A turn in place.** The loop treats a job as if the jobs before it had not been
there, up to what was dropped from the recent runs. -/
theorem handleJobs_at (hcreated : ∀ job ∈ jobs, CreatedId job.jobId)
    (hnodup : (jobs.map (·.jobId)).Nodup) (hjob : job ∈ jobs)
    (h : (handleJobs env now clock jobs files state dispatched).result = .ok (state', dispatched')) :
    ∃ files₁ state₁ state₂ made, Elsewhere job.jobId files files₁ state state₁ ∧
      (handleJob env now (clock job.jobId) files₁ state₁ job).result = .ok (state₂, made) ∧
      Elsewhere job.jobId
        (files₁.applyAll (handleJob env now (clock job.jobId) files₁ state₁ job).writes)
        (handleJobs env now clock jobs files state dispatched).files state₂ state' ∧
      ∀ w, w.jobId? = some job.jobId →
        (w ∈ (handleJobs env now clock jobs files state dispatched).writes ↔
          w ∈ (handleJob env now (clock job.jobId) files₁ state₁ job).writes) := by
  obtain ⟨pre, post, rfl⟩ := List.append_of_mem hjob
  have hne : ∀ j ∈ pre ++ post, j.jobId ≠ job.jobId := by
    intro j hj heq
    have hperm : ((job :: (pre ++ post)).map (·.jobId)).Nodup :=
      (List.Perm.nodup_iff (List.Perm.map _ List.perm_middle)).mp hnodup
    rw [List.map_cons, List.nodup_cons] at hperm
    exact hperm.1 (List.mem_map.mpr ⟨j, hj, heq⟩)
  have hwrites : ∀ {js : List ScheduledJob} {f s d} {w : SchedulerWrite},
      (∀ j ∈ js, j.jobId ≠ job.jobId) → w.jobId? = some job.jobId →
      w ∉ (handleJobs env now clock js f s d).writes := by
    intro js f s d w hjs hw hmem
    obtain ⟨j, hj, _, _, hturn⟩ := handleJobs_writes hmem
    rw [handleJob_writes hturn] at hw
    exact hjs j hj (Option.some.inj hw)
  have hpre : ∀ j ∈ pre, j.jobId ≠ job.jobId := fun j hj => hne j (List.mem_append_left _ hj)
  have hpost : ∀ j ∈ post, j.jobId ≠ job.jobId := fun j hj => hne j (List.mem_append_right _ hj)
  have hk := hcreated job hjob
  cases hfirst : (handleJobs env now clock pre files state dispatched).result with
  | error err =>
    rw [handleJobs_append_error hfirst, hfirst] at h
    cases h
  | ok first =>
    obtain ⟨state₁, dispatched₁⟩ := first
    have hbefore := handleJobs_elsewhere hk
      (fun j hj => hcreated j (List.mem_append_left _ hj)) hpre hfirst
    rw [handleJobs_append_ok hfirst] at h ⊢
    simp only at h ⊢
    cases hturn : (handleJob env now (clock job.jobId)
        (handleJobs env now clock pre files state dispatched).files state₁ job).result with
    | error err =>
      rw [handleJobs_cons_error hturn] at h
      cases h
    | ok turn =>
      obtain ⟨state₂, made⟩ := turn
      rw [handleJobs_cons_ok hturn] at h ⊢
      have hafter := handleJobs_elsewhere hk
        (fun j hj => hcreated j (List.mem_append_right _ (List.mem_cons_of_mem _ hj))) hpost h
      refine ⟨_, state₁, state₂, made, hbefore, hturn, hafter, ?_⟩
      intro w hw
      simp only [List.mem_append, hwrites hpre hw, hwrites hpost hw, false_or, or_false]

/-- A whole tick, as one stored job sees it. -/
theorem tick_at (hcreated : ∀ job ∈ files.listAll, CreatedId job.jobId)
    (hnodup : (files.listAll.map (·.jobId)).Nodup) (hjob : job ∈ files.listAll)
    {runs : List DispatchedRun} (h : (tick env now clock files).result = .ok runs) :
    ∃ files₁ state₁ state₂ made,
      Elsewhere job.jobId files files₁ (recoverStaleActiveExecutions now files.state) state₁ ∧
      (handleJob env now (clock job.jobId) files₁ state₁ job).result = .ok (state₂, made) ∧
      Elsewhere job.jobId
        (files₁.applyAll (handleJob env now (clock job.jobId) files₁ state₁ job).writes)
        (tick env now clock files).files state₂ (tick env now clock files).files.state ∧
      ∀ w, w.jobId? = some job.jobId →
        (w ∈ (tick env now clock files).writes ↔
          w ∈ (handleJob env now (clock job.jobId) files₁ state₁ job).writes) := by
  unfold tick at h ⊢
  simp only at h ⊢
  cases hloop : (handleJobs env now clock files.listAll files
      (recoverStaleActiveExecutions now files.state) []).result with
  | error err =>
    rw [hloop] at h
    cases h
  | ok done =>
    obtain ⟨state', dispatched'⟩ := done
    obtain ⟨files₁, state₁, state₂, made, hbefore, hturn, hafter, hwrites⟩ :=
      handleJobs_at hcreated hnodup hjob hloop
    refine ⟨files₁, state₁, state₂, made, hbefore, hturn, ?_, ?_⟩
    · exact ⟨⟨hafter.same.job, hafter.same.history⟩, hafter.active, hafter.recent⟩
    · intro w hw
      rw [← hwrites w hw, List.mem_append, List.mem_singleton]
      constructor
      · rintro (hmem | rfl)
        · exact hmem
        · cases hw
      · exact fun hmem => .inl hmem

end Frame

/-! ## Turns that fail -/

/-- The turn ends in an error: there is no next run to be found. -/
def turnFails (env : SchedulerEnv) (now : Int) (files : SchedulerFiles) (state : SchedulerState)
    (job : ScheduledJob) : Bool :=
  match turnOf now files state job with
  | .missed => !(computeRecoveryNextRunAt env.zones job.schedule now).isOk
  | .due nextRunAt => !(nextAfterRun env now job nextRunAt).isOk
  | .waiting | .heldBack | .duplicate _ => false

/-- What is listed as recent is in the history as well. -/
def RecentInHistory (files : SchedulerFiles) (state : SchedulerState) : Prop :=
  ∀ ⦃k n⦄, CreatedId k → executionIdFor k n ∈ state.recentExecutionIds →
    files.executionExists k (executionIdFor k n) = true

section Failure

variable {env : SchedulerEnv} {now : Int} {clock : String → ℕ} {files files' : SchedulerFiles}
  {state state' : SchedulerState} {job : ScheduledJob} {jobs : List ScheduledJob}
  {dispatched : List DispatchedRun}

theorem turnFails_eq (nanos : ℕ) :
    turnFails env now files state job = !(handleJob env now nanos files state job).result.isOk := by
  unfold turnFails
  rcases handleJob_cases env now nanos files state job with
    ⟨ht | ht, he⟩ | ⟨ht, ⟨_, hn, he⟩ | ⟨_, hn, he⟩⟩ | ⟨_, ht, he⟩ |
    ⟨_, ht, ⟨_, hn, he⟩ | ⟨_, hn, he⟩⟩
  all_goals simp only [ht, he]
  all_goals try rw [hn]
  all_goals rfl

variable {err : String}

theorem turnFails_of_error {nanos : ℕ}
    (h : (handleJob env now nanos files state job).result = .error err) :
    turnFails env now files state job = true := by
  rw [turnFails_eq nanos, h]
  rfl

theorem turnFails_of_ok {nanos : ℕ} {done : SchedulerState × Option DispatchedRun}
    (h : (handleJob env now nanos files state job).result = .ok done) :
    turnFails env now files state job = false := by
  rw [turnFails_eq nanos, h]
  rfl

/-- With the recent runs in the history, a turn is what it was when the tick began. -/
theorem RecentInHistory.turnOf_eq (hrecent : RecentInHistory files state)
    (hk : CreatedId job.jobId) (h : Elsewhere job.jobId files files' state state') :
    turnOf now files' state' job = turnOf now files state job := by
  rcases turnOf_elsewhere now h with heq | ⟨n, _, _, hd | hd, hnot⟩
  · exact heq
  · exact absurd (.inr (h.same.history _ ▸ hrecent hk hd)) hnot
  · exact absurd (.inr (h.same.history _ ▸ hd)) hnot

theorem RecentInHistory.turnFails_eq (hrecent : RecentInHistory files state)
    (hk : CreatedId job.jobId) (h : Elsewhere job.jobId files files' state state') :
    turnFails env now files' state' job = turnFails env now files state job := by
  unfold turnFails
  rw [hrecent.turnOf_eq hk h]

/-- A loop that fails has come as far as a turn that fails. -/
theorem handleJobs_error_split
    (h : (handleJobs env now clock jobs files state dispatched).result = .error err) :
    ∃ pre job post state₁ dispatched₁, jobs = pre ++ job :: post ∧
      (handleJobs env now clock pre files state dispatched).result = .ok (state₁, dispatched₁) ∧
      (handleJob env now (clock job.jobId)
        (handleJobs env now clock pre files state dispatched).files state₁ job).result =
          .error err := by
  induction jobs generalizing files state dispatched with
  | nil => cases h
  | cons job jobs ih =>
    cases hresult : (handleJob env now (clock job.jobId) files state job).result with
    | error err' =>
      rw [handleJobs_cons_error hresult] at h
      cases h
      exact ⟨[], job, jobs, state, dispatched, rfl, rfl, hresult⟩
    | ok made =>
      obtain ⟨state', made⟩ := made
      rw [handleJobs_cons_ok hresult] at h
      obtain ⟨pre, job', post, state₁, dispatched₁, rfl, hpre, hturn⟩ := ih h
      refine ⟨job :: pre, job', post, state₁, dispatched₁, rfl, ?_, ?_⟩
      · rw [handleJobs_cons_ok hresult]
        exact hpre
      · rw [handleJobs_cons_ok hresult]
        exact hturn

variable (hcreated : ∀ job ∈ jobs, CreatedId job.jobId) (hnodup : (jobs.map (·.jobId)).Nodup)
  (hrecent : RecentInHistory files state)

include hcreated hnodup hrecent

/-- **When the loop fails.** At the first job whose turn fails, told from the store
as it was when the tick began. -/
theorem handleJobs_error
    (h : (handleJobs env now clock jobs files state dispatched).result = .error err) :
    ∃ pre job post state₁ dispatched₁, jobs = pre ++ job :: post ∧
      (∀ j ∈ pre, turnFails env now files state j = false) ∧
      turnFails env now files state job = true ∧
      (handleJobs env now clock pre files state dispatched).result = .ok (state₁, dispatched₁) ∧
      Elsewhere job.jobId files (handleJobs env now clock pre files state dispatched).files state
        state₁ ∧
      (handleJob env now (clock job.jobId)
        (handleJobs env now clock pre files state dispatched).files state₁ job).result =
          .error err := by
  obtain ⟨pre, job, post, state₁, dispatched₁, rfl, hpre, hturn⟩ := handleJobs_error_split h
  have hmem : job ∈ pre ++ job :: post := List.mem_append_right _ List.mem_cons_self
  have hne : ∀ j ∈ pre, j.jobId ≠ job.jobId := by
    intro j hj heq
    rw [List.map_append, List.nodup_append] at hnodup
    exact hnodup.2.2 _ (List.mem_map_of_mem hj) _ (List.mem_map_of_mem List.mem_cons_self) heq
  have hcreated' : ∀ j ∈ pre, CreatedId j.jobId := fun j hj => hcreated j (List.mem_append_left _ hj)
  have hbefore := handleJobs_elsewhere (hcreated job hmem) hcreated' hne hpre
  refine ⟨pre, job, post, state₁, dispatched₁, rfl, ?_, ?_, hpre, hbefore, hturn⟩
  · intro j hj
    have hnodup' : (pre.map (·.jobId)).Nodup := by
      rw [List.map_append, List.nodup_append] at hnodup
      exact hnodup.1
    obtain ⟨files₂, state₂, state₃, made, hthere, hok, _, _⟩ :=
      handleJobs_at hcreated' hnodup' hj hpre
    rw [← hrecent.turnFails_eq (hcreated' j hj) hthere]
    exact turnFails_of_ok hok
  · rw [← hrecent.turnFails_eq (hcreated job hmem) hbefore]
    exact turnFails_of_error hturn

theorem handleJobs_ok (h : ∀ job ∈ jobs, turnFails env now files state job = false) :
    ∃ done, (handleJobs env now clock jobs files state dispatched).result = .ok done := by
  cases hresult : (handleJobs env now clock jobs files state dispatched).result with
  | ok done => exact ⟨done, rfl⟩
  | error err =>
    obtain ⟨pre, job, post, _, _, rfl, _, hfails, _⟩ :=
      handleJobs_error hcreated hnodup hrecent hresult
    rw [h job (List.mem_append_right _ List.mem_cons_self)] at hfails
    cases hfails

end Failure

end Direclaw.Automation
