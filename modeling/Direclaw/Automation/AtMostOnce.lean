import Direclaw.Automation.DueJobs

/-!
# At-most-once dispatch

No execution id goes to the queue twice, and a job that never allowed overlap has at
most one active execution. The first rests on the run history: a trigger that is in
the queue is in the history of its job, whatever has been dropped from the recent runs
since. It fails where a tick enqueues a trigger and then finds no next run: it returns
with the trigger in the queue and nothing recorded.
-/

namespace Direclaw.Automation

open Direclaw.Lib Direclaw.Orchestration

/-- The triggers among the writes, in the order they were enqueued. -/
def triggers (log : List SchedulerWrite) : List ScheduledTriggerEnvelope :=
  log.filterMap fun
    | .trigger envelope => some envelope
    | .job _ | .record _ | .state _ => none

@[simp] theorem triggers_append (log ws : List SchedulerWrite) :
    triggers (log ++ ws) = triggers log ++ triggers ws := List.filterMap_append

theorem mem_triggers {log : List SchedulerWrite} {envelope : ScheduledTriggerEnvelope} :
    envelope ∈ triggers log ↔ .trigger envelope ∈ log := by
  rw [triggers, List.mem_filterMap]
  constructor
  · rintro ⟨w, hw, h⟩
    cases w with
    | trigger e =>
      cases h
      exact hw
    | job _ => cases h
    | record _ => cases h
    | state _ => cases h
  · exact fun h => ⟨_, h, rfl⟩

/-! ## The first failure of a tick -/

def firstFailure (env : SchedulerEnv) (now : Int) (files : SchedulerFiles) : Option ScheduledJob :=
  files.listAll.find? (turnFails env now files (recoverStaleActiveExecutions now files.state))

section FirstFailure

variable {env : SchedulerEnv} {now : Int} {clock : String → ℕ} {files : SchedulerFiles}

/-- A missed run whose successor cannot be found leaves nothing behind. -/
theorem missed_error_writes {state : SchedulerState} {job : ScheduledJob} {nanos : ℕ} {err : String}
    (hmissed : turnOf now files state job = .missed)
    (herr : (handleJob env now nanos files state job).result = .error err) :
    (handleJob env now nanos files state job).writes = [] := by
  rcases handleJob_cases env now nanos files state job with
    ⟨_, he⟩ | ⟨_, ⟨_, _, he⟩ | ⟨_, _, he⟩⟩ | ⟨_, _, he⟩ | ⟨_, ht, _⟩
  · rw [he] at herr
    cases herr
  · rw [he]
  · rw [he] at herr
    cases herr
  · rw [he] at herr
    cases herr
  · rw [ht] at hmissed
    cases hmissed

/-- **A tick that fails** has made the turns before the first failure, and that one. -/
theorem tick_fails_at (hinv : HistoryInv env files) (clock : String → ℕ)
    {pre post : List ScheduledJob} {job : ScheduledJob}
    (hsplit : files.listAll = pre ++ job :: post)
    (hpre : ∀ j ∈ pre,
      turnFails env now files (recoverStaleActiveExecutions now files.state) j = false)
    (hfails : turnFails env now files (recoverStaleActiveExecutions now files.state) job = true) :
    ∃ before state₁ dispatched₁ err,
      before = handleJobs env now clock pre files (recoverStaleActiveExecutions now files.state) [] ∧
      before.result = .ok (state₁, dispatched₁) ∧
      Elsewhere job.jobId files before.files (recoverStaleActiveExecutions now files.state) state₁ ∧
      turnOf now before.files state₁ job =
        turnOf now files (recoverStaleActiveExecutions now files.state) job ∧
      (handleJob env now (clock job.jobId) before.files state₁ job).result = .error err ∧
      tick env now clock files =
        ⟨before.files.applyAll (handleJob env now (clock job.jobId) before.files state₁ job).writes,
          before.writes ++ (handleJob env now (clock job.jobId) before.files state₁ job).writes,
          .error err⟩ := by
  have hcreated := hinv.store.createdIds
  have hnodup := hinv.store.named.nodup_listAll
  rw [hsplit] at hcreated hnodup
  rw [List.map_append, List.nodup_append] at hnodup
  have hcreated' : ∀ j ∈ pre, CreatedId j.jobId := fun j hj => hcreated j (List.mem_append_left _ hj)
  have hk : CreatedId job.jobId := hcreated job (List.mem_append_right _ List.mem_cons_self)
  have hne : ∀ j ∈ pre, j.jobId ≠ job.jobId := fun j hj heq =>
    hnodup.2.2 _ (List.mem_map_of_mem hj) _ (List.mem_map_of_mem List.mem_cons_self) heq
  obtain ⟨⟨state₁, dispatched₁⟩, hok⟩ :=
    @handleJobs_ok env now clock files _ _ [] hcreated' hnodup.1 (hinv.recentInHistory now) hpre
  have hbefore := handleJobs_elsewhere hk hcreated' hne hok
  have hfails' := hfails
  rw [← (hinv.recentInHistory now).turnFails_eq hk hbefore] at hfails'
  cases hturn : (handleJob env now (clock job.jobId) (handleJobs env now clock pre files
      (recoverStaleActiveExecutions now files.state) []).files state₁ job).result with
  | ok done =>
    rw [turnFails_of_ok hturn] at hfails'
    cases hfails'
  | error err =>
    refine ⟨_, state₁, dispatched₁, err, rfl, hok, hbefore,
      (hinv.recentInHistory now).turnOf_eq hk hbefore, hturn, ?_⟩
    unfold tick
    rw [hsplit, handleJobs_append_ok hok]
    simp only [handleJobs_cons_error hturn]

theorem firstFailure_eq_some {job : ScheduledJob} (h : firstFailure env now files = some job) :
    ∃ pre post, files.listAll = pre ++ job :: post ∧
      (∀ j ∈ pre,
        turnFails env now files (recoverStaleActiveExecutions now files.state) j = false) ∧
      turnFails env now files (recoverStaleActiveExecutions now files.state) job = true := by
  obtain ⟨hfails, pre, post, hsplit, hpre⟩ := List.find?_eq_some_iff_append.mp h
  exact ⟨pre, post, hsplit, fun j hj => by simpa using hpre j hj, hfails⟩

/-- A tick without a failing turn goes through the loop. -/
theorem loop_ok (hinv : HistoryInv env files) (clock : String → ℕ)
    (h : firstFailure env now files = none) :
    ∃ done, (handleJobs env now clock files.listAll files
      (recoverStaleActiveExecutions now files.state) []).result = .ok done := by
  have hnone : ∀ job ∈ files.listAll,
      turnFails env now files (recoverStaleActiveExecutions now files.state) job = false := by
    intro job hjob
    simpa using List.find?_eq_none.mp h job hjob
  exact handleJobs_ok hinv.store.createdIds hinv.store.named.nodup_listAll
    (hinv.recentInHistory now) hnone

end FirstFailure

/-! ## Triggers and the run history -/

/-- What is in the queue is in the history, and nothing twice. -/
structure DispatchInv (files : SchedulerFiles) (log : List SchedulerWrite) : Prop where
  recorded : ∀ ⦃e⦄, e ∈ triggers log → CreatedId e.jobId ∧
    (∃ n, e.executionId = executionIdFor e.jobId n) ∧ Recorded files e.jobId e.executionId
  once : ((triggers log).map (·.executionId)).Nodup

section Dispatch

variable {env : SchedulerEnv} {now : Int} {files : SchedulerFiles} {state state' : SchedulerState}
  {job : ScheduledJob} {log ws : List SchedulerWrite}

/-- Writes that enqueue nothing. -/
theorem DispatchInv.append (h : DispatchInv files log) (hws : SanitizedRecords ws)
    (hnone : triggers ws = []) : DispatchInv (files.applyAll ws) (log ++ ws) := by
  constructor
  · intro e he
    rw [triggers_append, hnone, List.append_nil] at he
    obtain ⟨hk, ⟨n, hid⟩, hrecorded⟩ := h.recorded he
    refine ⟨hk, ⟨n, hid⟩, hrecorded.applyAll ?_ hws⟩
    rw [hid]
    exact sanitized_executionIdFor e.jobId n
  · rw [triggers_append, hnone, List.append_nil]
    exact h.once

/-- A run that is due has not been enqueued before. -/
theorem DispatchInv.fresh (h : DispatchInv files log) (hk : CreatedId job.jobId) {n : Int}
    (hdue : turnOf now files state job = .due n) :
    ∀ e ∈ triggers log, e.executionId ≠ executionIdFor job.jobId n := by
  intro e he heq
  obtain ⟨hk', ⟨m, hid⟩, hrecorded⟩ := h.recorded he
  obtain ⟨hjob, rfl⟩ := executionIdFor_injective hk' hk (hid.symm.trans heq)
  rw [heq, hjob] at hrecorded
  obtain ⟨_, _, _, _, _, hnot⟩ := turnOf_due hdue
  exact hnot (.inr hrecorded.executionExists)

/-- One turn that does not fail. -/
theorem DispatchInv.handleJob {nanos : ℕ} {made : Option DispatchedRun} (h : DispatchInv files log)
    (hk : CreatedId job.jobId)
    (hok : (Automation.handleJob env now nanos files state job).result = .ok (state', made)) :
    DispatchInv (files.applyAll (Automation.handleJob env now nanos files state job).writes)
      (log ++ (Automation.handleJob env now nanos files state job).writes) := by
  have hrecords := @handleJob_sanitized files env now nanos state job
  rcases handleJob_cases env now nanos files state job with
    ⟨_, he⟩ | ⟨_, ⟨_, _, he⟩ | ⟨_, _, he⟩⟩ | ⟨_, _, he⟩ | ⟨n, hdue, ⟨_, _, he⟩ | ⟨_, _, he⟩⟩
  all_goals rw [he] at hok hrecords ⊢
  all_goals cases hok
  all_goals try exact h.append hrecords rfl
  have hnew := h.fresh hk hdue
  constructor
  · intro e hmem
    rw [triggers_append] at hmem
    rcases List.mem_append.mp hmem with hmem | hmem
    · obtain ⟨hk', ⟨m, hid⟩, hrecorded⟩ := h.recorded hmem
      refine ⟨hk', ⟨m, hid⟩, hrecorded.applyAll ?_ hrecords⟩
      rw [hid]
      exact sanitized_executionIdFor e.jobId m
    · obtain rfl : e = triggerEnvelope now job (executionIdFor job.jobId n) :=
        List.mem_singleton.mp hmem
      refine ⟨hk, ⟨n, rfl⟩, ?_⟩
      exact recorded_of_mem (List.mem_cons_of_mem _ (List.mem_cons_of_mem _ List.mem_cons_self))
        hrecords
  · rw [triggers_append, List.map_append, List.nodup_append]
    refine ⟨h.once, List.nodup_singleton _, ?_⟩
    intro id hid id' hid' heq
    obtain ⟨e, hmem, rfl⟩ := List.mem_map.mp hid
    obtain rfl : id' = executionIdFor job.jobId n := List.mem_singleton.mp hid'
    exact hnew e hmem heq

theorem DispatchInv.handleJobs {clock : String → ℕ} {jobs : List ScheduledJob}
    {dispatched dispatched' : List DispatchedRun} (h : DispatchInv files log)
    (hcreated : ∀ job ∈ jobs, CreatedId job.jobId)
    (hok : (Automation.handleJobs env now clock jobs files state dispatched).result =
      .ok (state', dispatched')) :
    DispatchInv (Automation.handleJobs env now clock jobs files state dispatched).files
      (log ++ (Automation.handleJobs env now clock jobs files state dispatched).writes) := by
  have hloop := handleJobs_invariant env now clock (I := fun files _ log => DispatchInv files log)
    (E := fun _ _ => True) jobs files state dispatched
    (fun job hjob _ _ _ _ _ hI hok => hI.handleJob (hcreated job hjob) hok)
    (fun _ _ _ _ _ _ _ _ => trivial) log h
  rw [hok] at hloop
  exact hloop

/-- The first failure of a tick, if there is one, is met while skipping a missed run and
not after a trigger was enqueued. -/
def FailsBeforeEnqueue (env : SchedulerEnv) (now : Int) (files : SchedulerFiles) : Prop :=
  ∀ job ∈ firstFailure env now files,
    turnOf now files (recoverStaleActiveExecutions now files.state) job = .missed

theorem DispatchInv.tick {clock : String → ℕ} (hinv : HistoryInv env files)
    (h : DispatchInv files log) (hsafe : FailsBeforeEnqueue env now files) :
    DispatchInv (Automation.tick env now clock files).files
      (log ++ (Automation.tick env now clock files).writes) := by
  cases hfirst : firstFailure env now files with
  | none =>
    obtain ⟨⟨state', runs⟩, hloop⟩ := loop_ok hinv clock hfirst
    have hdone := h.handleJobs hinv.store.createdIds hloop
    unfold Automation.tick
    simp only [hloop, ← List.append_assoc]
    exact hdone.append (SanitizedRecords.state _) rfl
  | some job =>
    obtain ⟨pre, post, hsplit, hpre, hfails⟩ := firstFailure_eq_some hfirst
    obtain ⟨before, state₁, _, err, rfl, hok, _, hturn, herr, heq⟩ :=
      tick_fails_at hinv clock hsplit hpre hfails
    have hcreated := hinv.store.createdIds
    rw [hsplit] at hcreated
    have hdone := h.handleJobs (fun j hj => hcreated j (List.mem_append_left _ hj)) hok
    rw [hsafe job hfirst] at hturn
    rw [heq]
    -- the turn that failed has written nothing
    rw [missed_error_writes hturn herr]
    simpa using hdone

theorem triggers_outcome (env : SchedulerEnv) (files : SchedulerFiles) (op : SchedulerOp) :
    triggers (op.outcome env files).2 = [] ∨ ∃ now clock, op = .tick now clock := by
  cases op with
  | create input now nanos =>
    refine .inl ?_
    simp only [SchedulerOp.outcome, createJob]
    split <;> rfl
  | edit change jobId now =>
    refine .inl ?_
    simp only [SchedulerOp.outcome, editJob]
    split
    · rfl
    · split <;> rfl
  | tick now clock => exact .inr ⟨now, clock, rfl⟩
  | complete jobId executionId succeeded now =>
    refine .inl ?_
    simp only [SchedulerOp.outcome, completeExecution, Outcome.ofWrites]
    unfold completionWrites
    split <;> rfl

/-- A tick does not fail with a trigger enqueued, and a completion names an execution by
an id such as the scheduler makes up. -/
def EnqueuesSafely (env : SchedulerEnv) (s : SchedulerSystem) : SchedulerOp → Prop
  | .tick now _ => FailsBeforeEnqueue env now s.files
  | .complete _ executionId _ _ => Sanitized executionId
  | .create .. | .edit .. => True

instance FailsBeforeEnqueue.decidable (env : SchedulerEnv) (now : Int) (files : SchedulerFiles) :
    Decidable (FailsBeforeEnqueue env now files) :=
  inferInstanceAs (Decidable (∀ job ∈ firstFailure env now files, _ = Turn.missed))

instance EnqueuesSafely.decidable (env : SchedulerEnv) (s : SchedulerSystem) :
    ∀ op, Decidable (EnqueuesSafely env s op)
  | .tick now _ => inferInstanceAs (Decidable (FailsBeforeEnqueue env now s.files))
  | .complete _ executionId _ _ => inferInstanceAs (Decidable (sanitizeId executionId = executionId))
  | .create .. | .edit .. => .isTrue trivial

theorem EnqueuesSafely.sanitized {s : SchedulerSystem} {op : SchedulerOp}
    (h : EnqueuesSafely env s op) : SanitizedCompletion s op := by
  cases op with
  | complete _ _ _ _ => exact h
  | create _ _ _ => trivial
  | edit _ _ _ => trivial
  | tick _ _ => trivial

theorem DispatchInv.step {s : SchedulerSystem} {op : SchedulerOp} (hinv : HistoryInv env s.files)
    (h : DispatchInv s.files s.log) (hop : EnqueuesSafely env s op) :
    DispatchInv (schedulerStep env s op).files (schedulerStep env s op).log := by
  rw [schedulerStep_files, schedulerStep_log]
  rcases triggers_outcome env s.files op with hnone | ⟨now, clock, rfl⟩
  · rw [op.outcome_files]
    exact h.append hop.sanitized.records hnone
  · exact h.tick hinv hop

end Dispatch

/-! ## Overlap -/

/-- The job was stored at some time with overlap allowed. -/
def OverlapAllowed (log : List SchedulerWrite) (k : String) : Prop :=
  ∃ job, .job job ∈ log ∧ job.jobId = k ∧ job.allowOverlap = true

/-- Stored jobs have been written, and what never allowed overlap does not overlap. -/
structure OverlapInv (s : SchedulerSystem) : Prop where
  written : ∀ ⦃k job⦄, s.files.jobs.lookup k = some job → .job job ∈ s.log
  bound : ∀ ⦃k⦄, ¬ OverlapAllowed s.log k → (s.files.state.activeOf k).length ≤ 1

section Overlap

variable {env : SchedulerEnv} {now : Int} {files : SchedulerFiles} {state state' : SchedulerState}
  {job : ScheduledJob} {log : List SchedulerWrite} {k : String}

theorem activeOf_dispatch (state : SchedulerState) (now : Int) (jobId executionId k : String) :
    (state.dispatch now jobId executionId).activeOf k =
      state.activeOf k ++
        if jobId = k then [{ jobId := jobId, executionId := executionId, startedAt := now }] else [] := by
  simp only [SchedulerState.activeOf, SchedulerState.dispatch, List.filter_append, List.filter_cons,
    List.filter_nil, beq_iff_eq]

theorem filter_activeOf_length (state : SchedulerState) (p : ActiveExecution → Bool) (k : String) :
    ({ state with activeExecutions := state.activeExecutions.filter p }.activeOf k).length ≤
      (state.activeOf k).length := by
  simp only [SchedulerState.activeOf]
  exact (List.filter_sublist.filter _).length_le

/-- A turn adds an active execution of a job only if the job had none, or allows it. -/
theorem handleJob_overlap {nanos : ℕ} {made : Option DispatchedRun}
    (hjob : job.allowOverlap = true → OverlapAllowed log job.jobId)
    (h : ∀ ⦃k⦄, ¬ OverlapAllowed log k → (state.activeOf k).length ≤ 1)
    (hok : (handleJob env now nanos files state job).result = .ok (state', made)) :
    ∀ ⦃k⦄, ¬ OverlapAllowed log k → (state'.activeOf k).length ≤ 1 := by
  rcases handleJob_cases env now nanos files state job with
    ⟨_, he⟩ | ⟨_, ⟨_, _, he⟩ | ⟨_, _, he⟩⟩ | ⟨_, _, he⟩ | ⟨n, hdue, ⟨_, _, he⟩ | ⟨_, _, he⟩⟩
  all_goals rw [he] at hok
  all_goals cases hok
  all_goals try exact h
  intro k hk
  rw [activeOf_dispatch]
  split
  · next heq =>
      subst heq
      obtain ⟨_, _, _, _, hfree, _⟩ := turnOf_due hdue
      rcases hfree with hallow | hidle
      · exact absurd (hjob hallow) hk
      · rw [SchedulerState.isActive_eq, Bool.not_eq_false', List.isEmpty_iff] at hidle
        rw [hidle]
        simp
  · rw [List.append_nil]
    exact h hk

theorem OverlapInv.tick {s : SchedulerSystem} {clock : String → ℕ} (hnamed : Named s.files)
    (h : OverlapInv s) :
    ∀ ⦃k⦄, ¬ OverlapAllowed s.log k →
      ((Automation.tick env now clock s.files).files.state.activeOf k).length ≤ 1 := by
  unfold Automation.tick
  simp only
  have hstart : ∀ ⦃k⦄, ¬ OverlapAllowed s.log k →
      ((recoverStaleActiveExecutions now s.files.state).activeOf k).length ≤ 1 :=
    fun k hk => (filter_activeOf_length _ _ k).trans (h.bound hk)
  have hallowed : ∀ job ∈ s.files.listAll, job.allowOverlap = true →
      OverlapAllowed s.log job.jobId :=
    fun job hjob hallow => ⟨job, h.written (hnamed.lookup hjob), rfl, hallow⟩
  have hloop := handleJobs_invariant env now clock
    (I := fun _ state _ => ∀ ⦃k⦄, ¬ OverlapAllowed s.log k → (state.activeOf k).length ≤ 1)
    (E := fun _ _ => True) s.files.listAll s.files (recoverStaleActiveExecutions now s.files.state) []
    (fun job hjob _ _ _ _ _ hI hok => handleJob_overlap (hallowed job hjob) hI hok)
    (fun _ _ _ _ _ _ _ _ => trivial) [] hstart
  cases hresult : (handleJobs env now clock s.files.listAll s.files
      (recoverStaleActiveExecutions now s.files.state) []).result with
  | ok done =>
    obtain ⟨state', runs⟩ := done
    rw [hresult] at hloop
    exact hloop
  | error err =>
    simp only [handleJobs_state]
    exact h.bound

theorem OverlapInv.step {s : SchedulerSystem} {op : SchedulerOp} (hnamed : Named s.files)
    (h : OverlapInv s) : OverlapInv (schedulerStep env s op) := by
  constructor
  · intro k job hlookup
    rw [schedulerStep_files, op.outcome_files] at hlookup
    rw [schedulerStep_log]
    rcases lookup_applyAll s.files (op.outcome env s.files).2 k with hsame | ⟨job', hnew, _, hmem⟩
    · exact List.mem_append_left _ (h.written (hsame ▸ hlookup))
    · rw [hnew] at hlookup
      cases hlookup
      exact List.mem_append_right _ hmem
  · intro k hk
    have hk' : ¬ OverlapAllowed s.log k := by
      rintro ⟨job, hmem, hid, hallow⟩
      refine hk ⟨job, ?_, hid, hallow⟩
      rw [schedulerStep_log]
      exact List.mem_append_left _ hmem
    rw [schedulerStep_files]
    rcases state_outcome env s.files op with hstate | ⟨_, _, _, _, _, hstate⟩ | ⟨now, clock, rfl⟩
    · rw [hstate]
      exact h.bound hk'
    · rw [hstate]
      exact (filter_activeOf_length _ _ k).trans (h.bound hk')
    · exact h.tick hnamed hk'

theorem OverlapInv.empty : OverlapInv {} := by
  constructor
  · intro k job hk
    cases hk
  · exact fun _ _ => Nat.zero_le _

theorem overlapInv_reached (ops : List SchedulerOp) : OverlapInv (reached env ops) := by
  have hinv : StoreInv env (reached env ops).files ∧ OverlapInv (reached env ops) :=
    Lib.run_invariant' (I := fun s : SchedulerSystem => StoreInv env s.files ∧ OverlapInv s)
      (fun _ op hI => ⟨hI.1.outcome op, hI.2.step hI.1.named⟩) ops
      ⟨StoreInv.empty, OverlapInv.empty⟩
  exact hinv.2

end Overlap

/-! ## Whole runs -/

theorem DispatchInv.empty : DispatchInv {} [] := by
  constructor
  · intro e he
    cases he
  · exact List.nodup_nil

theorem dispatchInv_reached {env : SchedulerEnv} {ops : List SchedulerOp}
    (h : Lib.Meets (schedulerStep env) (EnqueuesSafely env) {} ops) :
    HistoryInv env (reached env ops).files ∧
      DispatchInv (reached env ops).files (reached env ops).log :=
  Lib.run_invariant
    (I := fun s : SchedulerSystem => HistoryInv env s.files ∧ DispatchInv s.files s.log)
    (fun _ _ hI hop => ⟨hI.1.step hop.sanitized, hI.2.step hI.1 hop⟩)
    ⟨HistoryInv.empty, DispatchInv.empty⟩ h

/-- **At most once.** No execution id is enqueued twice in a run in which no tick fails
with a trigger enqueued; and in every run a job that never allowed overlap has at most
one active execution. -/
theorem dispatch_at_most_once (env : SchedulerEnv) (ops : List SchedulerOp) :
    (Lib.Meets (schedulerStep env) (EnqueuesSafely env) {} ops →
      ((triggers (reached env ops).log).map (·.executionId)).Nodup) ∧
    ∀ k, ¬ OverlapAllowed (reached env ops).log k →
      ((reached env ops).files.state.activeOf k).length ≤ 1 :=
  ⟨fun h => (dispatchInv_reached h).2.once, fun _ hk => (overlapInv_reached ops).bound hk⟩

/-- Two runs of a job, the first completed before the second. -/
def twoMinutes : List SchedulerOp :=
  [.create everyMinuteJob 0 7, .tick 60 (fun _ => 0),
    .complete "job-eng-7" "exec-job-eng-7-60" true 90, .tick 120 (fun _ => 0)]

theorem dispatch_at_most_once_twoMinutes :
    (triggers (reached utcEnv twoMinutes).log).map (·.executionId) =
        ["exec-job-eng-7-60", "exec-job-eng-7-120"] ∧
      ((triggers (reached utcEnv twoMinutes).log).map (·.executionId)).Nodup ∧
      ((reached utcEnv twoMinutes).files.state.activeOf "job-eng-7").length ≤ 1 := by
  refine ⟨by decide, ?_, ?_⟩
  · exact (dispatch_at_most_once utcEnv twoMinutes).1 (by decide)
  · apply (dispatch_at_most_once utcEnv twoMinutes).2
    rintro ⟨job, hmem, _, hallow⟩
    have hnever : ∀ w ∈ (reached utcEnv twoMinutes).log,
        (match w with | .job job => job.allowOverlap | _ => false) = false := by
      decide
    have := hnever _ hmem
    simp [hallow] at this

/-! ### A leap day that is enqueued twice -/

theorem tick_late_failure {env : SchedulerEnv} {now n : Int} {clock : String → ℕ}
    {files : SchedulerFiles} {job : ScheduledJob} {rest : List ScheduledJob} {err : String}
    (hlist : files.listAll = job :: rest)
    (hdue : turnOf now files (recoverStaleActiveExecutions now files.state) job = .due n)
    (herr : nextAfterRun env now job n = .error err) :
    tick env now clock files =
      ⟨files, [.trigger (triggerEnvelope now job (executionIdFor job.jobId n))], .error err⟩ := by
  have hturn : handleJob env now (clock job.jobId) files
      (recoverStaleActiveExecutions now files.state) job =
        { writes := [.trigger (triggerEnvelope now job (executionIdFor job.jobId n))]
          result := .error err } := by
    rw [handleJob_eq, hdue]
    simp only [dispatchJob_eq, herr]
  have hresult := congrArg Handling.result hturn
  unfold tick
  rw [hlist, handleJobs_cons_error hresult, hturn]
  rfl

def leapDayJob : NewJob where
  orchestratorId := "eng"
  schedule := leapDaySchedule
  targetAction := .workflowStart "triage" []
  misfirePolicy := .fireOnceOnRecovery
  allowOverlap := false

def storedLeapDayJob : ScheduledJob where
  jobId := "job-eng-7"
  orchestratorId := "eng"
  schedule := leapDaySchedule
  targetAction := .workflowStart "triage" []
  state := .enabled
  misfirePolicy := .fireOnceOnRecovery
  nextRunAt := some leapDay2096
  allowOverlap := false
  createdAt := leapDay2096 - 60
  updatedAt := leapDay2096 - 60

theorem newJob_leapDay : newJob utc leapDayJob (leapDay2096 - 60) 7 = .ok storedLeapDayJob := by
  rfl

def leapDayStore : SchedulerFiles := ({} : SchedulerFiles).apply (.job storedLeapDayJob)

theorem listAll_leapDayStore : leapDayStore.listAll = [storedLeapDayJob] := rfl

theorem reached_leapDay :
    reached utcEnv [.create leapDayJob (leapDay2096 - 60) 7] =
      { files := leapDayStore, log := [.job storedLeapDayJob] } := by
  have hnew : newJob utcEnv.zones leapDayJob (leapDay2096 - 60) 7 = .ok storedLeapDayJob :=
    newJob_leapDay
  simp only [reached, Lib.run_cons, Lib.run_nil, schedulerStep, SchedulerOp.outcome, createJob, hnew]
  rfl

/-- On the leap day and until the next midnight the job is due, and has no next run. -/
theorem leapDay_turn {now : Int} (hlow : leapDay2096 ≤ now) (hhigh : now < leapDay2096 + 86400) :
    turnOf now leapDayStore (recoverStaleActiveExecutions now leapDayStore.state) storedLeapDayJob =
        .due leapDay2096 ∧
      ∃ err, nextAfterRun utcEnv now storedLeapDayJob leapDay2096 = .error err := by
  constructor
  · rcases turnOf_cases now leapDayStore (recoverStaleActiveExecutions now leapDayStore.state)
      storedLeapDayJob with ⟨_, hw⟩ | ⟨n, _, hn, _, ⟨_, _, hp⟩ | ⟨_, ⟨_, _, ha⟩ | ⟨_, ⟨_, hd⟩ | ⟨ht, _⟩⟩⟩⟩
    · exact absurd (hw rfl leapDay2096 rfl) (not_lt.mpr hlow)
    · cases hp
    · cases ha
    · cases hn
      rcases hd with hd | hd
      · cases hd
      · cases hd
    · cases hn
      exact ht
  · unfold nextAfterRun
    split
    · exact computeNextRunAt_leapDay hlow hhigh
    · exact computeNextRunAt_leapDay le_rfl (by decide)

/-- A tick then enqueues the run and fails. -/
theorem tick_leapDay {now : Int} (hlow : leapDay2096 ≤ now) (hhigh : now < leapDay2096 + 86400)
    (clock : String → ℕ) :
    ∃ err, tick utcEnv now clock leapDayStore =
      ⟨leapDayStore, [.trigger (triggerEnvelope now storedLeapDayJob
        (executionIdFor storedLeapDayJob.jobId leapDay2096))], .error err⟩ := by
  obtain ⟨hdue, err, herr⟩ := leapDay_turn hlow hhigh
  exact ⟨err, tick_late_failure listAll_leapDayStore hdue herr⟩

/-- Two ticks that leave the files as they were. -/
theorem failed_ticks_log {env : SchedulerEnv} {s : SchedulerSystem} {t₁ t₂ : Int}
    {c₁ c₂ : String → ℕ} {ws₁ ws₂ : List SchedulerWrite}
    {r₁ r₂ : Except String (List DispatchedRun)}
    (h₁ : tick env t₁ c₁ s.files = ⟨s.files, ws₁, r₁⟩)
    (h₂ : tick env t₂ c₂ s.files = ⟨s.files, ws₂, r₂⟩) :
    (schedulerStep env (schedulerStep env s (.tick t₁ c₁)) (.tick t₂ c₂)).log =
      s.log ++ ws₁ ++ ws₂ := by
  simp only [schedulerStep, SchedulerOp.outcome, h₁, h₂]

def tickTimes (ops : List SchedulerOp) : List Int :=
  ops.filterMap fun
    | .tick now _ => some now
    | .create .. | .edit .. | .complete .. => none

def leapDayTicks : List SchedulerOp :=
  [.create leapDayJob (leapDay2096 - 60) 7, .tick leapDay2096 (fun _ => 0),
    .tick (leapDay2096 + 60) (fun _ => 0)]

theorem leapDay_enqueued_twice :
    ¬ ∀ ops, (tickTimes ops).Pairwise (· ≤ ·) →
      ((triggers (reached utcEnv ops).log).map (·.executionId)).Nodup := by
  intro hall
  have hnodup := hall leapDayTicks (by decide)
  obtain ⟨_, hfirst⟩ := @tick_leapDay leapDay2096 (by decide) (by decide) fun _ => 0
  obtain ⟨_, hsecond⟩ := @tick_leapDay (leapDay2096 + 60) (by decide) (by decide) fun _ => 0
  have hsplit : leapDayTicks = [.create leapDayJob (leapDay2096 - 60) 7] ++
      [.tick leapDay2096 fun _ => 0] ++ [.tick (leapDay2096 + 60) fun _ => 0] := rfl
  have hlog := failed_ticks_log (s := { files := leapDayStore, log := [.job storedLeapDayJob] })
    hfirst hsecond
  rw [hsplit, reached_append_singleton, reached_append_singleton, reached_leapDay, hlog] at hnodup
  generalize executionIdFor storedLeapDayJob.jobId leapDay2096 = id at hnodup
  change [id, id].Nodup at hnodup
  simp at hnodup

end Direclaw.Automation
