import Direclaw.Automation.AtMostOnce

/-!
# One failing job among others

A tick stops at the first job for which no next run can be found. What that does to the
other jobs, and to the job itself, is told here from the store before the tick: the
tick keeps the jobs apart exactly when the failure comes before a trigger is enqueued
and no job that could be dispatched comes after it.
-/

namespace Direclaw.Automation

open Direclaw.Lib Direclaw.Orchestration

/-! ## A recorded run is not enqueued again -/

section Again

variable {env : SchedulerEnv} {now n : Int} {files : SchedulerFiles} {state : SchedulerState}
  {job : ScheduledJob} {k : String}

/-- The run is in the history and not among these triggers. -/
structure Kept (k : String) (n : Int) (files : SchedulerFiles) (log : List SchedulerWrite) : Prop where
  recorded : Recorded files k (executionIdFor k n)
  absent : ∀ e ∈ triggers log, e.executionId ≠ executionIdFor k n

theorem Kept.handleJob {nanos : ℕ} {log : List SchedulerWrite} (h : Kept k n files log)
    (hk : CreatedId k) (hjob : CreatedId job.jobId) :
    Kept k n (files.applyAll (Automation.handleJob env now nanos files state job).writes)
      (log ++ (Automation.handleJob env now nanos files state job).writes) := by
  constructor
  · exact h.recorded.applyAll (sanitized_executionIdFor k n) handleJob_sanitized
  · intro e he heq
    rw [triggers_append, List.mem_append] at he
    rcases he with he | he
    · exact h.absent e he heq
    · obtain ⟨m, hdue, rfl⟩ := handleJob_trigger (mem_triggers.mp he)
      obtain ⟨hid, rfl⟩ := executionIdFor_injective hjob hk heq
      obtain ⟨_, _, _, _, _, hnot⟩ := turnOf_due hdue
      have hexists := h.recorded.executionExists
      rw [← hid] at hexists
      exact hnot (.inr hexists)

theorem Kept.tick {clock : String → ℕ} {log : List SchedulerWrite} (hinv : StoreInv env files)
    (h : Kept k n files log) (hk : CreatedId k) :
    Kept k n (Automation.tick env now clock files).files
      (log ++ (Automation.tick env now clock files).writes) := by
  have hloop := handleJobs_invariant env now clock (I := fun files _ log => Kept k n files log)
    (E := fun files log => Kept k n files log) files.listAll files
    (recoverStaleActiveExecutions now files.state) []
    (fun job hjob _ _ _ _ _ hI _ => hI.handleJob hk (hinv.createdIds job hjob))
    (fun job hjob _ _ _ _ hI _ => hI.handleJob hk (hinv.createdIds job hjob)) log h
  unfold Automation.tick
  simp only
  cases hresult : (handleJobs env now clock files.listAll files
      (recoverStaleActiveExecutions now files.state) []).result with
  | error err =>
    rw [hresult] at hloop
    exact hloop
  | ok done =>
    obtain ⟨state', runs⟩ := done
    rw [hresult] at hloop
    refine ⟨hloop.recorded, fun e he => hloop.absent e ?_⟩
    rw [← List.append_assoc, triggers_append] at he
    exact (List.mem_append.mp he).resolve_right List.not_mem_nil

/-- The triggers of the ticks at these times, one after the other. -/
def laterTriggers (env : SchedulerEnv) (files : SchedulerFiles) (later : List (Int × (String → ℕ))) :
    List ScheduledTriggerEnvelope :=
  triggers (Lib.run (schedulerStep env) { files := files }
    (later.map fun (now, clock) => SchedulerOp.tick now clock)).log

theorem Kept.later (hinv : StoreInv env files) (hk : CreatedId k)
    (h : Recorded files k (executionIdFor k n)) (later : List (Int × (String → ℕ))) :
    ∀ e ∈ laterTriggers env files later, e.executionId ≠ executionIdFor k n := by
  suffices hrun : ∀ (s : SchedulerSystem), StoreInv env s.files → Kept k n s.files s.log →
      Kept k n (Lib.run (schedulerStep env) s (later.map fun (now, clock) => .tick now clock)).files
        (Lib.run (schedulerStep env) s (later.map fun (now, clock) => .tick now clock)).log by
    exact (hrun { files := files } hinv ⟨h, fun e he => by cases he⟩).absent
  induction later with
  | nil => exact fun _ _ hs => hs
  | cons next later ih =>
    intro s hstore hs
    exact ih _ (hstore.outcome (.tick next.1 next.2)) (hs.tick hstore hk)

end Again

/-! ## Isolation -/

/-- The jobs of a tick are kept apart: a job that can be dispatched is, whatever happens to
the others; a job whose turn fails is not enqueued unless its file, its history and its
active executions say so; and no later tick enqueues a run of this tick again. -/
structure Isolated (env : SchedulerEnv) (now : Int) (clock : String → ℕ) (files : SchedulerFiles) :
    Prop where
  others : ∀ job ∈ files.listAll, ∀ n,
    turnOf now files (recoverStaleActiveExecutions now files.state) job = .due n →
    turnFails env now files (recoverStaleActiveExecutions now files.state) job = false →
    .trigger (triggerEnvelope now job (executionIdFor job.jobId n)) ∈
      (tick env now clock files).writes
  failing : ∀ job ∈ files.listAll,
    turnFails env now files (recoverStaleActiveExecutions now files.state) job = true →
    ∀ e ∈ triggers (tick env now clock files).writes, e.jobId = job.jobId →
      ∃ job', (tick env now clock files).files.jobs.lookup job.jobId = some job' ∧
        job'.nextRunAt ≠ job.nextRunAt ∧
        (tick env now clock files).files.executionExists job.jobId e.executionId = true ∧
        ∃ active ∈ (tick env now clock files).files.state.activeOf job.jobId,
          active.executionId = e.executionId
  again : ∀ later, ∀ e ∈ triggers (tick env now clock files).writes,
    ∀ e' ∈ laterTriggers env (tick env now clock files).files later,
      e'.executionId ≠ e.executionId

/-- If a turn fails, the first one to do so was skipping a missed run, and no job after it
could have been dispatched. -/
def HarmlessFailure (env : SchedulerEnv) (now : Int) (files : SchedulerFiles) : Prop :=
  ∀ pre job post, files.listAll = pre ++ job :: post →
    (∀ j ∈ pre, turnFails env now files (recoverStaleActiveExecutions now files.state) j = false) →
    turnFails env now files (recoverStaleActiveExecutions now files.state) job = true →
    turnOf now files (recoverStaleActiveExecutions now files.state) job = .missed ∧
      ∀ j ∈ post, ∀ n,
        turnOf now files (recoverStaleActiveExecutions now files.state) j = .due n →
        turnFails env now files (recoverStaleActiveExecutions now files.state) j = true

section Isolation

variable {env : SchedulerEnv} {now : Int} {clock : String → ℕ} {files : SchedulerFiles}
  {pre post : List ScheduledJob} {job : ScheduledJob}

/-- In a loop that goes through, a job that is due has its trigger enqueued. -/
theorem trigger_of_due {jobs : List ScheduledJob} {state state' : SchedulerState}
    {dispatched dispatched' : List DispatchedRun} {n : Int}
    (hcreated : ∀ job ∈ jobs, CreatedId job.jobId) (hnodup : (jobs.map (·.jobId)).Nodup)
    (hrecent : RecentInHistory files state) (hjob : job ∈ jobs)
    (hok : (handleJobs env now clock jobs files state dispatched).result = .ok (state', dispatched'))
    (hdue : turnOf now files state job = .due n) :
    .trigger (triggerEnvelope now job (executionIdFor job.jobId n)) ∈
      (handleJobs env now clock jobs files state dispatched).writes := by
  obtain ⟨files₁, state₁, state₂, made, hbefore, hturn, _, hwrites⟩ :=
    handleJobs_at hcreated hnodup hjob hok
  rw [hwrites _ rfl]
  rw [← hrecent.turnOf_eq (hcreated job hjob) hbefore] at hdue
  rw [handleJob_eq, hdue]
  simp only [dispatchJob_eq]
  cases nextAfterRun env now job n with
  | error err => exact List.mem_cons_self
  | ok next => exact List.mem_cons_self

theorem FailsBeforeEnqueue.of_harmless (h : HarmlessFailure env now files) :
    FailsBeforeEnqueue env now files := by
  intro job hjob
  obtain ⟨hfails, pre, post, hsplit, hpre⟩ := List.find?_eq_some_iff_append.mp hjob
  exact (h pre job post hsplit (fun j hj => by simpa using hpre j hj) hfails).1

theorem ids_after_failure (hinv : StoreInv env files) (hsplit : files.listAll = pre ++ job :: post)
    {i j : ScheduledJob} (hi : i ∈ pre ++ [job]) (hj : j ∈ post) : i.jobId ≠ j.jobId := by
  have hnodup := hinv.named.nodup_listAll
  rw [hsplit, show pre ++ job :: post = (pre ++ [job]) ++ post by simp, List.map_append,
    List.nodup_append] at hnodup
  exact fun heq => hnodup.2.2 _ (List.mem_map_of_mem hi) _ (List.mem_map_of_mem hj) heq

theorem HarmlessFailure.of_isolated (hinv : HistoryInv env files)
    (h : Isolated env now clock files) : HarmlessFailure env now files := by
  intro pre job post hsplit hpre hfails
  have hmem : job ∈ files.listAll := by
    rw [hsplit]
    exact List.mem_append_right _ List.mem_cons_self
  obtain ⟨before, state₁, _, err, rfl, _, hbefore, hturn, herr, heq⟩ :=
    tick_fails_at hinv clock hsplit hpre hfails
  constructor
  · rw [← hturn]
    rcases handleJob_cases env now (clock job.jobId) (handleJobs env now clock pre files
        (recoverStaleActiveExecutions now files.state) []).files state₁ job with
      ⟨_, he⟩ | ⟨ht, _⟩ | ⟨_, _, he⟩ | ⟨n, _, ⟨_, _, he⟩ | ⟨_, _, he⟩⟩
    · rw [he] at herr
      cases herr
    · exact ht
    · rw [he] at herr
      cases herr
    · -- the trigger is in the queue and the job is as it was
      exfalso
      rw [he] at heq
      have htrigger : triggerEnvelope now job (executionIdFor job.jobId n) ∈
          triggers (tick env now clock files).writes := by
        rw [heq, mem_triggers]
        exact List.mem_append_right _ List.mem_cons_self
      obtain ⟨job', hlookup, hnext, _⟩ := h.failing job hmem hfails _ htrigger rfl
      have hsame : (tick env now clock files).files.jobs.lookup job.jobId = some job := by
        rw [heq]
        exact hbefore.same.job.trans (hinv.store.named.lookup hmem)
      rw [hsame] at hlookup
      cases hlookup
      exact hnext rfl
    · rw [he] at herr
      cases herr
  · intro j hj n hdue
    by_contra hno
    have hjmem : j ∈ files.listAll := by
      rw [hsplit]
      exact List.mem_append_right _ (List.mem_cons_of_mem _ hj)
    have htrigger := h.others j hjmem n hdue (by simpa using hno)
    rw [heq] at htrigger
    rcases List.mem_append.mp htrigger with hw | hw
    · obtain ⟨i, hi, _, _, hw⟩ := handleJobs_writes hw
      exact ids_after_failure hinv.store hsplit (List.mem_append_left _ hi) hj
        (Option.some.inj (handleJob_writes hw)).symm
    · exact ids_after_failure hinv.store hsplit (List.mem_append_right _ List.mem_cons_self) hj
        (Option.some.inj (handleJob_writes hw)).symm

theorem Isolated.of_harmless (hinv : HistoryInv env files) (h : HarmlessFailure env now files) :
    Isolated env now clock files := by
  have hdispatch : DispatchInv (tick env now clock files).files
      ([] ++ (tick env now clock files).writes) :=
    DispatchInv.tick hinv ⟨fun e he => (by cases he), List.nodup_nil⟩
      (FailsBeforeEnqueue.of_harmless h)
  refine ⟨?_, ?_, ?_⟩
  · intro job hjob n hdue hgood
    cases hfirst : firstFailure env now files with
    | none =>
      obtain ⟨⟨state', runs⟩, hloop⟩ := loop_ok hinv clock hfirst
      have htrigger := trigger_of_due hinv.store.createdIds hinv.store.named.nodup_listAll
        (hinv.recentInHistory now) hjob hloop hdue
      unfold tick
      simp only [hloop]
      exact List.mem_append_left _ htrigger
    | some failed =>
      obtain ⟨pre, post, hsplit, hpre, hfails⟩ := firstFailure_eq_some hfirst
      obtain ⟨before, state₁, _, err, rfl, hok, _, _, _, heq⟩ :=
        tick_fails_at hinv clock hsplit hpre hfails
      obtain ⟨hmissed, hafter⟩ := h pre failed post hsplit hpre hfails
      have hcreated := hinv.store.createdIds
      have hnodup := hinv.store.named.nodup_listAll
      rw [hsplit] at hjob hcreated hnodup
      rw [List.map_append, List.nodup_append] at hnodup
      rw [heq]
      rcases List.mem_append.mp hjob with hjob | hjob
      · exact List.mem_append_left _ (trigger_of_due
          (fun j hj => hcreated j (List.mem_append_left _ hj)) hnodup.1 (hinv.recentInHistory now)
          hjob hok hdue)
      · rcases List.mem_cons.mp hjob with rfl | hjob
        · rw [hmissed] at hdue
          cases hdue
        · rw [hafter job hjob n hdue] at hgood
          cases hgood
  · intro job hjob hbad e he hid
    exfalso
    cases hfirst : firstFailure env now files with
    | none =>
      have hgood := List.find?_eq_none.mp hfirst job hjob
      exact hgood hbad
    | some failed =>
      obtain ⟨pre, post, hsplit, hpre, hfails⟩ := firstFailure_eq_some hfirst
      obtain ⟨before, state₁, _, err, rfl, hok, _, hturn, herr, heq⟩ :=
        tick_fails_at hinv clock hsplit hpre hfails
      rw [(h pre failed post hsplit hpre hfails).1] at hturn
      rw [heq, missed_error_writes hturn herr, List.append_nil, mem_triggers] at he
      obtain ⟨i, hi, _, _, hw⟩ := handleJobs_writes he
      -- two jobs of the loop with one id are the same job
      have hlookup : files.jobs.lookup i.jobId = some i := by
        apply hinv.store.named.lookup
        rw [hsplit]
        exact List.mem_append_left _ hi
      have hii : i.jobId = job.jobId := (Option.some.inj (handleJob_writes hw)).symm.trans hid
      rw [hii, hinv.store.named.lookup hjob] at hlookup
      cases hlookup
      rw [hpre job hi] at hbad
      cases hbad
  · intro later e he e' he'
    obtain ⟨hk, ⟨n, hid⟩, hrecorded⟩ := hdispatch.recorded he
    rw [hid] at hrecorded ⊢
    exact Kept.later (hinv.store.outcome (.tick now clock)) hk hrecorded later e' he'

theorem HarmlessFailure.of_split (hsplit : files.listAll = pre ++ job :: post)
    (hpre : ∀ j ∈ pre,
      turnFails env now files (recoverStaleActiveExecutions now files.state) j = false)
    (hfails : turnFails env now files (recoverStaleActiveExecutions now files.state) job = true)
    (hmissed : turnOf now files (recoverStaleActiveExecutions now files.state) job = .missed)
    (hpost : ∀ j ∈ post, ∀ n,
      turnOf now files (recoverStaleActiveExecutions now files.state) j ≠ .due n) :
    HarmlessFailure env now files := by
  intro pre' job' post' hsplit' hpre' hfails'
  rw [hsplit] at hsplit'
  -- both splits are at the first job that fails
  rcases List.append_eq_append_iff.mp hsplit' with ⟨mid, rfl, hmid⟩ | ⟨mid, rfl, hmid⟩
  · cases mid with
    | nil =>
      cases hmid
      exact ⟨hmissed, fun j hj n hdue => absurd hdue (hpost j hj n)⟩
    | cons j mid =>
      cases hmid
      rw [hpre' job (List.mem_append_right _ List.mem_cons_self)] at hfails
      cases hfails
  · cases mid with
    | nil =>
      cases hmid
      exact ⟨hmissed, fun j hj n hdue => absurd hdue (hpost j hj n)⟩
    | cons j mid =>
      cases hmid
      rw [hpre job' (List.mem_append_right _ List.mem_cons_self)] at hfails'
      cases hfails'

end Isolation

/-- **When a tick keeps its jobs apart.** -/
theorem tick_isolates_jobs {env : SchedulerEnv} {ops : List SchedulerOp}
    (h : Lib.Meets (schedulerStep env) SanitizedCompletion {} ops) (now : Int) (clock : String → ℕ) :
    Isolated env now clock (reached env ops).files ↔ HarmlessFailure env now (reached env ops).files :=
  ⟨HarmlessFailure.of_isolated (historyInv_reached h), Isolated.of_harmless (historyInv_reached h)⟩

/-! ### A leap day that is skipped beside other jobs -/

def skippingLeapDayJob : NewJob := { leapDayJob with misfirePolicy := .skipMissed }

/-- Before the leap day the first job has a run, which is completed, and the third one is
paused; the second one waits for the leap day. -/
def threeJobs : List SchedulerOp :=
  [.create everyMinuteJob (leapDay2096 - 120) 7, .create skippingLeapDayJob (leapDay2096 - 120) 8,
    .create everyMinuteJob (leapDay2096 - 120) 9, .edit .pause "job-eng-9" (leapDay2096 - 90),
    .tick (leapDay2096 - 60) (fun _ => 0),
    .complete "job-eng-7" (executionIdFor "job-eng-7" (leapDay2096 - 60)) true (leapDay2096 - 30)]

def storedSkippingLeapDayJob : ScheduledJob :=
  { storedLeapDayJob with
    jobId := "job-eng-8", misfirePolicy := .skipMissed, createdAt := leapDay2096 - 120
    updatedAt := leapDay2096 - 120 }

def storedMinuteJob : ScheduledJob where
  jobId := "job-eng-7"
  orchestratorId := "eng"
  schedule := .interval 60 none
  targetAction := .workflowStart "triage" []
  state := .enabled
  misfirePolicy := .fireOnceOnRecovery
  nextRunAt := some leapDay2096
  lastRunAt := some (leapDay2096 - 60)
  lastResult := some "succeeded"
  allowOverlap := false
  createdAt := leapDay2096 - 120
  updatedAt := leapDay2096 - 30

def storedPausedJob : ScheduledJob :=
  { storedMinuteJob with
    jobId := "job-eng-9", state := .paused, nextRunAt := some (leapDay2096 - 60), lastRunAt := none
    lastResult := none, updatedAt := leapDay2096 - 90 }

set_option maxRecDepth 2000 in
theorem listAll_threeJobs : (reached utcEnv threeJobs).files.listAll =
    [storedMinuteJob, storedSkippingLeapDayJob, storedPausedJob] := by
  rfl

/-- The tick finds the first job due, the second one behind and the third one paused. -/
theorem turns_threeJobs :
    turnOf (leapDay2096 + 60) (reached utcEnv threeJobs).files
        (recoverStaleActiveExecutions (leapDay2096 + 60) (reached utcEnv threeJobs).files.state)
        storedMinuteJob = .due leapDay2096 ∧
      turnOf (leapDay2096 + 60) (reached utcEnv threeJobs).files
        (recoverStaleActiveExecutions (leapDay2096 + 60) (reached utcEnv threeJobs).files.state)
        storedSkippingLeapDayJob = .missed ∧
      turnOf (leapDay2096 + 60) (reached utcEnv threeJobs).files
        (recoverStaleActiveExecutions (leapDay2096 + 60) (reached utcEnv threeJobs).files.state)
        storedPausedJob = .waiting := by
  decide

theorem tick_isolates_jobs_threeJobs :
    turnFails utcEnv (leapDay2096 + 60) (reached utcEnv threeJobs).files
        (recoverStaleActiveExecutions (leapDay2096 + 60) (reached utcEnv threeJobs).files.state)
        storedSkippingLeapDayJob = true ∧
      .trigger (triggerEnvelope (leapDay2096 + 60) storedMinuteJob
        (executionIdFor "job-eng-7" leapDay2096)) ∈
        (tick utcEnv (leapDay2096 + 60) (fun _ => 0) (reached utcEnv threeJobs).files).writes ∧
      Isolated utcEnv (leapDay2096 + 60) (fun _ => 0) (reached utcEnv threeJobs).files := by
  obtain ⟨hdue, hmissed, hwaits⟩ := turns_threeJobs
  have hfails : turnFails utcEnv (leapDay2096 + 60) (reached utcEnv threeJobs).files
      (recoverStaleActiveExecutions (leapDay2096 + 60) (reached utcEnv threeJobs).files.state)
      storedSkippingLeapDayJob = true := by
    obtain ⟨err, herr⟩ := @computeNextRunAt_leapDay (leapDay2096 + 60) (leapDay2096 + 60)
      (by decide) (by decide)
    have hnone : computeRecoveryNextRunAt utcEnv.zones storedSkippingLeapDayJob.schedule
        (leapDay2096 + 60) = .error err := herr
    rw [turnFails, hmissed]
    simp only [hnone]
    rfl
  have hcalls : Lib.Meets (schedulerStep utcEnv) SanitizedCompletion {} threeJobs :=
    ⟨trivial, trivial, trivial, trivial, trivial, sanitized_executionIdFor _ _, trivial⟩
  have hruns : turnFails utcEnv (leapDay2096 + 60) (reached utcEnv threeJobs).files
      (recoverStaleActiveExecutions (leapDay2096 + 60) (reached utcEnv threeJobs).files.state)
      storedMinuteJob = false := by
    rw [turnFails, hdue]
    decide
  have hisolated : Isolated utcEnv (leapDay2096 + 60) (fun _ => 0)
      (reached utcEnv threeJobs).files := by
    apply (tick_isolates_jobs hcalls (leapDay2096 + 60) fun _ => 0).mpr
    refine @HarmlessFailure.of_split _ _ _ [storedMinuteJob] [storedPausedJob] _ listAll_threeJobs
      ?_ hfails hmissed ?_
    · intro j hj
      obtain rfl := List.mem_singleton.mp hj
      exact hruns
    · intro j hj n h
      obtain rfl := List.mem_singleton.mp hj
      rw [hwaits] at h
      cases h
  refine ⟨hfails, hisolated.others storedMinuteJob ?_ leapDay2096 hdue hruns, hisolated⟩
  rw [listAll_threeJobs]
  exact List.mem_cons_self

/-! ### A leap day that is enqueued -/

/-- The leap day job has its trigger enqueued and is left as it was. -/
theorem leapDay_not_isolated :
    ¬ ∀ ops now clock, Isolated utcEnv now clock (reached utcEnv ops).files := by
  intro hall
  have hisolated := hall [.create leapDayJob (leapDay2096 - 60) 7] leapDay2096 fun _ => 0
  rw [reached_leapDay] at hisolated
  change Isolated utcEnv leapDay2096 (fun _ => 0) leapDayStore at hisolated
  obtain ⟨hdue, err, herr⟩ := @leapDay_turn leapDay2096 (by decide) (by decide)
  have hfails : turnFails utcEnv leapDay2096 leapDayStore
      (recoverStaleActiveExecutions leapDay2096 leapDayStore.state) storedLeapDayJob = true := by
    rw [turnFails, hdue]
    simp only [herr]
    rfl
  have hmem : storedLeapDayJob ∈ leapDayStore.listAll := by
    rw [listAll_leapDayStore]
    exact List.mem_cons_self
  obtain ⟨_, htick⟩ := @tick_leapDay leapDay2096 (by decide) (by decide) fun _ => 0
  have htrigger : triggerEnvelope leapDay2096 storedLeapDayJob
      (executionIdFor storedLeapDayJob.jobId leapDay2096) ∈
        triggers (tick utcEnv leapDay2096 (fun _ => 0) leapDayStore).writes := by
    rw [htick, mem_triggers]
    exact List.mem_cons_self
  obtain ⟨job', hlookup, hnext, _⟩ := hisolated.failing _ hmem hfails _ htrigger rfl
  rw [htick] at hlookup
  cases hlookup
  exact hnext rfl

end Direclaw.Automation
