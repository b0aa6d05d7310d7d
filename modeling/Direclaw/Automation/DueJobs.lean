import Direclaw.Automation.StoreInvariant
import Direclaw.Automation.Utc

/-!
# Jobs that can still fire

Two properties of single jobs over whole runs: after a tick no enabled job is left
due, and an enabled job has a next run. The first fails for a job that is due for a
run which the scheduler has dispatched before; the second for a finished job that is
resumed or that is given a new one-time schedule.
-/

namespace Direclaw.Automation

open Direclaw.Lib Direclaw.Orchestration

/-! ## What a tick makes of a job -/

section Tick

variable {env : SchedulerEnv} {now : Int} {clock : String → ℕ} {files : SchedulerFiles}
  {job : ScheduledJob} {k : String} {runs : List DispatchedRun}

theorem StoreInv.createdIds (h : StoreInv env files) : ∀ job ∈ files.listAll, CreatedId job.jobId :=
  fun _ hjob => (h.accepted (h.named.lookup hjob)).created

theorem StoreInv.mem_listAll (h : StoreInv env files) (hjob : files.jobs.lookup k = some job) :
    job ∈ files.listAll ∧ job.jobId = k :=
  ⟨SchedulerFiles.mem_listAll.mpr ⟨k, hjob⟩, h.named hjob⟩

/-- The job file after a tick, by the turn that the job took. -/
theorem tick_lookup (hinv : StoreInv env files) (hjob : files.jobs.lookup k = some job)
    (hok : (tick env now clock files).result = .ok runs) :
    ∃ files₁ state₁,
      Elsewhere job.jobId files files₁ (recoverStaleActiveExecutions now files.state) state₁ ∧
      ((((turnOf now files₁ state₁ job = .waiting ∨ turnOf now files₁ state₁ job = .heldBack) ∨
          ∃ n, turnOf now files₁ state₁ job = .duplicate n) ∧
        (tick env now clock files).files.jobs.lookup k = some job) ∨
      (turnOf now files₁ state₁ job = .missed ∧
        ∃ next, computeRecoveryNextRunAt env.zones job.schedule now = .ok next ∧
          (tick env now clock files).files.jobs.lookup k = some (skippedJob now job next)) ∨
      ∃ n, turnOf now files₁ state₁ job = .due n ∧
        ∃ next, nextAfterRun env now job n = .ok next ∧
          (tick env now clock files).files.jobs.lookup k = some (dispatchedJob now job next) ∧
          .trigger (triggerEnvelope now job (executionIdFor k n)) ∈
            (tick env now clock files).writes) := by
  obtain ⟨hmem, rfl⟩ := hinv.mem_listAll hjob
  obtain ⟨files₁, state₁, state₂, made, hbefore, hturn, hafter, hwrites⟩ :=
    tick_at hinv.createdIds hinv.named.nodup_listAll hmem hok
  have hstart : files₁.jobs.lookup job.jobId = some job := hbefore.same.job.trans hjob
  have hend := hafter.same.job
  refine ⟨files₁, state₁, hbefore, ?_⟩
  rcases handleJob_cases env now (clock job.jobId) files₁ state₁ job with
    ⟨ht, he⟩ | ⟨ht, ⟨_, _, he⟩ | ⟨next, hn, he⟩⟩ | ⟨n, ht, he⟩ |
    ⟨n, ht, ⟨_, _, he⟩ | ⟨next, hn, he⟩⟩
  all_goals rw [he] at hturn hend
  · exact .inl ⟨.inl ht, hend.trans hstart⟩
  · cases hturn
  · refine .inr (.inl ⟨ht, next, hn, hend.trans ?_⟩)
    exact (SchedulerFiles.lookup_apply_job _ _ _).trans (if_pos rfl)
  · exact .inl ⟨.inr ⟨n, ht⟩, hend.trans hstart⟩
  · cases hturn
  · refine .inr (.inr ⟨n, ht, next, hn, hend.trans ?_, ?_⟩)
    · exact (SchedulerFiles.lookup_apply_job _ _ _).trans (if_pos rfl)
    · rw [hwrites _ rfl, he]
      exact List.mem_cons_self

end Tick

/-! ## No due job gets stuck -/

/-- The job is finished, or its next run is still to come. -/
def Advanced (now : Int) (job : ScheduledJob) : Prop :=
  (job.nextRunAt = none ∧ job.state = .disabled) ∨ ∃ n, job.nextRunAt = some n ∧ now < n

/-- The job has a next run. If that is due and not skipped as missed, it is not one that
has been dispatched before; and the clock has not come to the end of its range. -/
def CanAdvance (now : Int) (files : SchedulerFiles) (job : ScheduledJob) : Prop :=
  ∃ n, job.nextRunAt = some n ∧ (n ≤ now →
    (¬ (n < now ∧ job.misfirePolicy = .skipMissed) →
      ¬ AlreadyDispatched files files.state job.jobId n) ∧
    ((∃ e a, job.schedule = .interval e a) → now < i64Max))

section Advance

variable {env : SchedulerEnv} {now : Int} {clock : String → ℕ} {files : SchedulerFiles}
  {job : ScheduledJob} {k : String} {runs : List DispatchedRun}

/-- Whatever is computed during a tick at `now` is the run after one at `now`. -/
theorem nextAfterRun_eq (env : SchedulerEnv) {n : Int} (hn : n ≤ now)
    (hmissed : ¬ (n < now ∧ job.misfirePolicy = .skipMissed)) :
    nextAfterRun env now job n = computeRecoveryNextRunAt env.zones job.schedule now ∨
      nextAfterRun env now job n = computeNextRunAt env.zones job.schedule now (some now) := by
  unfold nextAfterRun
  split
  · exact .inl rfl
  · next hrecover =>
      right
      have hnow : n = now := by
        by_contra hne
        have hlt : n < now := lt_of_le_of_ne hn hne
        cases hpolicy : job.misfirePolicy with
        | fireOnceOnRecovery => exact hrecover ⟨hlt, hpolicy⟩
        | skipMissed => exact hmissed ⟨hlt, hpolicy⟩
      rw [hnow]

/-- The next run after one at `now`, when there is one, is later. -/
theorem next_later {next : Option Int} (hnow : IsI64 now) (hjob : Accepted env.zones job)
    (h : computeRecoveryNextRunAt env.zones job.schedule now = .ok next ∨
      computeNextRunAt env.zones job.schedule now (some now) = .ok next) :
    (next = none ∧ ¬ ∃ e a, job.schedule = .interval e a) ∨
      ∃ m, next = some m ∧
        (now < m ↔ ((∃ e a, job.schedule = .interval e a) → now < i64Max)) := by
  have hevery : ∀ e a, job.schedule = .interval e a → 0 < u64AsI64 e :=
    fun e a hs => everySeconds_pos hjob.valid hs
  have hcompute : computeNextRunAt env.zones job.schedule now (some now) = .ok next := by
    rcases h with h | h
    · unfold computeRecoveryNextRunAt at h
      split at h
      · next runAt hs =>
          cases h
          rw [hs]
          rfl
      · exact h
      · exact h
    · exact h
  cases next with
  | none =>
    obtain ⟨runAt, hs, _⟩ := (computeNextRunAt_eq_none hcompute).mp rfl
    exact .inl ⟨rfl, by rw [hs]; simp⟩
  | some m => exact .inr ⟨m, rfl, lt_computeNextRunAt hnow hevery hcompute⟩

/-- A job that was moved on to `next`, and disabled if there is no next run. -/
theorem advanced_iff {job' : ScheduledJob} {next : Option Int} (hnow : IsI64 now)
    (hjob : Accepted env.zones job)
    (h : computeRecoveryNextRunAt env.zones job.schedule now = .ok next ∨
      computeNextRunAt env.zones job.schedule now (some now) = .ok next)
    (hnext : job'.nextRunAt = next) (hstate : next = none → job'.state = .disabled) :
    Advanced now job' ↔ ((∃ e a, job.schedule = .interval e a) → now < i64Max) := by
  rcases next_later hnow hjob h with ⟨rfl, hno⟩ | ⟨m, rfl, hm⟩
  · exact ⟨fun _ hi => absurd hi hno, fun _ => .inl ⟨hnext, hstate rfl⟩⟩
  · rw [← hm]
    constructor
    · rintro (⟨hnone, _⟩ | ⟨n, hn, hlt⟩)
      · rw [hnext] at hnone
        cases hnone
      · rw [hnext] at hn
        cases hn
        exact hlt
    · exact fun hlt => .inr ⟨m, hnext, hlt⟩

/-- The store behind one turn: a job that is neither waiting nor held back is advanced
exactly when it is not a duplicate and the clock leaves room. -/
theorem tick_advanced_iff (hinv : StoreInv env files) (hnow : IsI64 now)
    (hok : (tick env now clock files).result = .ok runs) (hjob : files.jobs.lookup k = some job)
    (henabled : job.state = .enabled)
    (hfree : turnOf now files (recoverStaleActiveExecutions now files.state) job ≠ .heldBack) :
    ∃ job', (tick env now clock files).files.jobs.lookup k = some job' ∧
      (CanAdvance now files job → Advanced now job') ∧
      (RecentInHistory files files.state → Advanced now job' → CanAdvance now files job) := by
  have haccepted := hinv.accepted hjob
  obtain ⟨files₁, state₁, hbefore, hturn⟩ := tick_lookup hinv hjob hok
  have hback : ∀ {n}, AlreadyDispatched files₁ state₁ job.jobId n →
      AlreadyDispatched files files.state job.jobId n := hbefore.alreadyDispatched
  rcases turnOf_cases now files₁ state₁ job with ⟨ht, hlater⟩ | ⟨n, _, hnext, hle, ⟨ht, hmissed⟩ |
    ⟨hmissed, ⟨ht, _⟩ | ⟨_, ⟨ht, hd⟩ | ⟨ht, hnot⟩⟩⟩⟩
  all_goals simp only [ht, reduceCtorEq, false_and, or_false, false_or, true_and, exists_false,
    or_true, Turn.duplicate.injEq, Turn.due.injEq, exists_eq', exists_eq_left'] at hturn
  · -- still waiting
    refine ⟨job, hturn, ?_, ?_⟩
    · rintro ⟨n, hn, _⟩
      exact .inr ⟨n, hn, hlater henabled n hn⟩
    · rintro - (⟨_, hdisabled⟩ | ⟨n, hn, hlt⟩)
      · rw [henabled] at hdisabled
        cases hdisabled
      · exact ⟨n, hn, fun hle => absurd hlt (not_lt.mpr hle)⟩
  · obtain ⟨next, hcompute, hlookup⟩ := hturn
    refine ⟨_, hlookup, ?_⟩
    rw [advanced_iff hnow haccepted (.inl hcompute) rfl fun hnone => by simp [skippedJob, hnone]]
    constructor
    · rintro ⟨m, hm, hcan⟩
      rw [hnext] at hm
      cases hm
      exact (hcan hle).2
    · exact fun _ hroom => ⟨n, hnext, fun _ => ⟨fun h => absurd hmissed h, hroom⟩⟩
  · -- held back now means held back when the tick began
    rcases turnOf_elsewhere now hbefore with heq | ⟨_, _, hdue, _⟩
    · exact absurd (heq.symm.trans ht) hfree
    · rw [ht] at hdue
      cases hdue
  · refine ⟨job, hturn, ?_, ?_⟩
    · rintro ⟨m, hm, hcan⟩
      rw [hnext] at hm
      cases hm
      exact absurd (hback hd) ((hcan hle).1 hmissed)
    · rintro - (⟨_, hdisabled⟩ | ⟨m, hm, hlt⟩)
      · rw [henabled] at hdisabled
        cases hdisabled
      · rw [hnext] at hm
        cases hm
        exact absurd hle (not_le.mpr hlt)
  · obtain ⟨next, hcompute, hlookup, _⟩ := hturn
    refine ⟨_, hlookup, ?_⟩
    have hcompute' : computeRecoveryNextRunAt env.zones job.schedule now = .ok next ∨
        computeNextRunAt env.zones job.schedule now (some now) = .ok next := by
      rcases nextAfterRun_eq env hle hmissed with heq | heq
      · exact .inl (heq ▸ hcompute)
      · exact .inr (heq ▸ hcompute)
    rw [advanced_iff hnow haccepted hcompute' rfl fun hnone => by simp [dispatchedJob, hnone]]
    constructor
    · rintro ⟨m, hm, hcan⟩
      rw [hnext] at hm
      cases hm
      exact (hcan hle).2
    · intro hrecent hroom
      refine ⟨n, hnext, fun _ => ⟨fun _ hd => hnot ?_, hroom⟩⟩
      -- a run that was recent when the tick began is in the history
      rcases hd with hd | hd
      · exact .inr (hbefore.same.history _ ▸ hrecent haccepted.created hd)
      · exact .inr (hbefore.same.history _ ▸ hd)

/-- **No due job gets stuck**, unless it is due for a run that was dispatched before, has
no next run at all, or the clock is at its end; and these are the only ones that do. -/
theorem tick_advances_enabled_jobs {ops : List SchedulerOp} (hnow : IsI64 now)
    (hok : (tick env now clock (reached env ops).files).result = .ok runs)
    (hjob : (reached env ops).files.jobs.lookup k = some job) (henabled : job.state = .enabled)
    (hfree : turnOf now (reached env ops).files
      (recoverStaleActiveExecutions now (reached env ops).files.state) job ≠ .heldBack) :
    ∃ job', (tick env now clock (reached env ops).files).files.jobs.lookup k = some job' ∧
      (CanAdvance now (reached env ops).files job → Advanced now job') ∧
      (Lib.Meets (schedulerStep env) SanitizedCompletion {} ops →
        Advanced now job' → CanAdvance now (reached env ops).files job) := by
  obtain ⟨job', hlookup, hcan, hmust⟩ :=
    tick_advanced_iff (storeInv_reached ops) hnow hok hjob henabled hfree
  refine ⟨job', hlookup, hcan, fun hclean => hmust ?_⟩
  exact (historyInv_reached hclean).recent.recentInHistory

end Advance

/-! ### A run asked for twice in one second -/

def utcEnv : SchedulerEnv where
  runtimeRoot := "/srv/direclaw"
  zones := utc

def everyMinuteJob : NewJob where
  orchestratorId := "eng"
  schedule := .interval 60 none
  targetAction := .workflowStart "triage" []
  misfirePolicy := .fireOnceOnRecovery
  allowOverlap := false

def createdJob : List SchedulerOp := [.create everyMinuteJob 0 7]

/-- The second `run_now` comes in the second of the first one. -/
def runNowTwice : List SchedulerOp :=
  [.create everyMinuteJob 0 7, .edit .runNow "job-eng-7" 10, .tick 10 (fun _ => 0),
    .complete "job-eng-7" "exec-job-eng-7-10" true 10, .edit .runNow "job-eng-7" 10]

def SchedulerFiles.view (files : SchedulerFiles) (now : Int) (k : String) :
    Option (JobState × Option Int × Turn) :=
  (files.jobs.lookup k).map fun job =>
    (job.state, job.nextRunAt,
      turnOf now files (recoverStaleActiveExecutions now files.state) job)

theorem exists_of_view {files : SchedulerFiles} {now : Int} {k : String} {state : JobState}
    {next : Option Int} {turn : Turn} (h : files.view now k = some (state, next, turn)) :
    ∃ job, files.jobs.lookup k = some job ∧ job.state = state ∧ job.nextRunAt = next ∧
      turnOf now files (recoverStaleActiveExecutions now files.state) job = turn := by
  obtain ⟨job, hjob, heq⟩ := Option.map_eq_some_iff.mp h
  obtain ⟨hstate, heq⟩ := Prod.mk.inj heq
  obtain ⟨hnext, hturn⟩ := Prod.mk.inj heq
  exact ⟨job, hjob, hstate, hnext, hturn⟩

theorem tick_advances_enabled_jobs_first_minute :
    ∃ job job', (reached utcEnv createdJob).files.jobs.lookup "job-eng-7" = some job ∧
      (tick utcEnv 60 (fun _ => 0) (reached utcEnv createdJob).files).files.jobs.lookup
        "job-eng-7" = some job' ∧ Advanced 60 job' := by
  obtain ⟨job, hjob, henabled, hnext, hturn⟩ := exists_of_view
    (by decide : (reached utcEnv createdJob).files.view 60 "job-eng-7" =
      some (.enabled, some 60, .due 60))
  have hnow : IsI64 60 := ⟨by decide, by decide⟩
  have hok : (tick utcEnv 60 (fun _ => 0) (reached utcEnv createdJob).files).result =
      .ok [⟨"job-eng-7", "exec-job-eng-7-60", 60⟩] := by decide
  obtain ⟨job', hjob', hadvanced, _⟩ :=
    tick_advances_enabled_jobs hnow hok hjob henabled (by simp [hturn])
  refine ⟨job, job', hjob, hjob', hadvanced ⟨60, hnext, fun _ => ⟨fun _ => ?_, fun _ => by decide⟩⟩⟩
  rw [(storeInv_reached createdJob).named hjob]
  rintro (h | h)
  · cases h
  · revert h
    decide

theorem runNowTwice_stuck :
    ¬ ∀ ops now clock runs k job, IsI64 now →
      (tick utcEnv now clock (reached utcEnv ops).files).result = .ok runs →
      (reached utcEnv ops).files.jobs.lookup k = some job → job.state = .enabled →
      turnOf now (reached utcEnv ops).files
        (recoverStaleActiveExecutions now (reached utcEnv ops).files.state) job ≠ .heldBack →
      ∃ job', (tick utcEnv now clock (reached utcEnv ops).files).files.jobs.lookup k = some job' ∧
        Advanced now job' := by
  intro hall
  obtain ⟨job, hjob, henabled, hnext, hturn⟩ := exists_of_view
    (by decide : (reached utcEnv runNowTwice).files.view 10 "job-eng-7" =
      some (.enabled, some 10, .duplicate 10))
  obtain ⟨job', hjob', hadvanced⟩ := hall runNowTwice 10 (fun _ => 0) [] "job-eng-7" job
    ⟨by decide, by decide⟩ (by decide) hjob henabled (by simp [hturn])
  obtain ⟨job'', hjob'', henabled'', hnext'', _⟩ := exists_of_view
    (by decide : (tick utcEnv 10 (fun _ => 0) (reached utcEnv runNowTwice).files).files.view
      10 "job-eng-7" = some (.enabled, some 10, .duplicate 10))
  rw [hjob'] at hjob''
  cases hjob''
  rcases hadvanced with ⟨hnone, _⟩ | ⟨n, hn, hlt⟩
  · rw [hnext''] at hnone
    cases hnone
  · rw [hnext''] at hn
    cases hn
    exact absurd hlt (by decide)

/-! ## Enabled means scheduled -/

def Scheduled (job : ScheduledJob) : Prop := job.state = .enabled → job.nextRunAt ≠ none

/-- A job is resumed only while it has a next run, and an enabled job is given a one-time
schedule only before its first run. -/
def KeepsScheduled (s : SchedulerSystem) : SchedulerOp → Prop
  | .edit .resume jobId _ =>
    ∀ job, s.files.jobs.lookup jobId = some job → validTransition job.state .enabled = true →
      job.nextRunAt ≠ none
  | .edit (.update patch) jobId _ =>
    ∀ job runAt, s.files.jobs.lookup jobId = some job → patch.schedule = some (.once runAt) →
      job.state = .enabled → job.lastRunAt = none
  | .edit .pause .. | .edit .delete .. | .edit .runNow .. => True
  | .create .. | .tick .. | .complete .. => True

section Scheduled

variable {env : SchedulerEnv}

theorem KeepsScheduled.edit {s : SchedulerSystem} {change : JobEdit} {jobId : String} {now : Int}
    {job job' : ScheduledJob} (hop : KeepsScheduled s (.edit change jobId now))
    (hlookup : s.files.jobs.lookup jobId = some job) (hjob : Scheduled job)
    (h : change.apply env.zones jobId now job = .ok job') : Scheduled job' := by
  intro henabled
  cases change with
  | update patch =>
    obtain ⟨_, _, hstate, _, _, ⟨_, _, hnext⟩ | ⟨schedule, hpatch, _, _, hnext⟩⟩ := updateJob_ok h
    · rw [hnext]
      exact hjob (hstate ▸ henabled)
    · intro hnone
      obtain ⟨runAt, hs, hlast⟩ := (computeNextRunAt_eq_none hnext).mp hnone
      rw [hop job runAt hlookup (hpatch.trans (congrArg some hs)) (hstate ▸ henabled)] at hlast
      cases hlast
  | pause | delete =>
    rw [(moveJob_ok h).2] at henabled
    cases henabled
  | resume =>
    obtain ⟨hvalid, rfl⟩ := moveJob_ok h
    exact hop job hlookup hvalid
  | runNow =>
    rw [(runNow_ok h).2]
    exact fun hnone => by cases hnone

theorem KeepsScheduled.step {s : SchedulerSystem} {op : SchedulerOp} (hop : KeepsScheduled s op)
    (h : JobsMeet Scheduled s.files) :
    JobsMeet Scheduled (schedulerStep env s op).files := by
  rw [schedulerStep_files, op.outcome_files]
  refine h.applyAll fun job' hwrite => ?_
  rcases SchedulerOp.job_write hwrite with ⟨input, now, nanos, _, hnew⟩ |
    ⟨change, jobId, now, job, rfl, hlookup, happly⟩ |
    ⟨now, clock, job, next, _, hmem, hjob'⟩ | ⟨_, _, _, _, job, _, hlookup, rfl⟩
  · obtain ⟨_, _, _, _, _, _, hnext⟩ := newJob_ok hnew
    rintro - hnone
    obtain ⟨_, _, hlast⟩ := (computeNextRunAt_eq_none hnext).mp hnone
    cases hlast
  · exact hop.edit hlookup (h hlookup) happly
  · -- a tick disables a job that has no next run
    rcases hjob' with rfl | rfl
    all_goals
      intro henabled hnone
      obtain rfl : next = none := hnone
      cases henabled
  · have hjob : Scheduled job := h hlookup
    exact hjob

/-- **Enabled means scheduled**, in every store that such calls lead to. -/
theorem enabled_jobs_have_next_run {ops : List SchedulerOp}
    (h : Lib.Meets (schedulerStep env) KeepsScheduled {} ops) :
    JobsMeet Scheduled (reached env ops).files := by
  exact Lib.run_invariant (I := fun s : SchedulerSystem => JobsMeet Scheduled s.files)
    (fun _ _ hI hop => hop.step hI) (fun _ _ hk => by cases hk) h

end Scheduled

/-! ### A finished job is resumed -/

def reminderJob : NewJob where
  orchestratorId := "eng"
  schedule := .once 10
  targetAction := .workflowStart "triage" []
  misfirePolicy := .fireOnceOnRecovery
  allowOverlap := false

def pausedReminder : List SchedulerOp :=
  [.create reminderJob 0 7, .edit .pause "job-eng-7" 1, .edit .resume "job-eng-7" 2,
    .tick 10 fun _ => 0]

/-- Resumed after it has run. -/
def resumedReminder : List SchedulerOp :=
  [.create reminderJob 0 7, .tick 10 (fun _ => 0), .edit .resume "job-eng-7" 20]

theorem enabled_jobs_have_next_run_pausedReminder :
    JobsMeet Scheduled (reached utcEnv pausedReminder).files := by
  refine enabled_jobs_have_next_run ⟨trivial, trivial, ?_, trivial, trivial⟩
  intro job hjob _
  obtain ⟨job', hjob', _, hnext, _⟩ := exists_of_view
    (by decide : (reached utcEnv (pausedReminder.take 2)).files.view 2 "job-eng-7" =
      some (.paused, some 10, .waiting))
  obtain rfl : job = job' := Option.some.inj (hjob.symm.trans hjob')
  simp [hnext]

theorem resumedReminder_not_scheduled :
    ¬ ∀ ops, JobsMeet Scheduled (reached utcEnv ops).files := by
  intro hall
  obtain ⟨job, hjob, henabled, hnext, _⟩ := exists_of_view
    (by decide : (reached utcEnv resumedReminder).files.view 20 "job-eng-7" =
      some (.enabled, none, .waiting))
  exact hall resumedReminder hjob henabled hnext

end Direclaw.Automation
