import Direclaw.Automation.AtMostOnce

/-!
# Skipping missed runs

Under the policy `skip_missed` a run is dispatched only by a tick in the very second it
is due; a tick one second later takes it for missed. A job whose runs fall on ticks is
run on schedule, and that is shown for whole runs: every occurrence of the schedule is
dispatched by the first tick at or after it.
-/

namespace Direclaw.Automation

open Direclaw.Lib Direclaw.Orchestration

/-! ## Occurrences -/

/-- The times of a schedule from the run at `n` on. A cron expression is looked at on
whole minutes. -/
def Occurs (zones : TimeZones) (schedule : ScheduleConfig) (n o : Int) : Prop :=
  match schedule with
  | .once _ => o = n
  | .interval everySeconds _ => ∃ i : ℕ, o = n + i * everySeconds
  | .cron expression timezone =>
    o = n ∨ (n < o ∧ o % 60 = 0 ∧
      ∃ cron, parseCronExpression expression = .ok cron ∧ cronMatches zones cron o timezone = true)

/-- A cron job's next run is on a whole minute, or not before the epoch. -/
def OnMinute (schedule : ScheduleConfig) (n : Int) : Prop :=
  (∃ expression timezone, schedule = .cron expression timezone) → 0 ≤ n ∨ n % 60 = 0

section Occurrences

variable {zones : TimeZones} {schedule : ScheduleConfig} {n o now : Int} {next : Option Int}

theorem Occurs.le (h : Occurs zones schedule n o) : n ≤ o := by
  cases schedule with
  | once runAt => exact le_of_eq h.symm
  | interval everySeconds anchorAt =>
    obtain ⟨i, rfl⟩ := h
    have hnonneg : (0 : Int) ≤ i * everySeconds :=
      Int.mul_nonneg (Int.natCast_nonneg i) (Int.natCast_nonneg everySeconds)
    omega
  | cron expression timezone =>
    rcases h with rfl | ⟨hlt, _⟩
    · exact le_rfl
    · exact hlt.le

theorem nextMinute_le (hn : 0 ≤ n ∨ n % 60 = 0) (hlt : n < o) (ho : o % 60 = 0)
    (hmin : i64Min ≤ n) (hmax : o ≤ i64Max) :
    nextMinute n ≤ o ∧ nextMinute n % 60 = 0 ∧ n < nextMinute n := by
  have hle : (n.tdiv 60 + 1) * 60 ≤ o := by
    rcases le_or_gt 0 n with hpos | hneg
    · rw [Int.tdiv_eq_ediv_of_nonneg hpos]
      omega
    · have hq : n.tdiv 60 = -((-n) / 60) := by
        rw [← Int.tdiv_eq_ediv_of_nonneg (by omega : 0 ≤ -n), Int.neg_tdiv, Int.neg_neg]
      have hwhole : n % 60 = 0 := hn.resolve_left (not_le.mpr hneg)
      rw [hq]
      omega
  have hlow := (tdiv_sixty n).2
  have heq : nextMinute n = (n.tdiv 60 + 1) * 60 := i64Wrap_eq (by omega) (by omega)
  rw [heq]
  omega

theorem occurs_next_interval {e : ℕ} {a : Option Int} (he : 0 < e) (hcast : u64AsI64 e = e)
    (hmin : i64Min ≤ n) (ho : Occurs zones (.interval e a) n o) (hlt : n < o) (hmax : o ≤ i64Max)
    (h : computeNextRunAt zones (.interval e a) now (some n) = .ok next) :
    ∃ m, next = some m ∧ n < m ∧ Occurs zones (.interval e a) m o := by
  obtain ⟨i, rfl⟩ := ho
  obtain ⟨i, rfl⟩ : ∃ j, i = j + 1 := by
    cases i with
    | zero => simp at hlt
    | succ j => exact ⟨j, rfl⟩
  have hsplit : n + ((i + 1 : ℕ) : Int) * e = n + e + i * e := by
    rw [Int.natCast_succ, Int.add_mul, Int.one_mul]
    omega
  have hrest : (0 : Int) ≤ i * e := Int.mul_nonneg (Int.natCast_nonneg i) (Int.natCast_nonneg e)
  have hsum : i64SaturatingAdd n (u64AsI64 e) = n + e := by
    rw [hcast]
    exact i64SaturatingAdd_eq (by omega) (by omega)
  unfold computeNextRunAt at h
  simp only [he.ne', if_false, hsum] at h
  cases h
  exact ⟨n + e, rfl, by omega, i, hsplit⟩

theorem occurs_next_cron {expression timezone : String} (hn : 0 ≤ n ∨ n % 60 = 0)
    (hmin : i64Min ≤ n) (ho : Occurs zones (.cron expression timezone) n o) (hlt : n < o)
    (hmax : o ≤ i64Max)
    (h : computeNextRunAt zones (.cron expression timezone) now (some n) = .ok next) :
    ∃ m, next = some m ∧ n < m ∧ m % 60 = 0 ∧ Occurs zones (.cron expression timezone) m o := by
  obtain rfl | ⟨_, hwhole, cron, hcron, hmatch⟩ := ho
  · exact absurd hlt (lt_irrefl _)
  obtain ⟨hle, hminute, hafter⟩ := nextMinute_le hn hlt hwhole hmin hmax
  unfold computeNextRunAt at h
  simp only at h
  split at h
  · cases h
  · obtain ⟨cron', hcron', h⟩ := bind_eq_ok h
    rw [hcron] at hcron'
    cases hcron'
    split at h
    · next m hsearch =>
        cases h
        obtain ⟨i, hi, rfl, hfound, hbefore⟩ :=
          (searchCron_eq_some_iff (by simp only [Option.getD_some]; omega)
            (by simp only [Option.getD_some]; omega)).mp hsearch
        simp only [Option.getD_some] at *
        -- the occurrence is among the minutes that are searched, so it is not passed over
        obtain ⟨j, hj⟩ : ∃ j : ℕ, o = nextMinute n + 60 * j :=
          ⟨((o - nextMinute n) / 60).toNat, by omega⟩
        have hij : i ≤ j := by
          by_contra hlate
          have hno := hbefore j (by omega)
          rw [← hj, hmatch] at hno
          cases hno
        refine ⟨_, rfl, by omega, by omega, ?_⟩
        rcases Nat.lt_or_eq_of_le hij with hlt' | rfl
        · exact .inr ⟨by omega, hwhole, cron, hcron, hmatch⟩
        · exact .inl hj
    · cases h

/-- **The next run of a schedule.** It is the next occurrence: none is passed over. -/
theorem occurs_next (hvalid : validateSchedule zones schedule = .ok ())
    (honce : ¬ ∃ runAt, schedule = .once runAt) (hn : OnMinute schedule n) (hmin : i64Min ≤ n)
    (ho : Occurs zones schedule n o) (hlt : n < o) (hmax : o ≤ i64Max)
    (h : computeNextRunAt zones schedule now (some n) = .ok next) :
    ∃ m, next = some m ∧ n < m ∧ OnMinute schedule m ∧ Occurs zones schedule m o := by
  cases schedule with
  | once runAt => exact absurd ⟨runAt, rfl⟩ honce
  | interval e a =>
    obtain ⟨he, hcast⟩ := everySeconds_range hvalid rfl
    obtain ⟨m, hm, hlater, hoccurs⟩ := occurs_next_interval he hcast hmin ho hlt hmax h
    exact ⟨m, hm, hlater, (fun ⟨_, _, hs⟩ => by cases hs), hoccurs⟩
  | cron expression timezone =>
    obtain ⟨m, hm, hlater, hwhole, hoccurs⟩ :=
      occurs_next_cron (hn ⟨_, _, rfl⟩) hmin ho hlt hmax h
    exact ⟨m, hm, hlater, fun _ => .inr hwhole, hoccurs⟩

end Occurrences

/-! ## Whole runs -/

/-- The job is stored, enabled and skips missed runs, and the occurrence `o` of its schedule
is still to come. -/
def Awaits (env : SchedulerEnv) (k : String) (schedule : ScheduleConfig) (o : Int)
    (files : SchedulerFiles) : Prop :=
  ∃ job n, files.jobs.lookup k = some job ∧ job.state = .enabled ∧
    job.misfirePolicy = .skipMissed ∧ job.schedule = schedule ∧ job.nextRunAt = some n ∧
    OnMinute schedule n ∧ Occurs env.zones schedule n o

/-- A tick finds every job a next run. It does not find job `k` overdue; and if the job is due
it has no active execution in the way, and the run was not dispatched before. The other calls
leave the job's schedule alone. -/
def OnSchedule (env : SchedulerEnv) (k : String) (s : SchedulerSystem) : SchedulerOp → Prop
  | .tick now _ =>
    IsI64 now ∧ firstFailure env now s.files = none ∧
      ∀ job n, s.files.jobs.lookup k = some job → job.nextRunAt = some n →
        ¬ n < now ∧ (n = now →
          (job.allowOverlap = true ∨
            (recoverStaleActiveExecutions now s.files.state).isActive k = false) ∧
          ¬ AlreadyDispatched s.files s.files.state k n)
  | .complete _ executionId _ _ => Sanitized executionId
  | .edit _ jobId _ => jobId ≠ k
  | .create input _ nanos => newJobId input.orchestratorId nanos ≠ k

section Runs

variable {env : SchedulerEnv} {k : String} {schedule : ScheduleConfig} {o : Int}
  {s : SchedulerSystem} {now n : Int} {clock : String → ℕ} {job : ScheduledJob}

variable {op : SchedulerOp}

theorem OnSchedule.sanitized (h : OnSchedule env k s op) : SanitizedCompletion s op := by
  cases op with
  | complete _ _ _ _ => exact h
  | create _ _ _ => trivial
  | edit _ _ _ => trivial
  | tick _ _ => trivial

/-- The file of job `k` after a tick in the second that its run is due. -/
theorem OnSchedule.tick_due (hinv : HistoryInv env s.files) (h : OnSchedule env k s (.tick now clock))
    (hjob : s.files.jobs.lookup k = some job) (henabled : job.state = .enabled)
    (hnext : job.nextRunAt = some now) :
    ∃ next, computeNextRunAt env.zones job.schedule now (some now) = .ok next ∧
      (tick env now clock s.files).files.jobs.lookup k = some (dispatchedJob now job next) ∧
      .trigger (triggerEnvelope now job (executionIdFor k now)) ∈
        (tick env now clock s.files).writes := by
  obtain ⟨_, hfirst, hfree⟩ := h
  obtain ⟨_, hfree⟩ := hfree job now hjob hnext
  obtain ⟨hidle, hnew⟩ := hfree rfl
  obtain ⟨_, hid⟩ := hinv.store.mem_listAll hjob
  have hk : CreatedId job.jobId := (hinv.store.accepted hjob).created
  have hdue : turnOf now s.files (recoverStaleActiveExecutions now s.files.state) job = .due now := by
    rcases turnOf_cases now s.files (recoverStaleActiveExecutions now s.files.state) job with
      ⟨_, hw⟩ | ⟨m, _, hm, _, hrest⟩
    · exact absurd (hw henabled now hnext) (lt_irrefl _)
    rw [hnext] at hm
    cases hm
    rcases hrest with ⟨_, hlt, _⟩ | ⟨_, ⟨_, hoverlap, hactive⟩ | ⟨_, ⟨_, hd⟩ | ⟨ht, _⟩⟩⟩
    · exact absurd hlt (lt_irrefl _)
    · rw [hid] at hactive
      rcases hidle with hidle | hidle
      · rw [hoverlap] at hidle
        cases hidle
      · rw [hactive] at hidle
        cases hidle
    · rw [hid] at hd
      exact absurd hd hnew
    · exact ht
  obtain ⟨⟨state', runs⟩, hloop⟩ := loop_ok hinv clock hfirst
  have hok : (tick env now clock s.files).result = .ok runs := by
    unfold tick
    simp only [hloop]
  obtain ⟨files₁, state₁, hbefore, hturn⟩ := tick_lookup hinv.store hjob hok
  rw [(hinv.recentInHistory now).turnOf_eq hk hbefore, hdue] at hturn
  simp only [reduceCtorEq, false_and, or_false, false_or, exists_false, Turn.due.injEq,
    exists_eq_left'] at hturn
  obtain ⟨next, hcompute, hlookup, htrigger⟩ := hturn
  rw [nextAfterRun, if_neg (fun h => absurd h.1 (lt_irrefl _))] at hcompute
  exact ⟨next, hcompute, hlookup, htrigger⟩

theorem OnSchedule.tick_early (hinv : HistoryInv env s.files)
    (h : OnSchedule env k s (.tick now clock)) (hjob : s.files.jobs.lookup k = some job)
    (hnext : job.nextRunAt = some n) (hlt : now < n) :
    (tick env now clock s.files).files.jobs.lookup k = some job := by
  obtain ⟨⟨state', runs⟩, hloop⟩ := loop_ok hinv clock h.2.1
  have hok : (tick env now clock s.files).result = .ok runs := by
    unfold tick
    simp only [hloop]
  obtain ⟨files₁, state₁, hbefore, hturn⟩ := tick_lookup hinv.store hjob hok
  have hwaiting : turnOf now files₁ state₁ job = .waiting := by
    rcases turnOf_cases now files₁ state₁ job with ⟨ht, _⟩ | ⟨m, _, hm, hle, _⟩
    · exact ht
    · rw [hnext] at hm
      cases hm
      exact absurd hlt (not_lt.mpr hle)
  rw [hwaiting] at hturn
  simpa using hturn

theorem Awaits.tick (hinv : HistoryInv env s.files) (h : Awaits env k schedule o s.files)
    (hop : OnSchedule env k s (.tick now clock)) (honce : ¬ ∃ runAt, schedule = .once runAt)
    (hearly : now < o) (hmax : o ≤ i64Max) :
    Awaits env k schedule o (Automation.tick env now clock s.files).files := by
  obtain ⟨job, n, hjob, henabled, hpolicy, rfl, hnext, hminute, hoccurs⟩ := h
  have hlate : ¬ n < now := (hop.2.2 job n hjob hnext).1
  rcases lt_or_eq_of_le (not_lt.mp hlate) with hlt | rfl
  · refine ⟨job, n, ?_, henabled, hpolicy, rfl, hnext, hminute, hoccurs⟩
    exact hop.tick_early hinv hjob hnext hlt
  · obtain ⟨next, hcompute, hlookup, _⟩ := hop.tick_due hinv hjob henabled hnext
    obtain ⟨m, rfl, _, hminute', hoccurs'⟩ := occurs_next (hinv.store.accepted hjob).valid honce
      hminute hop.1.1 hoccurs hearly hmax hcompute
    exact ⟨_, m, hlookup, henabled, hpolicy, rfl, rfl, hminute', hoccurs'⟩

/-- The other calls. -/
theorem Awaits.keep (hinv : HistoryInv env s.files) (h : Awaits env k schedule o s.files)
    (hop : OnSchedule env k s op) (hnotick : ∀ now clock, op ≠ .tick now clock) :
    Awaits env k schedule o (schedulerStep env s op).files := by
  obtain ⟨job, n, hjob, henabled, hpolicy, hschedule, hnext, hrest⟩ := h
  rw [schedulerStep_files, op.outcome_files]
  rcases lookup_applyAll s.files (op.outcome env s.files).2 k with hsame | ⟨job', hnew, hid, hmem⟩
  · exact ⟨job, n, hsame.trans hjob, henabled, hpolicy, hschedule, hnext, hrest⟩
  rcases SchedulerOp.job_write hmem with ⟨input, now, nanos, rfl, hnewJob⟩ |
    ⟨change, jobId, now, job₀, rfl, hlookup, happly⟩ | ⟨now, clock, _, _, rfl, _⟩ |
    ⟨jobId, _, _, _, job₀, rfl, hlookup, rfl⟩
  · obtain ⟨_, hid', _⟩ := newJob_ok hnewJob
    exact absurd (hid'.symm.trans hid) hop
  · have hid' := (JobEdit.apply_keeps happly).1
    rw [hid, hinv.store.named hlookup] at hid'
    exact absurd hid'.symm hop
  · exact absurd rfl (hnotick now clock)
  · have hk : jobId = k := (hinv.store.named hlookup).symm.trans hid
    rw [hk, hjob] at hlookup
    cases hlookup
    exact ⟨_, n, hnew, henabled, hpolicy, hschedule, hnext, hrest⟩

theorem Awaits.step (hinv : HistoryInv env s.files) (h : Awaits env k schedule o s.files)
    (hop : OnSchedule env k s op) (honce : ¬ ∃ runAt, schedule = .once runAt)
    (hearly : ∀ now clock, op = .tick now clock → now < o) (hmax : o ≤ i64Max) :
    Awaits env k schedule o (schedulerStep env s op).files := by
  cases op with
  | tick now clock => exact h.tick hinv hop honce (hearly now clock rfl) hmax
  | create input now nanos => exact h.keep hinv hop (by simp)
  | edit change jobId now => exact h.keep hinv hop (by simp)
  | complete jobId executionId succeeded now => exact h.keep hinv hop (by simp)

theorem Awaits.run {ops : List SchedulerOp} (honce : ¬ ∃ runAt, schedule = .once runAt)
    (hmax : o ≤ i64Max) (hinv : HistoryInv env s.files) (h : Awaits env k schedule o s.files)
    (hops : Lib.Meets (schedulerStep env) (OnSchedule env k) s ops)
    (hearly : ∀ t ∈ tickTimes ops, t < o) :
    HistoryInv env (Lib.run (schedulerStep env) s ops).files ∧
      Awaits env k schedule o (Lib.run (schedulerStep env) s ops).files := by
  induction ops generalizing s with
  | nil => exact ⟨hinv, h⟩
  | cons op ops ih =>
    refine ih (hinv.step hops.1.sanitized) (h.step hinv hops.1 honce ?_ hmax) hops.2 ?_
    · rintro now clock rfl
      exact hearly now (List.mem_filterMap.mpr ⟨_, List.mem_cons_self, rfl⟩)
    · intro t ht
      obtain ⟨op', hmem, ht⟩ := List.mem_filterMap.mp ht
      exact hearly t (List.mem_filterMap.mpr ⟨op', List.mem_cons_of_mem _ hmem, ht⟩)

end Runs

/-- **Skip-missed jobs run on schedule** in every run whose ticks do not find the job overdue:
each occurrence of the schedule is dispatched by the first tick at or after it. -/
theorem skip_missed_job_runs_on_schedule {env : SchedulerEnv} {ops₀ ops pre post : List SchedulerOp}
    {k : String} {job : ScheduledJob} {n o now : Int} {clock : String → ℕ}
    (hclean : Lib.Meets (schedulerStep env) SanitizedCompletion {} ops₀)
    (hjob : (reached env ops₀).files.jobs.lookup k = some job) (henabled : job.state = .enabled)
    (hpolicy : job.misfirePolicy = .skipMissed) (honce : ¬ ∃ runAt, job.schedule = .once runAt)
    (hnext : job.nextRunAt = some n) (hminute : OnMinute job.schedule n)
    (hrun : Lib.Meets (schedulerStep env) (OnSchedule env k) (reached env ops₀) ops)
    (hoccurs : Occurs env.zones job.schedule n o) (hops : ops = pre ++ .tick now clock :: post)
    (hfirst : ∀ t ∈ tickTimes pre, t < o) (hle : o ≤ now) :
    ∃ e ∈ triggers (tick env now clock
        (Lib.run (schedulerStep env) (reached env ops₀) pre).files).writes,
      e.jobId = k ∧ e.executionId = executionIdFor k o := by
  subst hops
  obtain ⟨hpre, hrest⟩ := Lib.meets_append.mp hrun
  have htick := hrest.1
  have hstart : Awaits env k job.schedule o (reached env ops₀).files :=
    ⟨job, n, hjob, henabled, hpolicy, rfl, hnext, hminute, hoccurs⟩
  obtain ⟨hinv, job', n', hjob', henabled', _, _, hnext', _, hoccurs'⟩ :=
    hstart.run honce (hle.trans htick.1.2) (historyInv_reached hclean) hpre hfirst
  -- the tick is not late, so the run that it finds due is this occurrence
  have hlate : ¬ n' < now := (htick.2.2 job' n' hjob' hnext').1
  obtain rfl : n' = now := le_antisymm (hoccurs'.le.trans hle) (not_lt.mp hlate)
  obtain rfl : o = n' := le_antisymm hle hoccurs'.le
  obtain ⟨_, _, _, htrigger⟩ := htick.tick_due hinv hjob' henabled' hnext'
  refine ⟨_, mem_triggers.mpr htrigger, ?_, rfl⟩
  exact hinv.store.named hjob'

/-! ### A tick on time and a tick one second late -/

/-- A tick at which the job is due, and nothing else goes wrong. -/
theorem onSchedule_of_due {env : SchedulerEnv} {s : SchedulerSystem} {k : String} {now : Int}
    {clock : String → ℕ} (hnow : IsI64 now) (hnone : firstFailure env now s.files = none)
    (hnamed : Named s.files) (hview : s.files.view now k = some (.enabled, some now, .due now)) :
    OnSchedule env k s (.tick now clock) := by
  refine ⟨hnow, hnone, fun job n hjob hnext => ?_⟩
  obtain ⟨job', hjob', _, hnext', hturn⟩ := exists_of_view hview
  rw [hjob] at hjob'
  cases hjob'
  rw [hnext] at hnext'
  cases hnext'
  obtain ⟨_, _, _, _, hfree, hnew⟩ := turnOf_due hturn
  rw [hnamed hjob] at hfree hnew
  exact ⟨lt_irrefl _, fun _ => ⟨hfree, hnew⟩⟩

def skippingJob : NewJob := { everyMinuteJob with misfirePolicy := .skipMissed }

def skippingJobCreated : List SchedulerOp := [.create skippingJob 0 7]

def storedSkippingJob : ScheduledJob where
  jobId := "job-eng-7"
  orchestratorId := "eng"
  schedule := .interval 60 none
  targetAction := .workflowStart "triage" []
  state := .enabled
  misfirePolicy := .skipMissed
  nextRunAt := some 60
  allowOverlap := false
  createdAt := 0
  updatedAt := 0

theorem lookup_skippingJob :
    (reached utcEnv skippingJobCreated).files.jobs.lookup "job-eng-7" = some storedSkippingJob := rfl

def ticksOnTime : List SchedulerOp :=
  [.tick 60 (fun _ => 0), .complete "job-eng-7" "exec-job-eng-7-60" true 90, .tick 120 (fun _ => 0)]

theorem skip_missed_job_runs_on_schedule_second_minute :
    ∃ e ∈ triggers (tick utcEnv 120 (fun _ => 0) (Lib.run (schedulerStep utcEnv)
        (reached utcEnv skippingJobCreated) (ticksOnTime.take 2)).files).writes,
      e.jobId = "job-eng-7" ∧ e.executionId = executionIdFor "job-eng-7" 120 := by
  have hrun : Lib.Meets (schedulerStep utcEnv) (OnSchedule utcEnv "job-eng-7")
      (reached utcEnv skippingJobCreated) ticksOnTime := by
    refine ⟨?_, ?_, ?_, trivial⟩
    · exact onSchedule_of_due ⟨by decide, by decide⟩ (by decide) (storeInv_reached _).named
        (by decide)
    · exact (by decide : sanitizeId "exec-job-eng-7-60" = "exec-job-eng-7-60")
    · exact onSchedule_of_due ⟨by decide, by decide⟩ (by decide)
        (storeInv_reached (skippingJobCreated ++ ticksOnTime.take 2)).named (by decide)
  have hclean : Lib.Meets (schedulerStep utcEnv) SanitizedCompletion {} skippingJobCreated :=
    ⟨trivial, trivial⟩
  exact skip_missed_job_runs_on_schedule hclean lookup_skippingJob rfl rfl
    (by simp [storedSkippingJob]) rfl
    (fun ⟨_, _, hs⟩ => by cases hs) hrun ⟨1, by decide⟩ rfl (by decide) (by decide)

/-- Two ticks a minute apart; the run at 60 falls between them. -/
def ticksOffPhase : List SchedulerOp := [.tick 1 (fun _ => 0), .tick 61 (fun _ => 0)]

theorem late_tick_skips_run :
    ¬ ∀ ops₀ ops pre post k job n o now clock,
      (reached utcEnv ops₀).files.jobs.lookup k = some job → job.state = .enabled →
      job.misfirePolicy = .skipMissed → ¬ (∃ runAt, job.schedule = .once runAt) →
      job.nextRunAt = some n → OnMinute job.schedule n →
      (reached utcEnv ops₀).files.state.isActive k = false →
      (∀ op ∈ ops, ∃ t c, op = SchedulerOp.tick t c) →
      (tickTimes ops).IsChain (fun a b => a ≤ b ∧ b ≤ a + 60) →
      Occurs utcEnv.zones job.schedule n o → ops = pre ++ .tick now clock :: post →
      (∀ t ∈ tickTimes pre, t < o) → o ≤ now →
      ∃ e ∈ triggers (tick utcEnv now clock
          (Lib.run (schedulerStep utcEnv) (reached utcEnv ops₀) pre).files).writes,
        e.jobId = k ∧ e.executionId = executionIdFor k o := by
  intro hall
  obtain ⟨e, he, _⟩ := hall skippingJobCreated ticksOffPhase [.tick 1 fun _ => 0] [] "job-eng-7" _ 60 60
    61 (fun _ => 0) lookup_skippingJob rfl rfl (by simp [storedSkippingJob]) rfl
    (fun ⟨_, _, hs⟩ => by cases hs) (by decide) (by simp [ticksOffPhase])
    (by decide) ⟨0, by decide⟩ rfl (by decide) (by decide)
  have hnone : (triggers (tick utcEnv 61 (fun _ => 0) (Lib.run (schedulerStep utcEnv)
      (reached utcEnv skippingJobCreated) [.tick 1 fun _ => 0]).files).writes).length = 0 := by
    decide
  rw [List.length_eq_zero_iff.mp hnone] at he
  cases he

end Direclaw.Automation
