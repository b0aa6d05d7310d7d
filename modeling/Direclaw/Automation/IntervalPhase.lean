import Direclaw.Automation.AtMostOnce
import Mathlib.Data.Int.ModEq

/-!
# The phase of interval jobs

A job with an anchor runs at the times that are the anchor modulo its interval. The next
run is counted from the time of the tick, so a tick that takes a job up late moves the job
off its anchor, under either misfire policy. In a run whose late ticks fall on the phase by
themselves every next run stays on it, and none is passed over.
-/

namespace Direclaw.Automation

open Direclaw.Lib Direclaw.Orchestration

/-! ## On the phase -/

/-- The times of a phase that are still to come at `now`. -/
def Upcoming (e : ℕ) (a now : Int) : Set Int := {x | now < x ∧ x ≡ a [ZMOD e]}

/-- One interval from now is the first time of the phase exactly when now is one. -/
theorem isLeast_add_iff {e : ℕ} {a now : Int} (he : 0 < e) :
    IsLeast (Upcoming e a now) (now + e) ↔ now ≡ a [ZMOD e] := by
  have hshift : now + e ≡ now [ZMOD e] := Int.add_modEq_right
  constructor
  · intro h
    exact hshift.symm.trans h.1.2
  · intro h
    refine ⟨⟨by omega, hshift.trans h⟩, ?_⟩
    rintro x ⟨hlt, hx⟩
    have hdvd : (e : Int) ∣ x - now := (h.trans hx.symm).dvd
    have hle := Int.le_of_dvd (by omega) hdvd
    omega

/-- An anchored job's next run is on the phase. -/
def OnPhase (job : ScheduledJob) : Prop :=
  ∀ e a m, job.schedule = .interval e (some a) → job.nextRunAt = some m → m ≡ a [ZMOD e]

/-- The turn comes to the job: it is due and nothing holds it back. -/
def TakenUp (now : Int) (files : SchedulerFiles) (job : ScheduledJob) : Prop :=
  turnOf now files (recoverStaleActiveExecutions now files.state) job ≠ .waiting ∧
    turnOf now files (recoverStaleActiveExecutions now files.state) job ≠ .heldBack

instance (now : Int) (files : SchedulerFiles) (job : ScheduledJob) :
    Decidable (TakenUp now files job) := inferInstanceAs (Decidable (_ ∧ _))

/-- A tick takes an anchored job up in the second it is due, or late at a time of the phase;
and the clock leaves room for the interval. A new schedule counts from its anchor or from a
run on the phase, and a run asked for is on the phase. -/
def KeepsPhase (s : SchedulerSystem) : SchedulerOp → Prop
  | .tick now _ =>
    ∀ k job e a n, s.files.jobs.lookup k = some job → job.schedule = .interval e (some a) →
      job.nextRunAt = some n → TakenUp now s.files job →
      i64Min ≤ now ∧ now + e ≤ i64Max ∧ (n < now → now ≡ a [ZMOD e])
  | .create input _ _ =>
    ∀ e a, input.schedule = .interval e (some a) → i64Min ≤ a ∧ a + e ≤ i64Max
  | .edit (.update patch) jobId _ =>
    ∀ job e a, s.files.jobs.lookup jobId = some job →
      patch.schedule = some (.interval e (some a)) →
      i64Min ≤ job.lastRunAt.getD a ∧ job.lastRunAt.getD a + e ≤ i64Max ∧
        job.lastRunAt.getD a ≡ a [ZMOD e]
  | .edit .runNow jobId now =>
    ∀ job e a, s.files.jobs.lookup jobId = some job → job.schedule = .interval e (some a) →
      now ≡ a [ZMOD e]
  | .edit .pause .. | .edit .resume .. | .edit .delete .. | .complete .. => True

/-! ## What a call writes -/

section Writes

variable {env : SchedulerEnv} {now : Int} {files : SchedulerFiles} {state : SchedulerState}
  {job job' : ScheduledJob}

variable {a : Option Int} {e : ℕ}

theorem computeNextRunAt_interval {zones : TimeZones} {a last next : Option Int}
    (h : computeNextRunAt zones (.interval e a) now last = .ok next) :
    next = some (i64SaturatingAdd (last.getD (a.getD now)) (u64AsI64 e)) := by
  unfold computeNextRunAt at h
  simp only at h
  split at h
  · cases h
  · cases last <;> cases h <;> rfl

theorem recovery_interval {zones : TimeZones} :
    computeRecoveryNextRunAt zones (.interval e a) now =
      computeNextRunAt zones (.interval e a) now (some now) := rfl

/-- A write of the loop is a write of a turn, and as that job sees it the turn is taken
where the loop began. -/
theorem handleJobs_turn {clock : String → ℕ} {jobs : List ScheduledJob}
    {dispatched : List DispatchedRun} {w : SchedulerWrite}
    (hcreated : ∀ job ∈ jobs, CreatedId job.jobId) (hnodup : (jobs.map (·.jobId)).Nodup)
    (h : w ∈ (handleJobs env now clock jobs files state dispatched).writes) :
    ∃ job ∈ jobs, ∃ files₁ state₁, Elsewhere job.jobId files files₁ state state₁ ∧
      w ∈ (handleJob env now (clock job.jobId) files₁ state₁ job).writes := by
  induction jobs generalizing files state dispatched with
  | nil => cases h
  | cons first jobs ih =>
    cases hresult : (handleJob env now (clock first.jobId) files state first).result with
    | error err =>
      rw [handleJobs_cons_error hresult] at h
      exact ⟨first, List.mem_cons_self, files, state, Elsewhere.refl _ _ _, h⟩
    | ok made =>
      obtain ⟨state', made⟩ := made
      rw [handleJobs_cons_ok hresult] at h
      rcases List.mem_append.mp h with h | h
      · exact ⟨first, List.mem_cons_self, files, state, Elsewhere.refl _ _ _, h⟩
      · rw [List.map_cons, List.nodup_cons] at hnodup
        obtain ⟨job, hjob, files₁, state₁, hbefore, hw⟩ :=
          ih (fun j hj => hcreated j (List.mem_cons_of_mem _ hj)) hnodup.2 h
        have hne : first.jobId ≠ job.jobId := fun heq =>
          hnodup.1 (List.mem_map.mpr ⟨job, hjob, heq.symm⟩)
        have hstep := handleJob_elsewhere (hcreated job (List.mem_cons_of_mem _ hjob))
          (hcreated first List.mem_cons_self) hne hresult
        exact ⟨job, List.mem_cons_of_mem _ hjob, files₁, state₁, hstep.trans hbefore, hw⟩

/-- A turn that rewrites an interval job counts from the time of the tick, whatever the
policy and however late it is. -/
theorem handleJob_interval {nanos : ℕ} (hschedule : job.schedule = .interval e a)
    (h : .job job' ∈ (handleJob env now nanos files state job).writes) :
    job'.nextRunAt = some (i64SaturatingAdd now (u64AsI64 e)) ∧
      (turnOf now files state job = .missed ∨ ∃ n, turnOf now files state job = .due n) := by
  rcases handleJob_cases env now nanos files state job with
    ⟨_, he⟩ | ⟨ht, ⟨_, _, he⟩ | ⟨next, hnext, he⟩⟩ | ⟨_, _, he⟩ |
    ⟨n, ht, ⟨_, _, he⟩ | ⟨next, hnext, he⟩⟩
  all_goals rw [he] at h
  all_goals simp at h
  · subst h
    rw [hschedule, recovery_interval] at hnext
    exact ⟨computeNextRunAt_interval hnext, .inl ht⟩
  · subst h
    obtain ⟨_, _, hle, hmissed, _⟩ := turnOf_due ht
    have hcompute : computeNextRunAt env.zones (.interval e a) now (some now) = .ok next := by
      rw [← hnext]
      rcases nextAfterRun_eq env hle hmissed with heq | heq
      · rw [heq, hschedule, recovery_interval]
      · rw [heq, hschedule]
    exact ⟨computeNextRunAt_interval hcompute, .inr ⟨n, ht⟩⟩

theorem tick_interval {clock : String → ℕ} (hinv : StoreInv env files)
    (h : .job job' ∈ (tick env now clock files).writes) (hschedule : job'.schedule = .interval e a)
    :
    ∃ job n, files.jobs.lookup job'.jobId = some job ∧ job.schedule = job'.schedule ∧
      job.nextRunAt = some n ∧ n ≤ now ∧ TakenUp now files job ∧
      job'.nextRunAt = some (i64SaturatingAdd now e) := by
  have hloop : .job job' ∈ (handleJobs env now clock files.listAll files
      (recoverStaleActiveExecutions now files.state) []).writes := by
    unfold tick at h
    simp only at h
    split at h
    · exact h
    · rcases List.mem_append.mp h with h | h
      · exact h
      · cases List.mem_singleton.mp h
  obtain ⟨job, hmem, files₁, state₁, hbefore, hw⟩ :=
    handleJobs_turn hinv.createdIds hinv.named.nodup_listAll hloop
  have hlookup := hinv.named.lookup hmem
  obtain ⟨hid, hsame⟩ : job'.jobId = job.jobId ∧ job'.schedule = job.schedule := by
    obtain ⟨_, rfl | rfl⟩ := handleJob_job hw
    · exact ⟨rfl, rfl⟩
    · exact ⟨rfl, rfl⟩
  obtain ⟨hnext, hturn⟩ := handleJob_interval (hsame.symm.trans hschedule) hw
  have hcast := (everySeconds_range (hinv.accepted hlookup).valid (hsame.symm.trans hschedule)).2
  rw [hcast] at hnext
  -- at worst the run was a duplicate when the tick began
  have hstart : TakenUp now files job := by
    unfold TakenUp
    rcases turnOf_elsewhere now hbefore with heq | ⟨m, hduplicate, _⟩
    · rw [← heq]
      rcases hturn with ht | ⟨m, ht⟩
      · rw [ht]
        exact ⟨by simp, by simp⟩
      · rw [ht]
        exact ⟨by simp, by simp⟩
    · rw [hduplicate]
      exact ⟨by simp, by simp⟩
  rcases turnOf_cases now files (recoverStaleActiveExecutions now files.state) job with
    ⟨ht, _⟩ | ⟨n, _, hn, hle, _⟩
  · exact absurd ht hstart.1
  · exact ⟨job, n, hid ▸ hlookup, hsame.symm, hn, hle, hstart, hnext⟩

end Writes

/-! ## Whole runs -/

section Runs

variable {env : SchedulerEnv} {s : SchedulerSystem} {now : Int} {clock : String → ℕ}
  {job job' : ScheduledJob}

/-- What a tick stores, step by step: the first time of the phase after the tick. -/
theorem KeepsPhase.tick (hinv : StoreInv env s.files) (hphase : JobsMeet OnPhase s.files)
    (hop : KeepsPhase s (.tick now clock))
    (h : .job job' ∈ (Automation.tick env now clock s.files).writes) {e : ℕ} {a : Int}
    (hschedule : job'.schedule = .interval e (some a)) :
    ∃ m, job'.nextRunAt = some m ∧ IsLeast (Upcoming e a now) m := by
  obtain ⟨job, n, hlookup, hsame, hn, hle, htaken, hnext⟩ := tick_interval hinv h hschedule
  have hjob := hsame.trans hschedule
  obtain ⟨hmin, hmax, hlate⟩ := hop _ job e a n hlookup hjob hn htaken
  have he := (everySeconds_range (hinv.accepted hlookup).valid hjob).1
  have hnow : now ≡ a [ZMOD e] := by
    rcases lt_or_eq_of_le hle with hlt | rfl
    · exact hlate hlt
    · exact hphase hlookup e a n hjob hn
  have hadd : i64SaturatingAdd now e = now + e := i64SaturatingAdd_eq (by omega) hmax
  exact ⟨now + e, hadd ▸ hnext, (isLeast_add_iff he).mpr hnow⟩

/-- Counting the first run of a schedule, or the run after one on the phase. -/
theorem onPhase_of_compute {zones : TimeZones} {e : ℕ} {a m : Int} {last : Option Int}
    (h : computeNextRunAt zones (.interval e (some a)) now last = .ok (some m))
    (hcast : u64AsI64 e = e) (hmin : i64Min ≤ last.getD a) (hmax : last.getD a + e ≤ i64Max)
    (hlast : last.getD a ≡ a [ZMOD e]) :
    m ≡ a [ZMOD e] := by
  have hm := Option.some.inj (computeNextRunAt_interval h)
  rw [hcast, Option.getD_some, i64SaturatingAdd_eq (by omega) hmax] at hm
  rw [hm]
  exact Int.add_modEq_right.trans hlast

theorem OnPhase.edit {change : JobEdit} {jobId : String} (hjob : OnPhase job)
    (hop : KeepsPhase s (.edit change jobId now)) (hlookup : s.files.jobs.lookup jobId = some job)
    (h : change.apply env.zones jobId now job = .ok job') : OnPhase job' := by
  intro e a m hschedule hm
  cases change with
  | update patch =>
    obtain ⟨_, _, _, _, _, ⟨_, hsame, hnext⟩ | ⟨schedule, hpatch, hnew, hvalid, hnext⟩⟩ :=
      updateJob_ok h
    · exact hjob e a m (hsame ▸ hschedule) (hnext ▸ hm)
    · obtain rfl : schedule = .interval e (some a) := hnew.symm.trans hschedule
      obtain ⟨hmin, hmax, hlast⟩ := hop job e a hlookup hpatch
      rw [hm] at hnext
      exact onPhase_of_compute hnext (everySeconds_range hvalid rfl).2 hmin hmax hlast
  | pause | resume | delete =>
    obtain ⟨_, rfl⟩ := moveJob_ok h
    exact hjob e a m hschedule hm
  | runNow =>
    obtain ⟨_, rfl⟩ := runNow_ok h
    cases hm
    exact hop job e a hlookup hschedule

theorem OnPhase.step {op : SchedulerOp} (hinv : StoreInv env s.files)
    (hphase : JobsMeet OnPhase s.files) (hop : KeepsPhase s op) :
    JobsMeet OnPhase (schedulerStep env s op).files := by
  rw [schedulerStep_files, op.outcome_files]
  refine hphase.applyAll fun job' hwrite => ?_
  rcases SchedulerOp.job_write hwrite with ⟨input, now, nanos, rfl, hnew⟩ |
    ⟨change, jobId, now, job, rfl, hlookup, happly⟩ | ⟨now, clock, job, next, rfl, _⟩ |
    ⟨_, _, _, _, job, rfl, hlookup, rfl⟩
  · intro e a m hschedule hm
    obtain ⟨hvalid, _, hsame, _, _, _, hnext⟩ := newJob_ok hnew
    rw [hsame] at hschedule
    rw [hschedule] at hvalid hnext
    obtain ⟨hmin, hmax⟩ := hop e a hschedule
    rw [hm] at hnext
    exact onPhase_of_compute hnext (everySeconds_range hvalid rfl).2 hmin hmax (Int.ModEq.refl a)
  · exact (hphase hlookup).edit hop hlookup happly
  · intro e a m hschedule hm
    obtain ⟨m', hm', hleast⟩ := hop.tick hinv hphase hwrite hschedule
    rw [hm] at hm'
    cases hm'
    exact hleast.1.2
  · have hjob := hphase hlookup
    exact fun e a m hschedule hm => hjob e a m hschedule hm

theorem onPhase_reached {ops : List SchedulerOp}
    (h : Lib.Meets (schedulerStep env) KeepsPhase {} ops) :
    JobsMeet OnPhase (reached env ops).files := by
  have hinv : StoreInv env (reached env ops).files ∧ JobsMeet OnPhase (reached env ops).files :=
    Lib.run_invariant
      (I := fun s : SchedulerSystem => StoreInv env s.files ∧ JobsMeet OnPhase s.files)
      (fun _ op hI hop => ⟨hI.1.outcome op, OnPhase.step hI.1 hI.2 hop⟩)
      ⟨StoreInv.empty, fun _ _ hjob => by cases hjob⟩ h
  exact hinv.2

end Runs

/-- **Interval jobs keep their phase** in every run whose late ticks fall on it: the next run
of every anchored job is the anchor modulo the interval, and a tick stores the first such
time after it. -/
theorem interval_jobs_keep_phase {env : SchedulerEnv} {ops : List SchedulerOp}
    (hrun : Lib.Meets (schedulerStep env) KeepsPhase {} ops) :
    JobsMeet OnPhase (reached env ops).files ∧
      ∀ pre post now clock job' e a, ops = pre ++ .tick now clock :: post →
        .job job' ∈ (tick env now clock (reached env pre).files).writes →
        job'.schedule = .interval e (some a) →
        ∃ m, job'.nextRunAt = some m ∧ IsLeast (Upcoming e a now) m := by
  refine ⟨onPhase_reached hrun, ?_⟩
  rintro pre post now clock job' e a rfl hwrite hschedule
  obtain ⟨hpre, hrest⟩ := Lib.meets_append.mp hrun
  exact hrest.1.tick (storeInv_reached pre) (onPhase_reached hpre) hwrite hschedule

/-! ### Late by a minute and late by a second -/

def anchoredJob : NewJob := { everyMinuteJob with schedule := .interval 60 (some 0) }

def storedAnchoredJob : ScheduledJob where
  jobId := "job-eng-7"
  orchestratorId := "eng"
  schedule := .interval 60 (some 0)
  targetAction := .workflowStart "triage" []
  state := .enabled
  misfirePolicy := .fireOnceOnRecovery
  nextRunAt := some 60
  allowOverlap := false
  createdAt := 0
  updatedAt := 0

theorem listAll_anchoredJob :
    (reached utcEnv [.create anchoredJob 0 7]).files.listAll = [storedAnchoredJob] := rfl

/-- The tick comes a minute after the run was due, which is on the phase again. -/
def minuteLate : List SchedulerOp := [.create anchoredJob 0 7, .tick 120 (fun _ => 0)]

theorem interval_jobs_keep_phase_minuteLate :
    JobsMeet OnPhase (reached utcEnv minuteLate).files ∧
      ∃ job' m, .job job' ∈ (tick utcEnv 120 (fun _ => 0)
          (reached utcEnv [.create anchoredJob 0 7]).files).writes ∧
        job'.nextRunAt = some m ∧ IsLeast (Upcoming 60 0 120) m := by
  have hrun : Lib.Meets (schedulerStep utcEnv) KeepsPhase {} minuteLate := by
    refine ⟨?_, ?_, trivial⟩
    · rintro e a hschedule
      cases hschedule
      exact ⟨by decide, by decide⟩
    · intro k job e a n hlookup hschedule hnext _
      have hmem : job ∈ (reached utcEnv [.create anchoredJob 0 7]).files.listAll :=
        SchedulerFiles.mem_listAll.mpr ⟨k, hlookup⟩
      rw [listAll_anchoredJob, List.mem_singleton] at hmem
      subst hmem
      cases hschedule
      exact ⟨by decide, by decide, fun _ => by decide⟩
  obtain ⟨hjobs, hticks⟩ := interval_jobs_keep_phase hrun
  have hwrite : .job (dispatchedJob 120 storedAnchoredJob (some 180)) ∈
      (tick utcEnv 120 (fun _ => 0) (reached utcEnv [.create anchoredJob 0 7]).files).writes :=
    List.mem_of_getElem? (i := 1) rfl
  obtain ⟨m, hm, hleast⟩ :=
    hticks [.create anchoredJob 0 7] [] 120 (fun _ => 0) _ 60 0 rfl hwrite rfl
  exact ⟨hjobs, _, m, hwrite, hm, hleast⟩

/-- One second late is enough. -/
theorem late_tick_shifts_phase :
    ¬ ∀ input ticks pre post now clock job' e a,
      input.schedule = .interval e (some a) →
      (∀ op ∈ ticks, ∃ t c, op = SchedulerOp.tick t c) → (tickTimes ticks).Pairwise (· ≤ ·) →
      ticks = pre ++ .tick now clock :: post →
      .job job' ∈ (tick utcEnv now clock (reached utcEnv (.create input 0 7 :: pre)).files).writes →
      ∃ m, job'.nextRunAt = some m ∧ IsLeast (Upcoming e a now) m := by
  intro hall
  obtain ⟨m, hm, hleast⟩ := hall anchoredJob [.tick 61 fun _ => 0] [] [] 61 (fun _ => 0)
    (dispatchedJob 61 storedAnchoredJob (some 121)) 60 0 rfl (by simp) (by decide) rfl
    (List.mem_of_getElem? (i := 1) rfl)
  cases hm
  have hphase : (121 : Int) ≡ 0 [ZMOD 60] := hleast.1.2
  revert hphase
  decide

end Direclaw.Automation
