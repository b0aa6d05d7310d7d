import Direclaw.Orchestration.CrashResume

/-!
# When the attempts of a run were made

The attempts of a run are made one after the other: each starts once the one before it
has ended and been recorded. With clock readings that never go back, every stored result
therefore ended before the last recorded one started, up to readings in the same second.
-/

namespace Direclaw.Orchestration

open Direclaw.Lib

/-! ## Recorded attempts and the clock -/

/-- The attempt that was recorded last. -/
def lastRecorded : List Observation → Option StepAttemptRecord
  | [] => none
  | .wrote (.result record) :: _ => some record
  | _ :: trace => lastRecorded trace

/-- An attempt starts no earlier than the last recorded one ended, and ends no earlier
than it started. -/
def ClockForward (trace : List Observation) : Control → Input → Prop
  | .attempting _, input => ∀ latest ∈ lastRecorded trace, latest.endedAt ≤ input.now
  | .running a, input => a.startedAt ≤ input.now
  | _, _ => True

instance ClockForward.decidable (trace : List Observation) :
    ∀ (control : Control) (input : Input), Decidable (ClockForward trace control input)
  | .attempting _, input =>
    inferInstanceAs (Decidable (∀ latest ∈ lastRecorded trace, latest.endedAt ≤ input.now))
  | .running a, input => inferInstanceAs (Decidable (a.startedAt ≤ input.now))
  | .idle, _ | .loading _ _, _ | .cycling _ _, _ | .invoking _, _ | .counting _ _ _, _
  | .settling _ _ _, _ | .reloading _ _, _ => isTrue trivial

/-- The condition on one step of a run. -/
def TimestampsRise (s : System) : EngineEvent → Prop
  | .engine input =>
    s.process.todo.isEmpty = true → ClockForward s.trace s.process.control input
  | _ => True

instance TimestampsRise.decidable (s : System) : ∀ e : EngineEvent, Decidable (TimestampsRise s e)
  | .engine input =>
    inferInstanceAs (Decidable (s.process.todo.isEmpty = true →
      ClockForward s.trace s.process.control input))
  | .call _ _ | .crash => isTrue trivial

/-! ## Only a provider that returns leaves a result -/

def StoreWrite.isResult : StoreWrite → Bool
  | .result _ => true
  | _ => false

/-- The control points with an attempt that is marked. -/
def Control.hasMarked : Control → Bool
  | .invoking _ | .running _ => true
  | _ => false

/-- A process that writes no result, and has not marked an attempt yet. -/
structure Process.Quiet (p : Process) : Prop where
  todo : ∀ w ∈ p.todo, w.isResult = false
  control : p.control.hasMarked = false

theorem executeOrFail_quiet (run : WorkflowRunRecord) (now : Int) (err : OrchestratorError) :
    (executeOrFail run now err).Quiet := by
  rcases executeOrFail_cases run now err with ⟨_, he⟩ | ⟨_, record, snapshot, _, he⟩
  · rw [he]
    exact ⟨by simp, rfl⟩
  · rw [he]
    exact ⟨by simp [StoreWrite.isResult], rfl⟩

theorem finishRun_quiet (run : WorkflowRunRecord) (now at_ : Int) (summary : String) (n c : ℕ) :
    (finishRun run now at_ summary n c).Quiet := by
  rcases finishRun_cases run now at_ summary n c with
    ⟨_, record, snapshot, _, he⟩ | ⟨_, run', err, _, he⟩
  · rw [he]
    exact ⟨by simp [StoreWrite.isResult], rfl⟩
  · rw [he]
    exact executeOrFail_quiet run' now err

/-- The control points from the head of the retry loop to the provider's answer. -/
def Control.attempts : Control → Bool
  | .attempting _ | .invoking _ | .running _ => true
  | _ => false

/-- Every other control point is quiet. -/
theorem Control.advance_quiet (orchestrator : OrchestratorConfig) (files : RunFiles)
    (input : Input) {control : Control} (h : control.attempts = false) :
    (control.advance orchestrator files input).1.Quiet ∧
      (control.advance orchestrator files input).2 = [] := by
  cases control with
  | idle => exact ⟨⟨by simp [advance], rfl⟩, rfl⟩
  | attempting a => cases h
  | invoking a => cases h
  | running a => cases h
  | loading entry now =>
    refine ⟨?_, rfl⟩
    simp only [advance]
    rcases enter_cases entry files.run now with he | he | ⟨hs, verb, he⟩
    · rw [he]
      exact ⟨by simp, rfl⟩
    · rw [he]
      exact ⟨by simp, rfl⟩
    · obtain ⟨record, snapshot, _, _, _, hb⟩ := beginRun_eq files.run now verb hs
      rw [he, hb]
      exact ⟨by simp [StoreWrite.isResult], rfl⟩
  | cycling run cycles =>
    simp only [advance]
    split
    · exact ⟨⟨by simp, rfl⟩, rfl⟩
    · refine ⟨?_, rfl⟩
      rcases executeNext_cases orchestrator files run input.now cycles with
        ⟨err, he⟩ | ⟨workflow, _, _, he⟩ | ⟨workflow, pointer, step, _, _, _, he⟩
      · rw [he]
        exact executeOrFail_quiet run input.now err
      · rw [he]
        exact finishRun_quiet run input.now input.now _ _ _
      · rw [he]
        exact ⟨by simp, rfl⟩
  | counting a record result =>
    exact ⟨⟨by simp [advance, countStepAttempt, StoreWrite.isResult], rfl⟩, rfl⟩
  | settling a record result =>
    refine ⟨?_, rfl⟩
    simp only [advance]
    rcases a.settle_cases files.run record result with
      ⟨err, he⟩ | ⟨evaluation, next, summary, action, _, _, he⟩ |
        ⟨evaluation, summary, _, _, he⟩ | ⟨err, _, _, _, he⟩
    · rw [he]
      exact executeOrFail_quiet files.run a.now err
    · rw [he]
      exact ⟨by simp [checkpoint, StoreWrite.isResult], rfl⟩
    · rw [he]
      exact finishRun_quiet files.run a.now record.endedAt summary _ _
    · rw [he]
      exact ⟨by simp, rfl⟩
  | reloading n c =>
    simp only [advance]
    split
    · exact ⟨⟨by simp, rfl⟩, rfl⟩
    · exact ⟨⟨by simp, rfl⟩, rfl⟩

/-! ## The times of the stored results -/

/-- What holds of the times between any two file accesses. -/
structure TimedBase (files : RunFiles) (trace : List Observation) : Prop where
  empty : lastRecorded trace = none → ∀ step attempt, files.results step attempt = none
  latest : ∀ record, lastRecorded trace = some record →
    files.results record.stepId record.attempt = some record ∧ record.startedAt ≤ record.endedAt
  others : ∀ record, lastRecorded trace = some record →
    ∀ step attempt other, files.results step attempt = some other →
      other = record ∨ other.startedAt ≤ other.endedAt ∧ other.endedAt ≤ record.startedAt

/-- Every stored result ended before the attempt `a` started. -/
def StartsLast (files : RunFiles) (a : Attempt) : Prop :=
  ∀ step attempt other, files.results step attempt = some other →
    other.startedAt ≤ other.endedAt ∧ other.endedAt ≤ a.startedAt

def TimedAt (files : RunFiles) (_ : List Observation) : Control → Prop
  | .invoking a | .running a => StartsLast files a
  | _ => True

section Invariant

variable {orchestrator : OrchestratorConfig} {files : RunFiles} {trace : List Observation}

theorem timedBase_write {w : StoreWrite} (h : TimedBase files trace) (hw : w.isResult = false) :
    TimedBase (files.apply w) (.wrote w :: trace) := by
  cases w with
  | run origin record => exact ⟨h.empty, h.latest, h.others⟩
  | progress snapshot => exact ⟨h.empty, h.latest, h.others⟩
  | result record => cases hw

/-- Writes other than results keep the times, and what follows from them. -/
theorem landing_quiet {final : RunFiles → List Observation → Prop} {todo : List StoreWrite}
    (h : TimedBase files trace) (htodo : ∀ w ∈ todo, w.isResult = false)
    (hfinal : ∀ files trace, TimedBase files trace → final files trace) :
    Landing TimedBase final files trace todo := by
  induction todo generalizing files trace with
  | nil => exact ⟨h, hfinal files trace h⟩
  | cons w todo ih =>
    exact ⟨h, ih (timedBase_write h (htodo w List.mem_cons_self))
      fun w hw => htodo w (List.mem_cons_of_mem _ hw)⟩

theorem Process.Quiet.timed {p : Process} (hquiet : p.Quiet) (h : TimedBase files trace) :
    ProcessInv TimedBase TimedAt files trace p := by
  refine landing_quiet h hquiet.todo fun files trace _ => ?_
  have hmarked := hquiet.control
  cases hcontrol : p.control with
  | invoking a =>
    rw [hcontrol] at hmarked
    cases hmarked
  | running a =>
    rw [hcontrol] at hmarked
    cases hmarked
  | idle => trivial
  | loading _ _ => trivial
  | cycling _ _ => trivial
  | attempting _ => trivial
  | counting _ _ _ => trivial
  | settling _ _ _ => trivial
  | reloading _ _ => trivial

theorem startsLast_of_forward {a : Attempt} (h : TimedBase files trace)
    (hforward : ∀ latest ∈ lastRecorded trace, latest.endedAt ≤ a.startedAt) :
    StartsLast files a := by
  intro step attempt other hother
  cases hlast : lastRecorded trace with
  | none =>
    rw [h.empty hlast] at hother
    cases hother
  | some latest =>
    have hrises := (h.latest latest hlast).2
    have hended := hforward latest hlast
    rcases h.others latest hlast step attempt other hother with rfl | ⟨hself, hbefore⟩
    · exact ⟨hrises, hended⟩
    · exact ⟨hself, hbefore.trans (hrises.trans hended)⟩

theorem timedBase_result {a : Attempt} {record : StepAttemptRecord} (h : StartsLast files a)
    (hstarted : record.startedAt = a.startedAt) (hended : a.startedAt ≤ record.endedAt) :
    TimedBase (files.apply (.result record)) (.wrote (.result record) :: trace) := by
  refine ⟨nofun, ?_, ?_⟩
  · rintro latest ⟨⟩
    rw [RunFiles.apply_result_results, if_pos ⟨rfl, rfl⟩, hstarted]
    exact ⟨rfl, hended⟩
  · rintro latest ⟨⟩ step attempt other hother
    rw [RunFiles.apply_result_results] at hother
    split at hother
    · cases hother
      exact .inl rfl
    · rw [hstarted]
      exact .inr (h step attempt other hother)

theorem control_timed (input : Input) (control : Control) (hbase : TimedBase files trace)
    (hat : TimedAt files trace control) (hok : ClockForward trace control input) :
    ProcessInv TimedBase TimedAt files
      ((Control.advance orchestrator files input control).2 ++ trace)
      (Control.advance orchestrator files input control).1 := by
  have hquiet : control.attempts = false → ProcessInv TimedBase TimedAt files
      ((Control.advance orchestrator files input control).2 ++ trace)
      (Control.advance orchestrator files input control).1 := by
    intro hcontrol
    obtain ⟨hp, hseen⟩ := Control.advance_quiet orchestrator files input hcontrol
    rw [hseen]
    exact hp.timed hbase
  cases control with
  | attempting a =>
    have hstarts : StartsLast files { a with startedAt := input.now } :=
      startsLast_of_forward hbase hok
    have hmarked := timedBase_write (w := .run .markStepAttemptStarted
      (markStepAttemptStarted a.run a.step.id a.attempt input.now).1) hbase rfl
    exact ⟨hbase, hmarked, timedBase_write hmarked rfl, hstarts⟩
  | invoking a =>
    simp only [Control.advance]
    split
    · exact (executeOrFail_quiet a.run a.now _).timed hbase
    · exact ⟨⟨hbase.empty, hbase.latest, hbase.others⟩, hat⟩
  | running a =>
    have hstarted : (a.record input.now (a.evaluate input.outcome)).startedAt = a.startedAt := by
      cases a.evaluate input.outcome <;> rfl
    have hended : (a.record input.now (a.evaluate input.outcome)).endedAt = input.now := by
      cases a.evaluate input.outcome <;> rfl
    refine ⟨⟨hbase.empty, hbase.latest, hbase.others⟩, timedBase_result hat hstarted ?_, trivial⟩
    rw [hended]
    exact hok
  | idle => exact hquiet rfl
  | loading entry now => exact hquiet rfl
  | cycling run cycles => exact hquiet rfl
  | counting a record result => exact hquiet rfl
  | settling a record result => exact hquiet rfl
  | reloading n c => exact hquiet rfl

theorem step_timed (s : System) (e : EngineEvent) (h : SystemInv TimedBase TimedAt s)
    (hok : TimestampsRise s e) : SystemInv TimedBase TimedAt (engineStep orchestrator s e) := by
  refine systemInv_step_of (fun _ _ => trivial) (fun _ _ _ _ => trivial)
    (fun _ _ => control_timed) h e ?_
  rintro input rfl htodo
  exact hok (by rw [htodo]; rfl)

/-- In every state of a run whose clock never goes back, the last recorded attempt is
stored, and every other stored result ended before it started. -/
theorem run_timedBase (runId workflowId : String) (now : Int) (events : List EngineEvent)
    (h : Meets (engineStep orchestrator) TimestampsRise (System.created runId workflowId now)
      events) :
    TimedBase (run (engineStep orchestrator) (System.created runId workflowId now) events).files
      (run (engineStep orchestrator) (System.created runId workflowId now) events).trace := by
  have hcreated : SystemInv TimedBase TimedAt (System.created runId workflowId now) :=
    ⟨⟨fun _ _ _ => rfl, nofun, nofun⟩, trivial⟩
  exact (run_invariant step_timed hcreated h).base_now

end Invariant

end Direclaw.Orchestration
