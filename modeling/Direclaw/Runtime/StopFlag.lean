import Direclaw.Lib.Run
import Direclaw.Runtime.SocketWorker

/-!
# The stop flag

Who sets the flag that all workers share: the supervisor when it has found the stop signal
file, and the Slack worker for an error of a socket thread. Everything else that fails is
reported, and the worker goes on.
-/

namespace Direclaw.Runtime

open Direclaw.Lib Direclaw.Config Direclaw.Slack

/-- Past the start, and with no error to report. -/
def SlackStage.quiet : SlackStage → Bool
  | .absent | .refused | .failed _ => false
  | _ => true

theorem SlackStage.started_of_quiet {stage : SlackStage} (h : stage.quiet = true) :
    stage ≠ .absent ∧ stage ≠ .refused := by
  refine ⟨fun habsent => ?_, fun hrefused => ?_⟩
  · rw [habsent] at h
    cases h
  · rw [hrefused] at h
    cases h

namespace WorkerSystem

def slackReport : WorkerEvent → Option String
  | .error workerId message false => if workerId = slackId then some message else none
  | _ => none

/-- An error that is returned and not yet reported. -/
def unreported (d : WorkerSystem) : List String :=
  match d.slack.stage with
  | .failed err => [err.display]
  | _ => []

/-- Nothing has stopped before the stop signal file was found: not the flag, not the
supervisor, no worker that has started. What the Slack worker fails with is reported, and
the worker tries again. -/
structure RunsOn (d : WorkerSystem) : Prop where
  flag : d.stop = true → d.detected = true
  supervisor : d.supervisor = .stopping → d.detected = true ∨
    (∀ worker ∈ d.workers, worker.stage = .refused) ∧
      (d.slack.stage = .absent ∨ d.slack.stage = .refused)
  workers : ∀ worker ∈ d.workers, worker.stage = .stopped → d.detected = true
  slack : d.slack.stage = .stopped → d.detected = true
  reported : d.events.filterMap slackReport ++ d.unreported = d.failures.map SlackError.display
  retried : ∀ err, d.slack.stage = .failed err → d.stop = false →
    (run step d (List.replicate 3 (.slack none ""))).slack.call = d.slack.call + 1

/-- The Slack worker takes no error of a thread from its channel before the stop signal file
was found. -/
def SparesFlag (d : WorkerSystem) : ThreadEvent → Prop
  | .slack _ _ =>
    d.slack.stage = .draining → (∃ err, d.slack.results.head? = some (.error err)) →
      d.detected = true
  | _ => True

/-! ## The invariant -/

variable {d : WorkerSystem}

theorem unreported_of_quiet (h : d.slack.stage.quiet = true) : d.unreported = [] := by
  unfold unreported
  cases hstage : d.slack.stage with
  | failed err =>
    rw [hstage] at h
    cases h
  | _ => rfl

structure StopInv (d : WorkerSystem) : Prop where
  flag : d.stop = true → d.detected = true
  supervisor : d.supervisor = .stopping → d.detected = true ∨
    (∀ worker ∈ d.workers, worker.stage = .refused) ∧
      (d.slack.stage = .absent ∨ d.slack.stage = .refused)
  workers : ∀ worker ∈ d.workers, worker.stage = .stopped → d.detected = true
  slack : d.slack.stage = .stopped → d.detected = true
  reported : d.events.filterMap slackReport ++ d.unreported = d.failures.map SlackError.display
  joining : ∀ handles result, d.slack.stage = .joining handles result → d.stop = true
  ids : ∀ worker ∈ d.workers, worker.spec.id ≠ slackId

theorem retries {err : SlackError} (h : d.slack.stage = .failed err) (hstop : d.stop = false) :
    (run step d (List.replicate 3 (.slack none ""))).slack.call = d.slack.call + 1 := by
  have hreport : d.step (.slack none "") =
      (d.setStage .waiting).send [.error slackId err.display false] := by
    simp only [step, slackStep, h]
  have hwake : ((d.setStage .waiting).send [.error slackId err.display false]).step
      (.slack none "") =
        ((d.setStage .waiting).send [.error slackId err.display false]).setStage .idle := by
    show (if d.stop = true then _ else _) = _
    rw [hstop]
    rfl
  show (((d.step (.slack none "")).step (.slack none "")).step (.slack none "")).slack.call = _
  rw [hreport, hwake]
  show (if d.stop = true then _ else _ : WorkerSystem).slack.call = _
  rw [hstop]
  rfl

theorem StopInv.runsOn (h : d.StopInv) : d.RunsOn :=
  ⟨h.flag, h.supervisor, h.workers, h.slack, h.reported, fun _ hfailed hstop =>
    retries hfailed hstop⟩

theorem StopInv.frame {d d' : WorkerSystem} (h : d.StopInv) (hsupervisor : d'.supervisor = d.supervisor)
    (hstop : d'.stop = d.stop) (hdetected : d'.detected = d.detected)
    (hworkers : d'.workers = d.workers) (hstage : d'.slack.stage = d.slack.stage)
    (hevents : d'.events = d.events) (hfailures : d'.failures = d.failures) : d'.StopInv := by
  have hunreported : d'.unreported = d.unreported := by
    unfold unreported
    rw [hstage]
  constructor
  · rw [hstop, hdetected]
    exact h.flag
  · rw [hsupervisor, hdetected, hworkers, hstage]
    exact h.supervisor
  · rw [hworkers, hdetected]
    exact h.workers
  · rw [hstage, hdetected]
    exact h.slack
  · rw [hevents, hunreported, hfailures]
    exact h.reported
  · rw [hstage, hstop]
    exact h.joining
  · rw [hworkers]
    exact h.ids

/-- A move of the Slack worker, past its start. -/
theorem StopInv.slackMove {d d' : WorkerSystem} (h : d.StopInv)
    (hstarted : d.slack.stage ≠ .absent ∧ d.slack.stage ≠ .refused)
    (hsupervisor : d'.supervisor = d.supervisor) (hdetected : d'.detected = d.detected)
    (hworkers : d'.workers = d.workers) (hflag : d'.stop = true → d.detected = true)
    (hstopped : d'.slack.stage = .stopped → d'.stop = true)
    (hjoining : ∀ handles result, d'.slack.stage = .joining handles result → d'.stop = true)
    (hreported : d'.events.filterMap slackReport ++ d'.unreported =
      d'.failures.map SlackError.display) : d'.StopInv := by
  refine ⟨?_, ?_, ?_, ?_, hreported, hjoining, ?_⟩
  · rw [hdetected]
    exact hflag
  · intro hstopping
    rw [hsupervisor] at hstopping
    rw [hdetected]
    rcases h.supervisor hstopping with hfound | ⟨-, habsent | hrefused⟩
    · exact .inl hfound
    · exact absurd habsent hstarted.1
    · exact absurd hrefused hstarted.2
  · rw [hworkers, hdetected]
    exact h.workers
  · intro hstage
    rw [hdetected]
    exact hflag (hstopped hstage)
  · rw [hworkers]
    exact h.ids

/-! ## The supervisor and the other workers -/

theorem StopInv.detect (h : d.StopInv) : d.detect.StopInv := by
  unfold WorkerSystem.detect
  by_cases hsignal : d.stopSignal = true
  · rw [if_pos hsignal]
    exact ⟨fun _ => rfl, fun _ => .inl rfl, fun _ _ _ => rfl, fun _ => rfl, h.reported,
      fun _ _ _ => rfl, h.ids⟩
  · rw [if_neg hsignal]
    exact h

theorem StopInv.disconnected {d : WorkerSystem} (h : d.detect.StopInv)
    (hgone : d.disconnected = true) : d.detect.detected = true ∨
      (∀ worker ∈ d.detect.workers, worker.stage = .refused) ∧
        (d.detect.slack.stage = .absent ∨ d.detect.slack.stage = .refused) := by
  have hworkers : d.detect.workers = d.workers := by
    unfold WorkerSystem.detect
    split <;> rfl
  have hslack : d.detect.slack = d.slack := by
    unfold WorkerSystem.detect
    split <;> rfl
  obtain ⟨hended, hall⟩ := Bool.and_eq_true_iff.mp hgone
  by_cases hfound : d.detect.detected = true
  · exact .inl hfound
  refine .inr ⟨fun worker hworker => ?_, ?_⟩
  · have hout := List.all_eq_true.mp hall worker (hworkers ▸ hworker)
    rcases Bool.or_eq_true_iff.mp hout with hrefused | hstopped
    · exact beq_iff_eq.mp hrefused
    · exact absurd (h.workers worker hworker (beq_iff_eq.mp hstopped)) hfound
  · have hstopped := h.slack
    rw [hslack] at hstopped ⊢
    cases hstage : d.slack.stage with
    | absent => exact .inl rfl
    | refused => exact .inr rfl
    | stopped => exact absurd (hstopped hstage) hfound
    | _ =>
      rw [hstage] at hended
      cases hended

theorem StopInv.supervisorStep (h : d.StopInv) : d.supervisorStep.StopInv := by
  unfold WorkerSystem.supervisorStep
  cases hstage : d.supervisor with
  | loopHead =>
    refine ⟨h.flag, fun hstopping => ?_, h.workers, h.slack, h.reported, h.joining, h.ids⟩
    by_cases hstop : d.stop = true
    · exact .inl (h.flag hstop)
    · simp only [hstop] at hstopping
      cases hstopping
  | looking =>
    have hd := h.detect
    refine ⟨hd.flag, fun hstopping => ?_, hd.workers, hd.slack, hd.reported, hd.joining, hd.ids⟩
    by_cases hgone : d.disconnected = true
    · exact hd.disconnected hgone
    · simp only [hgone] at hstopping
      cases hstopping
  | stopping => exact h

theorem StopInv.turn (h : d.StopInv) {index : ℕ} {worker : Worker}
    (hworker : d.workers[index]? = some worker) (hrunning : worker.stage ≠ .refused)
    {stage : WorkerStage} (hstopped : stage = .stopped → d.detected = true)
    {events : List WorkerEvent} (hevents : events.filterMap slackReport = []) :
    StopInv { d with
      workers := d.workers.set index { worker with stage }
      events := d.events ++ events } := by
  have hmem : worker ∈ d.workers := List.mem_of_getElem? hworker
  refine ⟨h.flag, ?_, ?_, h.slack, ?_, h.joining, ?_⟩
  · intro hstopping
    rcases h.supervisor hstopping with hfound | ⟨hrefused, -⟩
    · exact .inl hfound
    · exact absurd (hrefused worker hmem) hrunning
  · intro other hother hstage
    rcases List.mem_or_eq_of_mem_set hother with hother | rfl
    · exact h.workers other hother hstage
    · exact hstopped hstage
  · show (d.events ++ events).filterMap slackReport ++ d.unreported = _
    rw [List.filterMap_append, hevents, List.append_nil]
    exact h.reported
  · intro other hother
    rcases List.mem_or_eq_of_mem_set hother with hother | rfl
    · exact h.ids other hother
    · exact h.ids worker hmem

theorem StopInv.workerStep (h : d.StopInv) (index : ℕ) (failure : Option String) :
    (d.workerStep index failure).StopInv := by
  unfold WorkerSystem.workerStep
  cases hworker : d.workers[index]? with
  | none => exact h
  | some worker =>
    obtain ⟨spec, stage⟩ := worker
    have hid : spec.id ≠ slackId := h.ids _ (List.mem_of_getElem? hworker)
    cases stage with
    | starting =>
      cases failure with
      | none =>
        refine h.turn hworker nofun ?_ ?_
        · exact nofun
        · rfl
      | some message =>
        refine h.turn hworker nofun ?_ ?_
        · exact nofun
        · rfl
    | running =>
      show StopInv (if d.stop = true then _ else _)
      by_cases hstop : d.stop = true
      · rw [if_pos hstop]
        exact h.turn hworker nofun (fun _ => h.flag hstop) rfl
      · rw [if_neg hstop]
        cases failure with
        | none =>
          refine h.turn hworker nofun ?_ ?_
          · exact nofun
          · rfl
        | some message =>
          have herror : slackReport (.error spec.id message false) = none := if_neg hid
          refine h.turn hworker nofun ?_ ?_
          · exact nofun
          · exact List.filterMap_cons_none herror
    | refused => exact h
    | stopped => exact h

theorem StopInv.socketStep (h : d.StopInv) (index : ℕ) (result : SocketResult) :
    (d.socketStep index result).StopInv := by
  unfold WorkerSystem.socketStep
  cases hthread : d.threads[index]? with
  | none => exact h
  | some thread =>
    obtain ⟨profile, call, phase⟩ := thread
    cases phase with
    | none => exact h
    | some phase =>
      cases phase with
      | returned outcome =>
        simp only [sendOutcome]
        split
        · exact h.frame rfl rfl rfl rfl rfl rfl rfl
        · exact h.frame rfl rfl rfl rfl rfl rfl rfl
      | loopHead | catchUp | openUrl | connect | configure | connection | backoff =>
        exact h.frame rfl rfl rfl rfl rfl rfl rfl

/-! ## The Slack worker -/

theorem StopInv.fail {d : WorkerSystem} (h : d.StopInv) (hquiet : d.slack.stage.quiet = true)
    (err : SlackError) : (d.fail err).StopInv := by
  refine h.slackMove (SlackStage.started_of_quiet hquiet) rfl rfl rfl h.flag nofun nofun ?_
  have hreported := h.reported
  rw [unreported_of_quiet hquiet, List.append_nil] at hreported
  show d.events.filterMap slackReport ++ [err.display] = (d.failures ++ [err]).map _
  rw [List.map_append, hreported]
  rfl

theorem StopInv.setStage (h : d.StopInv) (stage : SlackStage) (hquiet : d.slack.stage.quiet = true)
    (hstopped : stage = .stopped → d.stop = true)
    (hjoining : ∀ handles result, stage = .joining handles result → d.stop = true)
    (hfailed : ∀ err, stage ≠ .failed err) : (d.setStage stage).StopInv := by
  refine h.slackMove (SlackStage.started_of_quiet hquiet) rfl rfl rfl h.flag hstopped hjoining ?_
  have hunreported : (d.setStage stage).unreported = [] := by
    unfold unreported
    show (match stage with | .failed err => [err.display] | _ => []) = []
    cases stage <;> first | rfl | exact absurd rfl (hfailed _)
  rw [hunreported, ← unreported_of_quiet hquiet]
  exact h.reported

theorem StopInv.drain (h : d.StopInv) (hquiet : d.slack.stage.quiet = true)
    (hspared : (∃ err, d.slack.results.head? = some (.error err)) → d.detected = true) :
    d.drain.StopInv := by
  unfold WorkerSystem.drain
  cases hresults : d.slack.results with
  | nil => exact h.setStage .pausing hquiet nofun nofun nofun
  | cons outcome rest =>
    cases outcome with
    | ok u => exact h.frame rfl rfl rfl rfl rfl rfl rfl
    | error err =>
      rw [hresults] at hspared
      refine h.slackMove (SlackStage.started_of_quiet hquiet) rfl rfl rfl
        (fun _ => hspared ⟨err, rfl⟩) nofun (fun _ _ _ => rfl) ?_
      have hreported := h.reported
      rw [unreported_of_quiet hquiet] at hreported
      exact hreported

theorem StopInv.spawn (h : d.StopInv) (hquiet : d.slack.stage.quiet = true) (profile root : String)
    (rest : List String) : (d.spawn profile root rest).StopInv :=
  (h.setStage (.spawning rest) hquiet nofun nofun nofun).frame rfl rfl rfl rfl rfl rfl rfl

theorem StopInv.beginCall (h : d.StopInv) (hquiet : d.slack.stage.quiet = true) :
    d.beginCall.StopInv :=
  (h.setStage .preparing hquiet nofun nofun nofun).frame rfl rfl rfl rfl rfl rfl rfl

theorem StopInv.send (h : d.StopInv) {events : List WorkerEvent}
    (hevents : events.filterMap slackReport = []) : (d.send events).StopInv := by
  refine ⟨h.flag, h.supervisor, h.workers, h.slack, ?_, h.joining, h.ids⟩
  show (d.events ++ events).filterMap slackReport ++ d.unreported = _
  rw [List.filterMap_append, hevents, List.append_nil]
  exact h.reported

/-- The Slack worker ends. -/
theorem StopInv.leave (h : d.StopInv) (hquiet : d.slack.stage.quiet = true) (hstop : d.stop = true)
    : ((d.setStage .stopped).send [.stopped slackId]).StopInv :=
  (h.setStage .stopped hquiet (fun _ => hstop) nofun nofun).send rfl

theorem StopInv.report (h : d.StopInv) {err : SlackError} (hstage : d.slack.stage = .failed err) :
    ((d.setStage .waiting).send [.error slackId err.display false]).StopInv := by
  have hstarted : d.slack.stage ≠ .absent ∧ d.slack.stage ≠ .refused := by
    rw [hstage]
    exact ⟨nofun, nofun⟩
  refine h.slackMove hstarted rfl rfl rfl h.flag nofun nofun ?_
  have hreported := h.reported
  rw [unreported, hstage] at hreported
  show (d.events ++ [_]).filterMap slackReport ++ [] = d.failures.map SlackError.display
  rw [List.filterMap_append, List.append_nil, ← hreported]
  rfl

theorem StopInv.slackStep (h : d.StopInv) (failure : Option SlackError) (root : String)
    (hspared : d.SparesFlag (.slack failure root)) : (d.slackStep failure root).StopInv := by
  by_cases hquiet : d.slack.stage.quiet = true
  · cases hstage : d.slack.stage with
    | absent | refused | failed =>
      rw [hstage] at hquiet
      cases hquiet
    | starting =>
      cases failure with
      | none =>
        simp only [WorkerSystem.slackStep, hstage]
        exact (h.setStage .idle hquiet nofun nofun nofun).send rfl
      | some err =>
        simp only [WorkerSystem.slackStep, hstage]
        exact (h.setStage .refused hquiet nofun nofun nofun).send rfl
    | idle =>
      simp only [WorkerSystem.slackStep, hstage]
      split
      · next hstop => exact h.leave hquiet hstop
      · exact h.beginCall hquiet
    | preparing =>
      cases failure with
      | none =>
        simp only [WorkerSystem.slackStep, hstage]
        exact h.setStage _ hquiet nofun nofun nofun
      | some err =>
        simp only [WorkerSystem.slackStep, hstage]
        exact h.fail hquiet err
    | spawning profiles =>
      cases profiles with
      | nil =>
        simp only [WorkerSystem.slackStep, hstage]
        exact h.setStage .loopHead hquiet nofun nofun nofun
      | cons profile rest =>
        cases failure with
        | none =>
          simp only [WorkerSystem.slackStep, hstage]
          exact h.spawn hquiet profile root rest
        | some err =>
          simp only [WorkerSystem.slackStep, hstage]
          exact h.fail hquiet err
    | loopHead =>
      simp only [WorkerSystem.slackStep, hstage]
      split
      · next hstop => exact h.setStage _ hquiet nofun (fun _ _ _ => hstop) nofun
      · exact h.setStage _ hquiet nofun nofun nofun
    | delivering roots =>
      cases roots with
      | nil =>
        simp only [WorkerSystem.slackStep, hstage]
        exact h.setStage .draining hquiet nofun nofun nofun
      | cons first rest =>
        cases failure with
        | none =>
          simp only [WorkerSystem.slackStep, hstage]
          exact h.setStage (.delivering rest) hquiet nofun nofun nofun
        | some err =>
          simp only [WorkerSystem.slackStep, hstage]
          exact h.fail hquiet err
    | draining =>
      simp only [WorkerSystem.slackStep, hstage]
      exact h.drain hquiet (hspared hstage)
    | pausing =>
      simp only [WorkerSystem.slackStep, hstage]
      exact h.setStage .loopHead hquiet nofun nofun nofun
    | joining handles result =>
      have hstop : d.stop = true := h.joining handles result hstage
      cases handles with
      | nil =>
        cases result with
        | ok u =>
          simp only [WorkerSystem.slackStep, hstage]
          exact h.leave hquiet hstop
        | error err =>
          simp only [WorkerSystem.slackStep, hstage]
          exact h.fail hquiet err
      | cons handle rest =>
        simp only [WorkerSystem.slackStep, hstage]
        split
        · exact h.setStage _ hquiet nofun (fun _ _ _ => hstop) nofun
        · exact h
    | waiting =>
      simp only [WorkerSystem.slackStep, hstage]
      split
      · next hstop => exact h.leave hquiet hstop
      · exact h.setStage .idle hquiet nofun nofun nofun
    | stopped =>
      simp only [WorkerSystem.slackStep, hstage]
      exact h
  · cases hstage : d.slack.stage with
    | absent | refused =>
      simp only [WorkerSystem.slackStep, hstage]
      exact h
    | failed err =>
      simp only [WorkerSystem.slackStep, hstage]
      exact h.report hstage
    | _ =>
      rw [hstage] at hquiet
      exact absurd rfl hquiet

theorem StopInv.step (h : d.StopInv) {e : ThreadEvent} (hspared : d.SparesFlag e) :
    (d.step e).StopInv := by
  cases e with
  | requestStop => exact h.frame rfl rfl rfl rfl rfl rfl rfl
  | supervisor => exact h.supervisorStep
  | worker index failure => exact h.workerStep index failure
  | slack failure root => exact h.slackStep failure root hspared
  | slackHeartbeat =>
    show StopInv (if _ then _ else _)
    split
    · exact h
    · exact h.send rfl
  | socket index result => exact h.socketStep index result

/-- A thread's error before the stop signal file was found sets the flag. -/
theorem not_runsOn_step {e : ThreadEvent} (h : ¬ d.SparesFlag e) : ¬ (d.step e).RunsOn := by
  cases e with
  | slack failure root =>
    simp only [SparesFlag, Classical.not_imp] at h
    obtain ⟨hstage, ⟨err, herr⟩, hfound⟩ := h
    obtain ⟨rest, hresults⟩ := List.head?_eq_some_iff.mp herr
    have hdrain : d.step (.slack failure root) =
        { d with
          stop := true
          slack := { d.slack with
            stage := .joining d.slack.handles (.error err)
            results := rest } } := by
      simp only [WorkerSystem.step, WorkerSystem.slackStep, hstage, WorkerSystem.drain, hresults]
    rw [hdrain]
    exact fun hgood => hfound (hgood.flag rfl)
  | _ => exact absurd trivial h

/-! ## From the start -/

theorem mem_channelSpecs {channel : String} {config : ChannelConfig} {spec : WorkerSpec}
    (h : spec ∈ channelSpecs channel config) :
    spec = slackSocketSpec ∨ spec = slackBackfillSpec config := by
  unfold channelSpecs at h
  split at h
  · cases h
  · split at h
    · cases hmode : config.inboundMode with
      | socket =>
        rw [hmode] at h
        exact .inl (List.mem_singleton.mp h)
      | poll =>
        rw [hmode] at h
        exact .inr (List.mem_singleton.mp h)
      | hybrid =>
        rw [hmode] at h
        dsimp only at h
        split at h
        · simpa using h
        · exact .inl (List.mem_singleton.mp h)
    · cases h

theorem mem_buildWorkerSpecs {settings : GlobalSettings} {spec : WorkerSpec}
    (h : spec ∈ buildWorkerSpecs settings) :
    spec.runtime = .slackSocket ∨ spec.id ≠ slackId := by
  simp only [buildWorkerSpecs, List.mem_append, List.mem_flatMap, or_assoc] at h
  rcases h with hfirst | hmemory | hscheduler | hheartbeat | ⟨entry, -, hchannel⟩
  · simp only [List.mem_cons, List.not_mem_nil, or_false] at hfirst
    rcases hfirst with rfl | rfl
    · exact .inr (by decide)
    · exact .inr (by decide)
  · split at hmemory
    · rw [List.mem_singleton.mp hmemory]
      exact .inr (show "memory_worker" ≠ slackId by decide)
    · cases hmemory
  · rw [List.mem_singleton.mp hscheduler]
    exact .inr (by decide)
  · split at hheartbeat
    · rw [List.mem_singleton.mp hheartbeat]
      exact .inr (show "heartbeat" ≠ slackId by decide)
    · cases hheartbeat
  · rcases mem_channelSpecs hchannel with rfl | rfl
    · exact .inl rfl
    · exact .inr (show "channel:slack-backfill" ≠ slackId by decide)

theorem start_stopInv (settings : GlobalSettings) : (WorkerSystem.start settings).StopInv := by
  have hworkers : ∀ worker ∈ (WorkerSystem.start settings).workers,
      worker.stage = .starting ∧ worker.spec.id ≠ slackId := by
    intro worker hworker
    obtain ⟨spec, hspec, rfl⟩ := List.mem_map.mp hworker
    obtain ⟨hmem, hruntime⟩ := List.mem_filter.mp hspec
    refine ⟨rfl, (mem_buildWorkerSpecs hmem).resolve_left ?_⟩
    simpa using hruntime
  have hquiet : (WorkerSystem.start settings).slack.stage = .starting ∨
      (WorkerSystem.start settings).slack.stage = .absent := by
    show (if _ then _ else _) = _ ∨ (if _ then _ else _) = _
    split
    · exact .inl rfl
    · exact .inr rfl
  refine ⟨nofun, nofun, fun worker hworker hstage => ?_, fun hstage => ?_, ?_,
    fun handles result hstage => ?_, fun worker hworker => (hworkers worker hworker).2⟩
  · rw [(hworkers worker hworker).1] at hstage
    cases hstage
  · rcases hquiet with hstarting | habsent
    · rw [hstarting] at hstage
      cases hstage
    · rw [habsent] at hstage
      cases hstage
  · show [] ++ (WorkerSystem.start settings).unreported = []
    unfold unreported
    rcases hquiet with hstarting | habsent
    · rw [hstarting]
      rfl
    · rw [habsent]
      rfl
  · rcases hquiet with hstarting | habsent
    · rw [hstarting] at hstage
      cases hstage
    · rw [habsent] at hstage
      cases hstage

/-- **The stop flag.** In every state of a run nothing has stopped early, every failure of the
Slack worker is reported and the worker tries again, exactly if the Slack worker takes no
error of a socket thread before the stop signal file was found. -/
theorem stop_flag_kept_iff (settings : GlobalSettings) (es : List ThreadEvent) :
    (∀ before, before <+: es → (run step (WorkerSystem.start settings) before).RunsOn) ↔
      Meets step SparesFlag (WorkerSystem.start settings) es :=
  run_prefixes_iff StopInv RunsOn (fun _ h => h.runsOn) (fun _ _ h hok => h.step hok)
    (fun _ _ _ hnot => not_runsOn_step hnot) (start_stopInv settings)

/-- One Slack profile, without a catch-up. -/
def oneProfile : GlobalSettings where
  workspacesPath := "/work"
  channelProfiles := [("slack_main", { channel := .slack, orchestratorId := "main" })]
  channels := [("slack", { enabled := true, historyBackfillEnabled := false })]

/-- The socket thread of the only profile is rate limited at its first call, and the Slack
worker takes the error from its channel. -/
def rateLimitedRun : List ThreadEvent :=
  [.slack none "", .slack none "", .slack none "", .slack none "/work/main", .slack none "",
    .socket 0 .done, .socket 0 (.failed (.rateLimited "apps.connections.open" 30)),
    .socket 0 .done, .slack none "", .slack none "", .slack none "", .slack none ""]

/-- The flag is set although nobody has asked the daemon to stop. -/
theorem rate_limit_sets_stop_flag :
    (run step (WorkerSystem.start oneProfile) rateLimitedRun).stop = true ∧
      (run step (WorkerSystem.start oneProfile) rateLimitedRun).stopSignal = false ∧
      ¬ ∀ before, before <+: rateLimitedRun →
        (run step (WorkerSystem.start oneProfile) before).RunsOn := by
  have hstop : (run step (WorkerSystem.start oneProfile) rateLimitedRun).stop = true := by
    decide
  have hfound : (run step (WorkerSystem.start oneProfile) rateLimitedRun).detected = false := by
    decide
  refine ⟨hstop, by decide, fun h => ?_⟩
  have hflag := (h rateLimitedRun (List.prefix_refl _)).flag hstop
  rw [hfound] at hflag
  cases hflag

end WorkerSystem

end Direclaw.Runtime
