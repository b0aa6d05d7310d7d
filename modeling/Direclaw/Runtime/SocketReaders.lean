import Direclaw.Lib.Run
import Direclaw.Runtime.SocketWorker

/-!
# Readers of a profile

A call of `run_socket_runtime_until_stop` joins its threads when it ends at the stop flag or
at an error of a thread. An error of the outgoing messages, or of a profile while the
threads are spawned, leaves the threads behind; the next call spawns others beside them.
-/

namespace Direclaw.Runtime

open Direclaw.Lib Direclaw.Config Direclaw.Slack

namespace WorkerSystem

def runningThreads (d : WorkerSystem) : List SocketThread := d.threads.filter (·.running)

/-- One reader for each profile, and none that its call has left behind. -/
structure OneReader (d : WorkerSystem) : Prop where
  readers : (d.runningThreads.map (·.profile)).Nodup
  returned : ∀ thread ∈ d.threads, thread.running = true →
    d.slack.stage.serving = true ∧ thread.call = d.slack.call

/-- The step would leave the call before its threads are joined. -/
def leavesEarly (d : WorkerSystem) : ThreadEvent → Bool
  | .slack (some _) _ =>
    match d.slack.stage with
    | .spawning (_ :: _) | .delivering (_ :: _) => true
    | _ => false
  | _ => false

/-- No call is left early with a thread of it running. -/
def JoinsThreads (d : WorkerSystem) (e : ThreadEvent) : Prop :=
  d.leavesEarly e = true → ∀ thread ∈ d.threads, thread.call = d.slack.call →
    thread.running = false

/-! ## The invariant -/

/-- The handles a call has still to join. -/
def awaited (d : WorkerSystem) : List ℕ :=
  match d.slack.stage with
  | .joining handles _ => handles
  | _ => d.slack.handles

/-- The profiles whose threads a call has still to spawn. -/
def unspawned (d : WorkerSystem) : List String :=
  match d.slack.stage with
  | .spawning profiles => profiles
  | .preparing => d.profiles
  | _ => []

structure ReaderInv (d : WorkerSystem) : Prop where
  profiles : d.profiles.Nodup
  readers : (d.runningThreads.map (·.profile) ++ d.unspawned).Nodup
  returned : ∀ thread ∈ d.threads, thread.running = true →
    d.slack.stage.serving = true ∧ thread.call = d.slack.call
  handles : ∀ index thread, d.threads[index]? = some thread → thread.running = true →
    index ∈ d.awaited

variable {d d' : WorkerSystem} {e : ThreadEvent}

theorem ReaderInv.oneReader (h : d.ReaderInv) : d.OneReader :=
  ⟨(List.nodup_append.mp h.readers).1, h.returned⟩

/-- Nothing runs where no call is served. -/
theorem ReaderInv.runningThreads_eq_nil {d : WorkerSystem} (h : d.ReaderInv)
    (hstage : d.slack.stage.serving = false) : d.runningThreads = [] := by
  refine List.filter_eq_nil_iff.mpr fun thread hthread hrunning => ?_
  rw [(h.returned thread hthread hrunning).1] at hstage
  cases hstage

/-- A step that keeps the threads and where they are awaited. -/
theorem ReaderInv.frame {d d' : WorkerSystem} (h : d.ReaderInv) (hprofiles : d'.profiles = d.profiles)
    (hthreads : d'.threads = d.threads) (hcall : d'.slack.call = d.slack.call)
    (hserving : d.slack.stage.serving = true → d'.slack.stage.serving = true)
    (hunspawned : d'.unspawned = d.unspawned)
    (hawaited : ∀ index thread, d.threads[index]? = some thread → thread.running = true →
      index ∈ d.awaited → index ∈ d'.awaited) : d'.ReaderInv := by
  refine ⟨hprofiles ▸ h.profiles, ?_, ?_, ?_⟩
  · rw [runningThreads, hthreads, hunspawned]
    exact h.readers
  · intro thread hthread hrunning
    rw [hthreads] at hthread
    obtain ⟨hstage, hsame⟩ := h.returned thread hthread hrunning
    exact ⟨hserving hstage, hsame.trans hcall.symm⟩
  · intro index thread hthread hrunning
    rw [hthreads] at hthread
    exact hawaited index thread hthread hrunning (h.handles index thread hthread hrunning)

/-- With no thread running the Slack worker may go anywhere. -/
theorem ReaderInv.still (h : d.ReaderInv) (hnone : d.runningThreads = [])
    (hprofiles : d'.profiles = d.profiles) (hthreads : d'.threads = d.threads)
    (hunspawned : d'.unspawned = [] ∨ d'.unspawned = d.profiles) : d'.ReaderInv := by
  have hended : ∀ thread ∈ d'.threads, ¬ thread.running = true := by
    rw [hthreads]
    exact List.filter_eq_nil_iff.mp hnone
  refine ⟨hprofiles ▸ h.profiles, ?_, fun thread hthread hrunning => ?_,
    fun index thread hthread hrunning => ?_⟩
  · rw [runningThreads, hthreads, ← runningThreads, hnone]
    rcases hunspawned with hnil | hall
    · rw [hnil]
      exact List.nodup_nil
    · rw [hall]
      exact h.profiles
  · exact absurd hrunning (hended thread hthread)
  · exact absurd hrunning (hended thread (List.mem_of_getElem? hthread))

/-- What a call joins before it returns. -/
theorem ReaderInv.joined (h : d.ReaderInv) {result : Except SlackError Unit}
    (hstage : d.slack.stage = .joining [] result) : d.runningThreads = [] := by
  refine List.filter_eq_nil_iff.mpr fun thread hthread hrunning => ?_
  obtain ⟨index, hindex⟩ := List.getElem?_of_mem hthread
  have hawaited := h.handles index thread hindex hrunning
  rw [awaited, hstage] at hawaited
  cases hawaited

theorem ReaderInv.spared (h : d.ReaderInv) (hjoins : d.JoinsThreads e)
    (hleaves : d.leavesEarly e = true) : d.runningThreads = [] := by
  refine List.filter_eq_nil_iff.mpr fun thread hthread hrunning => ?_
  have hended := hjoins hleaves thread hthread (h.returned thread hthread hrunning).2
  rw [hrunning] at hended
  cases hended

theorem ReaderInv.spawn (h : d.ReaderInv) {profile : String} {rest : List String}
    (hstage : d.slack.stage = .spawning (profile :: rest)) (root : String) :
    (d.spawn profile root rest).ReaderInv := by
  have hunspawned : d.unspawned = profile :: rest := by rw [unspawned, hstage]
  have hrunning : (d.spawn profile root rest).runningThreads =
      d.runningThreads ++ [{ profile, call := d.slack.call }] := by
    show (d.threads ++ [_]).filter _ = _
    rw [List.filter_append]
    rfl
  refine ⟨h.profiles, ?_, ?_, ?_⟩
  · show ((d.spawn profile root rest).runningThreads.map (·.profile) ++ rest).Nodup
    rw [hrunning, List.map_append, List.append_assoc]
    have hreaders := h.readers
    rw [hunspawned] at hreaders
    exact hreaders
  · intro thread hthread hrun
    refine ⟨rfl, ?_⟩
    rcases List.mem_append.mp hthread with hthread | hnew
    · exact (h.returned thread hthread hrun).2
    · rw [List.mem_singleton.mp hnew]
      rfl
  · intro index thread hthread hrun
    show index ∈ d.slack.handles ++ [d.threads.length]
    rcases Nat.lt_or_ge index d.threads.length with hlt | hge
    · have hold : d.threads[index]? = some thread := by
        rw [← hthread]
        exact (List.getElem?_append_left hlt).symm
      have hawaited := h.handles index thread hold hrun
      rw [awaited, hstage] at hawaited
      exact List.mem_append_left _ hawaited
    · have hlength : index < (d.spawn profile root rest).threads.length :=
        (List.getElem?_eq_some_iff.mp hthread).1
      have hlast : index = d.threads.length := by
        have hsize : (d.spawn profile root rest).threads.length = d.threads.length + 1 :=
          List.length_append
        omega
      exact List.mem_append_right _ (List.mem_singleton.mpr hlast)

/-- In these stages all threads of a call are spawned, and none is joined. -/
def inLoop : SlackStage → Bool
  | .spawning [] | .loopHead | .delivering _ | .draining | .pausing => true
  | _ => false

theorem inLoop_spec {stage : SlackStage} (hstage : d.slack.stage = stage) (h : inLoop stage = true)
    : d.unspawned = [] ∧ d.awaited = d.slack.handles := by
  rw [unspawned, awaited, hstage]
  cases stage with
  | spawning profiles =>
    cases profiles with
    | nil => exact ⟨rfl, rfl⟩
    | cons first rest => cases h
  | loopHead | delivering | draining | pausing => exact ⟨rfl, rfl⟩
  | _ => cases h

/-- From there a call that is served keeps its threads and the handles to be joined. -/
theorem ReaderInv.loop (h : d.ReaderInv) {stage : SlackStage} (hstage : d.slack.stage = stage)
    (hloop : inLoop stage = true) (hprofiles : d'.profiles = d.profiles)
    (hthreads : d'.threads = d.threads) (hcall : d'.slack.call = d.slack.call)
    (hserving : d'.slack.stage.serving = true) (hunspawned : d'.unspawned = [])
    (hawaited : d'.awaited = d.slack.handles) : d'.ReaderInv := by
  obtain ⟨hspawned, hhandles⟩ := inLoop_spec hstage hloop
  refine h.frame hprofiles hthreads hcall (fun _ => hserving) ?_ fun _ _ _ _ hindex => ?_
  · rw [hunspawned, hspawned]
  · rw [hawaited, ← hhandles]
    exact hindex

theorem ReaderInv.slackStep (h : d.ReaderInv) (failure : Option SlackError) (root : String)
    (hjoins : d.JoinsThreads (.slack failure root)) : (d.slackStep failure root).ReaderInv := by
  cases hstage : d.slack.stage with
  | absent | refused | stopped =>
    simp only [WorkerSystem.slackStep, hstage]
    exact h
  | starting =>
    have hnone := h.runningThreads_eq_nil (by rw [hstage]; rfl)
    cases failure with
    | none =>
      simp only [WorkerSystem.slackStep, hstage]
      exact h.still hnone rfl rfl (.inl rfl)
    | some err =>
      simp only [WorkerSystem.slackStep, hstage]
      exact h.still hnone rfl rfl (.inl rfl)
  | idle =>
    have hnone := h.runningThreads_eq_nil (by rw [hstage]; rfl)
    simp only [WorkerSystem.slackStep, hstage]
    split
    · exact h.still hnone rfl rfl (.inl rfl)
    · exact h.still hnone rfl rfl (.inr rfl)
  | preparing =>
    have hnone := h.runningThreads_eq_nil (by rw [hstage]; rfl)
    cases failure with
    | none =>
      simp only [WorkerSystem.slackStep, hstage]
      exact h.still hnone rfl rfl (.inr rfl)
    | some err =>
      simp only [WorkerSystem.slackStep, hstage]
      exact h.still hnone rfl rfl (.inl rfl)
  | spawning profiles =>
    cases profiles with
    | nil =>
      simp only [WorkerSystem.slackStep, hstage]
      exact h.loop hstage rfl rfl rfl rfl rfl rfl rfl
    | cons profile rest =>
      cases failure with
      | none =>
        simp only [WorkerSystem.slackStep, hstage]
        exact h.spawn hstage root
      | some err =>
        -- an early exit, after which no thread may be running
        have hnone := h.spared hjoins (by simp only [leavesEarly, hstage])
        simp only [WorkerSystem.slackStep, hstage]
        exact h.still hnone rfl rfl (.inl rfl)
  | loopHead =>
    simp only [WorkerSystem.slackStep, hstage]
    split
    · exact h.loop hstage rfl rfl rfl rfl rfl rfl rfl
    · exact h.loop hstage rfl rfl rfl rfl rfl rfl rfl
  | delivering roots =>
    cases roots with
    | nil =>
      simp only [WorkerSystem.slackStep, hstage]
      exact h.loop hstage rfl rfl rfl rfl rfl rfl rfl
    | cons first rest =>
      cases failure with
      | none =>
        simp only [WorkerSystem.slackStep, hstage]
        exact h.loop hstage rfl rfl rfl rfl rfl rfl rfl
      | some err =>
        have hnone := h.spared hjoins (by simp only [leavesEarly, hstage])
        simp only [WorkerSystem.slackStep, hstage]
        exact h.still hnone rfl rfl (.inl rfl)
  | draining =>
    simp only [WorkerSystem.slackStep, hstage, WorkerSystem.drain]
    cases hresults : d.slack.results with
    | nil => exact h.loop hstage rfl rfl rfl rfl rfl rfl rfl
    | cons outcome rest =>
      cases outcome with
      | ok u => exact h.loop hstage rfl rfl rfl rfl rfl rfl rfl
      | error err => exact h.loop hstage rfl rfl rfl rfl rfl rfl rfl
  | pausing =>
    simp only [WorkerSystem.slackStep, hstage]
    exact h.loop hstage rfl rfl rfl rfl rfl rfl rfl
  | joining handles result =>
    cases handles with
    | nil =>
      have hnone := h.joined hstage
      cases result with
      | ok u =>
        simp only [WorkerSystem.slackStep, hstage]
        exact h.still hnone rfl rfl (.inl rfl)
      | error err =>
        simp only [WorkerSystem.slackStep, hstage]
        exact h.still hnone rfl rfl (.inl rfl)
    | cons handle rest =>
      simp only [WorkerSystem.slackStep, hstage]
      split
      · next hended =>
          refine h.frame rfl rfl rfl (fun _ => rfl) ?_ fun index thread hthread hrun hindex => ?_
          · simp only [unspawned, hstage, setStage]
          · rw [awaited, hstage] at hindex
            rcases List.mem_cons.mp hindex with rfl | hrest
            · simp only [ended, hthread, hrun] at hended
              cases hended
            · exact hrest
      · exact h
  | failed err =>
    have hnone := h.runningThreads_eq_nil (by rw [hstage]; rfl)
    simp only [WorkerSystem.slackStep, hstage]
    exact h.still hnone rfl rfl (.inl rfl)
  | waiting =>
    have hnone := h.runningThreads_eq_nil (by rw [hstage]; rfl)
    simp only [WorkerSystem.slackStep, hstage]
    split
    · exact h.still hnone rfl rfl (.inl rfl)
    · exact h.still hnone rfl rfl (.inl rfl)

/-! ## The other threads -/

/-- A thread that goes on, or ends, reads for the profile it has read for. -/
theorem running_set_sublist {threads : List SocketThread} {index : ℕ} {thread next : SocketThread}
    (hthread : threads[index]? = some thread) (hprofile : next.profile = thread.profile)
    (hrunning : next.running = true → thread.running = true) :
    (((threads.set index next).filter (·.running)).map (·.profile)).Sublist
      ((threads.filter (·.running)).map (·.profile)) := by
  induction threads generalizing index with
  | nil => cases hthread
  | cons first rest ih =>
    cases index with
    | zero =>
      cases hthread
      show (((next :: rest).filter _).map _).Sublist _
      by_cases hnext : next.running = true
      · rw [List.filter_cons_of_pos hnext, List.filter_cons_of_pos (hrunning hnext),
          List.map_cons, List.map_cons, hprofile]
      · rw [List.filter_cons_of_neg hnext]
        exact ((List.sublist_cons_self thread rest).filter _).map _
    | succ index =>
      have hrest := ih hthread
      show (((first :: rest.set index next).filter _).map _).Sublist _
      by_cases hfirst : first.running = true
      · rw [List.filter_cons_of_pos hfirst, List.filter_cons_of_pos hfirst, List.map_cons,
          List.map_cons]
        exact hrest.cons_cons _
      · rw [List.filter_cons_of_neg hfirst, List.filter_cons_of_neg hfirst]
        exact hrest

theorem ReaderInv.goOn (h : d.ReaderInv) {index : ℕ} {thread next : SocketThread}
    (hthread : d.threads[index]? = some thread) (hthreads : d'.threads = d.threads.set index next)
    (hprofile : next.profile = thread.profile) (hcall : next.call = thread.call)
    (hrunning : next.running = true → thread.running = true) (hprofiles : d'.profiles = d.profiles)
    (hstage : d'.slack.stage = d.slack.stage) (hcalls : d'.slack.call = d.slack.call)
    (hhandles : d'.slack.handles = d.slack.handles) : d'.ReaderInv := by
  have hunspawned : d'.unspawned = d.unspawned := by
    unfold unspawned
    rw [hstage, hprofiles]
  have hawaited : d'.awaited = d.awaited := by
    unfold awaited
    rw [hstage, hhandles]
  refine ⟨hprofiles ▸ h.profiles, ?_, ?_, ?_⟩
  · rw [runningThreads, hthreads, hunspawned]
    exact h.readers.sublist ((running_set_sublist hthread hprofile hrunning).append_right _)
  · intro other hother hrun
    rw [hthreads] at hother
    rw [hstage, hcalls]
    rcases List.mem_or_eq_of_mem_set hother with hother | rfl
    · exact h.returned other hother hrun
    · rw [hcall]
      exact h.returned thread (List.mem_of_getElem? hthread) (hrunning hrun)
  · intro i other hother hrun
    rw [hthreads] at hother
    rw [hawaited]
    by_cases hi : index = i
    · subst hi
      rw [List.getElem?_set_self (List.getElem?_eq_some_iff.mp hthread).1] at hother
      cases hother
      exact h.handles index thread hthread (hrunning hrun)
    · rw [List.getElem?_set_ne hi] at hother
      exact h.handles i other hother hrun

theorem ReaderInv.socketStep (h : d.ReaderInv) (index : ℕ) (result : SocketResult) :
    (d.socketStep index result).ReaderInv := by
  unfold WorkerSystem.socketStep
  cases hthread : d.threads[index]? with
  | none => exact h
  | some thread =>
    obtain ⟨profile, call, phase⟩ := thread
    cases phase with
    | none => exact h
    | some phase =>
      cases phase with
      | returned outcome =>
        simp only [sendOutcome]
        split
        · exact h.goOn hthread rfl rfl rfl (fun _ => rfl) rfl rfl rfl rfl
        · exact h.goOn hthread rfl rfl rfl (fun _ => rfl) rfl rfl rfl rfl
      | loopHead | catchUp | openUrl | connect | configure | connection | backoff =>
        exact h.goOn hthread rfl rfl rfl (fun _ => rfl) rfl rfl rfl rfl

theorem ReaderInv.elsewhere (h : d.ReaderInv) (hprofiles : d'.profiles = d.profiles)
    (hthreads : d'.threads = d.threads) (hslack : d'.slack = d.slack) : d'.ReaderInv := by
  refine h.frame hprofiles hthreads (by rw [hslack]) (fun hserving => hslack ▸ hserving) ?_ ?_
  · rw [unspawned, hslack, hprofiles, unspawned]
  · intro index thread _ _ hindex
    rwa [awaited, hslack, ← awaited]

theorem detect_keeps (d : WorkerSystem) : d.detect.profiles = d.profiles ∧
    d.detect.threads = d.threads ∧ d.detect.slack = d.slack := by
  unfold detect
  split
  · exact ⟨rfl, rfl, rfl⟩
  · exact ⟨rfl, rfl, rfl⟩

theorem ReaderInv.supervisorStep (h : d.ReaderInv) : d.supervisorStep.ReaderInv := by
  unfold WorkerSystem.supervisorStep
  cases d.supervisor with
  | loopHead => exact h.elsewhere rfl rfl rfl
  | looking =>
    obtain ⟨hprofiles, hthreads, hslack⟩ := d.detect_keeps
    exact h.elsewhere hprofiles hthreads hslack
  | stopping => exact h

theorem ReaderInv.workerStep (h : d.ReaderInv) (index : ℕ) (failure : Option String) :
    (d.workerStep index failure).ReaderInv := by
  unfold WorkerSystem.workerStep
  cases d.workers[index]? with
  | none => exact h
  | some worker =>
    obtain ⟨spec, stage⟩ := worker
    cases stage with
    | starting =>
      cases failure with
      | none => exact h.elsewhere rfl rfl rfl
      | some message => exact h.elsewhere rfl rfl rfl
    | running =>
      show ReaderInv (if _ then _ else _)
      split
      · exact h.elsewhere rfl rfl rfl
      · cases failure with
        | none => exact h.elsewhere rfl rfl rfl
        | some message => exact h.elsewhere rfl rfl rfl
    | refused => exact h
    | stopped => exact h

theorem ReaderInv.step (h : d.ReaderInv) (hjoins : d.JoinsThreads e) : (d.step e).ReaderInv := by
  cases e with
  | requestStop => exact h.elsewhere rfl rfl rfl
  | supervisor => exact h.supervisorStep
  | worker index failure => exact h.workerStep index failure
  | slack failure root => exact h.slackStep failure root hjoins
  | slackHeartbeat =>
    show ReaderInv (if _ then _ else _)
    split
    · exact h
    · exact h.elsewhere rfl rfl rfl
  | socket index result => exact h.socketStep index result

/-- A call that is left early leaves a thread behind. -/
theorem not_oneReader_step (h : ¬ d.JoinsThreads e) : ¬ (d.step e).OneReader := by
  simp only [JoinsThreads, Classical.not_imp, not_forall] at h
  obtain ⟨hleaves, thread, hthread, -, hrunning⟩ := h
  have hrun : thread.running = true := by simpa using hrunning
  have hfail : ∃ err, d.step e = d.fail err := by
    cases e with
    | slack failure root =>
      cases failure with
      | none => cases hleaves
      | some err =>
        refine ⟨err, ?_⟩
        simp only [leavesEarly] at hleaves
        split at hleaves
        · next hstage => simp only [WorkerSystem.step, WorkerSystem.slackStep, hstage]
        · next hstage => simp only [WorkerSystem.step, WorkerSystem.slackStep, hstage]
        · cases hleaves
    | _ => cases hleaves
  obtain ⟨err, hfail⟩ := hfail
  intro hgood
  rw [hfail] at hgood
  cases (hgood.returned thread hthread hrun).1

theorem start_readerInv (settings : GlobalSettings) : (WorkerSystem.start settings).ReaderInv := by
  have hstage : (WorkerSystem.start settings).slack.stage = .starting ∨
      (WorkerSystem.start settings).slack.stage = .absent := by
    show (if _ then _ else _) = _ ∨ (if _ then _ else _) = _
    split
    · exact .inl rfl
    · exact .inr rfl
  have hunspawned : (WorkerSystem.start settings).unspawned = [] := by
    rcases hstage with hstarting | habsent
    · rw [unspawned, hstarting]
    · rw [unspawned, habsent]
  refine ⟨slackProfiles_nodup settings, ?_, nofun, nofun⟩
  rw [hunspawned]
  exact List.nodup_nil

/-- **One reader for each profile.** In every state of a run each profile has at most one
reader, and no reader that its call has left behind, exactly if no call is left by an error
of the outgoing messages or of a profile while a thread it has spawned is running. -/
theorem one_reader_iff (settings : GlobalSettings) (es : List ThreadEvent) :
    (∀ before, before <+: es → (run step (WorkerSystem.start settings) before).OneReader) ↔
      Meets step JoinsThreads (WorkerSystem.start settings) es :=
  run_prefixes_iff ReaderInv OneReader (fun _ h => h.oneReader) (fun _ _ h hok => h.step hok)
    (fun _ _ _ hnot => not_oneReader_step hnot) (start_readerInv settings)

def singleProfile : GlobalSettings where
  workspacesPath := "/work"
  channelProfiles := [("slack_main", { channel := .slack, orchestratorId := "main" })]
  channels := [("slack", { enabled := true })]

/-- The second call of the Slack worker, after an outgoing message that cannot be sent. -/
def undeliverableRun : List ThreadEvent :=
  let spawned : List ThreadEvent :=
    [.slack none "", .slack none "", .slack none "/work/main", .slack none ""]
  .slack none "" :: spawned ++
    [.slack none "", .slack (some (.unknownChannelProfile "slack_old")) "", .slack none "",
      .slack none ""] ++
    spawned

/-- Two threads read for the only profile. -/
theorem undeliverable_message_leaves_reader :
    (run step (WorkerSystem.start singleProfile) undeliverableRun).runningThreads.map (·.profile) =
        ["slack_main", "slack_main"] ∧
      ¬ ∀ before, before <+: undeliverableRun →
        (run step (WorkerSystem.start singleProfile) before).OneReader := by
  have hreaders : (run step (WorkerSystem.start singleProfile) undeliverableRun).runningThreads.map
      (·.profile) = ["slack_main", "slack_main"] := by decide
  refine ⟨hreaders, fun h => ?_⟩
  have hnodup := (h undeliverableRun (List.prefix_refl _)).readers
  rw [hreaders] at hnodup
  revert hnodup
  decide

end WorkerSystem

end Direclaw.Runtime
