import Direclaw.Queue.Scheduler
import Direclaw.Runtime.QueueWorker

/-!
# Draining the queues once

`drain_queue_once_with_binaries` claims every message of every queue into a scheduler that
lives in memory, and then runs them. Its error exits drop the scheduler: what is pending
then stays in `processing`, and so does everything when no task may run at all. Followed
here are the main thread, the tasks it spawned and the producers that keep writing to
`incoming`, in any order of their steps.
-/

namespace Direclaw.Runtime

open Direclaw.Lib Direclaw.Queue Direclaw.Orchestration

/-! ## The call and its tasks -/

/-- The queue is named by its root. -/
structure ScopedClaimedMessage where
  queuePaths : String
  claimed : ClaimedMessage
deriving DecidableEq

structure QueueTaskCompletion where
  key : OrderingKey
  error : Option String
deriving DecidableEq

def collectOrchestratorQueuePaths (settings : Settings) : Except String (List String) :=
  (settings.orchestrators.mapM fun entry =>
    settings.resolveOrchestratorRuntimeRoot entry.1).mapError ConfigError.display

/-- Where the main thread is. -/
inductive DrainStage : Type where
  /-- In the claim loop: the queues still to be emptied in this pass, and `claimed_any`. -/
  | claiming (rest : List String) (claimedAny : Bool)
  | dispatching
  | receiving
  | returned (result : Except String ℕ)

/-- The queues by their roots, the locals of the call and the threads it spawned. All queues
share the requeue counter. `run` is the scheduler with its history: what was enqueued is what
was claimed. -/
structure Drain where
  queues : String → QueueState
  counter : ℕ := 0
  queueSets : List String := []
  stage : DrainStage
  run : SchedulerRun ScopedClaimedMessage := {}
  running : List (Scheduled ScopedClaimedMessage) := []
  completions : List QueueTaskCompletion := []
  inFlight : ℕ := 0
  processed : ℕ := 0

inductive DrainEvent : Type where
  | main
  /-- The task at this index runs; the world answers it as `env` says. -/
  | task (index : ℕ) (env : WorkerEnv)
  | arrive (queuePaths : String) (name : FileName) (file : File)

namespace Drain

def start (settings : Settings) (queues : String → QueueState) (counter : ℕ) : Drain :=
  match collectOrchestratorQueuePaths settings with
  | .error err => { queues, counter, stage := .returned (.error err) }
  | .ok queueSets => { queues, counter, queueSets, stage := .claiming queueSets false }

def queue (d : Drain) (queuePaths : String) : QueueState :=
  { d.queues queuePaths with requeueCounter := d.counter }

def putQueue (d : Drain) (queuePaths : String) (q : QueueState) : Drain :=
  { d with queues := Function.update d.queues queuePaths q, counter := q.requeueCounter }

section Steps

variable (hash : List Char → List Char) (settings : Settings) (maxConcurrency : ℕ)

/-- One `claim_oldest` of the claim loop. -/
def claimFrom (d : Drain) (queuePaths : String) (rest : List String) (claimedAny : Bool) : Drain :=
  match claimOldest hash (d.queue queuePaths) with
  | (q, .error err) =>
    { d.putQueue queuePaths q with stage := .returned (.error (displayQueueError err)) }
  | (q, .ok none) => { d.putQueue queuePaths q with stage := .claiming rest claimedAny }
  | (q, .ok (some claimed)) =>
    { d.putQueue queuePaths q with
      stage := .claiming (queuePaths :: rest) true
      run := d.run.step (.enqueue (deriveOrderingKey claimed.payload) ⟨queuePaths, claimed⟩) }

/-- The free slots are filled; with nothing in flight the call is done. -/
def dispatch (d : Drain) : Drain :=
  let available := maxConcurrency - d.inFlight
  let d :=
    if 0 < available then
      let spawned := (d.run.scheduler.dequeueRunnable available).1
      { d with
        run := d.run.step (.dequeueRunnable available)
        running := d.running ++ spawned
        inFlight := d.inFlight + spawned.length }
    else d
  { d with stage := if d.inFlight = 0 then .returned (.ok d.processed) else .receiving }

/-- `recv_timeout`. The call itself holds a sender, so the channel is never disconnected. -/
def receive (d : Drain) : Drain :=
  match d.completions with
  | [] => { d with stage := .dispatching }
  | completion :: rest =>
    let d := { d with
      completions := rest
      inFlight := d.inFlight - 1
      run := d.run.step (.complete completion.key) }
    match completion.error with
    | none => { d with processed := d.processed + 1, stage := .dispatching }
    | some error => { d with stage := .returned (.error error) }

def mainStep (d : Drain) : Drain :=
  match d.stage with
  | .claiming [] true => { d with stage := .claiming d.queueSets false }
  | .claiming [] false => { d with stage := .dispatching }
  | .claiming (queuePaths :: rest) claimedAny => d.claimFrom hash queuePaths rest claimedAny
  | .dispatching => d.dispatch maxConcurrency
  | .receiving => d.receive
  | .returned _ => d

def taskStep (d : Drain) (index : ℕ) (env : WorkerEnv) : Drain :=
  match d.running[index]? with
  | none => d
  | some scheduled =>
    let message := scheduled.value
    let (q, result) :=
      processClaimedMessage env settings (d.queue message.queuePaths) message.claimed
    { d.putQueue message.queuePaths q with
      running := d.running.eraseIdx index
      completions := d.completions ++ [{
        key := scheduled.key
        error := match result with | .ok () => none | .error err => some err }] }

/-- A producer writes a file. -/
def arrive (d : Drain) (queuePaths : String) (name : FileName) (file : File) : Drain :=
  let q := d.queue queuePaths
  d.putQueue queuePaths { q with incoming := q.incoming.insert name file }

def step (d : Drain) : DrainEvent → Drain
  | .main => d.mainStep hash maxConcurrency
  | .task index env => d.taskStep settings index env
  | .arrive queuePaths name file => d.arrive queuePaths name file

end Steps

/-! ## What the call leaves behind -/

/-- Whatever the stores and the provider answer, a task for the message moves its file. -/
def WillSettle (settings : Settings) (message : ScopedClaimedMessage) : Prop :=
  ∀ (env : WorkerEnv) (q : QueueState) (file : File),
    q.processing.lookup message.claimed.name = some file →
      Settled env.hash message.claimed file (processClaimedMessage env settings q message.claimed)

/-- The two are the same file. -/
def SameFile (a b : ScopedClaimedMessage) : Prop :=
  a.queuePaths = b.queuePaths ∧ a.claimed.name = b.claimed.name

/-- The file of the claim is in `processing`. -/
def InProcessing (d : Drain) (message : ScopedClaimedMessage) : Prop :=
  (d.queues message.queuePaths).processing.lookup message.claimed.name ≠ none

/-- A claimed message is out of `processing`, or a running task owns it and will settle it. -/
def LeavesNoClaim (settings : Settings) (d : Drain) : Prop :=
  ∀ claim ∈ d.run.enqueued, d.InProcessing claim.value →
    ∃ task ∈ d.running, SameFile task.value claim.value ∧ WillSettle settings task.value

/-- The call abandons nothing at this step: it comes upon a malformed file, or upon the error
of a task, only with nothing pending; tasks may run unless nothing was claimed; and what it
claims is addressed. -/
def KeepsClaims (settings : Settings) (maxConcurrency : ℕ) (d : Drain) : DrainEvent → Prop
  | .main =>
    match d.stage with
    | .claiming (queuePaths :: _) _ =>
      ∀ name file, (sortedIncoming (d.queue queuePaths).incoming).head? = some (name, file) →
        match file.content.payload with
        | none => d.run.scheduler.pending = []
        | some payload => Addressed settings (normalizeInboundPayload payload)
    | .dispatching => maxConcurrency = 0 → d.run.scheduler.pending = []
    | .receiving =>
      ∀ completion ∈ d.completions.head?, completion.error ≠ none → d.run.scheduler.pending = []
    | .claiming [] _ | .returned _ => True
  | .task _ _ | .arrive _ _ _ => True

end Drain

/-! ## A task takes its own file only -/

/-- The file is gone from `processing`, or nothing is. -/
def TakesAtMost (name : FileName) (q q' : QueueState) : Prop :=
  q'.processing = q.processing ∨ q'.processing = q.processing.erase name

section Frame

variable {hash : List Char → List Char} {q q' : QueueState} {name : FileName}
  {claimed : ClaimedMessage} {env : WorkerEnv} {settings : Settings}

theorem TakesAtMost.lookup (h : TakesAtMost name q q') {other : FileName}
    (hother : q'.processing.lookup other ≠ none) : q.processing.lookup other ≠ none := by
  rcases h with h | h
  · rwa [h] at hother
  · rw [h, Directory.lookup_erase] at hother
    split at hother
    · exact absurd rfl hother
    · exact hother

theorem requeueProcessingFile_takes (q : QueueState) (name : FileName) :
    TakesAtMost name q (requeueProcessingFile hash q name).1 := by
  unfold requeueProcessingFile
  simp only
  split
  · exact .inl rfl
  · exact .inr rfl

theorem deadLetterFailure_takes (attempt : ℕ) (error : String) (now : Int) :
    TakesAtMost claimed.name q (deadLetterFailure hash q claimed attempt error now).1 := by
  unfold deadLetterFailure
  simp only
  split
  · exact .inl rfl
  · exact .inr rfl

theorem removeProcessing_takes (q : QueueState) (name : FileName) :
    TakesAtMost name q (removeProcessing q name).1 := by
  unfold removeProcessing
  split
  · exact .inl rfl
  · exact .inr rfl

theorem requeueOrDeadLetterFailure_takes (maxRequeueAttempts : ℕ) (error : String) (now : Int) :
    TakesAtMost claimed.name q
      (requeueOrDeadLetterFailure hash q claimed maxRequeueAttempts error now).1 := by
  unfold requeueOrDeadLetterFailure
  simp only
  split
  · have hdead :=
      @deadLetterFailure_takes hash q claimed (nextFailureAttempt claimed.name) error now
    split <;> next heq =>
      rw [heq] at hdead
      exact hdead
  · have hback := @requeueProcessingFile_takes hash q claimed.name
    split <;> next heq =>
      rw [heq] at hback
      exact hback

theorem handleRoutingFailure_takes (error : String) :
    TakesAtMost claimed.name q (handleRoutingFailure env settings q claimed error).1 := by
  unfold handleRoutingFailure
  have hfail := @requeueOrDeadLetterFailure_takes env.hash q claimed
    (queueMaxRequeueAttempts env.maxRequeueAttemptsVar) error (env.nowSecs .deadLetter).toInt
  simp only
  split
  · next heq =>
      rw [heq] at hfail
      exact hfail
  · next q' name attempt heq =>
      rw [heq] at hfail
      -- the notification is a file in `outgoing`
      have hnotify := @enqueueDeadLetterFailureNotification_fst env settings claimed.payload q'
        attempt error
      split <;> next hcall =>
        rw [hcall] at hnotify
        obtain ⟨outgoing, rfl⟩ := hnotify
        exact hfail
  · next heq =>
      rw [heq] at hfail
      exact hfail

theorem processClaimedMessage_takes (env : WorkerEnv) (settings : Settings) (q : QueueState)
    (claimed : ClaimedMessage) :
    TakesAtMost claimed.name q (processClaimedMessage env settings q claimed).1 := by
  unfold processClaimedMessage
  obtain ⟨outgoing, hq⟩ := @processQueuedMessage_onlyOutgoing env settings claimed.payload q
  generalize processQueuedMessage env.toRoutingEnv settings claimed.payload
    (onWorkflowSelected env settings claimed.payload) q = routed at hq ⊢
  obtain ⟨q', result⟩ := routed
  simp only at hq
  subst hq
  split
  · next heq =>
      cases heq
      exact handleRoutingFailure_takes _
  · next heq =>
      cases heq
      exact removeProcessing_takes _ _
  · next heq =>
      cases heq
      split
      · exact .inl rfl
      · simp only [completeSuccessMany]
        split
        · exact .inl rfl
        · exact removeProcessing_takes _ _

/-- An addressed message is out of `processing` when its task is done, even if the file was
gone before. -/
theorem processClaimedMessage_addressed (env : WorkerEnv) (q : QueueState)
    (haddressed : Addressed settings claimed.payload) :
    (processClaimedMessage env settings q claimed).1.processing.lookup claimed.name = none := by
  cases hfile : q.processing.lookup claimed.name with
  | some file =>
    exact ((claim_settled_iff_addressed settings q claimed file hfile).mpr haddressed env).1
  | none =>
    by_contra hleft
    exact (processClaimedMessage_takes env settings q claimed).lookup hleft hfile

end Frame

/-! ## Every claim has an owner -/

namespace Drain

/-- What is in `processing` of the claimed messages is pending or running, and what the call
leaves pending it does not have. -/
structure DrainInv (settings : Settings) (d : Drain) : Prop where
  run : d.run.Inv
  counted : d.inFlight = d.run.outstanding.length
  waits : d.run.outstandingKeys.Perm (d.running.map (·.key) ++ d.completions.map (·.key))
  addressed : ∀ item ∈ d.run.scheduler.pending ++ d.running,
    Addressed settings item.value.claimed.payload
  owned : ∀ claim ∈ d.run.enqueued, d.InProcessing claim.value →
    ∃ item ∈ d.run.scheduler.pending ++ d.running, SameFile item.value claim.value
  idle : ∀ result, d.stage = .returned result → d.run.scheduler.pending = []

section Invariant

variable {hash : List Char → List Char} {settings : Settings} {maxConcurrency : ℕ} {d d' : Drain}
  {queuePaths : String} {q : QueueState} {rest : List String} {claimedAny : Bool}

theorem inProcessing_putQueue {message : ScopedClaimedMessage}
    (hq : ∀ name, q.processing.lookup name ≠ none →
      (d.queues queuePaths).processing.lookup name ≠ none)
    (h : (d.putQueue queuePaths q).InProcessing message) : d.InProcessing message := by
  unfold InProcessing putQueue at h
  simp only [Function.update_apply] at h
  split at h
  · next hsame =>
      unfold InProcessing
      rw [hsame]
      exact hq _ h
  · exact h

/-- A step that leaves the scheduler and the tasks alone and claims nothing. -/
theorem DrainInv.frame (h : DrainInv settings d) (hrun : d'.run = d.run)
    (hrunning : d'.running = d.running) (hcompletions : d'.completions = d.completions)
    (hinFlight : d'.inFlight = d.inFlight)
    (hprocessing : ∀ message, d'.InProcessing message → d.InProcessing message)
    (hidle : ∀ result, d'.stage = .returned result → d.run.scheduler.pending = []) :
    DrainInv settings d' := by
  constructor
  · rw [hrun]
    exact h.run
  · rw [hrun, hinFlight]
    exact h.counted
  · rw [hrun, hrunning, hcompletions]
    exact h.waits
  · rw [hrun, hrunning]
    exact h.addressed
  · rw [hrun, hrunning]
    exact fun claim hclaim hin => h.owned claim hclaim (hprocessing _ hin)
  · rw [hrun]
    exact hidle

theorem inv_start (settings : Settings) (queues : String → QueueState) (counter : ℕ) :
    DrainInv settings (start settings queues counter) := by
  have hempty : ∀ stage queueSets,
      DrainInv settings { queues, counter, queueSets, stage : Drain } := fun stage queueSets =>
    ⟨SchedulerRun.inv_init, rfl, List.Perm.refl _, by simp, by simp, fun _ _ => rfl⟩
  unfold start
  split
  · exact hempty _ _
  · exact hempty _ _

theorem DrainInv.claim (h : DrainInv settings d) {claimed : ClaimedMessage}
    (haddressed : Addressed settings claimed.payload)
    (hq : ∀ name, q.processing.lookup name ≠ none → name = claimed.name ∨
      (d.queues queuePaths).processing.lookup name ≠ none)
    (rest : List String) (claimedAny : Bool) :
    DrainInv settings { d.putQueue queuePaths q with
      stage := .claiming rest claimedAny
      run := d.run.step (.enqueue (deriveOrderingKey claimed.payload) ⟨queuePaths, claimed⟩) } := by
  refine ⟨SchedulerRun.inv_enqueue h.run _ _, h.counted, h.waits, ?_, ?_, nofun⟩
  · intro item hitem
    simp only [SchedulerRun.step, PerKeyScheduler.enqueue, putQueue, List.mem_append,
      List.mem_singleton] at hitem
    rcases hitem with (hitem | rfl) | hitem
    · exact h.addressed item (List.mem_append_left _ hitem)
    · exact haddressed
    · exact h.addressed item (List.mem_append_right _ hitem)
  · intro claim hclaim hin
    simp only [SchedulerRun.step, PerKeyScheduler.enqueue, putQueue, List.mem_append,
      List.mem_singleton] at hclaim ⊢
    by_cases hsame : claim.value.queuePaths = queuePaths ∧ claim.value.claimed.name = claimed.name
    · exact ⟨_, .inl (.inr rfl), hsame.1.symm, hsame.2.symm⟩
    rcases hclaim with hclaim | rfl
    · have hbefore : d.InProcessing claim.value := by
        unfold InProcessing at hin ⊢
        simp only [putQueue, Function.update_apply] at hin
        split at hin
        · next hpath =>
            rw [hpath]
            exact (hq _ hin).resolve_left fun hname => hsame ⟨hpath, hname⟩
        · exact hin
      obtain ⟨item, hitem, hfile⟩ := h.owned claim hclaim hbefore
      rcases List.mem_append.mp hitem with hitem | hitem
      · exact ⟨item, .inl (.inl hitem), hfile⟩
      · exact ⟨item, .inr hitem, hfile⟩
    · exact absurd ⟨rfl, rfl⟩ hsame

theorem DrainInv.claimFrom (h : DrainInv settings d)
    (hkeeps : ∀ name file,
      (sortedIncoming (d.queue queuePaths).incoming).head? = some (name, file) →
      match file.content.payload with
      | none => d.run.scheduler.pending = []
      | some payload => Addressed settings (normalizeInboundPayload payload)) :
    DrainInv settings (d.claimFrom hash queuePaths rest claimedAny) := by
  unfold Drain.claimFrom
  rcases claimOldest_cases hash (d.queue queuePaths) with ⟨_, heq⟩ |
    ⟨name, file, hhead, _, _, ⟨payload, hp, heq⟩ | ⟨hp, err, heq⟩⟩
  all_goals rw [heq]
  · refine h.frame rfl rfl rfl rfl ?_ nofun
    exact fun message => inProcessing_putQueue fun _ hname => hname
  · have haddressed := hkeeps name file hhead
    rw [hp] at haddressed
    refine h.claim haddressed ?_ _ _
    intro other hother
    simp only [afterClaim, Directory.lookup_insert] at hother
    split at hother
    · next hname => exact .inl hname
    · exact .inr hother
  · have hnone := hkeeps name file hhead
    rw [hp] at hnone
    refine h.frame rfl rfl rfl rfl ?_ fun _ _ => hnone
    refine fun message => inProcessing_putQueue fun other hother => ?_
    -- the file went through `processing` and is back in `incoming`
    simp only [afterBadClaim, Directory.lookup_insert, Directory.lookup_erase] at hother
    split at hother
    · exact absurd rfl hother
    · exact hother

/-- With nothing in flight and a slot free, a dispatch that spawns nothing finds nothing
pending. -/
theorem DrainInv.nothing_pending (h : DrainInv settings d) {available : ℕ} (hfree : 0 < available)
    (hinFlight : d.inFlight = 0)
    (hspawned : (d.run.scheduler.dequeueRunnable available).1.length = 0) :
    d.run.scheduler.pending = [] := by
  have hnone : d.run.outstanding = [] := by
    rw [← List.length_eq_zero_iff, ← h.counted, hinFlight]
  have hlen := h.run.guarantees.workConserving available
  have hcard : d.run.runnableKeys.card = 0 := by omega
  rw [Finset.card_eq_zero] at hcard
  cases hpending : d.run.scheduler.pending with
  | nil => rfl
  | cons item items =>
    have hmem : item.key ∈ d.run.runnableKeys := by
      simp [SchedulerRun.runnableKeys, SchedulerRun.outstandingKeys, freeKeys, hnone, hpending]
    rw [hcard] at hmem
    cases hmem

theorem DrainInv.dispatch (h : DrainInv settings d)
    (hkeeps : maxConcurrency = 0 → d.run.scheduler.pending = []) :
    DrainInv settings (d.dispatch maxConcurrency) := by
  unfold Drain.dispatch
  simp only
  by_cases hfree : 0 < maxConcurrency - d.inFlight
  · simp only [if_pos hfree]
    obtain ⟨spawned, hspawned⟩ :
        ∃ s, (d.run.scheduler.dequeueRunnable (maxConcurrency - d.inFlight)).1 = s := ⟨_, rfl⟩
    obtain ⟨left, hleft⟩ : ∃ l,
        (d.run.scheduler.dequeueRunnable (maxConcurrency - d.inFlight)).2.pending = l := ⟨_, rfl⟩
    have hperm : (spawned ++ left).Perm d.run.scheduler.pending := by
      rw [← hspawned, ← hleft, PerKeyScheduler.dequeueRunnable_eq]
      exact pick_perm _ _ _
    have hitems : ∀ item, item ∈ left ++ (d.running ++ spawned) ↔
        item ∈ d.run.scheduler.pending ++ d.running := by
      intro item
      rw [List.mem_append, List.mem_append, List.mem_append, ← hperm.mem_iff, List.mem_append]
      tauto
    refine ⟨SchedulerRun.inv_dequeueRunnable h.run _, ?_, ?_, ?_, ?_, ?_⟩
    · simp only [SchedulerRun.step, List.length_append, h.counted]
    · simp only [SchedulerRun.step, SchedulerRun.outstandingKeys, List.map_append, hspawned]
      have hwaits := h.waits
      unfold SchedulerRun.outstandingKeys at hwaits
      refine (hwaits.append_right _).trans ?_
      rw [List.append_assoc, List.append_assoc]
      exact List.perm_append_comm.append_left _
    · intro item hitem
      simp only [SchedulerRun.step, hspawned, hleft] at hitem
      exact h.addressed item ((hitems item).mp hitem)
    · intro claim hclaim hin
      obtain ⟨item, hitem, hfile⟩ := h.owned claim hclaim hin
      refine ⟨item, ?_, hfile⟩
      simp only [SchedulerRun.step, hspawned, hleft]
      exact (hitems item).mpr hitem
    · intro result hreturned
      simp only [SchedulerRun.step, hspawned, hleft] at hreturned ⊢
      split at hreturned
      · next hzero =>
          have hnothing := h.nothing_pending hfree (by omega)
            (by rw [hspawned]; omega)
          rw [hnothing] at hperm
          exact (List.append_eq_nil_iff.mp hperm.eq_nil).2
      · cases hreturned
  · simp only [if_neg hfree]
    refine h.frame rfl rfl rfl rfl (fun _ hin => hin) fun result hreturned => ?_
    simp only at hreturned
    split at hreturned
    · exact hkeeps (by omega)
    · cases hreturned

theorem DrainInv.receive (h : DrainInv settings d)
    (hkeeps : ∀ completion ∈ d.completions.head?, completion.error ≠ none →
      d.run.scheduler.pending = []) : DrainInv settings d.receive := by
  unfold Drain.receive
  cases hcompletions : d.completions with
  | nil =>
    refine h.frame rfl rfl hcompletions.symm rfl (fun _ hin => hin) ?_
    rintro _ ⟨⟩
  | cons completion rest =>
    have hperm : d.run.outstandingKeys.Perm
        (completion.key :: (d.running.map (·.key) ++ rest.map (·.key))) := by
      refine h.waits.trans ?_
      rw [hcompletions]
      exact List.perm_middle
    have hmem : ∃ item ∈ d.run.outstanding, item.key = completion.key :=
      List.mem_map.mp (hperm.mem_iff.mpr List.mem_cons_self)
    have hbase : ∀ stage processed, (∀ result, stage = .returned result →
        d.run.scheduler.pending = []) →
        DrainInv settings { d with
          completions := rest
          inFlight := d.inFlight - 1
          run := d.run.step (.complete completion.key)
          stage := stage
          processed := processed } := by
      intro stage processed hidle
      refine ⟨SchedulerRun.inv_complete h.run _, ?_, ?_, h.addressed, h.owned, hidle⟩
      · obtain ⟨item, hitem, hkey⟩ := hmem
        have hlen := List.length_eraseP_of_mem (p := (·.key = completion.key)) hitem
          (by simpa using hkey)
        simp only [SchedulerRun.step, hlen, h.counted]
      · rw [SchedulerRun.outstandingKeys_complete]
        have herased := hperm.erase completion.key
        rwa [List.erase_cons_head] at herased
    simp only
    cases herror : completion.error with
    | none =>
      refine hbase _ _ ?_
      rintro _ ⟨⟩
    | some error =>
      refine hbase _ _ fun _ _ => ?_
      exact hkeeps completion (by rw [hcompletions]; rfl) (by simp [herror])

theorem DrainInv.taskStep (h : DrainInv settings d) (index : ℕ) (env : WorkerEnv) :
    DrainInv settings (d.taskStep settings index env) := by
  unfold Drain.taskStep
  cases hindex : d.running[index]? with
  | none => exact h
  | some task =>
    simp only
    have hperm : (task :: d.running.eraseIdx index).Perm d.running := by
      obtain ⟨hlt, rfl⟩ := List.getElem?_eq_some_iff.mp hindex
      exact List.getElem_cons_eraseIdx_perm hlt
    have hmem : task ∈ d.running := List.mem_of_getElem? hindex
    have hgone := processClaimedMessage_addressed env (d.queue task.value.queuePaths)
      (h.addressed task (List.mem_append_right _ hmem))
    have htakes := processClaimedMessage_takes env settings (d.queue task.value.queuePaths)
      task.value.claimed
    generalize processClaimedMessage env settings (d.queue task.value.queuePaths)
      task.value.claimed = after at hgone htakes ⊢
    obtain ⟨q, result⟩ := after
    simp only at hgone htakes ⊢
    refine ⟨h.run, h.counted, ?_, ?_, ?_, h.idle⟩
    · refine h.waits.trans ?_
      have hkeys := (hperm.map (·.key)).symm
      simp only [List.map_append, List.map_cons, List.map_nil]
      refine (hkeys.append_right _).trans ?_
      rw [List.map_cons, List.cons_append, ← List.append_assoc]
      exact (List.perm_append_singleton _ _).symm
    · intro item hitem
      refine h.addressed item ?_
      rcases List.mem_append.mp hitem with hitem | hitem
      · exact List.mem_append_left _ hitem
      · exact List.mem_append_right _ (List.mem_of_mem_eraseIdx hitem)
    · intro claim hclaim hin
      have hbefore : d.InProcessing claim.value :=
        inProcessing_putQueue (fun _ hname => htakes.lookup hname) hin
      obtain ⟨item, hitem, hfile⟩ := h.owned claim hclaim hbefore
      rcases List.mem_append.mp hitem with hitem | hitem
      · exact ⟨item, List.mem_append_left _ hitem, hfile⟩
      rcases List.mem_cons.mp (hperm.mem_iff.mpr hitem) with rfl | hother
      · -- the task that ran has taken the file
        refine absurd ?_ hin
        show (Function.update d.queues item.value.queuePaths q
          claim.value.queuePaths).processing.lookup claim.value.claimed.name = none
        rw [← hfile.1, ← hfile.2, Function.update_self]
        exact hgone
      · exact ⟨item, List.mem_append_right _ hother, hfile⟩

theorem DrainInv.step (h : DrainInv settings d) {e : DrainEvent}
    (hkeeps : KeepsClaims settings maxConcurrency d e) :
    DrainInv settings (d.step hash settings maxConcurrency e) := by
  cases e with
  | main =>
    simp only [Drain.step, mainStep]
    unfold KeepsClaims at hkeeps
    cases hstage : d.stage with
    | claiming rest claimedAny =>
      rw [hstage] at hkeeps
      cases rest with
      | nil =>
        cases claimedAny with
        | true => exact h.frame rfl rfl rfl rfl (fun _ hin => hin) nofun
        | false => exact h.frame rfl rfl rfl rfl (fun _ hin => hin) nofun
      | cons queuePaths rest => exact h.claimFrom hkeeps
    | dispatching =>
      rw [hstage] at hkeeps
      exact h.dispatch hkeeps
    | receiving =>
      rw [hstage] at hkeeps
      exact h.receive hkeeps
    | returned result => exact h
  | task index env => exact h.taskStep index env
  | arrive queuePaths name file =>
    refine h.frame rfl rfl rfl rfl ?_ h.idle
    exact fun message => inProcessing_putQueue fun _ hname => hname

end Invariant

/-- **Nothing claimed is abandoned** in a run in which the call comes upon malformed files and
failed tasks only with nothing pending: when it has returned, with either result, every message
that it claimed is out of `processing` or owned by a running task that will settle it. -/
theorem drain_leaves_no_claim {hash : List Char → List Char} {settings : Settings}
    {maxConcurrency : ℕ} {queues : String → QueueState} {counter : ℕ} {events : List DrainEvent}
    {result : Except String ℕ}
    (hrun : Meets (step hash settings maxConcurrency) (KeepsClaims settings maxConcurrency)
      (start settings queues counter) events)
    (hreturned : (Lib.run (step hash settings maxConcurrency) (start settings queues counter)
      events).stage = .returned result) :
    LeavesNoClaim settings
      (Lib.run (step hash settings maxConcurrency) (start settings queues counter) events) := by
  have h := Lib.run_invariant (I := DrainInv settings)
    (fun _ _ hd hkeeps => hd.step hkeeps) (inv_start settings queues counter) hrun
  intro claim hclaim hin
  obtain ⟨item, hitem, hfile⟩ := h.owned claim hclaim hin
  rw [h.idle result hreturned, List.nil_append] at hitem
  refine ⟨item, hitem, hfile, fun env q file hfound => ?_⟩
  have haddressed := h.addressed item (List.mem_append_right _ hitem)
  exact (claim_settled_iff_addressed settings q item.value.claimed file hfound).mpr haddressed env

/-! ### Two messages, and one with a malformed file behind it -/

def threadMessage (messageId : String) : IncomingMessage :=
  { inThread with messageId := messageId }

def threadFile : File := ⟨2, .json inThread.encode⟩

/-- The queue of the one orchestrator. -/
def mainQueue (q : QueueState) (queuePaths : String) : QueueState :=
  if queuePaths = "/state/main" then q else {}

def oneMessage : QueueState where
  incoming := AList.insert "a.json".toList threadFile ∅

/-- Two messages of one thread, so of one ordering key: the second waits for the first. -/
def twoMessages : QueueState where
  incoming := AList.insert "b.json".toList ⟨3, .json (threadMessage "m2").encode⟩
    oneMessage.incoming

/-- Both claimed, and then one after the other answered and done. -/
def drainedBoth : List DrainEvent :=
  List.replicate 7 .main ++ [.task 0 idleEnv, .main, .main, .task 0 idleEnv, .main, .main]

theorem addressed_threadMessage (messageId : String) :
    Addressed sampleSettings (normalizeInboundPayload (threadMessage messageId)) := by
  intro _ _
  refine ⟨"C1:5.0", rfl, rfl, fun channelId threadTs hsplit => ?_⟩
  have hparts : Text.splitOnce ':' (Text.trim "C1:5.0".toList) =
      some ("C1".toList, "5.0".toList) := by decide
  rw [hparts] at hsplit
  cases hsplit
  exact ⟨by decide, by decide⟩

theorem drain_leaves_no_claim_twoMessages :
    LeavesNoClaim sampleSettings (Lib.run (step idleEnv.hash sampleSettings 2)
      (start sampleSettings (mainQueue twoMessages) 0) drainedBoth) := by
  have hrun : Meets (step idleEnv.hash sampleSettings 2) (KeepsClaims sampleSettings 2)
      (start sampleSettings (mainQueue twoMessages) 0) drainedBoth := by
    refine ⟨?_, ?_, ?_, trivial, ?_, trivial, nofun, trivial, ?_, nofun, trivial, ?_, nofun, trivial⟩
    · intro name file hhead
      have hfirst : (sortedIncoming twoMessages.incoming).head? =
          some ("a.json".toList, threadFile) := rfl
      obtain ⟨rfl, rfl⟩ := Prod.mk.inj (Option.some.inj (hfirst.symm.trans hhead))
      exact addressed_threadMessage "m1"
    · intro name file hhead
      obtain ⟨rfl, rfl⟩ := Prod.mk.inj (Option.some.inj hhead)
      exact addressed_threadMessage "m2"
    · exact fun _ _ hhead => by cases hhead
    · exact fun _ _ hhead => by cases hhead
    · -- the second message still waits here, and the task of the first has succeeded
      intro completion hhead herror
      cases hhead
      exact absurd rfl herror
    · exact fun _ _ _ => rfl
  have hreturned : (Lib.run (step idleEnv.hash sampleSettings 2)
      (start sampleSettings (mainQueue twoMessages) 0) drainedBoth).stage = .returned (.ok 2) := rfl
  exact drain_leaves_no_claim hrun hreturned

/-- `b.json` was written after `a.json`, and is no message. -/
def brokenBehind : QueueState where
  incoming := AList.insert "b.json".toList (brokenFile 3) oneMessage.incoming

/-- `a.json` is claimed, and then the call ends at `b.json`. -/
theorem drain_abandons_claim :
    ¬ ∀ hash settings maxConcurrency queues counter events result, 0 < maxConcurrency →
      (Lib.run (step hash settings maxConcurrency) (start settings queues counter)
        events).stage = .returned result →
      LeavesNoClaim settings
        (Lib.run (step hash settings maxConcurrency) (start settings queues counter) events) := by
  intro hall
  have hreturned : (Lib.run (step idleEnv.hash sampleSettings 1)
      (start sampleSettings (mainQueue brokenBehind) 0) [.main, .main]).stage =
        .returned (.error (displayQueueError (.parse "b.json".toList))) := rfl
  have hleaves := hall _ _ _ _ _ _ _ Nat.one_pos hreturned
  have hclaimed : ⟨deriveOrderingKey inThread, "/state/main", "a.json".toList, inThread⟩ ∈
      (Lib.run (step idleEnv.hash sampleSettings 1)
        (start sampleSettings (mainQueue brokenBehind) 0) [.main, .main]).run.enqueued :=
    List.mem_of_getElem? (i := 0) rfl
  have hin : (Lib.run (step idleEnv.hash sampleSettings 1)
      (start sampleSettings (mainQueue brokenBehind) 0) [.main, .main]).InProcessing
        ⟨"/state/main", "a.json".toList, inThread⟩ :=
    fun hgone => Option.some_ne_none threadFile hgone
  obtain ⟨task, htask, _⟩ := hleaves _ hclaimed hin
  cases htask

end Drain

end Direclaw.Runtime
