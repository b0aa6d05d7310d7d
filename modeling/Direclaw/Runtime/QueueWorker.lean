import Direclaw.Orchestration.Routing
import Direclaw.Queue.Claiming
import Mathlib.Data.List.Destutter

/-!
# The queue worker

`process_claimed_message` of `runtime/queue_worker.rs` with every exit: a claimed
message is routed, and then answered, dropped without an answer, requeued or
dead-lettered. The conversation log that it appends to is not read by any of this
and is left out.
-/

namespace Direclaw.Runtime

open Direclaw.Lib Direclaw.Queue Direclaw.Orchestration

/-! ## The world around one call -/

/-- The places where the clock is read. -/
inductive ClockSite : Type where
  | acknowledgement
  | reply
  | deadLetter
  | notification
deriving DecidableEq, Repr

structure WorkerEnv extends RoutingEnv where
  hash : List Char → List Char
  isFile : String → Bool
  nowSecs : ClockSite → Int64
  /-- `DIRECLAW_QUEUE_MAX_REQUEUE_ATTEMPTS`. -/
  maxRequeueAttemptsVar : Option String
  /-- The `failed` directory, for the texts that name a dead letter. -/
  failedDir : String
  stepAttemptsByTime : String → List StepAttemptRecord
  finalUserMessage : String → Option StepAttemptRecord → String
  latestRunForSourceMessageId : String → Except OrchestratorError (Option WorkflowRunRecord)

def queueMaxRequeueAttempts (raw : Option String) : ℕ :=
  ((raw.bind fun text => Text.parseU32 text.toList).filter (0 < ·)).getD 3

def displayQueueError : QueueError → String
  | .notFound name => s!"queue io error at {String.ofList name}: entity not found"
  | .invalidInput name message => s!"queue io error at {String.ofList name}: {message}"
  | .notUtf8 name =>
    s!"queue io error at {String.ofList name}: stream did not contain valid UTF-8"
  | .parse name => s!"invalid queue payload in {String.ofList name}"

/-! ## Where an answer goes -/

def resolveOutboundSlackTarget (text : JsonText) (settings : Settings) (inbound : IncomingMessage) :
    Except String (Option SlackTargetRef) :=
  if inbound.channel = "slack" then
    match inbound.channelProfileId with
    | none => .error "slack message missing channel_profile_id"
    | some channelProfileId =>
      match inbound.conversationId with
      | none => .error "slack message missing conversation_id"
      | some conversationId =>
        (slackTargetFromConversation channelProfileId conversationId).map some
  else if inbound.channel = "scheduler" then do
    let envelope ← parseTriggerEnvelope text inbound.message
    let slackTarget ← envelope.slackTarget
    validateProfileMapping settings envelope.orchestratorId slackTarget
    return slackTarget
  else .ok none

/-- The fields of an answer that its target decides. -/
structure OutboundContext where
  channel : String
  channelProfileId : Option String
  conversationId : Option String
  targetRef : Option Json

def slackConversationId (target : SlackTargetRef) : String :=
  match target.postingMode with
  | .channelPost => target.channelId
  | .threadReply => target.channelId ++ ":" ++ target.threadTs.getD ""

def outboundContext (inbound : IncomingMessage) : Option SlackTargetRef → OutboundContext
  | some target =>
    { channel := "slack"
      channelProfileId := some target.channelProfileId
      conversationId := some (slackConversationId target)
      targetRef := some (slackTargetRefToValue target) }
  | none =>
    { channel := inbound.channel
      channelProfileId := inbound.channelProfileId
      conversationId := inbound.conversationId
      targetRef := none }

/-- An unresolved target falls back to the inbound message's own context. -/
def outboundContextForInbound (text : JsonText) (settings : Settings) (inbound : IncomingMessage) :
    OutboundContext :=
  match resolveOutboundSlackTarget text settings inbound with
  | .ok target => outboundContext inbound target
  | .error _ => outboundContext inbound none

/-- `i64::saturating_add` of a non-negative number. -/
def saturatingAddI64 (n : Int64) (k : ℕ) : Int64 :=
  Int64.ofInt (min (n.toInt + k) Int64.maxValue.toInt)

/-- An outgoing message in a given context; the texts and ids vary. -/
def OutboundContext.message (context : OutboundContext) (inbound : IncomingMessage)
    (messageId message agent : String) (timestamp : Int64) : OutgoingMessage where
  channel := context.channel
  channelProfileId := context.channelProfileId
  sender := inbound.sender
  message := message
  originalMessage := inbound.message
  timestamp := timestamp
  messageId := messageId
  agent := agent
  conversationId := context.conversationId
  targetRef := context.targetRef
  files := []
  workflowRunId := inbound.workflowRunId
  workflowStepId := inbound.workflowStepId

def enqueueOutgoing (isFile : String → Bool) (q : QueueState) (item : OutgoingMessage) (now : ℕ) :
    QueueState :=
  { q with outgoing := writeOutgoingMessage isFile q.outgoing item 0 now }

/-! ## Texts -/

def attemptNotice (attempt : StepAttemptRecord) : Option (String × String) :=
  match attempt.state with
  | .failedRetryable =>
    some (s!"Step `{attempt.stepId}` failed on attempt {attempt.attempt}. Retrying.",
      "orchestrator")
  | .failed =>
    let error :=
      (attempt.error.filter fun v => !Text.isBlank v.toList).getD "unknown error"
    some (s!"Step `{attempt.stepId}` failed on attempt {attempt.attempt}: {error}",
      "orchestrator")
  | .succeeded => none

def workflowLifecycleMessages (env : WorkerEnv) (runId : String) : List (String × String) :=
  let attempts := env.stepAttemptsByTime runId
  if attempts.isEmpty then [(s!"workflow started\nrun_id={runId}", "orchestrator")]
  else
    attempts.filterMap attemptNotice ++
      [(env.finalUserMessage runId attempts.getLast?, "orchestrator")]

def actionToOutboundMessages (env : WorkerEnv) : RoutedSelectorAction → List (String × String)
  | .workflowStart runId _ => workflowLifecycleMessages env runId
  | .workflowStatus runId (some progress) message =>
    let run := runId.getD "none"
    [(s!"{message}\nrun_id={run}\nstate={progress.state.display}", "orchestrator")]
  | .workflowStatus _ none message => [(message, "orchestrator")]
  | .commandInvoke result => [(env.text.toStringPretty result, "command")]
  | .noResponse _ => []

def flattenAndLimit (text : String) (maxChars : ℕ) : String :=
  String.ofList ((Text.trim ([' '].intercalate (Text.splitWhitespace text.toList))).take maxChars)

def formatFailedStep (attempt : StepAttemptRecord) : String :=
  s!"{attempt.stepId}#{attempt.attempt}" ++
    match attempt.error.filter fun v => !Text.isBlank v.toList with
    | some error => ": " ++ flattenAndLimit error 140
    | none => ""

/-- Sorted, without repetitions, and joined. -/
def renderSteps (steps : List String) : String :=
  let steps := (steps.insertionSort (· ≤ ·)).destutter (· ≠ ·)
  if steps.isEmpty then "none recorded" else ", ".intercalate steps

def renderDeadLetterFailureMessage (run : Option WorkflowRunRecord)
    (attempts : List StepAttemptRecord) (failureAttempt : ℕ) (queueError : String) : String :=
  let runId := (run.map (·.runId)).getD "unknown"
  let reason := ((run.bind (·.terminalReason)).filter fun v => !Text.isBlank v.toList).getD queueError
  let succeeded := renderSteps ((attempts.filter (·.state == .succeeded)).map
    fun attempt => s!"{attempt.stepId}#{attempt.attempt}")
  let failed := renderSteps ((attempts.filter (·.state != .succeeded)).map formatFailedStep)
  s!"Workflow failed.\nrun_id={runId}\nfailed_queue_attempt={failureAttempt}\n" ++
    s!"succeeded steps: {succeeded}\nfailed steps: {failed}\nreason: {flattenAndLimit reason 500}"

/-! ## One claimed message -/

section Worker

variable (env : WorkerEnv) (settings : Settings)

def enqueueWorkflowSelectionAck (inbound : IncomingMessage) (q : QueueState) (workflowId : String) :
    QueueState × Except String Unit :=
  match resolveOutboundSlackTarget env.text settings inbound with
  | .error err => (q, .error err)
  | .ok target =>
    let now := env.nowSecs .acknowledgement
    let item := (outboundContext inbound target).message inbound
      s!"{inbound.messageId}-workflow-ack" s!"Actioning workflow {workflowId}..."
      "orchestrator" now
    (enqueueOutgoing env.isFile q item now.toInt.toNat, .ok ())

/-- The hook that `process_claimed_message` hands to routing. -/
def onWorkflowSelected (inbound : IncomingMessage) (q : QueueState) (workflowId : String)
    (workflowStepCount : ℕ) : QueueState × Except OrchestratorError Unit :=
  if 1 < workflowStepCount then
    let (q, result) := enqueueWorkflowSelectionAck env settings inbound q workflowId
    (q, result.mapError .config)
  else (q, .ok ())

def enqueueDeadLetterFailureNotification (inbound : IncomingMessage) (q : QueueState)
    (failureAttempt : ℕ) (queueError : String) : QueueState × Except String Unit :=
  match env.latestRunForSourceMessageId inbound.messageId with
  | .error err => (q, .error err.display)
  | .ok latestRun =>
    let attempts := (latestRun.map fun run => env.stepAttemptsByTime run.runId).getD []
    let message := renderDeadLetterFailureMessage latestRun attempts failureAttempt queueError
    let now := env.nowSecs .notification
    let item := (outboundContextForInbound env.text settings inbound).message inbound
      inbound.messageId message "orchestrator" now
    (enqueueOutgoing env.isFile q item now.toInt.toNat, .ok ())

/-- Routing failed: the file is requeued or dead-lettered, and the call reports the
error with what became of the file. -/
def handleRoutingFailure (q : QueueState) (claimed : ClaimedMessage) (errorText : String) :
    QueueState × Except String Unit :=
  let maxRequeueAttempts := queueMaxRequeueAttempts env.maxRequeueAttemptsVar
  match requeueOrDeadLetterFailure env.hash q claimed maxRequeueAttempts errorText
      (env.nowSecs .deadLetter).toInt with
  | (q, .ok (.requeued requeued)) =>
    (q, .error (s!"{errorText} (requeued attempt {requeued.attempt} " ++
      s!"of max {maxRequeueAttempts})"))
  | (q, .ok (.deadLettered name attempt)) =>
    let path := joinPath env.failedDir (String.ofList name)
    match enqueueDeadLetterFailureNotification env settings claimed.payload q attempt errorText with
    | (q, .error notifyErr) =>
      (q, .error (s!"{errorText} (dead-lettered after attempt {attempt}; path={path}; " ++
        s!"additionally failed to enqueue failure notification: {notifyErr})"))
    | (q, .ok ()) =>
      (q, .error s!"{errorText} (dead-lettered after attempt {attempt}; path={path})")
  | (q, .error queueErr) =>
    (q, .error (s!"{errorText} (additionally failed to handle queue failure: " ++
      s!"{displayQueueError queueErr})"))

/-- The batch that answers a message. -/
def replies (inbound : IncomingMessage) (target : Option SlackTargetRef)
    (responses : List (String × String)) : List OutgoingMessage :=
  responses.mapIdx fun index response =>
    (outboundContext inbound target).message inbound inbound.messageId response.1 response.2
      (saturatingAddI64 (env.nowSecs .reply) index)

def processClaimedMessage (q : QueueState) (claimed : ClaimedMessage) :
    QueueState × Except String Unit :=
  match processQueuedMessage env.toRoutingEnv settings claimed.payload
      (onWorkflowSelected env settings claimed.payload) q with
  | (q, .error err) => handleRoutingFailure env settings q claimed err.display
  | (q, .ok (.noResponse _)) =>
    let (q, result) := completeSuccessNoOutgoing q claimed
    (q, result.mapError displayQueueError)
  | (q, .ok action) =>
    match resolveOutboundSlackTarget env.text settings claimed.payload with
    | .error err => (q, .error err)
    | .ok target =>
      let outgoing := replies env claimed.payload target (actionToOutboundMessages env action)
      let (q, result) := completeSuccessMany env.isFile q claimed outgoing
        (env.nowSecs .reply).toInt.toNat
      (q, result.mapError displayQueueError)

end Worker

/-! ## Every exit but one settles the file -/

section Settled

variable {env : WorkerEnv} {settings : Settings} {inbound : IncomingMessage}

/-- The claimed file has left `processing`: the message was completed, or its file
is back in `incoming`, or there is a dead letter for it. -/
def Settled (hash : List Char → List Char) (claimed : ClaimedMessage) (file : File)
    (after : QueueState × Except String Unit) : Prop :=
  after.1.processing.lookup claimed.name = none ∧
    (after.2 = .ok () ∨ (∃ target, after.1.incoming.lookup target = some file) ∨
      ∃ counter, (after.1.failed.lookup
        (deadLetterFilename hash claimed.payload.messageId counter)).isSome)

/-- Routing gets as far as asking an orchestrator. -/
def Routable (settings : Settings) (inbound : IncomingMessage) : Prop :=
  ∃ orchestratorId root, resolveOrchestratorId settings inbound = .ok orchestratorId ∧
    settings.resolveOrchestratorRuntimeRoot orchestratorId = .ok root

/-- A Slack message that is routed names the conversation to answer in. -/
def Addressed (settings : Settings) (inbound : IncomingMessage) : Prop :=
  inbound.channel = "slack" → Routable settings inbound →
    ∃ conversationId, inbound.conversationId = some conversationId ∧
      NamesConversation conversationId

theorem enqueueWorkflowSelectionAck_fst (q : QueueState) (workflowId : String) :
    ∃ outgoing, (enqueueWorkflowSelectionAck env settings inbound q workflowId).1 =
      { q with outgoing := outgoing } := by
  unfold enqueueWorkflowSelectionAck
  split
  · exact ⟨q.outgoing, rfl⟩
  · exact ⟨_, rfl⟩

/-- The hook only writes to `outgoing`. -/
theorem processQueuedMessage_onlyOutgoing (q : QueueState) :
    ∃ outgoing, (processQueuedMessage env.toRoutingEnv settings inbound
      (onWorkflowSelected env settings inbound) q).1 = { q with outgoing := outgoing } := by
  refine processQueuedMessage_keeps
    (P := fun s : QueueState => ∃ outgoing : Directory, s = { q with outgoing := outgoing })
    ?_ ⟨q.outgoing, rfl⟩
  rintro s workflowId count ⟨outgoing, rfl⟩
  unfold onWorkflowSelected
  split
  · obtain ⟨written, hw⟩ := @enqueueWorkflowSelectionAck_fst env settings inbound
      { q with outgoing := outgoing } workflowId
    exact ⟨written, hw⟩
  · exact ⟨outgoing, rfl⟩

variable {q : QueueState} {claimed : ClaimedMessage} {file : File}

theorem enqueueDeadLetterFailureNotification_fst (attempt : ℕ) (error : String) :
    ∃ outgoing, (enqueueDeadLetterFailureNotification env settings inbound q attempt error).1 =
      { q with outgoing := outgoing } := by
  unfold enqueueDeadLetterFailureNotification
  split
  · exact ⟨q.outgoing, rfl⟩
  · exact ⟨_, rfl⟩

theorem handleRoutingFailure_settled (h : q.processing.lookup claimed.name = some file)
    (errorText : String) :
    Settled env.hash claimed file (handleRoutingFailure env settings q claimed errorText) := by
  have hgone : (q.processing.erase claimed.name).lookup claimed.name = none := by
    rw [Directory.lookup_erase, if_pos rfl]
  unfold handleRoutingFailure
  rcases requeueOrDeadLetterFailure_cases env.hash h
      (queueMaxRequeueAttempts env.maxRequeueAttemptsVar) errorText
      (env.nowSecs .deadLetter).toInt with ⟨_, envelope, he⟩ | ⟨_, he⟩
  · simp only [he]
    generalize hq : ({ q.bumpCounter with
      processing := q.processing.erase claimed.name
      failed := q.failed.insert
        (deadLetterFilename env.hash claimed.payload.messageId q.requeueCounter) envelope } :
        QueueState) = q'
    have hnotify := @enqueueDeadLetterFailureNotification_fst env settings claimed.payload q'
      (nextFailureAttempt claimed.name) errorText
    have hdead : ∀ outgoing : Directory,
        ({ q' with outgoing := outgoing } : QueueState).processing.lookup claimed.name = none ∧
        (({ q' with outgoing := outgoing } : QueueState).failed.lookup
          (deadLetterFilename env.hash claimed.payload.messageId q.requeueCounter)).isSome := by
      intro outgoing
      subst hq
      exact ⟨hgone, by simp only [Directory.lookup_insert, if_pos, Option.isSome_some]⟩
    split
    all_goals
      next hcall =>
        rw [hcall] at hnotify
        obtain ⟨outgoing, rfl⟩ := hnotify
        exact ⟨(hdead outgoing).1, .inr (.inr ⟨q.requeueCounter, (hdead outgoing).2⟩)⟩
  · simp only [he]
    refine ⟨hgone, .inr (.inl ⟨requeueTarget env.hash q claimed.name, ?_⟩)⟩
    rw [Directory.lookup_insert, if_pos rfl]

theorem actionToOutboundMessages_ne_nil {action : RoutedSelectorAction}
    (h : ∀ reason, action ≠ .noResponse reason) : actionToOutboundMessages env action ≠ [] := by
  cases action with
  | workflowStart runId workflowId =>
    simp only [actionToOutboundMessages, workflowLifecycleMessages]
    split <;> simp
  | workflowStatus runId progress message =>
    cases progress <;> simp [actionToOutboundMessages]
  | commandInvoke result => simp [actionToOutboundMessages]
  | noResponse reason => exact absurd rfl (h reason)

theorem replies_isEmpty {target : Option SlackTargetRef} {responses : List (String × String)}
    (h : responses ≠ []) : (replies env inbound target responses).isEmpty = false := by
  cases responses with
  | nil => exact absurd rfl h
  | cons response rest => simp [replies, List.mapIdx_cons]

/-- The one exit that leaves the file behind: the message was answered, but the
answer has no target. -/
theorem processClaimedMessage_settled_iff (h : q.processing.lookup claimed.name = some file) :
    Settled env.hash claimed file (processClaimedMessage env settings q claimed) ↔
      ∀ action, (processQueuedMessage env.toRoutingEnv settings claimed.payload
          (onWorkflowSelected env settings claimed.payload) q).2 = .ok action →
        (∀ reason, action ≠ .noResponse reason) →
        ∃ target, resolveOutboundSlackTarget env.text settings claimed.payload = .ok target := by
  unfold processClaimedMessage
  obtain ⟨outgoing, hq⟩ := @processQueuedMessage_onlyOutgoing env settings claimed.payload q
  have hgone : (q.processing.erase claimed.name).lookup claimed.name = none := by
    rw [Directory.lookup_erase, if_pos rfl]
  split
  · next q' err hroute =>
      rw [hroute] at hq ⊢
      simp only at hq
      subst hq
      -- routing failed: whatever the limit, the file is moved
      have hfail := @handleRoutingFailure_settled env settings { q with outgoing := outgoing }
        claimed file h err.display
      constructor
      · intro _ action haction
        cases haction
      · intro _
        exact hfail
  · next q' reason hroute =>
      rw [hroute] at hq ⊢
      simp only at hq
      subst hq
      constructor
      · intro _ action haction hne
        cases haction
        exact absurd rfl (hne reason)
      · intro _
        have hremove : removeProcessing { q with outgoing := outgoing } claimed.name = _ :=
          removeProcessing_eq h
        simp only [completeSuccessNoOutgoing, hremove]
        exact ⟨hgone, .inl rfl⟩
  · next q' action hne hroute =>
      rw [hroute] at hq ⊢
      simp only at hq
      subst hq
      cases hresolve : resolveOutboundSlackTarget env.text settings claimed.payload with
      | error err =>
        -- the early return: nothing has touched `processing`
        simp only
        constructor
        · intro hsettled
          have hgone := hsettled.1
          rw [h] at hgone
          cases hgone
        · intro hall
          obtain ⟨target, htarget⟩ := hall action rfl hne
          cases htarget
      | ok target =>
        have hbatch : (replies env claimed.payload target
            (actionToOutboundMessages env action)).isEmpty = false :=
          replies_isEmpty (actionToOutboundMessages_ne_nil hne)
        simp only [completeSuccessMany_eq env.isFile
          (q := { q with outgoing := outgoing }) h hbatch]
        constructor
        · intro _ _ _ _
          exact ⟨target, rfl⟩
        · intro _
          exact ⟨hgone, .inl rfl⟩

/-- Scheduled triggers are checked by routing itself, and other channels need no
target: only a Slack message can be answered without one. -/
theorem resolveOutboundSlackTarget_ok_iff {s : QueueState} {action : RoutedSelectorAction}
    (hrouted : (processQueuedMessage env.toRoutingEnv settings inbound
      (onWorkflowSelected env settings inbound) s).2 = .ok action) :
    (∃ target, resolveOutboundSlackTarget env.text settings inbound = .ok target) ↔
      Addressed settings inbound := by
  obtain ⟨orchestratorId, root, hid, hroot⟩ := processQueuedMessage_resolved hrouted
  by_cases hslack : inbound.channel = "slack"
  · obtain ⟨profile, hprofile, hblank⟩ := resolveOrchestratorId_profile hid hslack
    have hroutable : Routable settings inbound := ⟨orchestratorId, root, hid, hroot⟩
    simp only [resolveOutboundSlackTarget, Addressed, hslack, hprofile, if_true, true_implies,
      hroutable]
    cases hconv : inbound.conversationId with
    | none => simp
    | some conversationId =>
      have hiff := slackTargetFromConversation_ok_iff profile conversationId
      simp only [hblank, true_and] at hiff
      simp only [Option.some.injEq, exists_eq_left', ← hiff]
      cases slackTargetFromConversation profile conversationId <;> simp [Except.map]
  · constructor
    · intro _ h
      exact absurd h hslack
    intro _
    by_cases hsched : inbound.channel = "scheduler"
    · -- the checks that the worker makes again have all passed in routing
      simp only [processQueuedMessage, hid, hroot, hsched, if_true] at hrouted
      obtain ⟨envelope, target, hparse, htarget, hmapping⟩ := routeScheduledTrigger_target hrouted
      refine ⟨target, ?_⟩
      simp only [resolveOutboundSlackTarget, if_neg hslack, if_pos hsched, hparse, bind,
        Except.bind, htarget, hmapping, pure, Except.pure]
    · exact ⟨none, by simp only [resolveOutboundSlackTarget, if_neg hslack, if_neg hsched]⟩

end Settled

/-- An orchestrator with nothing stored, whose selector asks for the status of a
run. The hash is the digest of `a.json`, the one name in use. -/
def idleEnv : WorkerEnv where
  text := { fromStr := fun _ => none, complaint := fun _ => "expected value",
            toStringPretty := fun _ => "" }
  openOrchestrator id := .ok
    { id := id, selectorAgent := "router", defaultWorkflow := "flow"
      agents := [("router", { model := "sonnet", canOrchestrateWorkflows := true })]
      workflows := [{
        id := "flow"
        steps := [{
          id := "plan", agent := "router", outputs := [⟨"summary", true⟩]
          outputFiles := [("summary", "summary.txt")]
          finalOutputPriority := [⟨"summary", true⟩] }] }] }
  resume _ runId := .error (.io runId .notFound)
  loadProgress runId := .error (.io runId .notFound)
  select _ inbound := .ok
    { selectorId := s!"sel-{inbound.messageId}", status := .selected, action := some .workflowStatus }
  routeSelectorAction _ _ := .ok
    (.workflowStatus none none "no active workflow run found for this conversation")
  completeScheduledExecution _ _ _ := .ok ()
  hash _ := "6025a12236ee54ba".toList
  isFile _ := false
  nowSecs _ := 100
  maxRequeueAttemptsVar := none
  failedDir := "/state/queue/failed"
  stepAttemptsByTime _ := []
  finalUserMessage _ _ := "workflow update unavailable"
  latestRunForSourceMessageId _ := .ok none

theorem idleEnv_answers {settings : Settings} {inbound : IncomingMessage} (q : QueueState)
    (hroutable : Routable settings inbound) (hslack : inbound.channel = "slack") :
    ∃ runId message, (processQueuedMessage idleEnv.toRoutingEnv settings inbound
      (onWorkflowSelected idleEnv settings inbound) q).2 =
        .ok (.workflowStatus runId none message) := by
  obtain ⟨orchestratorId, root, hid, hroot⟩ := hroutable
  have hsched : inbound.channel ≠ "scheduler" := by
    rw [hslack]
    decide
  cases hrun : inboundRunId inbound with
  | some runId =>
    refine ⟨some runId, s!"workflow run `{runId}` was not found", ?_⟩
    simp only [processQueuedMessage, hid, hroot, if_neg hsched, hrun]
    rfl
  | none =>
    refine ⟨none, "no active workflow run found for this conversation", ?_⟩
    simp only [processQueuedMessage, hid, hroot, if_neg hsched, hrun]
    rfl

/-- **No stranded claim, exactly.** Whatever the stores and the provider answer, the
claimed file has left `processing` when the call returns, if and only if the
message is addressed: a Slack message that gets as far as an orchestrator names its
conversation. -/
theorem claim_settled_iff_addressed (settings : Settings) (q : QueueState)
    (claimed : ClaimedMessage) (file : File)
    (h : q.processing.lookup claimed.name = some file) :
    (∀ env : WorkerEnv, Settled env.hash claimed file
      (processClaimedMessage env settings q claimed)) ↔ Addressed settings claimed.payload := by
  constructor
  · intro hall hslack hroutable
    obtain ⟨runId, message, hanswer⟩ := idleEnv_answers q hroutable hslack
    have hsettled := (processClaimedMessage_settled_iff h).mp (hall idleEnv) _ hanswer (by simp)
    exact (resolveOutboundSlackTarget_ok_iff hanswer).mp hsettled hslack hroutable
  · intro haddressed env
    refine (processClaimedMessage_settled_iff h).mpr fun action haction _ => ?_
    exact (resolveOutboundSlackTarget_ok_iff haction).mpr haddressed

/-! ### A Slack message without a conversation -/

def sampleSettings : Settings where
  workspacesPath := "/state"
  orchestrators := [("main", {})]
  channelProfiles := [("profile-1", { channel := .slack, orchestratorId := "main" })]

def claimedFile (payload : IncomingMessage) : QueueState where
  processing := AList.insert "a.json".toList ⟨1, .json payload.encode⟩ ∅

/-- It asks about a run that does not exist, from nowhere. -/
def fromNowhere : IncomingMessage := { sampleMessage "m1" with workflowRunId := some "run-gone" }

/-- The answer is found, its target is not, and the file stays in `processing`. -/
theorem unaddressed_claim_stranded :
    (claimedFile fromNowhere).processing.lookup "a.json".toList =
      some ⟨1, .json fromNowhere.encode⟩ ∧
    (processClaimedMessage idleEnv sampleSettings (claimedFile fromNowhere)
      ⟨"a.json".toList, fromNowhere⟩).2 = .error "slack message missing conversation_id" ∧
    ¬ Settled idleEnv.hash ⟨"a.json".toList, fromNowhere⟩ ⟨1, .json fromNowhere.encode⟩
      (processClaimedMessage idleEnv sampleSettings (claimedFile fromNowhere)
        ⟨"a.json".toList, fromNowhere⟩) := by
  refine ⟨rfl, rfl, fun h => ?_⟩
  have hgone : some _ = none := h.1
  cases hgone

def inThread : IncomingMessage := { sampleMessage "m1" with conversationId := some "C1:5.0" }

theorem claim_settled_iff_addressed_thread :
    Settled idleEnv.hash ⟨"a.json".toList, inThread⟩ ⟨1, .json inThread.encode⟩
      (processClaimedMessage idleEnv sampleSettings (claimedFile inThread)
        ⟨"a.json".toList, inThread⟩) := by
  refine (claim_settled_iff_addressed sampleSettings _ _ _ rfl).mpr (fun _ _ => ?_) idleEnv
  refine ⟨"C1:5.0", rfl, rfl, fun channelId threadTs hsplit => ?_⟩
  have hparts : Text.splitOnce ':' (Text.trim "C1:5.0".toList) =
      some ("C1".toList, "5.0".toList) := by decide
  rw [hparts] at hsplit
  cases hsplit
  exact ⟨by decide, by decide⟩

end Direclaw.Runtime
