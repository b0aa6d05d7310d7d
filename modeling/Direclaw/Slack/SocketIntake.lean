import Direclaw.Slack.Enqueue

/-!
# Events of a socket connection

`process_single_connection` of `channels/slack/socket.rs`: the reader takes frames from the
socket, acknowledges the envelope in a frame, and hands the event in it, if it is one to
enqueue, to a worker thread through a bounded channel; the worker calls `enqueue_incoming`
for one event after the other. When the reader leaves its loop the worker empties the
channel and ends.
-/

namespace Direclaw.Slack

open Direclaw.Lib Direclaw.Queue Direclaw.Orchestration

def socketBufferCapacity : ℕ := 256

/-! ## Health -/

inductive RetryClass : Type where
  | nonRetryable
  | retryable
deriving DecidableEq, Repr

structure SocketHealth where
  connected : Bool := false
  lastEventTs : Option String := none
  lastReconnect : Option Int := none
  lastError : Option String := none
deriving DecidableEq, Repr

def nonRetryableNeedles : List String :=
  ["invalid_auth", "not_authed", "token_revoked", "account_inactive", "missing_scope", "403", "401"]

def classifySocketFailure (message : String) : RetryClass :=
  let lower := Text.toAsciiLowercase message.toList
  if nonRetryableNeedles.any fun needle => decide (needle.toList <:+: lower) then .nonRetryable
  else .retryable

def formatSocketError (context detail : String) (retry : RetryClass) : String :=
  let label := match retry with
    | .retryable => "retryable"
    | .nonRetryable => "non_retryable"
  s!"{context} ({label}): {detail}"

/-! ## Envelopes -/

structure SocketEvent where
  type : String
  channel : String
  channelType : Option String
  user : Option String
  botId : Option String
  subtype : Option String
  text : Option String
  ts : String
  threadTs : Option String
deriving DecidableEq, Repr

structure SocketEnvelope where
  envelopeId : Option String
  /-- The `event` of the `payload`. -/
  event : Option SocketEvent
deriving DecidableEq, Repr

namespace SocketEvent

def decode (value : Json) : Option SocketEvent := do
  let fields ← value.structFields
    ["type", "channel", "channel_type", "user", "bot_id", "subtype", "text", "ts", "thread_ts"]
  let get := Json.field fields
  return {
    type := ← Json.defaultStr (get "type")
    channel := ← Json.defaultStr (get "channel")
    channelType := ← Json.optionalStr (get "channel_type")
    user := ← Json.optionalStr (get "user")
    botId := ← Json.optionalStr (get "bot_id")
    subtype := ← Json.optionalStr (get "subtype")
    text := ← Json.optionalStr (get "text")
    ts := ← Json.defaultStr (get "ts")
    threadTs := ← Json.optionalStr (get "thread_ts") }

def inferChannelType (channelId : String) : Option String :=
  match channelId.toList.head? with
  | some 'D' => some "im"
  | some 'C' => some "channel"
  | some 'G' => some "group"
  | _ => none

def resolveChannelType (event : SocketEvent) : Option String :=
  event.channelType <|> inferChannelType event.channel

/-- `should_enqueue_socket_event`; `should_accept_channel_message` accepts everything. -/
def shouldEnqueue (event : SocketEvent) : Bool :=
  (event.type == "message" || event.type == "app_mention") &&
    !isBlankText event.channel && !isBlankText event.ts &&
    event.user.isSome && event.botId.isNone && event.subtype.isNone &&
    match event.resolveChannelType with
    | some channelType => channelType == "im" || channelType == "channel" || channelType == "group"
    | none => false

def message (event : SocketEvent) : SlackMessage where
  ts := event.ts
  threadTs := event.threadTs
  text := event.text
  user := event.user
  subtype := event.subtype
  botId := event.botId

end SocketEvent

def SocketPayload.decode (value : Json) : Option (Option SocketEvent) := do
  let fields ← value.structFields ["event"]
  Json.optionalStruct SocketEvent.decode (Json.field fields "event")

def SocketEnvelope.decode (value : Json) : Option SocketEnvelope := do
  let fields ← value.structFields ["envelope_id", "payload"]
  return {
    envelopeId := ← Json.optionalStr (Json.field fields "envelope_id")
    event := (← Json.optionalStruct SocketPayload.decode (Json.field fields "payload")).join }

/-! ## One call of `enqueue_incoming` -/

/-- What the file system may refuse: the listing of `outgoing`, and the write. -/
inductive EnqueueFault : Type where
  | listOutgoing
  | write
deriving DecidableEq, Repr

/-- The call as a whole: whether the message was written now. -/
def enqueueIncoming (queue : QueueState) (offer : Offer) (now : Int64) (modified : ℕ)
    (fault : Option EnqueueFault) : Except EnqueueFault Bool × QueueState :=
  if (queue.incoming.lookup offer.name).isSome then (.ok false, queue)
  else if (queue.processing.lookup offer.name).isSome then (.ok false, queue)
  else if fault = some .listOutgoing then (.error .listOutgoing, queue)
  else if directoryHasOutgoingMessage queue.outgoing offer.messageId then (.ok false, queue)
  else if fault = some .write then (.error .write, queue)
  else
    (.ok true,
      { queue with
        incoming := queue.incoming.insert offer.name ⟨modified, .json (offer.payload now).encode⟩ })

section Calls

variable (hash : List Char → List Char) (isFile : String → Bool)

theorem run_advance_nil (queue : QueueState) (written : List SlackKey) (now : Int64)
    (modified k : ℕ) :
    run (ingestStep hash isFile) ⟨queue, [], written⟩ (List.replicate k (.advance 0 now modified)) =
      ⟨queue, [], written⟩ := by
  induction k with
  | zero => rfl
  | succ k ih => exact ih

/-- Left to itself, a call makes the looks of `advanceOffer` one after the other. -/
theorem enqueueIncoming_advance (queue : QueueState) (offer : Offer)
    (hstage : offer.stage = .incoming) (written : List SlackKey) (now : Int64) (modified : ℕ) :
    (run (ingestStep hash isFile) ⟨queue, [offer], written⟩
        (List.replicate 4 (.advance 0 now modified))).queue =
      (enqueueIncoming queue offer now modified none).2 := by
  have hlook : ∀ (offer : Offer) (found : Bool) (next : OfferStage),
      lookAt ⟨queue, [offer], written⟩ 0 offer found next =
        if found then ⟨queue, [], written⟩
        else ⟨queue, [{ offer with stage := next }], written⟩ := by
    intro offer found next
    cases found <;> rfl
  have hnext : ∀ (state : IngestState) (k : ℕ),
      run (ingestStep hash isFile) state (List.replicate (k + 1) (.advance 0 now modified)) =
        run (ingestStep hash isFile) (ingestStep hash isFile state (.advance 0 now modified))
          (List.replicate k (.advance 0 now modified)) := fun _ _ => rfl
  rw [enqueueIncoming, hnext _ 3]
  simp only [ingestStep, List.getElem?_cons_zero, advanceOffer, hstage, hlook]
  by_cases hincoming : (queue.incoming.lookup offer.name).isSome = true
  · rw [if_pos hincoming, if_pos hincoming]
    exact congrArg IngestState.queue (run_advance_nil hash isFile queue written now modified 3)
  rw [if_neg hincoming, if_neg hincoming, hnext _ 2]
  simp only [ingestStep, List.getElem?_cons_zero, advanceOffer, hlook]
  -- the stage is no part of the name
  change IngestState.queue (run _ (if (queue.processing.lookup offer.name).isSome then _ else _) _) = _
  by_cases hprocessing : (queue.processing.lookup offer.name).isSome = true
  · rw [if_pos hprocessing, if_pos hprocessing]
    exact congrArg IngestState.queue (run_advance_nil hash isFile queue written now modified 2)
  rw [if_neg hprocessing, if_neg hprocessing, if_neg (by simp), hnext _ 1]
  simp only [ingestStep, List.getElem?_cons_zero, advanceOffer, hlook]
  change IngestState.queue
    (run _ (if directoryHasOutgoingMessage queue.outgoing offer.messageId then _ else _) _) = _
  by_cases hanswer : directoryHasOutgoingMessage queue.outgoing offer.messageId = true
  · rw [if_pos hanswer, if_pos hanswer]
    exact congrArg IngestState.queue (run_advance_nil hash isFile queue written now modified 1)
  · rw [if_neg hanswer, if_neg hanswer, if_neg (by simp)]
    rfl

end Calls

/-! ## The connection -/

structure QueueCandidate where
  channel : String
  message : SlackMessage
deriving DecidableEq, Repr

/-- What has become of an event: it was written, or its message was there already, or it
did not get into the channel, or `enqueue_incoming` failed. -/
inductive Fate : Type where
  | written
  | alreadyQueued
  | bufferFull
  | enqueueFailed
deriving DecidableEq, Repr

/-- The end of one event, and whether the code has left an error that was not there
before. -/
structure Outcome where
  event : ℕ
  fate : Fate
  reported : Bool
deriving DecidableEq, Repr

/-- The candidates carry the number of their event. -/
structure SocketConnection where
  health : SocketHealth := { connected := true }
  reading : Bool := true
  buffer : List (ℕ × QueueCandidate) := []
  /-- What the worker has received and calls `enqueue_incoming` for. -/
  handling : Option (ℕ × QueueCandidate) := none
  enqueued : ℕ := 0
  queue : QueueState := {}
  /-- Of every event to enqueue, in order: whether it was acknowledged. -/
  accepted : List Bool := []
  outcomes : List Outcome := []

namespace SocketConnection

def settle (s : SocketConnection) (event : ℕ) (fate : Fate) (before : SocketHealth) :
    SocketConnection :=
  { s with
    outcomes := s.outcomes ++ [⟨event, fate, decide (s.health.lastError ≠ before.lastError)⟩] }

end SocketConnection

/-- Why the reader leaves its loop. -/
inductive ReaderExit : Type where
  | stopRequested
  | deadlineReached
  | reconnectRequested
  | idleTimeout (idleTimeoutMs : ℕ)
  | closed
  | readFailed (error : String)
deriving DecidableEq, Repr

inductive SocketInput : Type where
  /-- A text frame: the JSON in it, and whether an acknowledgement can be sent. -/
  | text (body : Option Json) (ackSent : Bool)
  /-- A frame of another kind. -/
  | frame
  | leave (exit : ReaderExit)
  /-- `receiver.recv()` of the worker. -/
  | receive
  | enqueue (now : Int64) (modified : ℕ) (fault : Option EnqueueFault)
  /-- The queue goes on. -/
  | queue (queue : QueueState)

section Steps

variable (profileId : String) (profile : ChannelProfile)

/-- `handle_socket_text` from the event on. -/
def handleSocketEvent (s : SocketConnection) (event : SocketEvent) (acknowledged : Bool) :
    SocketConnection :=
  if !event.shouldEnqueue then s
  else
    let number := s.accepted.length
    let s := { s with accepted := s.accepted ++ [acknowledged] }
    if s.buffer.length < socketBufferCapacity then
      { s with
        buffer := s.buffer ++ [(number, ⟨event.channel, event.message⟩)]
        health := { s.health with lastEventTs := some event.ts } }
    else
      -- `Err(TrySendError::Full(_)) => {}`
      s.settle number .bufferFull s.health

def handleSocketText (s : SocketConnection) (body : Option Json) (ackSent : Bool) :
    SocketConnection :=
  match body.bind SocketEnvelope.decode with
  | none => s
  | some envelope =>
    match envelope.event with
    | none => s
    | some event => handleSocketEvent s event (envelope.envelopeId.isSome && ackSent)

def ReaderExit.lastError (before : Option String) : ReaderExit → Option String
  | .idleTimeout idleTimeoutMs =>
    some (formatSocketError "socket idle timeout"
      s!"no websocket frames received for {idleTimeoutMs}ms" .retryable)
  | .readFailed error =>
    some (formatSocketError "socket read failed" error (classifySocketFailure error))
  | _ => before

def candidateOffer (candidate : QueueCandidate) : Offer where
  profileId := profileId
  profile := profile
  conversationId := candidate.channel
  message := candidate.message

/-- The body of the worker's loop, after `recv`: `unwrap_or(false)` on the result. -/
def workerEnqueue (s : SocketConnection) (number : ℕ) (candidate : QueueCandidate) (now : Int64)
    (modified : ℕ) (fault : Option EnqueueFault) : SocketConnection :=
  let (result, queue) :=
    enqueueIncoming s.queue (candidateOffer profileId profile candidate) now modified fault
  let s' := { s with handling := none, queue }
  match result with
  | .ok true => { s' with enqueued := s.enqueued + 1 }.settle number .written s.health
  | .ok false => s'.settle number .alreadyQueued s.health
  | .error _ => s'.settle number .enqueueFailed s.health

def socketStep (s : SocketConnection) : SocketInput → SocketConnection
  | .text body ackSent => if s.reading then handleSocketText s body ackSent else s
  | .frame => s
  | .leave exit =>
    if s.reading then
      { s with
        reading := false
        health := { s.health with lastError := exit.lastError s.health.lastError } }
    else s
  | .receive =>
    match s.handling, s.buffer with
    | none, next :: rest => { s with handling := some next, buffer := rest }
    | _, _ => s
  | .enqueue now modified fault =>
    match s.handling with
    | some (number, candidate) =>
      workerEnqueue profileId profile s number candidate now modified fault
    | none => s
  | .queue queue => { s with queue }

end Steps

end Direclaw.Slack
