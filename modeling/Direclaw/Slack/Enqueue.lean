import Direclaw.Lib.Run
import Direclaw.Orchestration.Settings
import Direclaw.Queue.Conservation
import Direclaw.Runtime.Recovery
import Direclaw.Slack.Backfill

/-!
# Enqueueing a Slack message

`enqueue_incoming` of `channels/slack/ingest.rs`. The socket and backfill both offer
messages, and neither remembers what it has offered: `message_already_queued` looks for the
file of the message in `incoming`, in `processing` and, by its name, for an answer in
`outgoing`, then the file is written. Every look is a step of its own, and the queue goes
on in between.
-/

namespace Direclaw.Slack

open Direclaw.Lib Direclaw.Queue Direclaw.Orchestration Direclaw.Runtime

/-! ## Names -/

def sanitizeComponent (raw : String) : String :=
  String.ofList (raw.toList.map fun c => if c.isAlphanum || c == '-' || c == '_' then c else '_')

/-- What identifies a message. -/
structure SlackKey where
  profileId : String
  conversationId : String
  ts : String
deriving DecidableEq, Repr

def SlackKey.messageId (key : SlackKey) : String :=
  "slack-" ++ sanitizeComponent key.profileId ++ "-" ++ sanitizeComponent key.conversationId ++ "-" ++
    sanitizeComponent key.ts

def incomingName (messageId : String) : FileName := messageId.toList ++ jsonSuffix

/-- What the name of an answer starts with. `sanitize_outgoing_component` does what
`sanitize_filename_component` does. -/
def answerPrefix (messageId : String) : List Char :=
  "slack_".toList ++ (sanitizeFilenameComponent messageId.toList ++ ['_'])

def isAnswerName (messageId : String) (name : FileName) : Bool :=
  Text.extension name == some "json".toList && (answerPrefix messageId).isPrefixOf name

def directoryHasOutgoingMessage (outgoing : Directory) (messageId : String) : Bool :=
  outgoing.keys.any (isAnswerName messageId)

/-! ## The payload -/

def messageIsMentioned (profile : ChannelProfile) (messageText : String) : Bool :=
  profile.mentionTokens.any fun token => decide (token.toList <:+: messageText.toList)

/-- An offer of a message, and where `enqueue_incoming` looks next. -/
inductive OfferStage : Type where
  | incoming
  | processing
  | outgoing
  | write
deriving DecidableEq, Repr

structure Offer where
  profileId : String
  profile : ChannelProfile
  conversationId : String
  message : SlackMessage
  stage : OfferStage := .incoming
deriving DecidableEq, Repr

namespace Offer

def key (offer : Offer) : SlackKey where
  profileId := offer.profileId
  conversationId := offer.conversationId
  ts := offer.message.ts

def messageId (offer : Offer) : String := offer.key.messageId

def name (offer : Offer) : FileName := incomingName offer.messageId

def payload (offer : Offer) (now : Int64) : IncomingMessage :=
  let senderId := (offer.message.user.filter fun user => !isBlankText user).getD "unknown"
  let threadTs := offer.message.threadTs.getD offer.message.ts
  let messageText := offer.message.text.getD ""
  { channel := "slack"
    channelProfileId := some offer.profileId
    sender := senderId
    senderId := senderId
    message := messageText
    timestamp := now
    messageId := offer.messageId
    conversationId := some s!"{offer.conversationId}:{threadTs}"
    isDirect := (offer.conversationId.toList.dropWhile Text.isWhitespace).head? == some 'D'
    isThreadReply := threadTs != offer.message.ts
    isMentioned := messageIsMentioned offer.profile messageText }

end Offer

/-! ## The system -/

structure IngestState where
  queue : QueueState := {}
  /-- The calls of `enqueue_incoming` that are going on, in any thread or process. -/
  offers : List Offer := []
  /-- The messages that were written, in order. -/
  written : List SlackKey := []

inductive IngestEvent : Type where
  /-- The socket or a poll calls `enqueue_incoming`. -/
  | offer (profileId : String) (profile : ChannelProfile) (conversationId : String)
      (message : SlackMessage)
  | advance (index : ℕ) (now : Int64) (modified : ℕ)
  /-- The process of the call dies, or a look fails. -/
  | abandon (index : ℕ)
  | queue (op : QueueOp)
  | recover
  /-- `process_outbound` has posted the answer in this file. -/
  | deliver (name : FileName)

section Steps

variable (hash : List Char → List Char) (isFile : String → Bool)

/-- A look that found the message ends the call. -/
def lookAt (s : IngestState) (index : ℕ) (offer : Offer) (found : Bool) (next : OfferStage) :
    IngestState :=
  { s with
    offers :=
      if found then s.offers.eraseIdx index else s.offers.set index { offer with stage := next } }

def advanceOffer (s : IngestState) (index : ℕ) (offer : Offer) (now : Int64) (modified : ℕ) :
    IngestState :=
  match offer.stage with
  | .incoming => lookAt s index offer (s.queue.incoming.lookup offer.name).isSome .processing
  | .processing => lookAt s index offer (s.queue.processing.lookup offer.name).isSome .outgoing
  | .outgoing =>
    lookAt s index offer (directoryHasOutgoingMessage s.queue.outgoing offer.messageId) .write
  | .write =>
    { queue :=
        { s.queue with
          incoming :=
            s.queue.incoming.insert offer.name ⟨modified, .json (offer.payload now).encode⟩ }
      offers := s.offers.eraseIdx index
      written := s.written ++ [offer.key] }

def ingestStep (s : IngestState) : IngestEvent → IngestState
  | .offer profileId profile conversationId message =>
    { s with offers := s.offers ++ [{ profileId, profile, conversationId, message }] }
  | .advance index now modified =>
    match s.offers[index]? with
    | some offer => advanceOffer s index offer now modified
    | none => s
  | .abandon index => { s with offers := s.offers.eraseIdx index }
  | .queue op => { s with queue := applyOp hash isFile s.queue op }
  | .recover => { s with queue := (recoverQueueProcessingPaths hash s.queue).1 }
  | .deliver name => { s with queue := { s.queue with outgoing := s.queue.outgoing.erase name } }

end Steps

end Direclaw.Slack
