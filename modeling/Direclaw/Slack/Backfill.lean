import Direclaw.Lib.Run
import Direclaw.Lib.Text
import Mathlib.Data.List.Sort

/-!
# Backfill of a conversation

`process_inbound_with_api` of `channels/slack/ingest.rs` for one conversation, while
messages arrive. A poll is a process whose control points are the API calls and the save
of the cursors; an error in between ends it with nothing saved. Both calls return what is
visible with a `ts` above the given one. What `enqueue_incoming` accepted is kept in the
list `offered`; an error of it counts the messages before it.
-/

namespace Direclaw.Slack

open Direclaw.Lib

structure SlackMessage where
  ts : String
  threadTs : Option String := none
  text : Option String := none
  user : Option String := none
  subtype : Option String := none
  botId : Option String := none
  replyCount : Option ℕ := none
deriving DecidableEq, Repr

structure SlackCursorState where
  conversations : List (String × String) := []
  threads : List (String × String) := []
deriving DecidableEq, Repr

/-- `BTreeMap::insert`. -/
def insertKey (entries : List (String × String)) (key value : String) : List (String × String) :=
  if entries.any (·.1 == key) then
    entries.map fun entry => if entry.1 == key then (key, value) else entry
  else entries ++ [(key, value)]

/-! ## Pure parts -/

def isBlankText (text : String) : Bool := Text.isBlank text.toList

def initialHistoryWindowSecs : Int := 24 * 60 * 60

def defaultOldestTimestamp (now : Int) : String := s!"{now - initialHistoryWindowSecs}.0"

def resolveOldestCursor (now : Int) (existing : Option String) : String :=
  (existing.filter fun value => !isBlankText value).getD (defaultOldestTimestamp now)

def threadCursorKey (conversationId threadTs : String) : String := s!"{conversationId}:{threadTs}"

/-- A message of a user. `should_accept_channel_message` accepts everything. -/
def SlackMessage.eligible (message : SlackMessage) : Bool :=
  !isBlankText message.ts && message.user.isSome && message.botId.isNone && message.subtype.isNone

/-- `BTreeSet::insert`. -/
def insertThread (threads : List String) (threadTs : String) : List String :=
  if threads.contains threadTs then threads else (threadTs :: threads).insertionSort (· ≤ ·)

def collectThreadCandidates (threads : List String) (message : SlackMessage) : List String :=
  match message.threadTs.filter fun threadTs => !isBlankText threadTs with
  | some threadTs => insertThread threads threadTs
  | none =>
    if message.replyCount.getD 0 > 0 && !isBlankText message.ts then insertThread threads message.ts
    else threads

def knownThreads (conversationId : String) (cursor : SlackCursorState) : List String :=
  cursor.threads.foldl
    (fun threads entry =>
      match Text.splitOnce ':' entry.1.toList with
      | some (channelId, threadTs) =>
        if String.ofList channelId = conversationId then
          insertThread threads (String.ofList threadTs)
        else threads
      | none => threads) []

def later (latest ts : String) : String := if latest < ts then ts else latest

/-! ## A poll -/

/-- The locals of one poll. -/
structure Poll where
  cursor : SlackCursorState
  oldest : String
  latest : String
  threads : List String
  /-- How many messages were visible in the channel at the history call. -/
  visible : ℕ
deriving DecidableEq, Repr

inductive PollControl : Type where
  | idle
  /-- The cursors are loaded; `conversation_history` comes next. -/
  | history (cursor : SlackCursorState) (oldest : String) (threads : List String)
  /-- No thread is known: the history of the last day is read for one. -/
  | bootstrap (poll : Poll)
  /-- `conversation_replies` of the pending threads, then the save. -/
  | replies (poll : Poll) (pending : List String)
deriving DecidableEq, Repr

structure Backfill where
  /-- The messages that a history call can return, oldest arrival first. -/
  channel : List SlackMessage := []
  /-- The messages that a replies call can return, with their thread. -/
  thread : List (String × SlackMessage) := []
  cursor : SlackCursorState
  offered : List SlackMessage := []
  control : PollControl := .idle
  /-- The cursor that the first history call began from, once it is saved. -/
  start : Option String
deriving DecidableEq, Repr

/-- How an API call and the enqueueing of what it returned ends. -/
inductive CallOutcome : Type where
  | ok
  | notInChannel
  /-- The call fails, or `enqueue_incoming` does after `enqueued` messages. -/
  | error (enqueued : ℕ)
deriving DecidableEq, Repr

inductive BackfillEvent : Type where
  | channelMessage (message : SlackMessage)
  | threadMessage (threadTs : String) (message : SlackMessage)
  /-- A poll begins; `artifacts` are the threads found under `orchestrator/artifacts`. -/
  | poll (now : Int) (artifacts : List String)
  | access (now : Int) (outcome : CallOutcome)
deriving DecidableEq, Repr

section Steps

variable (conversationId : String)

def storedCursor (cursor : SlackCursorState) : Option String :=
  (cursor.conversations.lookup conversationId).filter fun value => !isBlankText value

/-- The cursor of the message's thread moves up to it. -/
def advanceThread (oldest : String) (cursor : SlackCursorState) (message : SlackMessage) :
    SlackCursorState :=
  match message.threadTs.filter fun threadTs => !isBlankText threadTs with
  | some threadTs =>
    let key := threadCursorKey conversationId threadTs
    if (cursor.threads.lookup key).getD oldest < message.ts then
      { cursor with threads := insertKey cursor.threads key message.ts }
    else cursor
  | none => cursor

/-- What a history call returns that is enqueued. -/
def historyMessages (s : Backfill) (oldest : String) : List SlackMessage :=
  s.channel.filter fun message => decide (oldest < message.ts) && message.eligible

/-- What a replies call returns that is enqueued: the root is left out. -/
def replyMessages (s : Backfill) (threadTs oldest : String) : List SlackMessage :=
  (s.thread.filter fun entry => entry.1 == threadTs && decide (oldest < entry.2.ts) &&
    entry.2.eligible && entry.2.ts != threadTs).map (·.2)

def threadOldest (now : Int) (poll : Poll) (threadTs : String) : String :=
  resolveOldestCursor now (poll.cursor.threads.lookup (threadCursorKey conversationId threadTs))

def latestOf (latest : String) (messages : List SlackMessage) : String :=
  messages.foldl (fun latest message => later latest message.ts) latest

def access (s : Backfill) (now : Int) (outcome : CallOutcome) : Backfill :=
  match s.control, outcome with
  | .idle, _ => s
  | .history _ oldest _, .error enqueued =>
    { s with
      offered := s.offered ++ (historyMessages s oldest).take enqueued
      control := .idle }
  | .history _ _ _, .notInChannel => { s with control := .idle }
  | .history cursor oldest threads, .ok =>
    let messages := historyMessages s oldest
    let threads := messages.foldl collectThreadCandidates threads
    let poll : Poll :=
      { cursor := messages.foldl (advanceThread conversationId oldest) cursor
        oldest, latest := latestOf oldest messages, threads, visible := s.channel.length }
    { s with
      offered := s.offered ++ messages
      control := if threads.isEmpty then .bootstrap poll else .replies poll threads }
  | .bootstrap poll, .ok =>
    let oldest := defaultOldestTimestamp now
    let found := (s.channel.filter fun message => decide (oldest < message.ts)).foldl
      collectThreadCandidates []
    { s with control := .replies poll found }
  | .bootstrap poll, _ => { s with control := .replies poll [] }
  | .replies _ [], .error _ => { s with control := .idle }
  | .replies poll [], _ =>
    { s with
      cursor :=
        { poll.cursor with
          conversations := insertKey poll.cursor.conversations conversationId poll.latest }
      control := .idle
      start := s.start.or (some poll.oldest) }
  | .replies poll (threadTs :: _), .error enqueued =>
    { s with
      offered := s.offered ++
        (replyMessages s threadTs (threadOldest conversationId now poll threadTs)).take enqueued
      control := .idle }
  | .replies poll (_ :: pending), .notInChannel => { s with control := .replies poll pending }
  | .replies poll (threadTs :: pending), .ok =>
    let oldest := threadOldest conversationId now poll threadTs
    let messages := replyMessages s threadTs oldest
    let cursor :=
      if oldest < latestOf oldest messages then
        { poll.cursor with
          threads := insertKey poll.cursor.threads (threadCursorKey conversationId threadTs)
            (latestOf oldest messages) }
      else poll.cursor
    { s with
      offered := s.offered ++ messages
      control := .replies { poll with cursor, latest := latestOf poll.latest messages } pending }

def backfillStep (s : Backfill) : BackfillEvent → Backfill
  | .channelMessage message => { s with channel := s.channel ++ [message] }
  | .threadMessage threadTs message => { s with thread := s.thread ++ [(threadTs, message)] }
  | .poll now artifacts =>
    match s.control with
    | .idle =>
      let known := knownThreads conversationId s.cursor
      { s with
        control := .history s.cursor
          (resolveOldestCursor now (s.cursor.conversations.lookup conversationId))
          (if known.isEmpty then artifacts.foldl insertThread [] else known) }
    | _ => s
  | .access now outcome => access conversationId s now outcome

/-- Before the first poll, with the cursors that are stored. -/
def backfill (cursor : SlackCursorState) : Backfill :=
  { cursor, start := storedCursor conversationId cursor }

end Steps

end Direclaw.Slack
