import Direclaw.Local.WaitForReplies
import Direclaw.Orchestration.RunStore

/-!
# The local chat

`run_event_loop` of `channels/local/tui.rs`, with `enqueue_chat_message` and
`process_message` of `channels/local/session.rs`. The keys, the clock, the files of the
runs and the thread that processes a message are inputs; what the terminal shows is drawn
from the state.
-/

namespace Direclaw.Local

open Direclaw.Lib Direclaw.Queue Direclaw.Orchestration

/-! ## The session -/

structure LocalChatSession where
  channel : String
  profileId : String
  conversationId : String
  /-- `state_root` and the queue directories, as they are displayed. -/
  runsRoot : String
  outgoing : String

def chatExitCommands : List String := ["/exit", "exit", "quit"]

def isChatExitCommand (message : List Char) : Bool :=
  chatExitCommands.any fun command => Text.eqIgnoreAsciiCase message command.toList

/-- `enqueue_chat_message`: the message in the new file. -/
def enqueueChatMessage (session : LocalChatSession) (message : String) (nanos : ℕ)
    (secs : Int64) : IncomingMessage where
  channel := session.channel
  channelProfileId := some session.profileId
  sender := "cli"
  senderId := "cli"
  message
  timestamp := secs
  messageId := "msg-" ++ toString nanos
  conversationId := some session.conversationId
  isDirect := true

/-- `process_message`: the queue is drained once, then it is waited for the replies. -/
def processMessage (session : LocalChatSession) (messageId : String)
    (prepareError drainError : Option String) (polls : List Poll) :
    Except String (List OutgoingMessage) :=
  match prepareError, drainError with
  | some err, _ => .error ("failed to prepare " ++ session.outgoing ++ ": " ++ err)
  | none, some err => .error ("chat processing failed: " ++ err)
  | none, none =>
    (waitForOutgoingMessages messageId polls).result.mapError (·.display session.outgoing)

/-! ## The state -/

inductive Speaker : Type where
  | system
  | you
  | assistant
deriving DecidableEq, Repr

structure ChatLine where
  speaker : Speaker
  text : String
deriving DecidableEq, Repr

/-- What the receiver of a processing thread finds. -/
inductive ResultRx : Type where
  | empty
  | received (result : Except String (List OutgoingMessage))
  | disconnected

structure ProcessingWorker where
  messageId : String
  resultRx : ResultRx := .empty
  runId : Option String := none
  lastProgressLine : Option String := none
  /-- A `HashSet`. -/
  seenAssistantLines : List String := []

structure TuiState where
  input : List Char := []
  transcript : List ChatLine
  processing : Option ProcessingWorker := none
  spinnerIndex : ℕ := 0
  cursorVisible : Bool := true

def TuiState.new (session : LocalChatSession) : TuiState where
  transcript :=
    [⟨.system, "chat profile=" ++ session.profileId ++ " conversation_id=" ++
      session.conversationId⟩]

def processingFrames : List String := ["|", "/", "-", "\\"]

def TuiState.advanceSpinner (tui : TuiState) (due : Bool) : TuiState :=
  if tui.processing.isSome && due then
    { tui with spinnerIndex := (tui.spinnerIndex + 1) % processingFrames.length }
  else tui

def TuiState.advanceCursorBlink (tui : TuiState) (due : Bool) : TuiState :=
  if due then { tui with cursorVisible := !tui.cursorVisible } else tui

/-! ## Progress -/

/-- An entry of `workflows/runs`: one that cannot be listed, one that is skipped, or the
value in a `.json` file. -/
inductive RunsEntry : Type where
  | failed (err : String)
  | skipped
  | run (value : Json)

inductive RunsListing : Type where
  | missing
  | unreadable (err : String)
  | entries (entries : List RunsEntry)

inductive ProgressFile : Type where
  | missing
  | unreadable (path err : String)
  | malformed (path err : String)
  | snapshot (progress : ProgressSnapshot)

/-- `parsed.get(name)`, or under the other spelling. -/
def runField {α : Type} (value : Json) (read : Json → Option α) (camel snake : String) :
    Option α :=
  let get name := value.asObject.bind fun fields => (Json.get fields name).bind read
  (get camel).orElse fun _ => get snake

def asI64 : Json → Option ℤ
  | .int n => if -2 ^ 63 ≤ n ∧ n < 2 ^ 63 then some n else none
  | _ => none

def sourceMessageId (value : Json) : Option String :=
  runField value Json.asStr "sourceMessageId" "source_message_id"

def recordedRunId (value : Json) : String := (runField value Json.asStr "runId" "run_id").getD ""

def recordedStartedAt (value : Json) : ℤ := (runField value asI64 "startedAt" "started_at").getD 0

/-- The body of the loop, for a run file that was parsed. -/
def considerRun (messageId : String) (latest : Option (ℤ × String)) (value : Json) :
    Option (ℤ × String) :=
  if sourceMessageId value ≠ some messageId ∨ recordedRunId value = "" then latest
  else
    match latest with
    | some (currentStarted, runId) =>
      if recordedStartedAt value ≥ currentStarted then
        some (recordedStartedAt value, recordedRunId value)
      else some (currentStarted, runId)
    | none => some (recordedStartedAt value, recordedRunId value)

def findRunIdFrom (runsRoot messageId : String) :
    Option (ℤ × String) → List RunsEntry → Except String (Option (ℤ × String))
  | latest, [] => .ok latest
  | _, .failed err :: _ => .error ("failed to read " ++ runsRoot ++ " entry: " ++ err)
  | latest, .skipped :: rest => findRunIdFrom runsRoot messageId latest rest
  | latest, .run value :: rest =>
    findRunIdFrom runsRoot messageId (considerRun messageId latest value) rest

def findRunIdForMessage (runsRoot messageId : String) :
    RunsListing → Except String (Option String)
  | .missing => .ok none
  | .unreadable err => .error ("failed to read " ++ runsRoot ++ ": " ++ err)
  | .entries entries =>
    (findRunIdFrom runsRoot messageId none entries).map fun latest => latest.map (·.2)

def renderProgressLine (progress : ProgressSnapshot) : Option String :=
  match progress.state with
  | .running =>
    progress.currentStepId.map fun stepId =>
      "Running step `" ++ stepId ++ "` (attempt " ++
        toString (progress.currentAttempt.getD 1) ++ ")..."
  | .failed | .canceled => some progress.summary
  | .queued | .waiting | .succeeded => none

/-! ## Assistant lines -/

def pushAssistantLine (shown : List ChatLine × ProcessingWorker) (text : String) :
    List ChatLine × ProcessingWorker :=
  if text ∈ shown.2.seenAssistantLines then shown
  else
    (shown.1 ++ [⟨.assistant, text⟩],
      { shown.2 with seenAssistantLines := shown.2.seenAssistantLines ++ [text] })

/-- What a turn of the loop finds of the runs. -/
structure RunFiles where
  runs : RunsListing := .missing
  progress : String → ProgressFile := fun _ => .missing

/-- The last part of `maybe_emit_progress_update`, for a run that is known. -/
def emitProgress (file : ProgressFile) (shown : List ChatLine × ProcessingWorker) :
    Except String Unit × List ChatLine × ProcessingWorker :=
  match file with
  | .missing => (.ok (), shown)
  | .unreadable path err => (.error ("failed to read " ++ path ++ ": " ++ err), shown)
  | .malformed path err => (.error ("failed to parse " ++ path ++ ": " ++ err), shown)
  | .snapshot progress =>
    match renderProgressLine progress with
    | none => (.ok (), shown)
    | some line =>
      if shown.2.lastProgressLine = some line then (.ok (), shown)
      else
        (.ok (), pushAssistantLine (shown.1, { shown.2 with lastProgressLine := some line }) line)

def maybeEmitProgressUpdate (runsRoot : String) (files : RunFiles)
    (shown : List ChatLine × ProcessingWorker) :
    Except String Unit × List ChatLine × ProcessingWorker :=
  match shown.2.runId with
  | some runId => emitProgress (files.progress runId) shown
  | none =>
    match findRunIdForMessage runsRoot shown.2.messageId files.runs with
    | .error err => (.error err, shown)
    | .ok none => (.ok (), shown)
    | .ok (some runId) =>
      emitProgress (files.progress runId) (shown.1, { shown.2 with runId := some runId })

/-- The progress, or why there is none. -/
def showProgress (runsRoot : String) (files : RunFiles)
    (shown : List ChatLine × ProcessingWorker) : List ChatLine × ProcessingWorker :=
  match maybeEmitProgressUpdate runsRoot files shown with
  | (.ok (), shown) => shown
  | (.error err, shown) => pushAssistantLine shown ("processing update failed: " ++ err)

/-- The lines for what was received; nothing yet is no line. -/
def answerLines (messageId : String) : ResultRx → List String
  | .received (.ok []) => ["timed out waiting for response (message_id=" ++ messageId ++ ")"]
  | .received (.ok (response :: rest)) => (response :: rest).map (·.message)
  | .received (.error err) => [err]
  | .disconnected => ["chat processing worker disconnected unexpectedly"]
  | .empty => []

/-- `check_processing_result`, and what was taken from the channel. -/
def checkProcessingResult (runsRoot : String) (files : RunFiles) (tui : TuiState) :
    TuiState × Option ResultRx :=
  match tui.processing with
  | none => (tui, none)
  | some worker =>
    let shown := showProgress runsRoot files (tui.transcript, worker)
    match shown.2.resultRx with
    | .empty => ({ tui with transcript := shown.1, processing := some shown.2 }, none)
    | taken =>
      ({ tui with
          transcript := ((answerLines shown.2.messageId taken).foldl pushAssistantLine shown).1
          processing := none },
        some taken)

/-! ## The loop -/

inductive Key : Type where
  | ctrlC
  | esc
  /-- With the clock, and why the message cannot be enqueued. -/
  | enter (nanos : ℕ) (secs : Int64) (failure : Option String)
  | backspace
  | char (c : Char)
  | other

/-- What comes of `event::poll` and `event::read`. -/
inductive Polled : Type where
  | pollFailed (err : String)
  | nothing
  | readFailed (err : String)
  | notAPress
  | press (key : Key)

structure LoopTurn where
  spinnerDue : Bool := false
  cursorDue : Bool := false
  files : RunFiles := {}
  drawFailure : Option String := none
  polled : Polled := .nothing

inductive ChatEvent : Type where
  | turn (turn : LoopTurn)
  /-- The thread sends the result of `process_message`. -/
  | processed (prepareError drainError : Option String) (polls : List Poll)
  | panicked

structure Chat where
  tui : TuiState
  /-- The files that were written to the incoming queue. -/
  incoming : List IncomingMessage := []
  /-- What has ended a processing so far, one after the other; the code keeps no such list. -/
  taken : List ResultRx := []
  ended : Option (Except String Unit) := none

def Chat.start (session : LocalChatSession) : Chat := { tui := .new session }

def Chat.pressEnter (session : LocalChatSession) (s : Chat) (nanos : ℕ) (secs : Int64)
    (failure : Option String) : Chat :=
  let message := Text.trim s.tui.input
  let tui := { s.tui with input := [] }
  if message.isEmpty then { s with tui }
  else if isChatExitCommand message then { s with tui, ended := some (.ok ()) }
  else if tui.processing.isSome then
    { s with
      tui := { tui with
        transcript := tui.transcript ++ [⟨.system, "still processing previous request"⟩] } }
  else
    let said := tui.transcript ++ [⟨.you, String.ofList message⟩]
    match failure with
    | some err => { s with tui := { tui with transcript := said }, ended := some (.error err) }
    | none =>
      let incoming := enqueueChatMessage session (String.ofList message) nanos secs
      { s with
        tui := { tui with
          transcript := said
          processing := some { messageId := incoming.messageId }
          spinnerIndex := 0
          cursorVisible := true }
        incoming := s.incoming ++ [incoming] }

def Chat.press (session : LocalChatSession) (s : Chat) : Key → Chat
  | .ctrlC | .esc => { s with ended := some (.ok ()) }
  | .enter nanos secs failure => s.pressEnter session nanos secs failure
  | .backspace => { s with tui := { s.tui with input := s.tui.input.dropLast } }
  | .char c => { s with tui := { s.tui with input := s.tui.input ++ [c] } }
  | .other => s

/-- The first part of a turn of the loop: the screen is brought up to date. -/
def Chat.refresh (session : LocalChatSession) (s : Chat) (turn : LoopTurn) : Chat :=
  let tui := (s.tui.advanceSpinner turn.spinnerDue).advanceCursorBlink turn.cursorDue
  let checked := checkProcessingResult session.runsRoot turn.files tui
  { s with tui := checked.1, taken := s.taken ++ checked.2.toList }

def Chat.loopTurn (session : LocalChatSession) (s : Chat) (turn : LoopTurn) : Chat :=
  let s := s.refresh session turn
  match turn.drawFailure, turn.polled with
  | some err, _ => { s with ended := some (.error ("failed to render local chat UI: " ++ err)) }
  | none, .pollFailed err =>
    { s with ended := some (.error ("failed to poll events: " ++ err)) }
  | none, .readFailed err =>
    { s with ended := some (.error ("failed to read event: " ++ err)) }
  | none, .nothing | none, .notAPress => s
  | none, .press key => s.press session key

/-- The thread of the message in processing has sent or is gone. -/
def Chat.deliver (s : Chat) (found : String → ResultRx) : Chat :=
  match s.tui.processing with
  | some worker =>
    match worker.resultRx with
    | .empty =>
      { s with
        tui := { s.tui with
          processing := some { worker with resultRx := found worker.messageId } } }
    | .received _ | .disconnected => s
  | none => s

def Chat.step (session : LocalChatSession) (s : Chat) (event : ChatEvent) : Chat :=
  if s.ended.isSome then s
  else
    match event with
    | .turn turn => s.loopTurn session turn
    | .processed prepareError drainError polls =>
      s.deliver fun messageId =>
        .received (processMessage session messageId prepareError drainError polls)
    | .panicked => s.deliver fun _ => .disconnected

end Direclaw.Local
