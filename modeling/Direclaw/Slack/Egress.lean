import Direclaw.Orchestration.SlackTarget
import Direclaw.Queue.Lifecycle
import Direclaw.Slack.SocketLoop

/-!
# Outgoing messages

`channels/slack/egress.rs`: where a file of the outgoing directory goes and in which chunks,
and passes of `process_outbound` over one directory. The worker for sockets and the one for
the backfill each make one pass after the other, at the same time. An event is one call of
the file system or of the API.
-/

namespace Direclaw.Slack

open Direclaw.Lib Direclaw.Queue Direclaw.Orchestration

/-! ## Chunks -/

def outboundChunkChars : ℕ := 3500

/-- The loop of `chunk_message`, with the chunk that is being filled. -/
def chunkLoop (out : List String) (current : List Char) (count : ℕ) : List Char → List String
  | [] => if current.isEmpty then out else out ++ [String.ofList current]
  | ch :: rest =>
    if outboundChunkChars ≤ count then chunkLoop (out ++ [String.ofList current]) [ch] 1 rest
    else chunkLoop out (current ++ [ch]) (count + 1) rest

def chunkMessage (input : String) : List String :=
  if input.isEmpty then [""] else chunkLoop [] [] 0 input.toList

/-! ## Where a message goes -/

structure DeliveryTarget where
  channelId : String
  threadTs : Option String
deriving DecidableEq, Repr

def parseConversationId (value : String) : Except SlackError DeliveryTarget :=
  let trimmed := Text.trim value.toList
  if trimmed.isEmpty then .error (.invalidConversationId value)
  else
    match Text.splitOnce ':' trimmed with
    | some (channelId, threadTs) =>
      let channelId := Text.trim channelId
      let threadTs := Text.trim threadTs
      if channelId.isEmpty || threadTs.isEmpty then .error (.invalidConversationId value)
      else .ok ⟨String.ofList channelId, some (String.ofList threadTs)⟩
    | none => .ok ⟨String.ofList trimmed, none⟩

/-- What posting reads of a `SlackProfileRuntime`. -/
structure SlackProfileRuntime where
  allowlist : List String := []
deriving DecidableEq, Repr

def parseOutgoingTargetRef (outgoing : OutgoingMessage) :
    Except SlackError (Option SlackTargetRef) :=
  match outgoing.targetRef with
  | none => .ok none
  | some targetRef =>
    (parseSlackTargetRef targetRef "targetRef").mapError (.invalidTargetRef outgoing.messageId)

def resolveOutgoingProfileId (outgoing : OutgoingMessage) (targetRef : Option SlackTargetRef)
    (availableProfiles : List (String × SlackProfileRuntime)) : Except SlackError String :=
  let known (profileId : String) : Except SlackError String :=
    if (availableProfiles.lookup profileId).isSome then .ok profileId
    else .error (.unknownChannelProfile profileId)
  match outgoing.channelProfileId.filter fun id => !isBlankText id, targetRef with
  | some profileId, some target =>
    if target.channelProfileId ≠ profileId then
      .error (.invalidTargetRef outgoing.messageId
        (s!"channel_profile_id `{profileId}` must match targetRef.channelProfileId " ++
          s!"`{target.channelProfileId}`"))
    else known profileId
  | some profileId, none => known profileId
  | none, some target => known target.channelProfileId
  | none, none =>
    match availableProfiles with
    | [(profileId, _)] => .ok profileId
    | _ => .error (.missingChannelProfileId outgoing.messageId)

def resolveDeliveryTarget (outgoing : OutgoingMessage) :
    Option SlackTargetRef → Except SlackError DeliveryTarget
  | some target => .ok ⟨target.channelId, target.threadTs⟩
  | none =>
    match outgoing.conversationId with
    | none => .error (.invalidConversationId "missing conversation_id")
    | some conversationId => parseConversationId conversationId

/-- Only a post to a channel is held against the allowlist. -/
def enforceChannelPolicy (outgoing : OutgoingMessage) (profileId : String)
    (target : DeliveryTarget) (runtime : SlackProfileRuntime)
    (targetRef : Option SlackTargetRef) : Except SlackError Unit :=
  if targetRef.map (·.postingMode) ≠ some .channelPost then .ok ()
  else
    let isDm := target.channelId.toList.head? == some 'D'
    if !isDm && !runtime.allowlist.isEmpty && !runtime.allowlist.contains target.channelId then
      .error (.unauthorizedChannelTarget outgoing.messageId profileId target.channelId)
    else .ok ()

/-- What is to be posted for a file. -/
structure Delivery where
  messageId : String
  profileId : String
  target : DeliveryTarget
  chunks : List String
deriving DecidableEq, Repr

/-- A file up to its first post; none if it is not for Slack. The text of a JSON error is the
library's. -/
def planDelivery (runtimes : List (String × SlackProfileRuntime)) (path jsonError : String)
    (content : Content) : Except SlackError (Option Delivery) :=
  match content with
  | .notUtf8 _ => .error (.io path "stream did not contain valid UTF-8")
  | content =>
    match content.readOutgoing with
    | none => .error (.json path jsonError)
    | some outgoing =>
      if outgoing.channel ≠ "slack" then .ok none
      else do
        let targetRef ← parseOutgoingTargetRef outgoing
        let profileId ← resolveOutgoingProfileId outgoing targetRef runtimes
        let some runtime := runtimes.lookup profileId
          | .error (.unknownChannelProfile profileId)
        let target ← resolveDeliveryTarget outgoing targetRef
        enforceChannelPolicy outgoing profileId target runtime targetRef
        return some
          { messageId := outgoing.messageId, profileId, target
            chunks := chunkMessage outgoing.message }

def Delivery.failed (delivery : Delivery) (err : SlackError) : SlackError :=
  .outboundDelivery delivery.messageId delivery.profileId delivery.target.channelId
    (delivery.target.threadTs.getD "<none>") err.display

/-! ## Passes -/

/-- A written file; `message` tells a file from others that have had its name. -/
structure OutgoingFile where
  name : FileName
  message : ℕ
  content : Content

inductive OutboundWorker : Type where
  | socket
  | backfill
deriving DecidableEq, Repr

structure Reading where
  name : FileName
  message : ℕ
  number : ℕ
deriving DecidableEq, Repr

inductive PassStage : Type where
  | nextFile
  | posting (reading : Reading) (delivery : Delivery) (next : ℕ)
  | removing (reading : Reading)
deriving DecidableEq, Repr

structure Pass where
  paths : List FileName
  stage : PassStage := .nextFile
  sent : ℕ := 0
  firstError : Option SlackError := none
deriving DecidableEq, Repr

/-- The other files are tried after an error. -/
def Pass.skip (pass : Pass) (err : SlackError) : Pass :=
  { pass with stage := .nextFile, firstError := pass.firstError.or (some err) }

def Pass.result (pass : Pass) : Except SlackError ℕ :=
  match pass.firstError with
  | some err => .error err
  | none => .ok pass.sent

structure Post where
  message : ℕ
  chunk : ℕ
  reading : ℕ
  channelId : String
  threadTs : Option String
  text : String
deriving DecidableEq, Repr

structure Outbound where
  files : List OutgoingFile := []
  written : ℕ := 0
  readings : ℕ := 0
  passes : OutboundWorker → Option Pass := fun _ => none
  posts : List Post := []
  results : List (OutboundWorker × Except SlackError ℕ) := []

/-- What a call comes to. A post that fails may have reached Slack all the same. -/
inductive CallResult : Type where
  | ok
  | failed (err : SlackError)
  | lost (err : SlackError)
deriving DecidableEq, Repr

inductive OutboundEvent : Type where
  /-- A file is written, over one of the same name if there is one. -/
  | write (name : FileName) (content : Content)
  | begin (worker : OutboundWorker) (failure : Option SlackError)
  | advance (worker : OutboundWorker) (result : CallResult) (jsonError : String)
  /-- The process is gone and started again. -/
  | restart

namespace Outbound

variable (runtimes : List (String × SlackProfileRuntime))

def setPass (s : Outbound) (worker : OutboundWorker) (pass : Option Pass) : Outbound :=
  { s with passes := fun other => if other = worker then pass else s.passes other }

def lookup (s : Outbound) (name : FileName) : Option OutgoingFile :=
  s.files.find? (·.name == name)

def erase (s : Outbound) (name : FileName) : List OutgoingFile :=
  s.files.filter (·.name != name)

def sortedOutgoingPaths (s : Outbound) : List FileName :=
  ((s.files.map (·.name)).filter fun name =>
    Text.extension name == some "json".toList).insertionSort (· ≤ ·)

def display (name : FileName) : String := String.ofList name

def begin (s : Outbound) (worker : OutboundWorker) (failure : Option SlackError) : Outbound :=
  match s.passes worker, failure with
  | some _, _ => s
  | none, some err => { s with results := s.results ++ [(worker, .error err)] }
  | none, none => s.setPass worker (some { paths := s.sortedOutgoingPaths })

/-- The next file is read, unless the pass is through. -/
def readNext (s : Outbound) (worker : OutboundWorker) (pass : Pass) (result : CallResult)
    (jsonError : String) : Outbound :=
  match pass.paths with
  | [] =>
    { s.setPass worker none with results := s.results ++ [(worker, pass.result)] }
  | name :: rest =>
    let pass := { pass with paths := rest }
    match result, s.lookup name with
    | .failed err, _ | .lost err, _ => s.setPass worker (some (pass.skip err))
    | .ok, none =>
      s.setPass worker
        (some (pass.skip (.io (display name) "No such file or directory (os error 2)")))
    | .ok, some file =>
      match planDelivery runtimes (display name) jsonError file.content with
      | .error err => s.setPass worker (some (pass.skip err))
      | .ok none => s.setPass worker (some { pass with stage := .nextFile })
      | .ok (some delivery) =>
        let reading : Reading := ⟨name, file.message, s.readings⟩
        { s.setPass worker (some { pass with stage := .posting reading delivery 0 }) with
          readings := s.readings + 1 }

def posted (s : Outbound) (reading : Reading) (delivery : Delivery) (chunk : ℕ) (text : String) :
    Outbound :=
  { s with
    posts := s.posts ++
      [{ message := reading.message, chunk, reading := reading.number
         channelId := delivery.target.channelId
         threadTs := delivery.target.threadTs.filter fun ts => !isBlankText ts
         text }] }

def postNext (s : Outbound) (worker : OutboundWorker) (pass : Pass) (reading : Reading)
    (delivery : Delivery) (next : ℕ) (result : CallResult) : Outbound :=
  match delivery.chunks[next]? with
  | none => s.setPass worker (some { pass with stage := .removing reading })
  | some text =>
    match result with
    | .ok =>
      (s.posted reading delivery next text).setPass worker
        (some { pass with stage := .posting reading delivery (next + 1) })
    | .failed err => s.setPass worker (some (pass.skip (delivery.failed err)))
    | .lost err =>
      (s.posted reading delivery next text).setPass worker
        (some (pass.skip (delivery.failed err)))

/-- `fs::remove_file` takes away what has the name now. -/
def removeFile (s : Outbound) (worker : OutboundWorker) (pass : Pass) (reading : Reading)
    (result : CallResult) : Outbound :=
  match result, s.lookup reading.name with
  | .failed err, _ | .lost err, _ => s.setPass worker (some (pass.skip err))
  | .ok, none =>
    s.setPass worker
      (some (pass.skip (.io (display reading.name) "No such file or directory (os error 2)")))
  | .ok, some _ =>
    { s.setPass worker (some { pass with stage := .nextFile, sent := pass.sent + 1 }) with
      files := s.erase reading.name }

def advance (s : Outbound) (worker : OutboundWorker) (result : CallResult) (jsonError : String) :
    Outbound :=
  match s.passes worker with
  | none => s
  | some pass =>
    match pass.stage with
    | .nextFile => s.readNext runtimes worker pass result jsonError
    | .posting reading delivery next => s.postNext worker pass reading delivery next result
    | .removing reading => s.removeFile worker pass reading result

def step (s : Outbound) : OutboundEvent → Outbound
  | .write name content =>
    { s with files := s.erase name ++ [⟨name, s.written, content⟩], written := s.written + 1 }
  | .begin worker failure => s.begin worker failure
  | .advance worker result jsonError => s.advance runtimes worker result jsonError
  | .restart => { s with passes := fun _ => none }

end Outbound

end Direclaw.Slack
