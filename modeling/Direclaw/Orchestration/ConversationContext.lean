import Direclaw.Lib.Json
import Direclaw.Lib.Run
import Direclaw.Lib.Text
import Direclaw.Orchestration.RunStore
import Mathlib.Data.List.Sort

/-!
# Conversation context

`orchestration/conversation_context.rs`: the turns of a conversation are appended
to a file named by the channel profile and the conversation, and rendered from
there for the next request. The files are a tree below the state root's
`orchestrator` directory, which starts empty; a line of a file is the value that
the JSON reader gets from it.
-/

namespace Direclaw.Orchestration

open Direclaw.Lib

structure ThreadContextLimits where
  maxTurns : ℕ := 8
  maxChars : ℕ := 6000

inductive TurnDirection : Type where
  | inbound
  | outbound
deriving DecidableEq, Repr

structure TurnRecord where
  timestamp : Int64
  direction : TurnDirection
  senderId : String
  message : String
  messageId : String
  agent : Option String := none
  workflowRunId : Option String := none
  workflowStepId : Option String := none
deriving DecidableEq, Repr

namespace TurnDirection

def decode : Option Json → Option TurnDirection
  | some (.str "inbound") => some .inbound
  | some (.str "outbound") => some .outbound
  | _ => none

def encode : TurnDirection → Json
  | .inbound => .str "inbound"
  | .outbound => .str "outbound"

@[simp] theorem decode_encode (d : TurnDirection) : decode (some (encode d)) = some d := by
  cases d <;> rfl

end TurnDirection

namespace TurnRecord

def fieldNames : List String :=
  ["timestamp", "direction", "senderId", "message", "messageId", "agent", "workflowRunId",
    "workflowStepId"]

def decode (value : Json) : Option TurnRecord := do
  let fields ← value.structFields fieldNames
  let get := Json.field fields
  return {
    timestamp := ← Json.requiredI64 (get "timestamp")
    direction := ← TurnDirection.decode (get "direction")
    senderId := ← Json.requiredStr (get "senderId")
    message := ← Json.requiredStr (get "message")
    messageId := ← Json.requiredStr (get "messageId")
    agent := ← Json.optionalStr (get "agent")
    workflowRunId := ← Json.optionalStr (get "workflowRunId")
    workflowStepId := ← Json.optionalStr (get "workflowStepId") }

def encode (turn : TurnRecord) : Json :=
  .object [("timestamp", .int turn.timestamp.toInt), ("direction", turn.direction.encode),
    ("senderId", .str turn.senderId), ("message", .str turn.message),
    ("messageId", .str turn.messageId), ("agent", Json.ofOptionalStr turn.agent),
    ("workflowRunId", Json.ofOptionalStr turn.workflowRunId),
    ("workflowStepId", Json.ofOptionalStr turn.workflowStepId)]

/-- A line that was appended is read back. -/
@[simp] theorem decode_encode (turn : TurnRecord) : decode (encode turn) = some turn := by
  have hfields : (encode turn).structFields fieldNames = (encode turn).asObject := by
    simp only [encode, Json.structFields, Json.asObject, List.map_cons, List.map_nil]
    exact if_pos (by decide)
  simp only [decode, hfields]
  simp only [encode, Json.asObject, Json.field, List.lookup_cons, String.reduceBEq,
    Json.requiredStr_str, Json.requiredI64_int, Json.optionalStr_ofOptionalStr,
    TurnDirection.decode_encode, bind, Option.bind, pure]

end TurnRecord

/-! ## Where a conversation is kept -/

def sanitizeComponent (raw : List Char) : List Char :=
  let out := raw.map fun ch =>
    if ch.isAlphanum || ch == '-' || ch == '_' || ch == '.' then ch else '_'
  if out.isEmpty then ['_'] else out

structure Conversation where
  channelProfileId : String
  conversationId : String
deriving DecidableEq, Repr

namespace Conversation

def fileName (c : Conversation) : List Char :=
  sanitizeComponent c.conversationId.toList ++ ".jsonl".toList

end Conversation

/-- The components of a path below `orchestrator`. -/
abbrev ContextPath := List (List Char)

def conversationsDir : ContextPath := ["conversations".toList]

/-- The directory that `orchestrator/conversations/<component>` names. A sanitized
component holds no separator, but `.` and `..` survive it. -/
def contextDir (component : List Char) : ContextPath :=
  if component = ['.'] then conversationsDir
  else if component = ['.', '.'] then []
  else conversationsDir ++ [component]

def Conversation.dir (c : Conversation) : ContextPath :=
  contextDir (sanitizeComponent c.channelProfileId.toList)

def Conversation.contextPath (c : Conversation) : ContextPath := c.dir ++ [c.fileName]

/-! ## The file tree -/

inductive ContextNode : Type where
  | dir
  | file (lines : List Json)

abbrev ContextTree := ContextPath → Option ContextNode

def fileExists : String := "File exists (os error 17)"
def notADirectory : String := "Not a directory (os error 20)"
def isADirectory : String := "Is a directory (os error 21)"

/-- `create_dir_all` of `dir ++ rest`, where `dir` is known to be a directory. -/
def createDirAll (tree : ContextTree) (dir : ContextPath) :
    ContextPath → ContextTree × Except IoErrorKind Unit
  | [] => (tree, .ok ())
  | name :: rest =>
    match tree (dir ++ [name]) with
    | some (.file _) =>
      (tree, .error (.other (if rest.isEmpty then fileExists else notADirectory)))
    | some .dir => createDirAll tree (dir ++ [name]) rest
    | none => createDirAll (Function.update tree (dir ++ [name]) (some .dir)) (dir ++ [name]) rest

/-- Whether `dir ++ rest` can be entered. -/
def enterDir (tree : ContextTree) (dir : ContextPath) : ContextPath → Except IoErrorKind Unit
  | [] => .ok ()
  | name :: rest =>
    match tree (dir ++ [name]) with
    | none => .error .notFound
    | some (.file _) => .error (.other notADirectory)
    | some .dir => enterDir tree (dir ++ [name]) rest

/-- `create(true).append(true)`, then the line. -/
def appendLine (tree : ContextTree) (path : ContextPath) (line : Json) :
    ContextTree × Except IoErrorKind Unit :=
  match tree path with
  | some .dir => (tree, .error (.other isADirectory))
  | some (.file lines) => (Function.update tree path (some (.file (lines ++ [line]))), .ok ())
  | none => (Function.update tree path (some (.file [line])), .ok ())

/-- `File::open` and the lines; a directory opens but cannot be read. -/
def readLines (tree : ContextTree) (path : ContextPath) : Except IoErrorKind (List Json) :=
  match tree path with
  | none => .error .notFound
  | some .dir => .error (.other isADirectory)
  | some (.file lines) => .ok lines

/-! ## Turns -/

def appendTurn (tree : ContextTree) (c : Conversation) (turn : TurnRecord) :
    ContextTree × Except IoErrorKind Unit :=
  match createDirAll tree [] conversationsDir with
  | (tree, .error err) => (tree, .error err)
  | (tree, .ok ()) =>
    match createDirAll tree [] c.dir with
    | (tree, .error err) => (tree, .error err)
    | (tree, .ok ()) => appendLine tree c.contextPath turn.encode

/-- A call of `append_inbound_turn` or `append_outbound_turn`. -/
inductive TurnCall : Type where
  | inbound (c : Conversation) (messageId : String) (timestamp : Int64) (senderId message : String)
  | outbound (c : Conversation) (messageId : String) (timestamp : Int64) (agent message : String)
      (workflowRunId workflowStepId : Option String)

def TurnCall.conversation : TurnCall → Conversation
  | .inbound c .. | .outbound c .. => c

def appendInboundTurn (tree : ContextTree) (c : Conversation) (messageId : String)
    (timestamp : Int64) (senderId message : String) : ContextTree × Except IoErrorKind Unit :=
  if Text.isBlank message.toList then (tree, .ok ())
  else appendTurn tree c { timestamp, direction := .inbound, senderId, message, messageId }

def appendOutboundTurn (tree : ContextTree) (c : Conversation) (messageId : String)
    (timestamp : Int64) (agent message : String) (workflowRunId workflowStepId : Option String) :
    ContextTree × Except IoErrorKind Unit :=
  if Text.isBlank message.toList then (tree, .ok ())
  else appendTurn tree c
    { timestamp, direction := .outbound, senderId := "assistant", message, messageId
      agent := some agent, workflowRunId, workflowStepId }

def TurnCall.exec (tree : ContextTree) : TurnCall → ContextTree × Except IoErrorKind Unit
  | .inbound c messageId timestamp senderId message =>
    appendInboundTurn tree c messageId timestamp senderId message
  | .outbound c messageId timestamp agent message workflowRunId workflowStepId =>
    appendOutboundTurn tree c messageId timestamp agent message workflowRunId workflowStepId

def renderTurn (turn : TurnRecord) : List Char :=
  let who := match turn.direction with
    | .inbound => "user"
    | .outbound => "assistant"
  s!"[{who}] ".toList ++ Text.trim turn.message.toList ++
    (turn.workflowRunId.map fun id => s!" (run_id={id})".toList).getD [] ++
    (turn.workflowStepId.map fun id => s!" (step_id={id})".toList).getD []

/-- `timestamp`, then `message_id`. -/
def TurnRecord.le (left right : TurnRecord) : Bool :=
  left.timestamp < right.timestamp ||
    left.timestamp == right.timestamp && decide (left.messageId ≤ right.messageId)

/-- The newest lines that fit, newest first, as `selected_lines` before it is
reversed. -/
def selectLines (maxChars : ℕ) (used : ℕ) (first : Bool) : List (List Char) → List (List Char)
  | [] => []
  | line :: lines =>
    let sep := if first then 0 else 1
    if used + sep + line.length > maxChars then []
    else line :: selectLines maxChars (used + sep + line.length) false lines

/-- What is rendered of the lines of a context file. -/
def renderLines (limits : ThreadContextLimits) (lines : List Json) : Option (List Char) :=
  let turns := lines.filterMap TurnRecord.decode
  if turns.isEmpty then none
  else
    let turns := turns.mergeSort TurnRecord.le
    let turns := turns.drop (turns.length - limits.maxTurns)
    let selected := (selectLines limits.maxChars 0 true (turns.reverse.map renderTurn)).reverse
    if selected.isEmpty then none else some (List.intercalate ['\n'] selected)

/-- The lines of a conversation's file. -/
def openContext (tree : ContextTree) (c : Conversation) : Except IoErrorKind (List Json) := do
  enterDir tree [] conversationsDir
  enterDir tree [] c.dir
  readLines tree c.contextPath

/-- A file that is not there renders nothing. -/
def renderOpened (limits : ThreadContextLimits) :
    Except IoErrorKind (List Json) → Except IoErrorKind (Option (List Char))
  | .error .notFound => .ok none
  | .error err => .error err
  | .ok lines => .ok (renderLines limits lines)

def renderRecentThreadContext (tree : ContextTree) (c : Conversation)
    (limits : ThreadContextLimits) : Except IoErrorKind (Option (List Char)) :=
  if limits.maxTurns = 0 ∨ limits.maxChars = 0 then .ok none
  else renderOpened limits (openContext tree c)

/-- The tree after a history of calls, from an empty one. -/
def afterTurns (calls : List TurnCall) : ContextTree :=
  run (fun tree call => (TurnCall.exec tree call).1) (fun _ => none) calls

end Direclaw.Orchestration
