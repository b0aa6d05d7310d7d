import Direclaw.Lib.Fallible
import Direclaw.Lib.Lines
import Direclaw.Orchestration.Routing

/-!
# What a provider prints

`provider/types.rs` and `provider/output_parse.rs`: the errors of an invocation, and how its
standard output becomes a message. One provider prints the message, the other one event for
each line, of which the last message counts.
-/

namespace Direclaw.Provider

open Direclaw.Lib Direclaw.Orchestration

/-! ## Types -/

inductive ProviderKind : Type where
  | anthropic
  | openAi
deriving DecidableEq, Repr

def ProviderKind.display : ProviderKind → String
  | .anthropic => "anthropic"
  | .openAi => "openai"

structure InvocationLog where
  agentId : String
  provider : ProviderKind
  model : String
  commandForm : String
  workingDirectory : String
  promptFile : String
  contextFiles : List String
  exitCode : Option ℤ := none
  timedOut : Bool := false
deriving DecidableEq

inductive ProviderError : Type where
  | unknownProvider (name : String)
  | unsupportedAnthropicModel (model : String)
  | missingBinary (provider : ProviderKind) (binary : String) (log : InvocationLog)
  | nonZeroExit (provider : ProviderKind) (exitCode : ℤ) (stderr : String) (log : InvocationLog)
  | timeout (provider : ProviderKind) (timeoutMs : ℕ) (log : InvocationLog)
  | parseFailure (provider : ProviderKind) (reason : String) (log : Option InvocationLog)
  | io (path source : String)
deriving DecidableEq

def ProviderError.display : ProviderError → String
  | .unknownProvider name => s!"unknown provider `{name}`"
  | .unsupportedAnthropicModel model => s!"unsupported anthropic model `{model}`"
  | .missingBinary provider binary _ =>
    s!"provider binary missing for {provider.display}: {binary}"
  | .nonZeroExit provider exitCode stderr _ =>
    s!"provider process failed for {provider.display} with exit code {exitCode}: {stderr}"
  | .timeout provider timeoutMs _ =>
    s!"provider process timed out for {provider.display} after {timeoutMs}ms"
  | .parseFailure provider reason _ =>
    s!"provider output parse failure for {provider.display}: {reason}"
  | .io path source => s!"io error at {path}: {source}"

structure ProviderResult where
  message : String
  log : InvocationLog
deriving DecidableEq

/-! ## Messages -/

def parseAnthropicOutput (stdout : String) : Except ProviderError String :=
  let trimmed := Text.trim stdout.toList
  if trimmed.isEmpty then .error (.parseFailure .anthropic "stdout was empty" none)
  else .ok (String.ofList trimmed)

/-- `Value::get` with a key. -/
def member (value : Json) (key : String) : Option Json :=
  value.asObject.bind fun fields => Json.get fields key

def filledText (value : Option Json) : Option String :=
  (value.bind Json.asStr).bind fun text =>
    let trimmed := Text.trim text.toList
    if trimmed.isEmpty then none else some (String.ofList trimmed)

/-- The texts of the entries of a content, one on each line. -/
def contentLines : Option Json → Option String
  | some (.array entries) =>
    let lines := entries.filterMap fun entry => filledText (member entry "text")
    if lines.isEmpty then none else some ("\n".intercalate lines)
  | _ => none

def extractAgentMessage (item : Json) : Option String :=
  (filledText (member item "text")).or <| (filledText (member item "message")).or <|
    (filledText (member item "content")).or (contentLines (member item "content"))

/-- The message of an event, if it is an agent's message that is complete. -/
def eventMessage (event : Json) : Option String :=
  if (member event "type").bind Json.asStr ≠ some "item.completed" then none
  else (member event "item").bind fun item =>
    if (member item "type").bind Json.asStr ≠ some "agent_message" then none
    else extractAgentMessage item

section Jsonl

variable (json : JsonText)

/-- The lines that are read: trimmed, and none of them empty. -/
def eventLines (stdout : String) : List (List Char) :=
  ((Text.splitLines stdout.toList).map Text.trim).filter (· ≠ [])

def parseEvent (line : List Char) : Except ProviderError Json :=
  match json.fromStr (String.ofList line) with
  | some value => .ok value
  | none => .error (.parseFailure .openAi
      s!"invalid jsonl event: {json.complaint (String.ofList line)}" none)

/-- One turn of the loop. -/
def readEvent (lastMessage : Option String) (line : List Char) :
    Except ProviderError (Option String) := do
  let value ← parseEvent json line
  return (eventMessage value).or lastMessage

def parseOpenaiJsonl (stdout : String) : Except ProviderError String := do
  let lastMessage ← (eventLines stdout).foldlM (readEvent json) none
  match lastMessage with
  | some message => .ok message
  | none =>
    .error (.parseFailure .openAi "missing terminal agent_message item.completed event" none)

end Jsonl

end Direclaw.Provider
