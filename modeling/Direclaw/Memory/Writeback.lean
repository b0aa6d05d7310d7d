import Direclaw.Lib.Json
import Direclaw.Memory.Repository

/-!
# Writing back memories

`memory/writeback.rs`: what is stored of a transcript, of a step's outputs and of
diagnostics findings. The digest function is a parameter; the embeddings that follow
an insertion go to a table of their own.
-/

namespace Direclaw.Memory

open Direclaw.Lib

/-! ## Memory ids -/

/-- The bytes of a text, as `str::as_bytes`. -/
def utf8Bytes (text : String) : List UInt8 := text.toList.flatMap String.utf8EncodeChar

/-- What `compact_memory_id` hashes: every part is followed by a zero byte. -/
def hashInput (kind : String) (parts : List String) : List UInt8 :=
  (kind :: parts).flatMap fun part => utf8Bytes part ++ [0]

def hexDigit (n : ℕ) : Char := ("0123456789abcdef".toList).getD n '0'

/-- `{:02x}`. -/
def hexByte (byte : UInt8) : List Char := [hexDigit (byte.toNat / 16), hexDigit (byte.toNat % 16)]

/-- The three bytes of a digest that an id keeps. -/
def digestHead (sha256 : List UInt8 → List UInt8) (message : List UInt8) : List UInt8 :=
  [(sha256 message).getD 0 0, (sha256 message).getD 1 0, (sha256 message).getD 2 0]

def compactMemoryId (sha256 : List UInt8 → List UInt8) (kind : String) (parts : List String) :
    String :=
  String.ofList
    (kind.toList ++ '-' :: (digestHead sha256 (hashInput kind parts)).flatMap hexByte)

/-! ## Texts -/

def normalizeText (input : List Char) : List Char :=
  List.intercalate [' '] (Text.splitWhitespace input)

/-- `summarize`: the first characters. -/
def summarize (content : List Char) (maxChars : ℕ) : List Char := content.take maxChars

def keyContains (key : String) (word : String) : Bool :=
  (Text.splitOnceStr word.toList (Text.toAsciiLowercase key.toList)).isSome

def nodeTypeForOutputKey (key : String) : MemoryNodeType :=
  if keyContains key "decision" then .decision
  else if keyContains key "todo" then .todo
  else if keyContains key "goal" then .goal
  else if keyContains key "preference" then .preference
  else .fact

def importanceForNodeType : MemoryNodeType → UInt8
  | .decision => 75
  | .goal => 70
  | .todo => 65
  | .preference => 60
  | .fact => 55
  | .identity | .event | .observation => 50

def sanitizeIdComponent (raw : String) : List Char :=
  Text.trimMatches (· == '-')
    (raw.toList.map fun ch => if ch.isAlphanum then Text.asciiLower ch else '-')

/-! ## The three writers -/

/-- The bits of `0.7`, `0.75` and `0.8` as `f32`. -/
def confidence07 : UInt32 := 0x3F333333
def confidence075 : UInt32 := 0x3F400000
def confidence08 : UInt32 := 0x3F4CCCCD

/-- What a write answers to outside the store: the JSON printer, the file system, and
the clock of the database. -/
structure WritebackEnv where
  toText : Json → String
  canonicalize : Canonicalize
  isFile : String → Bool
  now : Int64

/-- What a stored memory is the memory of. -/
inductive Origin : Type where
  | message (messageId : String)
  | output (runId stepId key : String)
  | diagnostics (diagnosticsId : String)
deriving DecidableEq, Repr

namespace Origin

def kind : Origin → String
  | .message _ => "t"
  | .output .. => "w"
  | .diagnostics _ => "d"

def parts : Origin → List String
  | .message messageId => [messageId]
  | .output runId stepId key => [runId, stepId, key]
  | .diagnostics diagnosticsId => [diagnosticsId]

def memoryId (sha256 : List UInt8 → List UInt8) (origin : Origin) : String :=
  compactMemoryId sha256 origin.kind origin.parts

end Origin

structure WorkflowOutputWriteback where
  orchestratorId : String
  runId : String
  stepId : String
  attempt : ℕ
  conversationId : Option String := none
  outputs : List (String × Json)
  outputFiles : List (String × String)
  capturedAt : Int64

structure DiagnosticsFindingWriteback where
  orchestratorId : String
  diagnosticsId : String
  runId : Option String := none
  conversationId : Option String := none
  findings : String
  relatedMemoryIds : List String
  capturedAt : Int64

inductive PersistCall : Type where
  | transcript (orchestratorId messageId conversationId transcriptText : String)
      (capturedAt : Int64)
  | outputs (input : WorkflowOutputWriteback)
  | findings (input : DiagnosticsFindingWriteback)

/-- What a call hands to the store: the source record, the nodes with the origin each
is for, and the edges. -/
structure Writeback where
  source : MemorySourceRecord
  nodes : List (Origin × MemoryNode)
  edges : List MemoryEdge

section Writers

variable (sha256 : List UInt8 → List UInt8) (env : WritebackEnv)

def canonicalizeIfAbsoluteFilePath (path : String) : Option String :=
  if isAbsolute path && env.isFile path then env.canonicalize path else none

def renderOutputValue : Json → List Char
  | .str text => normalizeText text.toList
  | value => (env.toText value).toList

def persistTranscriptObservation (orchestratorId messageId conversationId transcriptText : String)
    (capturedAt : Int64) : Option Writeback :=
  let content := normalizeText transcriptText.toList
  if content.isEmpty then none
  else some {
    source :=
      { orchestratorId, idempotencyKey := s!"channel_transcript:{messageId}"
        sourceType := .channelTranscript, conversationId := some conversationId
        capturedBy := .user }
    nodes := [(.message messageId,
      { memoryId := Origin.memoryId sha256 (.message messageId), orchestratorId
        nodeType := .observation, importance := 45, content := String.ofList content
        summary := String.ofList (summarize content 120), confidence := confidence07
        source :=
          { sourceType := .channelTranscript, conversationId := some conversationId
            capturedBy := .user }
        status := .active, createdAt := capturedAt, updatedAt := capturedAt })]
    edges := [] }

/-- The node for one output, unless it renders to nothing. -/
def outputNode (input : WorkflowOutputWriteback) (output : String × Json) :
    Option (Origin × MemoryNode) :=
  let content := renderOutputValue env output.2
  if Text.isBlank content then none
  else
    let origin := Origin.output input.runId input.stepId output.1
    let nodeType := nodeTypeForOutputKey output.1
    some (origin,
      { memoryId := origin.memoryId sha256, orchestratorId := input.orchestratorId, nodeType
        importance := importanceForNodeType nodeType, content := String.ofList content
        summary := String.ofList (summarize content 120), confidence := confidence075
        source :=
          { sourceType := .workflowOutput
            sourcePath := (input.outputFiles.lookup output.1).bind
              (canonicalizeIfAbsoluteFilePath env)
            conversationId := input.conversationId, workflowRunId := some input.runId
            stepId := some input.stepId, capturedBy := .system }
        status := .active, createdAt := input.capturedAt, updatedAt := input.capturedAt })

def persistWorkflowOutputMemories (input : WorkflowOutputWriteback) : Option Writeback :=
  let nodes := input.outputs.filterMap (outputNode sha256 env input)
  if nodes.isEmpty then none
  else some {
    source :=
      { orchestratorId := input.orchestratorId
        idempotencyKey := s!"workflow_output:{input.runId}:{input.stepId}:" ++
          String.ofList (Text.decimal input.attempt)
        sourceType := .workflowOutput, conversationId := input.conversationId
        workflowRunId := some input.runId, stepId := some input.stepId, capturedBy := .system }
    nodes, edges := [] }

def findingEdge (input : DiagnosticsFindingWriteback) (relatedMemoryId : String) :
    Option MemoryEdge :=
  let related := Text.trim relatedMemoryId.toList
  if related.isEmpty then none
  else some
    { edgeId := String.ofList ("diag-".toList ++ sanitizeIdComponent input.diagnosticsId ++
        '-' :: related)
      fromMemoryId := String.ofList related
      toMemoryId := Origin.memoryId sha256 (.diagnostics input.diagnosticsId)
      edgeType := .relatedTo, weight := confidence07, createdAt := input.capturedAt
      reason := some s!"diagnostics:{input.diagnosticsId}" }

def persistDiagnosticsFindings (input : DiagnosticsFindingWriteback) : Option Writeback :=
  let content := normalizeText input.findings.toList
  if content.isEmpty then none
  else some {
    source :=
      { orchestratorId := input.orchestratorId
        idempotencyKey := s!"diagnostics:{input.diagnosticsId}", sourceType := .diagnostics
        conversationId := input.conversationId, workflowRunId := input.runId
        capturedBy := .system }
    nodes := [(.diagnostics input.diagnosticsId,
      { memoryId := Origin.memoryId sha256 (.diagnostics input.diagnosticsId)
        orchestratorId := input.orchestratorId, nodeType := .observation, importance := 70
        content := String.ofList content, summary := String.ofList (summarize content 120)
        confidence := confidence08
        source :=
          { sourceType := .diagnostics, conversationId := input.conversationId
            workflowRunId := input.runId, capturedBy := .system }
        status := .active, createdAt := input.capturedAt, updatedAt := input.capturedAt })]
    edges := input.relatedMemoryIds.filterMap (findingEdge sha256 input) }

def PersistCall.writeback : PersistCall → Option Writeback
  | .transcript orchestratorId messageId conversationId transcriptText capturedAt =>
    persistTranscriptObservation sha256 orchestratorId messageId conversationId transcriptText
      capturedAt
  | .outputs input => persistWorkflowOutputMemories sha256 env input
  | .findings input => persistDiagnosticsFindings sha256 input

/-- The call that reaches the repository of `repoOrchestratorId`. -/
def Writeback.request (repoOrchestratorId : String) (w : Writeback) : UpsertCall :=
  { orchestratorId := repoOrchestratorId, source := w.source, nodes := w.nodes.map Prod.snd
    edges := w.edges, canonicalize := env.canonicalize, now := env.now }

/-- Nothing to store counts as a source seen before. -/
def PersistCall.exec (repoOrchestratorId : String) (db : Database) (call : PersistCall) :
    Database × Except MemoryRepositoryError PersistOutcome :=
  match call.writeback sha256 env with
  | none => (db, .ok .duplicateSource)
  | some w => (w.request env repoOrchestratorId).exec db

end Writers

end Direclaw.Memory
