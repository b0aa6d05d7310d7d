import Direclaw.Lib.Text

/-!
# Memory nodes and edges

`memory/domain.rs`: the records of the memory graph and what `validate` asks of
them. A path is its text; an `f32` is its bit pattern. The only thing validation
asks the file system is `fs::canonicalize`.
-/

namespace Direclaw.Memory

open Direclaw.Lib

inductive MemoryDomainError : Type where
  | importanceOutOfRange (value : UInt8)
  | confidenceOutOfRange (bits : UInt32)
  | edgeWeightOutOfRange (bits : UInt32)
  | missingField (field : String)
  | sourcePathMustBeAbsolute
  | sourcePathMustBeCanonical
  | sourcePathCanonicalizeFailed
  | missingWorkflowRunId
  | missingStepId
  | missingConversationId
  | missingSourcePath
deriving DecidableEq, Repr

def validateImportance (value : UInt8) : Except MemoryDomainError Unit :=
  if value > 100 then .error (.importanceOutOfRange value) else .ok ()

/-- `(0.0..=1.0).contains` on the bits of an `f32`: up to the bits of `1.0`, and
`-0.0`. A NaN is in no range. -/
def inUnitInterval (bits : UInt32) : Bool := bits ≤ 0x3F800000 || bits == 0x80000000

def validateConfidence (bits : UInt32) : Except MemoryDomainError Unit :=
  if inUnitInterval bits then .ok () else .error (.confidenceOutOfRange bits)

def validateEdgeWeight (bits : UInt32) : Except MemoryDomainError Unit :=
  if inUnitInterval bits then .ok () else .error (.edgeWeightOutOfRange bits)

inductive MemoryNodeType : Type where
  | fact | preference | decision | identity | event | observation | goal | todo
deriving DecidableEq, Repr

inductive MemoryEdgeType : Type where
  | relatedTo | updates | contradicts | causedBy | partOf
deriving DecidableEq, Repr

inductive MemoryStatus : Type where
  | active | superseded | retracted
deriving DecidableEq, Repr

inductive MemorySourceType : Type where
  | workflowOutput | channelTranscript | ingestFile | diagnostics | manual
deriving DecidableEq, Repr

inductive MemoryCapturedBy : Type where
  | extractor | user | system
deriving DecidableEq, Repr

structure MemorySource where
  sourceType : MemorySourceType
  sourcePath : Option String := none
  conversationId : Option String := none
  workflowRunId : Option String := none
  stepId : Option String := none
  capturedBy : MemoryCapturedBy
deriving DecidableEq, Repr

/-- `fs::canonicalize`, where it succeeds. -/
abbrev Canonicalize := String → Option String

def isAbsolute (path : String) : Bool := path.toList.head? == some '/'

/-- The components that `PathBuf` compares; the paths compared are absolute. -/
def components (path : String) : List (List Char) :=
  (path.toList.splitOn '/').filter fun c => c ≠ [] ∧ c ≠ ['.']

/-- `is_none_or(|value| value.trim().is_empty())`. -/
def blankOrMissing (value : Option String) : Bool := value.all fun v => Text.isBlank v.toList

def MemorySource.validatePath (canonicalize : Canonicalize) :
    Option String → Except MemoryDomainError Unit
  | none => .ok ()
  | some path =>
    if !isAbsolute path then .error .sourcePathMustBeAbsolute
    else
      match canonicalize path with
      | none => .error .sourcePathCanonicalizeFailed
      | some canonical =>
        if components canonical = components path then .ok ()
        else .error .sourcePathMustBeCanonical

def MemorySource.validateFields (source : MemorySource) : Except MemoryDomainError Unit :=
  match source.sourceType with
  | .workflowOutput =>
    if blankOrMissing source.workflowRunId then .error .missingWorkflowRunId
    else if blankOrMissing source.stepId then .error .missingStepId
    else .ok ()
  | .channelTranscript =>
    if blankOrMissing source.conversationId then .error .missingConversationId else .ok ()
  | .ingestFile => if source.sourcePath.isNone then .error .missingSourcePath else .ok ()
  | .diagnostics | .manual => .ok ()

def MemorySource.validate (canonicalize : Canonicalize) (source : MemorySource) :
    Except MemoryDomainError Unit := do
  validatePath canonicalize source.sourcePath
  source.validateFields

structure MemoryNode where
  memoryId : String
  orchestratorId : String
  nodeType : MemoryNodeType
  importance : UInt8
  content : String
  summary : String
  confidence : UInt32
  source : MemorySource
  status : MemoryStatus
  createdAt : Int64
  updatedAt : Int64
deriving DecidableEq, Repr

/-- A field that must not be blank. -/
def requireField (field value : String) : Except MemoryDomainError Unit :=
  if Text.isBlank value.toList then .error (.missingField field) else .ok ()

def MemoryNode.validate (canonicalize : Canonicalize) (node : MemoryNode) :
    Except MemoryDomainError Unit := do
  requireField "memory_id" node.memoryId
  requireField "orchestrator_id" node.orchestratorId
  requireField "content" node.content
  requireField "summary" node.summary
  validateImportance node.importance
  validateConfidence node.confidence
  node.source.validate canonicalize

structure MemoryEdge where
  edgeId : String
  fromMemoryId : String
  toMemoryId : String
  edgeType : MemoryEdgeType
  weight : UInt32
  createdAt : Int64
  reason : Option String := none
deriving DecidableEq, Repr

def MemoryEdge.validate (edge : MemoryEdge) : Except MemoryDomainError Unit := do
  requireField "edge_id" edge.edgeId
  requireField "from_memory_id" edge.fromMemoryId
  requireField "to_memory_id" edge.toMemoryId
  validateEdgeWeight edge.weight

end Direclaw.Memory
