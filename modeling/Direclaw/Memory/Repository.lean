import Direclaw.Lib.Run
import Direclaw.Memory.Domain
import Direclaw.Memory.Spans

/-!
# The memory store

`MemoryRepository::upsert_nodes_and_edges` of `memory/repository.rs`, one function
for each statement it executes. A table is the list of its rows, `DELETE` keeps the
other rows, and a violated constraint is an error of the statement; a transaction
that is not committed leaves the database as it was.
-/

namespace Direclaw.Memory

open Direclaw.Lib

inductive MemoryRepositoryError : Type where
  | sql (reason : String)
  | orchestratorScopeMismatch (expected actual : String)
  | invalidNode (reason : MemoryDomainError)
  | invalidEdge (reason : MemoryDomainError)
deriving DecidableEq, Repr

inductive PersistOutcome : Type where
  | inserted
  | duplicateSource
deriving DecidableEq, Repr

structure MemorySourceRecord where
  orchestratorId : String
  idempotencyKey : String
  sourceType : MemorySourceType
  sourcePath : Option String := none
  conversationId : Option String := none
  workflowRunId : Option String := none
  stepId : Option String := none
  capturedBy : MemoryCapturedBy
deriving DecidableEq, Repr

/-! ## Tables -/

/-- What a memory is stored under: the orchestrator and the memory id. -/
abbrev MemoryKey := String × String

def MemoryNode.key (node : MemoryNode) : MemoryKey := (node.orchestratorId, node.memoryId)

/-- A row of `memories`: the columns of the node, and `idempotency_key`. -/
structure MemoryRow where
  node : MemoryNode
  idempotencyKey : String
deriving DecidableEq, Repr

structure SourceRow where
  source : MemorySourceRecord
  processedAt : Int64
deriving DecidableEq, Repr

structure EdgeRow where
  orchestratorId : String
  edge : MemoryEdge
deriving DecidableEq, Repr

structure FtsRow where
  key : MemoryKey
  content : String
  summary : String
deriving DecidableEq, Repr

structure SpanRow where
  key : MemoryKey
  spanId : List Char
  span : ContentSpan
  updatedAt : Int64
deriving DecidableEq, Repr

structure SpanFtsRow where
  key : MemoryKey
  spanId : List Char
  text : List Char
deriving DecidableEq, Repr

structure Database where
  memories : List MemoryRow := []
  sources : List SourceRow := []
  edges : List EdgeRow := []
  fts : List FtsRow := []
  spans : List SpanRow := []
  spanFts : List SpanFtsRow := []
deriving DecidableEq, Repr

/-! ## Statements -/

def foreignKeyFailed : MemoryRepositoryError := .sql "FOREIGN KEY constraint failed"

def Database.hasMemory (db : Database) (key : MemoryKey) : Bool :=
  db.memories.any (·.node.key == key)

/-- `INSERT INTO memory_sources … DO NOTHING`: no row where the key is taken. -/
def insertSource (db : Database) (source : MemorySourceRecord) (now : Int64) : Option Database :=
  if db.sources.any fun row => row.source.orchestratorId == source.orchestratorId &&
      row.source.idempotencyKey == source.idempotencyKey then none
  else some { db with sources := db.sources ++ [{ source, processedAt := now }] }

/-- `DO UPDATE SET` sets every column but the key and `created_at`. -/
def MemoryRow.update (row : MemoryRow) (node : MemoryNode) (idempotencyKey : String) : MemoryRow :=
  { node := { node with createdAt := row.node.createdAt }, idempotencyKey }

def upsertMemory (rows : List MemoryRow) (node : MemoryNode) (idempotencyKey : String) :
    List MemoryRow :=
  if rows.any (·.node.key == node.key) then
    rows.map fun row => if row.node.key == node.key then row.update node idempotencyKey else row
  else rows ++ [⟨node, idempotencyKey⟩]

def ftsRow (node : MemoryNode) : FtsRow :=
  { key := node.key, content := node.content, summary := node.summary }

/-- `format!("{}:s{}", memory_id, seq)`. -/
def spanId (memoryId : String) (seq : ℕ) : List Char :=
  memoryId.toList ++ ':' :: 's' :: Text.decimal seq

def spanRow (node : MemoryNode) (span : ContentSpan) : SpanRow :=
  { key := node.key, spanId := spanId node.memoryId span.seq, span, updatedAt := node.updatedAt }

def spanFtsRow (node : MemoryNode) (span : ContentSpan) : SpanFtsRow :=
  { key := node.key, spanId := spanId node.memoryId span.seq, text := span.text }

def nodeSpans (node : MemoryNode) : List ContentSpan :=
  splitContentIntoSpans node.content.toList 320

def insertSpan (node : MemoryNode) (db : Database) (span : ContentSpan) :
    Except MemoryRepositoryError Database :=
  let row := spanRow node span
  if !db.hasMemory node.key then .error foreignKeyFailed
  else if db.spans.any fun r => r.key.1 == row.key.1 && r.spanId == row.spanId then
    .error (.sql "UNIQUE constraint failed: memory_spans.orchestrator_id, memory_spans.span_id")
  else .ok { db with spans := db.spans ++ [row], spanFts := db.spanFts ++ [spanFtsRow node span] }

/-- The statements for one node. -/
def writeNode (source : MemorySourceRecord) (db : Database) (node : MemoryNode) :
    Except MemoryRepositoryError Database :=
  let db := { db with memories := upsertMemory db.memories node source.idempotencyKey }
  let db := { db with fts := db.fts.filter (fun row : FtsRow => row.key != node.key) ++ [ftsRow node] }
  let db := { db with spans := db.spans.filter fun row => row.key != node.key }
  let db := { db with spanFts := db.spanFts.filter fun row => row.key != node.key }
  (nodeSpans node).foldlM (insertSpan node) db

def upsertEdge (rows : List EdgeRow) (orchestratorId : String) (edge : MemoryEdge) : List EdgeRow :=
  if rows.any fun row => row.orchestratorId == orchestratorId && row.edge.edgeId == edge.edgeId then
    rows.map fun row =>
      if row.orchestratorId == orchestratorId && row.edge.edgeId == edge.edgeId then
        { row with edge := { edge with createdAt := row.edge.createdAt } }
      else row
  else rows ++ [⟨orchestratorId, edge⟩]

def writeEdge (orchestratorId : String) (db : Database) (edge : MemoryEdge) :
    Except MemoryRepositoryError Database :=
  if db.hasMemory (orchestratorId, edge.fromMemoryId) &&
      db.hasMemory (orchestratorId, edge.toMemoryId) then
    .ok { db with edges := upsertEdge db.edges orchestratorId edge }
  else .error foreignKeyFailed

/-! ## `upsert_nodes_and_edges` -/

/-- A call: the repository's orchestrator, the arguments, what `canonicalize` answers
while it runs, and the clock of its `strftime('%s','now')`. -/
structure UpsertCall where
  orchestratorId : String
  source : MemorySourceRecord
  nodes : List MemoryNode
  edges : List MemoryEdge
  canonicalize : Canonicalize
  now : Int64

namespace UpsertCall

variable (call : UpsertCall)

def ensureScope (actual : String) : Except MemoryRepositoryError Unit :=
  if actual = call.orchestratorId then .ok ()
  else .error (.orchestratorScopeMismatch call.orchestratorId actual)

def validateNodes : List MemoryNode → Except MemoryRepositoryError Unit
  | [] => .ok ()
  | node :: nodes => do
      (node.validate call.canonicalize).mapError .invalidNode
      call.ensureScope node.orchestratorId
      validateNodes nodes

def validateEdges : List MemoryEdge → Except MemoryRepositoryError Unit
  | [] => .ok ()
  | edge :: edges => do
      edge.validate.mapError .invalidEdge
      validateEdges edges

def validate : Except MemoryRepositoryError Unit := do
  call.ensureScope call.source.orchestratorId
  call.validateNodes call.nodes
  validateEdges call.edges

/-- What the transaction does once the source is recorded. -/
def write (db : Database) : Except MemoryRepositoryError Database := do
  let db ← call.nodes.foldlM (writeNode call.source) db
  call.edges.foldlM (writeEdge call.orchestratorId) db

def exec (db : Database) : Database × Except MemoryRepositoryError PersistOutcome :=
  match call.validate with
  | .error err => (db, .error err)
  | .ok () =>
    match insertSource db call.source call.now with
    | none => (db, .ok .duplicateSource)
    | some recorded =>
      match call.write recorded with
      | .error err => (db, .error err)
      | .ok written => (written, .ok .inserted)

end UpsertCall

def stored (calls : List UpsertCall) : Database :=
  run (fun db call => (UpsertCall.exec call db).1) {} calls

end Direclaw.Memory
