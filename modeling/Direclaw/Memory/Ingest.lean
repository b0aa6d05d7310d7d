import Direclaw.Memory.Writeback
import Mathlib.Data.List.Sort

/-!
# Ingesting files

`process_ingest_once` and `process_one_file` of `memory/ingest.rs` as one process over
three directories and the database. A control point is a place between two file or
database operations, so a crash can come at each of them; an operation that fails leaves
`process_ingest_once` there as well and counts as one. What the extractor makes of a file
is a parameter. The event log and the embeddings touch nothing that is modelled here.
-/

namespace Direclaw.Memory

open Direclaw.Lib

/-! ## Directories -/

structure IngestFile where
  name : String
  bytes : List UInt8
deriving DecidableEq, Repr

structure ProcessedManifest where
  status : String
  idempotencyKey : String
  memoriesWritten : ℕ
  edgesWritten : ℕ
deriving DecidableEq, Repr

structure RejectionManifest where
  status : String := "rejected"
  sourcePath : String
  idempotencyKey : Option String
  code : String
  message : String
deriving DecidableEq, Repr

/-- The extension in lower case, or nothing. -/
def IngestFile.extension (file : IngestFile) : String :=
  String.ofList (((Text.extension file.name.toList).map Text.toAsciiLowercase).getD [])

/-- What `ingest_processed` and `ingest_rejected` hold. -/
inductive IngestEntry : Type where
  | file (file : IngestFile)
  | processed (manifest : ProcessedManifest)
  | rejection (manifest : RejectionManifest)
deriving DecidableEq, Repr

abbrev IngestDir := List (String × IngestEntry)

namespace IngestDir

def remove (dir : IngestDir) (name : String) : IngestDir := dir.filter fun entry => entry.1 != name

/-- `fs::write` and `fs::rename` replace what stood under the name. -/
def write (dir : IngestDir) (name : String) (entry : IngestEntry) : IngestDir :=
  dir.remove name ++ [(name, entry)]

/-- The names that `move_with_collision` tries. -/
def candidate (fileName : String) : ℕ → String
  | 0 => fileName
  | suffix + 1 => fileName ++ String.ofList ('.' :: Text.decimal (suffix + 1))

/-- The first of them that is free. -/
def freeName (dir : IngestDir) (fileName : String) : String :=
  (((List.range (dir.length + 1)).map (candidate fileName)).find? fun name =>
    dir.all fun entry => entry.1 != name).getD fileName

end IngestDir

/-- `manifest_path`. -/
def manifestName (fileName kind : String) : String := fileName ++ "." ++ kind ++ ".json"

/-! ## Extraction -/

structure ExtractedMemory where
  nodes : List MemoryNode := []
  edges : List MemoryEdge := []
deriving DecidableEq, Repr

inductive MemoryExtractionError : Type where
  | unsupportedFileType (extension : String)
  | invalidJson (reason : String)
  | invalidSourcePath
  | jsonScopeMismatch (memoryId expected actual : String)
  | emptyContent (memoryId : String)
  | emptySummary (memoryId : String)
deriving DecidableEq, Repr

def MemoryExtractionError.display : MemoryExtractionError → String
  | .unsupportedFileType extension => s!"unsupported file type `{extension}`"
  | .invalidJson reason => s!"failed to parse ingest json: {reason}"
  | .invalidSourcePath => "invalid source path for extraction"
  | .jsonScopeMismatch memoryId expected actual =>
    s!"json memory `{memoryId}` orchestrator scope mismatch: expected {expected}, got {actual}"
  | .emptyContent memoryId => s!"json memory `{memoryId}` requires non-empty content"
  | .emptySummary memoryId => s!"json memory `{memoryId}` requires non-empty summary"

def rejectionCode : MemoryExtractionError → String
  | .unsupportedFileType _ => "unsupported_file_type"
  | .invalidJson _ => "invalid_json"
  | .invalidSourcePath => "invalid_source_path"
  | .jsonScopeMismatch .. => "scope_mismatch"
  | .emptyContent _ => "empty_content"
  | .emptySummary _ => "empty_summary"

/-- One memory worker: its directories, its limit and what it calls. -/
structure Ingester where
  orchestratorId : String
  ingest : String
  ingestProcessed : String
  ingestRejected : String
  maxFileSizeMb : ℕ
  sha256 : List UInt8 → List UInt8
  extract : String → String → List UInt8 → Except MemoryExtractionError ExtractedMemory
  errorText : MemoryRepositoryError → String

/-! ## The process -/

inductive IngestControl : Type where
  | idle
  /-- Between two files of one `process_ingest_once`. -/
  | files (pending : List String)
  | query (file : IngestFile) (pending : List String)
  | move (file : IngestFile) (duplicate : Bool) (pending : List String)
  /-- The file has been moved to `ingest_processed`, under `name`. -/
  | extract (file : IngestFile) (name : String) (pending : List String)
  | commit (file : IngestFile) (name : String) (extracted : ExtractedMemory)
      (pending : List String)
  | report (name : String) (manifest : ProcessedManifest) (pending : List String)
  /-- About to be moved to `ingest_rejected`: from `ingest`, or from its name in
  `ingest_processed`. -/
  | reject (file : IngestFile) (processed : Option String) (code message : String)
      (pending : List String)
  /-- The file has been moved to `ingest_rejected`, under `name`. -/
  | rejection (file : IngestFile) (name code message : String) (pending : List String)
deriving DecidableEq, Repr

structure IngestState where
  ingest : List IngestFile := []
  processed : IngestDir := []
  rejected : IngestDir := []
  db : Database := {}
  control : IngestControl := .idle
  /-- Every file that was ever placed in `ingest`. -/
  placed : List IngestFile := []
deriving DecidableEq, Repr

/-- What is answered from outside while an operation runs. -/
structure IngestEnv where
  canonicalize : Canonicalize
  now : Int64

inductive IngestEvent : Type where
  | place (file : IngestFile)
  | access (env : IngestEnv)
  | crash

namespace Ingester

variable (g : Ingester)

/-- `compute_ingest_idempotency_key`: the canonical path, a zero byte and the content. -/
def idempotencyKey (file : IngestFile) : String :=
  String.ofList
    ((g.sha256 (utf8Bytes (g.ingest ++ "/" ++ file.name) ++ 0 :: file.bytes)).flatMap hexByte)

def sourceExists (db : Database) (idempotencyKey : String) : Bool :=
  db.sources.any fun row => row.source.orchestratorId == g.orchestratorId &&
    row.source.idempotencyKey == idempotencyKey

/-- `max_bytes` on a 64-bit machine. -/
def maxBytes : ℕ := min (g.maxFileSizeMb * (1024 * 1024)) (2 ^ 64 - 1)

def request (env : IngestEnv) (file : IngestFile) (name : String) (extracted : ExtractedMemory) :
    UpsertCall :=
  { orchestratorId := g.orchestratorId
    source :=
      { orchestratorId := g.orchestratorId, idempotencyKey := g.idempotencyKey file
        sourceType := .ingestFile, sourcePath := some (g.ingestProcessed ++ "/" ++ name)
        capturedBy := .extractor }
    nodes := extracted.nodes, edges := extracted.edges
    canonicalize := env.canonicalize, now := env.now }

/-- `fs::read` and the checks on what was read. -/
def examine (file : IngestFile) (pending : List String) : IngestControl :=
  if g.maxBytes < file.bytes.length then
    .reject file none "file_too_large" s!"file size exceeds configured {g.maxFileSizeMb} MB" pending
  else if ["txt", "md", "json"].contains file.extension then .query file pending
  else
    .reject file none "unsupported_file_type"
      s!"unsupported ingest extension `{file.extension}`" pending

def duplicateManifest (file : IngestFile) : ProcessedManifest :=
  { status := "duplicate", idempotencyKey := g.idempotencyKey file, memoriesWritten := 0
    edgesWritten := 0 }

/-- The next operation of the process. -/
def advance (env : IngestEnv) (s : IngestState) : IngestState :=
  match s.control with
  | .idle =>
    { s with control := .files ((s.ingest.map (·.name)).insertionSort (· ≤ ·)) }
  | .files [] => { s with control := .idle }
  | .files (name :: pending) =>
    match s.ingest.find? (·.name == name) with
    | none => { s with control := .idle }
    | some file => { s with control := g.examine file pending }
  | .query file pending =>
    { s with control := .move file (g.sourceExists s.db (g.idempotencyKey file)) pending }
  | .move file duplicate pending =>
    if file ∈ s.ingest then
      let name := s.processed.freeName file.name
      { s with
        ingest := s.ingest.filter (· != file)
        processed := s.processed.write name (.file file)
        control :=
          if duplicate then .report name (g.duplicateManifest file) pending
          else .extract file name pending }
    else { s with control := .idle }
  | .extract file name pending =>
    match g.extract g.orchestratorId (g.ingestProcessed ++ "/" ++ name) file.bytes with
    | .error err =>
      { s with control := .reject file (some name) (rejectionCode err) err.display pending }
    | .ok extracted => { s with control := .commit file name extracted pending }
  | .commit file name extracted pending =>
    let result := (g.request env file name extracted).exec s.db
    { s with
      db := result.1
      control :=
        match result.2 with
        | .ok .inserted =>
          .report name
            { status := "processed", idempotencyKey := g.idempotencyKey file
              memoriesWritten := extracted.nodes.length
              edgesWritten := extracted.edges.length } pending
        | .ok .duplicateSource => .report name (g.duplicateManifest file) pending
        | .error err => .reject file (some name) "repository_error" (g.errorText err) pending }
  | .report name manifest pending =>
    { s with
      processed := s.processed.write (manifestName name "processed") (.processed manifest)
      control := .files pending }
  | .reject file none code message pending =>
    if file ∈ s.ingest then
      let name := s.rejected.freeName file.name
      { s with
        ingest := s.ingest.filter (· != file)
        rejected := s.rejected.write name (.file file)
        control := .rejection file name code message pending }
    else { s with control := .idle }
  | .reject file (some processed) code message pending =>
    if (processed, .file file) ∈ s.processed then
      let name := s.rejected.freeName processed
      { s with
        processed := s.processed.remove processed
        rejected := s.rejected.write name (.file file)
        control := .rejection file name code message pending }
    else { s with control := .idle }
  | .rejection file name code message pending =>
    { s with
      rejected := s.rejected.write (manifestName name "rejection")
        (.rejection
          { sourcePath := g.ingestRejected ++ "/" ++ name
            idempotencyKey := some (g.idempotencyKey file), code, message })
      control := .files pending }

/-- A file is placed under a name that is free; a crash leaves directories and database as
they are. -/
def step (s : IngestState) : IngestEvent → IngestState
  | .place file =>
    if s.ingest.any (·.name == file.name) then s
    else { s with ingest := s.ingest ++ [file], placed := s.placed ++ [file] }
  | .access env => g.advance env s
  | .crash => { s with control := .idle }

end Ingester

end Direclaw.Memory
