import Direclaw.Memory.Ingest

/-!
# Extraction

`memory/extractor.rs`: the memories in an ingested file, by the extension of the path that
the file has by then. What `serde_json` makes of the bytes of a JSON file is a parameter.
-/

namespace Direclaw.Memory

open Direclaw.Lib

/-! ## Bytes as text -/

/-- `String::from_utf8_lossy`: how many bytes a sequence with this first byte has. -/
def sequenceLength (lead : UInt8) : ℕ :=
  if lead < 0x80 then 1
  else if lead < 0xC2 then 0
  else if lead < 0xE0 then 2
  else if lead < 0xF0 then 3
  else if lead < 0xF5 then 4
  else 0

def isContinuation (byte : UInt8) : Bool := 0x80 ≤ byte && byte ≤ 0xBF

/-- What may follow the first byte; some of them leave out overlong forms, surrogates and
what lies above the last character. -/
def isSecondByte (lead byte : UInt8) : Bool :=
  if lead = 0xE0 then 0xA0 ≤ byte && byte ≤ 0xBF
  else if lead = 0xED then 0x80 ≤ byte && byte ≤ 0x9F
  else if lead = 0xF0 then 0x90 ≤ byte && byte ≤ 0xBF
  else if lead = 0xF4 then 0x80 ≤ byte && byte ≤ 0x8F
  else isContinuation byte

/-- The bytes that continue the sequence of the first byte, as far as they can. -/
def sequenceTail (lead : UInt8) : List UInt8 → List UInt8
  | [] => []
  | second :: rest =>
    if 2 ≤ sequenceLength lead && isSecondByte lead second then
      second :: (rest.take (sequenceLength lead - 2)).takeWhile isContinuation
    else []

def leadBits (lead : UInt8) : ℕ :=
  match sequenceLength lead with
  | 2 => lead.toNat % 0x20
  | 3 => lead.toNat % 0x10
  | 4 => lead.toNat % 0x08
  | _ => lead.toNat

/-- A sequence that breaks off is one replacement character. -/
def decodeLossy : ℕ → List UInt8 → List Char
  | 0, _ | _, [] => []
  | fuel + 1, lead :: rest =>
    let tail := sequenceTail lead rest
    let c :=
      if tail.length + 1 = sequenceLength lead then
        Char.ofNat (tail.foldl (fun value byte => value * 64 + byte.toNat % 64) (leadBits lead))
      else Char.ofNat 0xFFFD
    c :: decodeLossy fuel (rest.drop tail.length)

def fromUtf8Lossy (bytes : List UInt8) : List Char := decodeLossy bytes.length bytes

example : fromUtf8Lossy [0x61, 0xE2, 0x82, 0xAC, 0xE2, 0x82, 0x62] =
    ['a', Char.ofNat 0x20AC, Char.ofNat 0xFFFD, 'b'] := by
  decide

/-! ## The parts of an extraction -/

structure JsonMemoryNode where
  memoryId : String
  orchestratorId : Option String := none
  nodeType : MemoryNodeType
  importance : UInt8
  content : String
  summary : String
  confidence : UInt32
  status : MemoryStatus
  createdAt : Option Int64 := none
  updatedAt : Option Int64 := none
deriving DecidableEq, Repr

structure JsonMemoryEdge where
  edgeId : String
  fromMemoryId : String
  toMemoryId : String
  edgeType : MemoryEdgeType
  weight : UInt32
  createdAt : Option Int64 := none
  reason : Option String := none
deriving DecidableEq, Repr

structure JsonExtractPayload where
  memories : List JsonMemoryNode := []
  edges : List JsonMemoryEdge := []
deriving DecidableEq, Repr

/-- What an extraction calls: the JSON parser, the digest and the clock. -/
structure Extractor where
  fromSlice : List UInt8 → Except String JsonExtractPayload
  sha256 : List UInt8 → List UInt8
  nowSecs : Int64

def pathFileName (path : String) : List Char :=
  (path.toList.reverse.takeWhile (· != '/')).reverse

/-- The extension of a path in lower case, or nothing. -/
def pathExtension (path : String) : String :=
  String.ofList (((Text.extension (pathFileName path)).map Text.toAsciiLowercase).getD [])

/-- `normalize_text` of the extractor, which trims once more. -/
def normalizeIngestText (input : List Char) : List Char := Text.trim (normalizeText input)

/-- `make_summary` takes words until the next one makes it too long. -/
def summaryOf : List Char → List (List Char) → List Char
  | summary, [] => summary
  | summary, chunk :: chunks =>
    if summary.isEmpty then summaryOf (summary ++ chunk) chunks
    else if utf8Len summary + utf8Len chunk < 120 then
      summaryOf (summary ++ ' ' :: chunk) chunks
    else summary

def makeSummary (content : List Char) : List Char :=
  let summary := summaryOf [] (Text.splitWhitespace content)
  if summary.isEmpty then "(empty)".toList else summary

/-- The bits of `0.6` as an `f32`. -/
def confidence06 : UInt32 := 0x3F19999A

def ingestSource (canonicalSourcePath : String) : MemorySource where
  sourceType := .ingestFile
  sourcePath := some canonicalSourcePath
  capturedBy := .extractor

namespace Extractor

variable (x : Extractor)

def deriveMemoryId (path : String) (bytes : List UInt8) (index : ℕ) : String :=
  let message :=
    utf8Bytes path ++ 0 :: bytes ++ 0 :: utf8Bytes (String.ofList (Text.decimal index))
  "ingest-" ++ String.ofList (((x.sha256 message).take 12).flatMap hexByte)

def extractPlainText (orchestratorId canonicalSourcePath : String) (bytes : List UInt8)
    (nodeType : MemoryNodeType) : ExtractedMemory :=
  let content := normalizeIngestText (fromUtf8Lossy bytes)
  { nodes :=
      [{ memoryId := x.deriveMemoryId canonicalSourcePath bytes 0, orchestratorId, nodeType
         importance := 50, content := String.ofList content
         summary := String.ofList (makeSummary content), confidence := confidence06
         source := ingestSource canonicalSourcePath, status := .active
         createdAt := x.nowSecs, updatedAt := x.nowSecs }] }

def jsonNode (orchestratorId canonicalSourcePath : String) (memory : JsonMemoryNode) :
    Except MemoryExtractionError MemoryNode := do
  match memory.orchestratorId with
  | some actual =>
    if actual ≠ orchestratorId then
      throw (.jsonScopeMismatch memory.memoryId orchestratorId actual)
  | none => pure ()
  let content := normalizeIngestText memory.content.toList
  if content.isEmpty then throw (.emptyContent memory.memoryId)
  let summary := normalizeIngestText memory.summary.toList
  if summary.isEmpty then throw (.emptySummary memory.memoryId)
  return {
    memoryId := memory.memoryId, orchestratorId, nodeType := memory.nodeType
    importance := memory.importance, content := String.ofList content
    summary := String.ofList summary, confidence := memory.confidence
    source := ingestSource canonicalSourcePath, status := memory.status
    createdAt := memory.createdAt.getD x.nowSecs
    updatedAt := memory.updatedAt.getD x.nowSecs }

def jsonEdge (edge : JsonMemoryEdge) : MemoryEdge :=
  { edgeId := edge.edgeId, fromMemoryId := edge.fromMemoryId, toMemoryId := edge.toMemoryId
    edgeType := edge.edgeType, weight := edge.weight
    createdAt := edge.createdAt.getD x.nowSecs
    reason := edge.reason.map fun value => String.ofList (normalizeIngestText value.toList) }

def extractJson (orchestratorId canonicalSourcePath : String) (bytes : List UInt8) :
    Except MemoryExtractionError ExtractedMemory := do
  let parsed ← (x.fromSlice bytes).mapError .invalidJson
  let nodes ← parsed.memories.mapM (x.jsonNode orchestratorId canonicalSourcePath)
  return { nodes, edges := parsed.edges.map x.jsonEdge }

def extractCandidatesFromIngestFile (orchestratorId canonicalSourcePath : String)
    (bytes : List UInt8) : Except MemoryExtractionError ExtractedMemory :=
  if !isAbsolute canonicalSourcePath then .error .invalidSourcePath
  else
    match pathExtension canonicalSourcePath with
    | "txt" => .ok (x.extractPlainText orchestratorId canonicalSourcePath bytes .observation)
    | "md" => .ok (x.extractPlainText orchestratorId canonicalSourcePath bytes .observation)
    | "json" => x.extractJson orchestratorId canonicalSourcePath bytes
    | other => .error (.unsupportedFileType other)

end Extractor

/-- A memory worker with this extractor. -/
def Ingester.extracting (g : Ingester) (x : Extractor) : Ingester :=
  { g with sha256 := x.sha256, extract := x.extractCandidatesFromIngestFile }

@[simp] theorem Ingester.extracting_extract (g : Ingester) (x : Extractor) :
    (g.extracting x).extract = x.extractCandidatesFromIngestFile := rfl

@[simp] theorem Ingester.extracting_orchestratorId (g : Ingester) (x : Extractor) :
    (g.extracting x).orchestratorId = g.orchestratorId := rfl

@[simp] theorem Ingester.extracting_ingestProcessed (g : Ingester) (x : Extractor) :
    (g.extracting x).ingestProcessed = g.ingestProcessed := rfl

end Direclaw.Memory
