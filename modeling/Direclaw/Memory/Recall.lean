import Direclaw.Memory.Domain
import Direclaw.Orchestration.WorkspaceAccess
import Mathlib.Data.List.Sort

/-!
# Hybrid recall

`hybrid_recall` of `memory/retrieval.rs`. What SQLite finds and what is computed with
floating point numbers, the order of the hits, is given; the hits are merged by memory, the
first ones are taken, and the source path of every one of them is checked against the
workspace context of the request.
-/

namespace Direclaw.Memory

open Direclaw.Lib Direclaw.Orchestration

inductive MemoryRecallError : Type where
  | repository (reason : String)
  | crossOrchestratorDenied (requested available : String)
  | sourcePathAccessDenied (path : String)
  | sql (reason : String)
  | logWrite (path : String)
  | invalidEdgeType (value : String)
  | invalidEdgeWeight (edgeId : String)
  | invalidEmbedding (memoryId : String)
deriving DecidableEq, Repr

structure MemoryCitation where
  memoryId : String
  sourceType : String
  sourcePath : Option String := none
  conversationId : Option String := none
  workflowRunId : Option String := none
  stepId : Option String := none
deriving DecidableEq, Repr

structure MemoryMatchedSpan where
  spanId : String
  text : String
deriving DecidableEq, Repr

/-- The provenance handle is the source of the memory, read from the same row. -/
structure HybridRecallMemory where
  memory : MemoryNode
  citation : MemoryCitation
  snippet : Option String := none
  snippetSpanId : Option String := none
  unresolvedContradiction : Bool := false
deriving DecidableEq, Repr

inductive VectorQueryOutcome : Type where
  | ranked (candidates : List MemoryNode)
  | unavailableMissingQueryEmbedding
  | unavailableNoEmbeddings
deriving DecidableEq, Repr

inductive HybridRecallResultMode : Type where
  | hybrid
  | fullTextOnly
deriving DecidableEq, Repr

structure HybridRecallResult where
  mode : HybridRecallResultMode
  memories : List HybridRecallMemory
  edges : List MemoryEdge
deriving DecidableEq, Repr

structure HybridRecallRequest where
  requestingOrchestratorId : String
  queryText : String
  /-- The bits of an `f32` each. -/
  queryEmbedding : Option (List UInt32) := none
deriving DecidableEq, Repr

structure MemoryRecallOptions where
  topN : ℕ := 20
  rrfK : ℕ := 60
  topKText : ℕ := 50
  topKVector : ℕ := 50
  nowUnixSeconds : Int64
deriving DecidableEq, Repr

/-- What the queries on a repository give, and the sort by score. -/
structure RecallQueries where
  queryFullText : String → ℕ → Except MemoryRecallError (List (MemoryNode × MemoryMatchedSpan))
  queryVector : Option (List UInt32) → ℕ → Except MemoryRecallError VectorQueryOutcome
  loadUnresolvedContradictionIds : List String → Except MemoryRecallError (List String)
  sortByScore : ℕ → Int64 → List HybridRecallMemory → List HybridRecallMemory
  loadEdges : List String → Except MemoryRecallError (List MemoryEdge)
  sortByScore_perm : ∀ rrfK now entries, (sortByScore rrfK now entries).Perm entries

/-- Where a call runs: the repository, the file system, and which events of the memory log
can be written. -/
structure RecallEnv where
  orchestratorId : String
  queries : RecallQueries
  fs : FileSystem
  logFile : String
  logs : String → Bool

def RecallEnv.appendMemoryLog (env : RecallEnv) (event : String) : Except MemoryRecallError Unit :=
  if env.logs event then .ok () else .error (.logWrite env.logFile)

/-! ## Merging the hits -/

def sourceTypeDbLabel : MemorySourceType → String
  | .workflowOutput => "workflow_output"
  | .channelTranscript => "channel_transcript"
  | .ingestFile => "ingest_file"
  | .diagnostics => "diagnostics"
  | .manual => "manual"

def citationFor (memory : MemoryNode) : MemoryCitation where
  memoryId := memory.memoryId
  sourceType := sourceTypeDbLabel memory.source.sourceType
  sourcePath := memory.source.sourcePath
  conversationId := memory.source.conversationId
  workflowRunId := memory.source.workflowRunId
  stepId := memory.source.stepId

def textEntry (hit : MemoryNode × MemoryMatchedSpan) : HybridRecallMemory where
  memory := hit.1
  citation := citationFor hit.1
  snippet := some hit.2.text
  snippetSpanId := some hit.2.spanId

def vectorEntry (memory : MemoryNode) : HybridRecallMemory where
  memory := memory
  citation := citationFor memory

/-- `aggregates.entry(key).or_insert_with`: the first entry of a memory stays. -/
def orInsert (kept : List HybridRecallMemory) (entry : HybridRecallMemory) :
    List HybridRecallMemory :=
  if kept.any (·.memory.memoryId == entry.memory.memoryId) then kept else kept ++ [entry]

def aggregate (entries : List HybridRecallMemory) : List HybridRecallMemory :=
  entries.foldl orInsert []

def fuseRankings (env : RecallEnv) (options : MemoryRecallOptions)
    (textHits : List (MemoryNode × MemoryMatchedSpan)) (vectorHits : List MemoryNode)
    (contradictionIds : List String) : List HybridRecallMemory :=
  let aggregates := aggregate (textHits.map textEntry ++ vectorHits.map vectorEntry)
  env.queries.sortByScore options.rrfK options.nowUnixSeconds (aggregates.map fun entry =>
    if entry.memory.memoryId ∈ contradictionIds then { entry with unresolvedContradiction := true }
    else entry)

/-! ## The check of the source paths -/

/-- The text of a path as a path to walk. -/
def pathOf (path : String) : FilePath where
  absolute := isAbsolute path
  components := (components path).map fun name =>
    if name = ['.', '.'] then .parentDir else .normal (String.ofList name)

/-- `enforce_workspace_access(context, slice::from_ref(path)).is_err()`. -/
def sourcePathDenied (fs : FileSystem) (context : WorkspaceAccessContext) (path : String) : Bool :=
  match enforceWorkspaceAccess fs context [pathOf path] with
  | .ok () => false
  | .error _ => true

def firstDenied (fs : FileSystem) (context : WorkspaceAccessContext)
    (top : List HybridRecallMemory) : Option String :=
  (top.filterMap (·.memory.source.sourcePath)).find? (sourcePathDenied fs context)

def enforceSourcePaths (env : RecallEnv) (workspaceContext : Option WorkspaceAccessContext)
    (top : List HybridRecallMemory) : Except MemoryRecallError Unit :=
  match workspaceContext.bind fun context => firstDenied env.fs context top with
  | none => .ok ()
  | some path => do
      env.appendMemoryLog "memory.recall.source_path_denied"
      throw (.sourcePathAccessDenied path)

def rankedHits (env : RecallEnv) (request : HybridRecallRequest) (options : MemoryRecallOptions) :
    Except MemoryRecallError (HybridRecallResultMode × List HybridRecallMemory) := do
  let textHits ← env.queries.queryFullText request.queryText options.topKText
  let vectorOut ← env.queries.queryVector request.queryEmbedding options.topKVector
  let (mode, vectorHits) : HybridRecallResultMode × List MemoryNode := match vectorOut with
    | .ranked items => (.hybrid, items)
    | .unavailableMissingQueryEmbedding | .unavailableNoEmbeddings => (.fullTextOnly, [])
  let candidateIds :=
    (textHits.map (·.1.memoryId) ++ vectorHits.map (·.memoryId)).dedup.insertionSort (· ≤ ·)
  let contradictionIds ← env.queries.loadUnresolvedContradictionIds candidateIds
  return (mode, fuseRankings env options textHits vectorHits contradictionIds)

def hybridRecall (env : RecallEnv) (request : HybridRecallRequest) (options : MemoryRecallOptions)
    (workspaceContext : Option WorkspaceAccessContext) :
    Except MemoryRecallError HybridRecallResult := do
  if request.requestingOrchestratorId ≠ env.orchestratorId then
    env.appendMemoryLog "memory.recall.scope_denied"
    throw (.crossOrchestratorDenied request.requestingOrchestratorId env.orchestratorId)
  else
    let (mode, merged) ← rankedHits env request options
    let top := merged.take options.topN
    enforceSourcePaths env workspaceContext top
    let edges ← env.queries.loadEdges (top.map (·.memory.memoryId))
    return { mode, memories := top, edges }

/-! ## What a recall shows -/

/-- The context lets the source path be read, if there is one. -/
def PathAdmitted (fs : FileSystem) (context : WorkspaceAccessContext) (path : Option String) :
    Prop :=
  ∀ source, path = some source → enforceWorkspaceAccess fs context [pathOf source] = .ok ()

theorem sourcePathDenied_eq_false {fs : FileSystem} {context : WorkspaceAccessContext}
    {path : String} :
    sourcePathDenied fs context path = false ↔
      enforceWorkspaceAccess fs context [pathOf path] = .ok () := by
  rw [sourcePathDenied]
  cases enforceWorkspaceAccess fs context [pathOf path] <;> simp

theorem pathAdmitted_of_firstDenied {fs : FileSystem} {context : WorkspaceAccessContext}
    {top : List HybridRecallMemory} (h : firstDenied fs context top = none) :
    ∀ entry ∈ top, PathAdmitted fs context entry.memory.source.sourcePath := by
  intro entry hmem source hsource
  have hnone := List.find?_eq_none.mp h source
    (List.mem_filterMap.mpr ⟨entry, hmem, hsource⟩)
  exact sourcePathDenied_eq_false.mp (Bool.eq_false_iff.mpr hnone)

theorem mem_aggregate {entries : List HybridRecallMemory} :
    ∀ entry ∈ aggregate entries, entry ∈ entries := by
  have hfold : ∀ rest kept : List HybridRecallMemory, ∀ entry ∈ rest.foldl orInsert kept,
      entry ∈ kept ∨ entry ∈ rest := by
    intro rest
    induction rest with
    | nil => exact fun kept entry hmem => .inl hmem
    | cons first rest ih =>
      intro kept entry hmem
      rcases ih _ entry hmem with hmem | hmem
      · rw [orInsert] at hmem
        split at hmem
        · exact .inl hmem
        · rcases List.mem_append.mp hmem with hmem | hmem
          · exact .inl hmem
          · exact .inr (List.mem_cons.mpr (.inl (List.mem_singleton.mp hmem)))
      · exact .inr (List.mem_cons_of_mem _ hmem)
  intro entry hmem
  exact (hfold entries [] entry hmem).resolve_left (List.not_mem_nil)

theorem rankedHits_citation {env : RecallEnv} {request : HybridRecallRequest}
    {options : MemoryRecallOptions} {mode : HybridRecallResultMode}
    {merged : List HybridRecallMemory} (h : rankedHits env request options = .ok (mode, merged)) :
    ∀ entry ∈ merged, entry.citation = citationFor entry.memory := by
  obtain ⟨textHits, -, h⟩ := bind_eq_ok h
  obtain ⟨vectorOut, -, h⟩ := bind_eq_ok h
  obtain ⟨contradictionIds, -, h⟩ := bind_eq_ok h
  obtain ⟨-, rfl⟩ := Prod.mk.inj (Except.ok.inj h)
  intro entry hmem
  have hmem := (env.queries.sortByScore_perm _ _ _).mem_iff.mp hmem
  obtain ⟨kept, hkept, rfl⟩ := List.mem_map.mp hmem
  have hcitation : kept.citation = citationFor kept.memory := by
    rcases List.mem_append.mp (mem_aggregate kept hkept) with hentry | hentry
    · obtain ⟨hit, -, rfl⟩ := List.mem_map.mp hentry
      rfl
    · obtain ⟨memory, -, rfl⟩ := List.mem_map.mp hentry
      rfl
  split
  · exact hcitation
  · exact hcitation

/-- What a successful recall gives under a context may be read under it. -/
theorem hybridRecall_admitted {env : RecallEnv} {request : HybridRecallRequest}
    {options : MemoryRecallOptions} {workspaceContext : Option WorkspaceAccessContext}
    {result : HybridRecallResult}
    (h : hybridRecall env request options workspaceContext = .ok result) :
    ∀ entry ∈ result.memories, entry.citation = citationFor entry.memory ∧
      ∀ context, workspaceContext = some context →
        PathAdmitted env.fs context entry.memory.source.sourcePath := by
  unfold hybridRecall at h
  split at h
  · obtain ⟨-, -, h⟩ := bind_eq_ok h
    cases h
  · obtain ⟨⟨mode, merged⟩, hranked, h⟩ := bind_eq_ok h
    obtain ⟨_, henforce, h⟩ := bind_eq_ok h
    obtain ⟨edges, -, h⟩ := bind_eq_ok h
    cases h
    intro entry hmem
    refine ⟨rankedHits_citation hranked entry (List.mem_of_mem_take hmem), ?_⟩
    rintro context rfl
    refine pathAdmitted_of_firstDenied ?_ entry hmem
    cases hdenied : firstDenied env.fs context (merged.take options.topN) with
    | none => rfl
    | some path =>
      simp only [enforceSourcePaths, Option.bind_some, hdenied] at henforce
      obtain ⟨_, _, henforce⟩ := bind_eq_ok henforce
      cases henforce

end Direclaw.Memory
