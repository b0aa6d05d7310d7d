import Direclaw.Lib.Run
import Direclaw.Memory.Recall

/-!
# The bulletin of a message

`memory/bulletin.rs`: the memories recalled for a message as sections of lines with their
citations, cut to size and stored as a snapshot. When the recall fails the snapshot that
was made last answers instead, whatever it was made for.
-/

namespace Direclaw.Memory

open Direclaw.Lib Direclaw.Orchestration

inductive BulletinSectionName : Type where
  | knowledgeSummary
  | activeGoals
  | openTodos
  | recentDecisions
  | preferenceProfile
  | conflictsAndUncertainties
deriving DecidableEq, Repr

namespace BulletinSectionName

def key : BulletinSectionName → String
  | knowledgeSummary => "knowledge_summary"
  | activeGoals => "active_goals"
  | openTodos => "open_todos"
  | recentDecisions => "recent_decisions"
  | preferenceProfile => "preference_profile"
  | conflictsAndUncertainties => "conflicts_and_uncertainties"

def all : List BulletinSectionName :=
  [knowledgeSummary, activeGoals, openTodos, recentDecisions, preferenceProfile,
    conflictsAndUncertainties]

end BulletinSectionName

/-- A line, and the memory whose text and id are in it; only the text is stored. -/
structure BulletinLine where
  text : String
  about : MemoryNode
deriving DecidableEq, Repr

structure BulletinSection where
  name : BulletinSectionName
  lines : List BulletinLine := []
deriving DecidableEq, Repr

structure MemoryBulletin where
  rendered : String
  citations : List MemoryCitation := []
  sections : List BulletinSection := []
  generatedAt : Int64
deriving DecidableEq, Repr

structure MemoryBulletinOptions where
  maxChars : ℕ := 4000
  generatedAt : Int64 := 0
deriving DecidableEq, Repr

/-! ## Sections -/

def renderSection (s : BulletinSection) : String :=
  s.name.key ++ ":\n" ++
    if s.lines.isEmpty then "-\n" else String.join (s.lines.map fun line => line.text ++ "\n")

def renderSections (sections : List BulletinSection) : String :=
  String.join (sections.map renderSection)

def emptySections : List BulletinSection := BulletinSectionName.all.map fun name => { name }

/-- `find_section_mut(…).lines.push(line)`. -/
def pushLine (sections : List BulletinSection) (name : BulletinSectionName) (line : BulletinLine) :
    List BulletinSection :=
  sections.map fun s => if s.name = name then { s with lines := s.lines ++ [line] } else s

def sectionOf : MemoryNodeType → BulletinSectionName
  | .goal => .activeGoals
  | .todo => .openTodos
  | .decision => .recentDecisions
  | .preference => .preferenceProfile
  | _ => .knowledgeSummary

/-- `confidence < 0.5` on the bits of an `f32`. -/
def belowHalf (bits : UInt32) : Bool :=
  bits < 0x3F000000 || (0x80000000 ≤ bits && bits ≤ 0xFF800000)

def entryLine (entry : HybridRecallMemory) : BulletinLine where
  text := s!"- {entry.snippet.getD entry.memory.summary} [{entry.memory.memoryId}]"
  about := entry.memory

def pushEntry (sections : List BulletinSection) (entry : HybridRecallMemory) :
    List BulletinSection :=
  let sections := pushLine sections (sectionOf entry.memory.nodeType) (entryLine entry)
  if entry.unresolvedContradiction || belowHalf entry.memory.confidence then
    pushLine sections .conflictsAndUncertainties (entryLine entry)
  else sections

/-! ## Cutting to size -/

def trimOrder : List BulletinSectionName :=
  [.knowledgeSummary, .preferenceProfile, .conflictsAndUncertainties, .recentDecisions, .openTodos,
    .activeGoals]

def sectionDropOrder : List BulletinSectionName :=
  [.conflictsAndUncertainties, .preferenceProfile, .knowledgeSummary, .recentDecisions, .openTodos,
    .activeGoals]

def fits (maxChars : ℕ) (sections : List BulletinSection) : Bool :=
  (renderSections sections).utf8ByteSize ≤ maxChars

def popLine (sections : List BulletinSection) (name : BulletinSectionName) :
    Option (List BulletinSection) :=
  if sections.any fun s => s.name = name && !s.lines.isEmpty then
    some (sections.map fun s =>
      if s.name = name then { s with lines := s.lines.dropLast } else s)
  else none

/-- The loop takes a line each time, and ends when there are none. -/
def trimLines (maxChars : ℕ) : ℕ → List BulletinSection → List BulletinSection
  | 0, sections => sections
  | lines + 1, sections =>
    if fits maxChars sections then sections
    else
      match trimOrder.findSome? (popLine sections) with
      | some trimmed => trimLines maxChars lines trimmed
      | none => sections

def dropSection (maxChars : ℕ) (sections : List BulletinSection) (name : BulletinSectionName) :
    List BulletinSection :=
  if fits maxChars sections then sections else sections.eraseP (·.name = name)

def linesOf (sections : List BulletinSection) : List BulletinLine := sections.flatMap (·.lines)

def truncateSections (maxChars : ℕ) (sections : List BulletinSection) : List BulletinSection :=
  sectionDropOrder.foldl (dropSection maxChars)
    (trimLines maxChars (linesOf sections).length sections)

/-! ## Citations -/

/-- `line.rfind(c)`, in characters. -/
def rfind (c : Char) (line : List Char) : Option ℕ :=
  if c ∈ line then some (line.length - 1 - line.reverse.idxOf c) else none

def bracketed (line : String) : Option String :=
  match rfind '[' line.toList, rfind ']' line.toList with
  | some first, some last =>
    if first + 1 < last then
      some (String.ofList ((line.toList.take last).drop (first + 1)))
    else none
  | _, _ => none

def citationsForSections (sections : List BulletinSection) (citations : List MemoryCitation) :
    List MemoryCitation :=
  let ids := (linesOf sections).filterMap fun line => bracketed line.text
  citations.filter fun citation => citation.memoryId ∈ ids

def buildMemoryBulletin (recalled : HybridRecallResult) (options : MemoryBulletinOptions) :
    MemoryBulletin :=
  let sections :=
    truncateSections options.maxChars (recalled.memories.foldl pushEntry emptySections)
  { rendered := renderSections sections
    citations := citationsForSections sections (recalled.memories.map (·.citation))
    sections
    generatedAt := options.generatedAt }

/-! ## Snapshots -/

inductive SnapshotContent : Type where
  | bulletin (bulletin : MemoryBulletin)
  /-- A text that is no bulletin. -/
  | other
  | unreadable
deriving DecidableEq, Repr

structure SnapshotFile where
  modified : Int
  content : SnapshotContent
deriving DecidableEq, Repr

/-- The files by their places. -/
abbrev MemoryFiles := List (Location × SnapshotFile)

/-- A call of `generate_bulletin_for_message`, and what the file system does for it. -/
structure BulletinCall where
  env : RecallEnv
  messageId : String
  request : HybridRecallRequest
  recallOptions : MemoryRecallOptions
  bulletinOptions : MemoryBulletinOptions := {}
  workspaceContext : Option WorkspaceAccessContext
  lists : Bool := true
  /-- The files in the order of `fs::read_dir`, which may be any. -/
  listing : MemoryFiles → MemoryFiles := id
  listing_perm : ∀ files, (listing files).Perm files := by exact fun _ => .refl _
  persists : Bool := true
  now : Int := 0

namespace BulletinCall

/-- `paths.bulletins.join(format!("{message_id}.json"))`, by its components. -/
def target (call : BulletinCall) (bulletins : Location) : Location :=
  (if isAbsolute call.messageId then [] else bulletins) ++
    (components (call.messageId ++ ".json")).map String.ofList

/-- Where the target lies once `..` is gone. -/
def place (call : BulletinCall) (bulletins : Location) : Location :=
  (call.target bulletins).foldl (fun loc name =>
    if name = ".." then loc.dropLast else loc ++ [name]) []

def recallFor (call : BulletinCall) : Except MemoryRecallError HybridRecallResult :=
  hybridRecall call.env call.request call.recallOptions call.workspaceContext

end BulletinCall

def isSnapshotName (name : String) : Bool :=
  Text.extension name.toList == some "json".toList

/-- The candidates of `load_latest_bulletin`: the snapshots in the directory itself, but
not the target. -/
def snapshotCandidates (bulletins target : Location) (files : MemoryFiles) : MemoryFiles :=
  files.filter fun (loc, _) =>
    loc.getLast?.any isSnapshotName && decide (loc.dropLast = bulletins) && decide (loc ≠ target)

def parsedSnapshots (candidates : MemoryFiles) : List (MemoryBulletin × Int) :=
  candidates.filterMap fun (_, file) => match file.content with
    | .bulletin bulletin => some (bulletin, file.modified)
    | _ => none

/-- The order of the snapshots: when they were generated, then when they were written. -/
def notNewer (a b : MemoryBulletin × Int) : Prop :=
  a.1.generatedAt < b.1.generatedAt ∨ a.1.generatedAt = b.1.generatedAt ∧ a.2 ≤ b.2

instance : DecidableRel notNewer := fun a b =>
  inferInstanceAs (Decidable
    (a.1.generatedAt < b.1.generatedAt ∨ a.1.generatedAt = b.1.generatedAt ∧ a.2 ≤ b.2))

/-- Of the snapshots that are as new as any, the last one of the listing. -/
def loadLatestBulletin (call : BulletinCall) (bulletins : Location) (files : MemoryFiles) :
    Except MemoryRecallError (Option MemoryBulletin) :=
  if !call.lists then .error (.logWrite (FilePath.display (.ofLocation bulletins)))
  else
    let candidates := snapshotCandidates bulletins (call.target bulletins) (call.listing files)
    match candidates.find? (·.2.content = .unreadable) with
    | some (path, _) => .error (.logWrite (FilePath.display (.ofLocation path)))
    | none => .ok (((parsedSnapshots candidates).insertionSort notNewer).getLast?.map Prod.fst)

def writeFile (files : MemoryFiles) (loc : Location) (file : SnapshotFile) : MemoryFiles :=
  if files.any (·.1 = loc) then files.map fun entry => if entry.1 = loc then (loc, file) else entry
  else files ++ [(loc, file)]

def persistBulletin (call : BulletinCall) (bulletins : Location) (files : MemoryFiles)
    (bulletin : MemoryBulletin) : Except MemoryRecallError MemoryBulletin × MemoryFiles :=
  if call.persists then
    (.ok bulletin,
      writeFile files (call.place bulletins) ⟨call.now, .bulletin bulletin⟩)
  else (.error (.logWrite (FilePath.display (.ofLocation (call.target bulletins)))), files)

def emptyBulletin (generatedAt : Int64) : MemoryBulletin where
  rendered := ""
  sections := emptySections
  generatedAt := generatedAt

def generateBulletinForMessage (bulletins : Location) (files : MemoryFiles) (call : BulletinCall) :
    Except MemoryRecallError MemoryBulletin × MemoryFiles :=
  match call.recallFor with
  | .ok recalled =>
    persistBulletin call bulletins files (buildMemoryBulletin recalled call.bulletinOptions)
  | .error _ =>
    match call.env.appendMemoryLog "memory.bulletin.generation_failed" with
    | .error err => (.error err, files)
    | .ok () =>
      match loadLatestBulletin call bulletins files with
      | .error err => (.error err, files)
      | .ok previous =>
        match call.env.appendMemoryLog "memory.bulletin.fallback" with
        | .error err => (.error err, files)
        | .ok () =>
          persistBulletin call bulletins files
            (previous.getD (emptyBulletin call.bulletinOptions.generatedAt))

/-! ## What stands in a bulletin -/

variable {sections : List BulletinSection}

theorem mem_linesOf {line : BulletinLine} :
    line ∈ linesOf sections ↔ ∃ s ∈ sections, line ∈ s.lines := by
  simp [linesOf]

theorem mem_pushLine {name : BulletinSectionName} {line new : BulletinLine}
    (h : line ∈ linesOf (pushLine sections name new)) : line ∈ linesOf sections ∨ line = new := by
  obtain ⟨s, hs, hline⟩ := mem_linesOf.mp h
  obtain ⟨before, hbefore, rfl⟩ := List.mem_map.mp hs
  split at hline
  · rcases List.mem_append.mp hline with hline | hline
    · exact .inl (mem_linesOf.mpr ⟨before, hbefore, hline⟩)
    · exact .inr (List.mem_singleton.mp hline)
  · exact .inl (mem_linesOf.mpr ⟨before, hbefore, hline⟩)

theorem mem_pushEntries {memories : List HybridRecallMemory} {line : BulletinLine} :
    ∀ {sections : List BulletinSection}, line ∈ linesOf (memories.foldl pushEntry sections) →
      line ∈ linesOf sections ∨ ∃ entry ∈ memories, line = entryLine entry := by
  induction memories with
  | nil => exact fun h => .inl h
  | cons entry memories ih =>
    intro sections h
    rcases ih h with h | ⟨other, hmem, hline⟩
    · have hentry : line ∈ linesOf sections ∨ line = entryLine entry := by
        rw [pushEntry] at h
        split at h
        · rcases mem_pushLine h with h | h
          · exact mem_pushLine h
          · exact .inr h
        · exact mem_pushLine h
      exact hentry.imp_right fun hline => ⟨entry, List.mem_cons_self, hline⟩
    · exact .inr ⟨other, List.mem_cons_of_mem _ hmem, hline⟩

theorem mem_popLine {sections trimmed : List BulletinSection} {name : BulletinSectionName}
    {line : BulletinLine} (hpop : popLine sections name = some trimmed)
    (h : line ∈ linesOf trimmed) : line ∈ linesOf sections := by
  rw [popLine] at hpop
  split at hpop
  · cases hpop
    obtain ⟨s, hs, hline⟩ := mem_linesOf.mp h
    obtain ⟨before, hbefore, rfl⟩ := List.mem_map.mp hs
    refine mem_linesOf.mpr ⟨before, hbefore, ?_⟩
    split at hline
    · exact List.dropLast_subset _ hline
    · exact hline
  · cases hpop

theorem mem_trimLines {maxChars : ℕ} {line : BulletinLine} : ∀ {fuel : ℕ}
    {sections : List BulletinSection}, line ∈ linesOf (trimLines maxChars fuel sections) →
      line ∈ linesOf sections
  | 0, _, h => h
  | fuel + 1, sections, h => by
      rw [trimLines] at h
      split at h
      · exact h
      cases hpop : trimOrder.findSome? (popLine sections) with
      | none =>
        rw [hpop] at h
        exact h
      | some trimmed =>
        rw [hpop] at h
        obtain ⟨name, -, hname⟩ := List.exists_of_findSome?_eq_some hpop
        exact mem_popLine hname (mem_trimLines h)

theorem mem_dropSections {maxChars : ℕ} {line : BulletinLine} : ∀ {names : List BulletinSectionName}
    {sections : List BulletinSection},
    line ∈ linesOf (names.foldl (dropSection maxChars) sections) → line ∈ linesOf sections
  | [], _, h => h
  | name :: names, sections, h => by
      have h := @mem_dropSections maxChars line names _ h
      rw [dropSection] at h
      split at h
      · exact h
      · obtain ⟨s, hs, hline⟩ := mem_linesOf.mp h
        exact mem_linesOf.mpr ⟨s, List.mem_of_mem_eraseP hs, hline⟩

theorem mem_truncateSections {maxChars : ℕ} {line : BulletinLine}
    (h : line ∈ linesOf (truncateSections maxChars sections)) : line ∈ linesOf sections := by
  rw [truncateSections] at h
  exact mem_trimLines (mem_dropSections h)

theorem linesOf_emptySections : linesOf emptySections = [] := rfl

theorem mem_buildMemoryBulletin {recalled : HybridRecallResult} {options : MemoryBulletinOptions}
    {line : BulletinLine} (h : line ∈ linesOf (buildMemoryBulletin recalled options).sections) :
    ∃ entry ∈ recalled.memories, line = entryLine entry := by
  simp only [buildMemoryBulletin] at h
  rcases mem_pushEntries (mem_truncateSections h) with hempty | hentry
  · rw [linesOf_emptySections] at hempty
    cases hempty
  · exact hentry

end Direclaw.Memory
