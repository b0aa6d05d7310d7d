import Direclaw.Memory.BulletinBudget

/-!
# Whom a bulletin cites

`citations_for_sections` reads the memories that are left back out of the text of their
lines: what stands between the last `[` and the last `]`. An id comes back as it went in
exactly if it has no `[`, so a bulletin cites the memories it shows unless one of them has.
-/

namespace Direclaw.Memory

open Direclaw.Lib Direclaw.Orchestration

/-! ## Reading an id back -/

section Brackets

variable {c : Char} {front rest line : List Char}

theorem rfind_append (h : c ∉ rest) : rfind c (front ++ c :: rest) = some front.length := by
  have hmem : c ∈ front ++ c :: rest := List.mem_append_right _ List.mem_cons_self
  have hrev : (front ++ c :: rest).reverse = rest.reverse ++ c :: front.reverse := by
    rw [List.reverse_append, List.reverse_cons, List.append_assoc, List.singleton_append]
  have hlast : (front ++ c :: rest).reverse.idxOf c = rest.length := by
    rw [hrev, List.idxOf_append, if_neg (by simpa using h), List.idxOf_cons_self, Nat.zero_add,
      List.length_reverse]
  rw [rfind, if_pos hmem, hlast, List.length_append, List.length_cons]
  congr 1
  omega

/-- Nothing stands between the place that is found and the end. -/
theorem rfind_eq_some {n : ℕ} (h : rfind c line = some n) :
    ∃ front rest, line = front ++ c :: rest ∧ front.length = n ∧ c ∉ rest := by
  have hmem : c ∈ line := by
    by_contra hnot
    rw [rfind, if_neg hnot] at h
    cases h
  obtain ⟨behind, before, hrev, hnot⟩ := List.eq_append_cons_of_mem (List.mem_reverse.mpr hmem)
  have hline : line = before.reverse ++ c :: behind.reverse := by
    rw [← List.reverse_reverse line, hrev, List.reverse_append, List.reverse_cons,
      List.append_assoc, List.singleton_append]
  have hnot : c ∉ behind.reverse := by rwa [List.mem_reverse]
  rw [hline, rfind_append hnot] at h
  exact ⟨_, _, hline, Option.some.inj h, hnot⟩

theorem open_not_mem_of_bracketed {text id : String} (h : bracketed text = some id) :
    '[' ∉ id.toList := by
  rw [bracketed] at h
  split at h
  · next first last hfirst _ =>
      split at h
      · obtain ⟨front, rest, hline, hlength, hrest⟩ := rfind_eq_some hfirst
        obtain rfl := Option.some.inj h
        intro hmem
        rw [String.toList_ofList, List.drop_take] at hmem
        apply hrest
        have hbehind : text.toList.drop (first + 1) = rest := by
          rw [hline, ← hlength, ← List.drop_drop, List.drop_left]
          rfl
        rw [← hbehind]
        exact List.mem_of_mem_take hmem
      · cases h
  · cases h

theorem bracketed_eq {text id : String} {front : List Char}
    (htext : text.toList = front ++ '[' :: (id.toList ++ [']'])) (hopen : '[' ∉ id.toList)
    (hid : id.toList ≠ []) : bracketed text = some id := by
  have hfirst : rfind '[' text.toList = some front.length := by
    rw [htext]
    apply rfind_append
    rw [List.mem_append, List.mem_singleton]
    exact not_or.mpr ⟨hopen, by decide⟩
  have hlast : rfind ']' text.toList = some (front ++ '[' :: id.toList).length := by
    have hend : text.toList = (front ++ '[' :: id.toList) ++ ']' :: [] := by
      rw [htext, List.append_assoc, List.cons_append]
    rw [hend]
    exact rfind_append List.not_mem_nil
  have hpos := List.length_pos_of_ne_nil hid
  have hless : front.length + 1 < (front ++ '[' :: id.toList).length := by
    rw [List.length_append, List.length_cons]
    omega
  have htake : text.toList.take (front ++ '[' :: id.toList).length = front ++ '[' :: id.toList := by
    rw [htext, ← List.cons_append, ← List.append_assoc, List.take_left]
  have hdrop : (front ++ '[' :: id.toList).drop (front.length + 1) = id.toList := by
    rw [← List.drop_drop, List.drop_left]
    rfl
  simp only [bracketed, hfirst, hlast]
  rw [if_pos hless, htake, hdrop, String.ofList_toList]

end Brackets

/-! ## Lines of memories -/

section Lines

variable {entry : HybridRecallMemory} {sections : List BulletinSection}

theorem entryLine_toList (entry : HybridRecallMemory) :
    ∃ front, (entryLine entry).text.toList =
      front ++ '[' :: (entry.memory.memoryId.toList ++ [']']) := by
  let front := "- " ++ entry.snippet.getD entry.memory.summary
  refine ⟨front.toList ++ [' '], ?_⟩
  have htext : (entryLine entry).text = front ++ " [" ++ entry.memory.memoryId ++ "]" := rfl
  have hopen : " [".toList = [' ', '['] := by decide
  have hclose : "]".toList = [']'] := by decide
  rw [htext, String.toList_append, String.toList_append, String.toList_append, hopen, hclose]
  simp only [List.append_assoc, List.cons_append, List.nil_append]

/-- The id comes back as it went in if it has no opening bracket. -/
theorem bracketed_entryLine (hid : entry.memory.memoryId ≠ "")
    (hopen : '[' ∉ entry.memory.memoryId.toList) :
    bracketed (entryLine entry).text = some entry.memory.memoryId := by
  obtain ⟨front, htext⟩ := entryLine_toList entry
  exact bracketed_eq htext hopen (fun hnil => hid (String.toList_inj.mp hnil))

theorem truncateSections_of_fits {maxChars : ℕ} (hfits : fits maxChars sections = true) :
    truncateSections maxChars sections = sections := by
  have hlines : ∀ fuel, trimLines maxChars fuel sections = sections := by
    intro fuel
    cases fuel with
    | zero => rfl
    | succ fuel => rw [trimLines, if_pos hfits]
  have hdrop : ∀ names : List BulletinSectionName,
      names.foldl (dropSection maxChars) sections = sections := by
    intro names
    induction names with
    | nil => rfl
    | cons name names ih => rw [List.foldl_cons, dropSection, if_pos hfits, ih]
  rw [truncateSections, hlines, hdrop]

theorem mem_pushLine_of_mem {line new : BulletinLine} {name : BulletinSectionName}
    (h : line ∈ linesOf sections) : line ∈ linesOf (pushLine sections name new) := by
  obtain ⟨s, hs, hline⟩ := mem_linesOf.mp h
  refine mem_linesOf.mpr ⟨_, List.mem_map_of_mem hs, ?_⟩
  split
  · exact List.mem_append_left _ hline
  · exact hline

theorem mem_pushLine_self {line : BulletinLine} {name : BulletinSectionName}
    (hname : name ∈ sections.map (·.name)) : line ∈ linesOf (pushLine sections name line) := by
  obtain ⟨s, hs, hsame⟩ := List.mem_map.mp hname
  refine mem_linesOf.mpr ⟨_, List.mem_map_of_mem hs, ?_⟩
  rw [if_pos hsame]
  exact List.mem_append_right _ List.mem_cons_self

theorem mem_map_name_pushEntries (memories : List HybridRecallMemory)
    (name : BulletinSectionName) :
    name ∈ (memories.foldl pushEntry emptySections).map (·.name) := by
  rw [map_name_pushEntries]
  cases name <;> decide

theorem mem_pushEntry_of_mem {line : BulletinLine} (h : line ∈ linesOf sections) :
    line ∈ linesOf (pushEntry sections entry) := by
  rw [pushEntry]
  split
  · exact mem_pushLine_of_mem (mem_pushLine_of_mem h)
  · exact mem_pushLine_of_mem h

theorem mem_pushEntry_self (hname : ∀ name, name ∈ sections.map (·.name)) :
    entryLine entry ∈ linesOf (pushEntry sections entry) := by
  have hline : entryLine entry ∈
      linesOf (pushLine sections (sectionOf entry.memory.nodeType) (entryLine entry)) :=
    mem_pushLine_self (hname _)
  rw [pushEntry]
  split
  · exact mem_pushLine_of_mem hline
  · exact hline

theorem mem_fullSections {recalled : HybridRecallResult} (h : entry ∈ recalled.memories) :
    entryLine entry ∈ linesOf (fullSections recalled) := by
  obtain ⟨before, behind, hmemories⟩ := List.append_of_mem h
  rw [fullSections, hmemories, List.foldl_append, List.foldl_cons]
  have hkept : ∀ (rest : List HybridRecallMemory) (sections : List BulletinSection),
      entryLine entry ∈ linesOf sections →
        entryLine entry ∈ linesOf (rest.foldl pushEntry sections) := by
    intro rest
    induction rest with
    | nil => exact fun sections hline => hline
    | cons next rest ih => exact fun sections hline => ih _ (mem_pushEntry_of_mem hline)
  exact hkept behind _ (mem_pushEntry_self (mem_map_name_pushEntries before))

end Lines

/-! ## What a recall gives -/

/-- Every memory comes once, with the citation that is about it. -/
structure Recalled (recalled : HybridRecallResult) : Prop where
  distinct : (recalled.memories.map (·.memory.memoryId)).Nodup
  cites : ∀ entry ∈ recalled.memories, entry.citation = citationFor entry.memory

theorem nodup_aggregate (entries : List HybridRecallMemory) :
    ((aggregate entries).map (·.memory.memoryId)).Nodup := by
  have hfold : ∀ rest kept : List HybridRecallMemory, (kept.map (·.memory.memoryId)).Nodup →
      ((rest.foldl orInsert kept).map (·.memory.memoryId)).Nodup := by
    intro rest
    induction rest with
    | nil => exact fun kept h => h
    | cons next rest ih =>
      intro kept h
      apply ih
      rw [orInsert]
      split
      · exact h
      · next hnew =>
          rw [List.map_append, List.nodup_append]
          refine ⟨h, List.nodup_singleton _, ?_⟩
          intro id hid other hother heq
          obtain ⟨old, hold, rfl⟩ := List.mem_map.mp hid
          rw [List.map_singleton, List.mem_singleton] at hother
          apply hnew
          exact List.any_eq_true.mpr ⟨old, hold, beq_iff_eq.mpr (heq.trans hother)⟩
  exact hfold entries [] List.nodup_nil

theorem nodup_rankedHits {env : RecallEnv} {request : HybridRecallRequest}
    {options : MemoryRecallOptions} {mode : HybridRecallResultMode}
    {merged : List HybridRecallMemory} (h : rankedHits env request options = .ok (mode, merged)) :
    (merged.map (·.memory.memoryId)).Nodup := by
  obtain ⟨textHits, -, h⟩ := bind_eq_ok h
  obtain ⟨vectorOut, -, h⟩ := bind_eq_ok h
  obtain ⟨contradictionIds, -, h⟩ := bind_eq_ok h
  obtain ⟨-, rfl⟩ := Prod.mk.inj (Except.ok.inj h)
  rw [fuseRankings, ((env.queries.sortByScore_perm _ _ _).map _).nodup_iff, List.map_map]
  refine Eq.mp (congrArg List.Nodup (List.map_congr_left fun entry _ => ?_)) (nodup_aggregate _)
  show entry.memory.memoryId = (if entry.memory.memoryId ∈ contradictionIds then
    { entry with unresolvedContradiction := true } else entry).memory.memoryId
  split
  · rfl
  · rfl

theorem recalled_of_hybridRecall {env : RecallEnv} {request : HybridRecallRequest}
    {options : MemoryRecallOptions} {workspaceContext : Option WorkspaceAccessContext}
    {result : HybridRecallResult}
    (h : hybridRecall env request options workspaceContext = .ok result) : Recalled result := by
  refine ⟨?_, fun entry hmem => (hybridRecall_admitted h entry hmem).1⟩
  unfold hybridRecall at h
  split at h
  · obtain ⟨-, -, h⟩ := bind_eq_ok h
    cases h
  · obtain ⟨⟨mode, merged⟩, hranked, h⟩ := bind_eq_ok h
    obtain ⟨_, -, h⟩ := bind_eq_ok h
    obtain ⟨edges, -, h⟩ := bind_eq_ok h
    cases h
    show ((merged.take options.topN).map (·.memory.memoryId)).Nodup
    exact (nodup_rankedHits hranked).sublist ((List.take_sublist _ _).map _)

/-! ## Citations and lines -/

/-- The memories that still have a line. -/
def shownMemories (bulletin : MemoryBulletin) : List MemoryNode :=
  (linesOf bulletin.sections).map (·.about)

/-- **The citations are those of the memories that are shown**, in the order of the recall. -/
def CitationsExact (recalled : HybridRecallResult) (options : MemoryBulletinOptions) : Prop :=
  (buildMemoryBulletin recalled options).citations =
    (recalled.memories.filter fun entry =>
      entry.memory ∈ shownMemories (buildMemoryBulletin recalled options)).map (·.citation)

def HasBracket (memory : MemoryNode) : Prop := '[' ∈ memory.memoryId.toList

instance (memory : MemoryNode) : Decidable (HasBracket memory) :=
  inferInstanceAs (Decidable ('[' ∈ memory.memoryId.toList))

theorem memoryId_ne_empty {canonicalize : Canonicalize} {memory : MemoryNode}
    (h : memory.validate canonicalize = .ok ()) : memory.memoryId ≠ "" := by
  obtain ⟨_, hfield, -⟩ := bind_eq_ok h
  intro hempty
  rw [requireField, hempty] at hfield
  cases hfield

theorem mem_shownMemories {bulletin : MemoryBulletin} {memory : MemoryNode} :
    memory ∈ shownMemories bulletin ↔
      ∃ line ∈ linesOf bulletin.sections, line.about = memory :=
  List.mem_map

/-- The ids that the lines of a bulletin give back. -/
def readIds (bulletin : MemoryBulletin) : List String :=
  (linesOf bulletin.sections).filterMap fun line => bracketed line.text

theorem mem_readIds {bulletin : MemoryBulletin} {id : String} :
    id ∈ readIds bulletin ↔
      ∃ line ∈ linesOf bulletin.sections, bracketed line.text = some id :=
  List.mem_filterMap

section Exact

variable {recalled : HybridRecallResult} {options : MemoryBulletinOptions}

theorem citations_eq (recalled : HybridRecallResult) (options : MemoryBulletinOptions) :
    (buildMemoryBulletin recalled options).citations =
      (recalled.memories.filter fun entry => entry.citation.memoryId ∈
        readIds (buildMemoryBulletin recalled options)).map (·.citation) := by
  simp only [buildMemoryBulletin, citationsForSections, readIds, List.filter_map,
    Function.comp_def]

theorem shown_of_readIds {bulletin : MemoryBulletin} (hrecalled : Recalled recalled)
    (hid : ∀ entry ∈ recalled.memories, entry.memory.memoryId ≠ "")
    (hlines : ∀ line ∈ linesOf bulletin.sections, ∃ entry ∈ recalled.memories,
      line = entryLine entry)
    (hclosed : ∀ memory ∈ shownMemories bulletin, ¬ HasBracket memory)
    {entry : HybridRecallMemory} (hentry : entry ∈ recalled.memories) :
    entry.memory.memoryId ∈ readIds bulletin ↔ entry.memory ∈ shownMemories bulletin := by
  rw [mem_readIds, mem_shownMemories]
  have hparsed : ∀ line ∈ linesOf bulletin.sections, ∃ other ∈ recalled.memories,
      line.about = other.memory ∧ bracketed line.text = some other.memory.memoryId := by
    intro line hline
    obtain ⟨other, hother, rfl⟩ := hlines line hline
    have hopen := hclosed other.memory (mem_shownMemories.mpr ⟨_, hline, rfl⟩)
    exact ⟨other, hother, rfl, bracketed_entryLine (hid other hother) hopen⟩
  constructor
  · rintro ⟨line, hline, hread⟩
    obtain ⟨other, hother, habout, hbracketed⟩ := hparsed line hline
    have hsame : other = entry := List.inj_on_of_nodup_map hrecalled.distinct hother hentry
      (Option.some.inj (hbracketed.symm.trans hread))
    exact ⟨line, hline, by rw [habout, hsame]⟩
  · rintro ⟨line, hline, hshown⟩
    obtain ⟨other, hother, habout, hbracketed⟩ := hparsed line hline
    exact ⟨line, hline, by rw [hbracketed, ← habout, hshown]⟩

theorem citationsExact_of_closed (hrecalled : Recalled recalled)
    (hid : ∀ entry ∈ recalled.memories, entry.memory.memoryId ≠ "")
    (hclosed : ∀ memory ∈ shownMemories (buildMemoryBulletin recalled options),
      ¬ HasBracket memory) : CitationsExact recalled options := by
  have hsame : ∀ entry ∈ recalled.memories,
      entry.citation.memoryId ∈ readIds (buildMemoryBulletin recalled options) ↔
        entry.memory ∈ shownMemories (buildMemoryBulletin recalled options) := by
    intro entry hentry
    have hid := shown_of_readIds hrecalled hid (fun _ => mem_buildMemoryBulletin) hclosed hentry
    rw [hrecalled.cites entry hentry]
    exact hid
  refine (citations_eq recalled options).trans (congrArg (List.map HybridRecallMemory.citation) ?_)
  exact List.filter_congr fun entry hentry => decide_eq_decide.mpr (hsame entry hentry)

/-- A memory with a bracket in its id is never cited, and so must not be shown. -/
theorem closed_of_citationsExact (hrecalled : Recalled recalled)
    (h : CitationsExact recalled options) :
    ∀ memory ∈ shownMemories (buildMemoryBulletin recalled options), ¬ HasBracket memory := by
  intro memory hshown hbracket
  obtain ⟨line, hline, rfl⟩ := mem_shownMemories.mp hshown
  obtain ⟨entry, hentry, rfl⟩ := mem_buildMemoryBulletin hline
  have hcited : entry.citation ∈ (buildMemoryBulletin recalled options).citations := by
    refine Eq.mpr (congrArg (entry.citation ∈ ·) h) ?_
    exact List.mem_map_of_mem (List.mem_filter.mpr ⟨hentry, decide_eq_true hshown⟩)
  rw [citations_eq] at hcited
  obtain ⟨other, hother, hcitation⟩ := List.mem_map.mp hcited
  have hread := of_decide_eq_true (List.mem_filter.mp hother).2
  rw [hcitation, hrecalled.cites entry hentry] at hread
  obtain ⟨line, -, hparsed⟩ := mem_readIds.mp hread
  exact open_not_mem_of_bracketed hparsed hbracket

theorem shown_of_room {entry : HybridRecallMemory} (hentry : entry ∈ recalled.memories)
    (hroom : (renderSections (fullSections recalled)).utf8ByteSize ≤ options.maxChars) :
    entry.memory ∈ shownMemories (buildMemoryBulletin recalled options) := by
  rw [mem_shownMemories, sections_eq, truncateSections_of_fits (fits_iff.mpr hroom)]
  exact ⟨entryLine entry, mem_fullSections hentry, rfl⟩

end Exact

/-- For every recall of valid memories: whatever the budget, a bulletin cites exactly the
memories it shows, if and only if no id has an opening bracket; within one budget it does if
and only if every memory whose id has one has lost its lines. -/
theorem citationsExact_iff {env : RecallEnv} {request : HybridRecallRequest}
    {recallOptions : MemoryRecallOptions} {workspaceContext : Option WorkspaceAccessContext}
    {recalled : HybridRecallResult} {canonicalize : Canonicalize}
    (hrecall : hybridRecall env request recallOptions workspaceContext = .ok recalled)
    (hvalid : ∀ entry ∈ recalled.memories, entry.memory.validate canonicalize = .ok ()) :
    ((∀ options, CitationsExact recalled options) ↔
      ∀ entry ∈ recalled.memories, ¬ HasBracket entry.memory) ∧
    ∀ options, CitationsExact recalled options ↔
      ∀ entry ∈ recalled.memories, HasBracket entry.memory →
        entry.memory ∉ shownMemories (buildMemoryBulletin recalled options) := by
  have hrecalled := recalled_of_hybridRecall hrecall
  have hid : ∀ entry ∈ recalled.memories, entry.memory.memoryId ≠ "" :=
    fun entry hentry => memoryId_ne_empty (hvalid entry hentry)
  constructor
  · constructor
    · intro hexact entry hentry
      let options : MemoryBulletinOptions :=
        { maxChars := (renderSections (fullSections recalled)).utf8ByteSize }
      apply closed_of_citationsExact hrecalled (hexact options)
      exact shown_of_room hentry (le_refl _)
    · intro hclosed options
      apply citationsExact_of_closed hrecalled hid
      intro memory hshown
      obtain ⟨line, hline, rfl⟩ := mem_shownMemories.mp hshown
      obtain ⟨entry, hentry, rfl⟩ := mem_buildMemoryBulletin hline
      exact hclosed entry hentry
  · intro options
    constructor
    · intro hexact entry _ hbracket hshown
      exact closed_of_citationsExact hrecalled hexact _ hshown hbracket
    · intro hgone
      apply citationsExact_of_closed hrecalled hid
      intro memory hshown hbracket
      obtain ⟨line, hline, rfl⟩ := mem_shownMemories.mp hshown
      obtain ⟨entry, hentry, rfl⟩ := mem_buildMemoryBulletin hline
      exact hgone entry hentry hbracket hshown

/-! ## Notes by their file names -/

/-- A todo with the id it has in a list of notes. -/
def noteMemory (memoryId : String) : MemoryNode where
  memoryId := memoryId
  orchestratorId := "eng"
  nodeType := .todo
  importance := 50
  content := "ship it"
  summary := "ship it"
  confidence := 0x3F800000
  source := { sourceType := .manual, capturedBy := .user }
  status := .active
  createdAt := 0
  updatedAt := 0

def noteEnv (memoryIds : List String) : RecallEnv where
  orchestratorId := "eng"
  queries :=
    { queryFullText := fun _ _ => .ok []
      queryVector := fun _ _ => .ok (.ranked (memoryIds.map noteMemory))
      loadUnresolvedContradictionIds := fun _ => .ok []
      sortByScore := fun _ _ entries => entries
      loadEdges := fun _ => .ok []
      sortByScore_perm := fun _ _ _ => .refl _ }
  fs := linkedWorkspace
  logFile := "/log"
  logs _ := true

def noteRecall (memoryIds : List String) : Except MemoryRecallError HybridRecallResult :=
  hybridRecall (noteEnv memoryIds) { requestingOrchestratorId := "eng", queryText := "ship" }
    { nowUnixSeconds := 0 } none

def recalledNotes (memoryIds : List String) : HybridRecallResult where
  mode := .hybrid
  memories := memoryIds.map fun memoryId => vectorEntry (noteMemory memoryId)
  edges := []

theorem noteMemory_valid :
    ∀ memoryId ∈ ["n1", "n2", "notes[1]", "1]"], (noteMemory memoryId).validate some = .ok () := by
  decide

/-- With room for everything the bracket spoils the citations; with room for the two notes
before it they are exact. -/
theorem citationsExact_bracketed_note :
    (¬ ∀ options, CitationsExact (recalledNotes ["n1", "n2", "notes[1]"]) options) ∧
      CitationsExact (recalledNotes ["n1", "n2", "notes[1]"]) { maxChars := 160 } := by
  have hrecall : noteRecall ["n1", "n2", "notes[1]"] =
      .ok (recalledNotes ["n1", "n2", "notes[1]"]) := rfl
  have hvalid : ∀ entry ∈ (recalledNotes ["n1", "n2", "notes[1]"]).memories,
      entry.memory.validate some = .ok () := by
    intro entry hentry
    obtain ⟨memoryId, hmem, rfl⟩ := List.mem_map.mp hentry
    exact noteMemory_valid memoryId (List.mem_append_left ["1]"] hmem)
  obtain ⟨hroom, hbudget⟩ := citationsExact_iff hrecall hvalid
  constructor
  · intro hexact
    have hentry : vectorEntry (noteMemory "notes[1]") ∈
        (recalledNotes ["n1", "n2", "notes[1]"]).memories :=
      List.mem_map_of_mem (by decide)
    exact hroom.mp hexact _ hentry (by decide)
  · apply (hbudget { maxChars := 160 }).mpr
    have hshown : shownMemories (buildMemoryBulletin (recalledNotes ["n1", "n2", "notes[1]"])
        { maxChars := 160 }) = [noteMemory "n1", noteMemory "n2"] := by decide +kernel
    intro entry _ hbracket hmem
    rw [hshown] at hmem
    rcases List.mem_pair.mp hmem with hsame | hsame
    · exact absurd (hsame ▸ hbracket) (by decide)
    · exact absurd (hsame ▸ hbracket) (by decide)

def twoNotes : HybridRecallResult := recalledNotes ["notes[1]", "1]"]

/-- Of the notes `notes[1]` and `1]` only the first one is left, and the second one cited. -/
theorem bracketed_note_cites_another :
    noteRecall ["notes[1]", "1]"] = .ok twoNotes ∧
      shownMemories (buildMemoryBulletin twoNotes { maxChars := 150 }) = [noteMemory "notes[1]"] ∧
      (buildMemoryBulletin twoNotes { maxChars := 150 }).citations =
        [citationFor (noteMemory "1]")] ∧
      ¬ CitationsExact twoNotes { maxChars := 150 } := by
  refine ⟨rfl, by decide +kernel, by decide +kernel, ?_⟩
  unfold CitationsExact
  decide +kernel

end Direclaw.Memory
