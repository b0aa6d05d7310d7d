import Direclaw.Memory.Bulletin

/-!
# Denied sources in bulletins

A bulletin that is made of a recall shows what the context of the recall admits. One that
is loaded instead shows what the context of an earlier call admitted; it shows nothing
denied exactly if the context of the present call admits it too.
-/

namespace Direclaw.Memory

open Direclaw.Lib Direclaw.Orchestration

/-- The text is that of the lines. -/
def MemoryBulletin.Composed (bulletin : MemoryBulletin) : Prop :=
  bulletin.rendered = renderSections bulletin.sections ∨ bulletin.rendered = ""

/-- The context of the call, if it has one, lets every memory in the bulletin be read. -/
def MemoryBulletin.Admitted (bulletin : MemoryBulletin) (call : BulletinCall) : Prop :=
  ∀ context, call.workspaceContext = some context →
    (∀ line ∈ linesOf bulletin.sections,
      PathAdmitted call.env.fs context line.about.source.sourcePath) ∧
    ∀ citation ∈ bulletin.citations, PathAdmitted call.env.fs context citation.sourcePath

/-- The files of a repository's memory, and what was returned for which call. -/
structure BulletinHistory where
  files : MemoryFiles := []
  returned : List (BulletinCall × MemoryBulletin) := []

def bulletinStep (bulletins : Location) (s : BulletinHistory) (call : BulletinCall) :
    BulletinHistory :=
  let (result, files) := generateBulletinForMessage bulletins s.files call
  { files
    returned := match result with
      | .ok bulletin => s.returned ++ [(call, bulletin)]
      | .error _ => s.returned }

/-- **No bulletin shows a denied source**, neither in a citation nor in its text. -/
def NoDeniedSource (s : BulletinHistory) : Prop :=
  ∀ call bulletin, (call, bulletin) ∈ s.returned →
    bulletin.Composed ∧ bulletin.Admitted call

/-- The recall fails and this snapshot is returned instead. -/
structure FallsBackTo (bulletins : Location) (files : MemoryFiles) (call : BulletinCall)
    (previous : MemoryBulletin) : Prop where
  fails : ∃ err, call.recallFor = .error err
  latest : loadLatestBulletin call bulletins files = .ok (some previous)
  logged : call.env.logs "memory.bulletin.generation_failed" = true ∧
    call.env.logs "memory.bulletin.fallback" = true
  persists : call.persists = true

/-- If an earlier snapshot answers the call, the call's context admits it. -/
def FallbackAdmitted (bulletins : Location) (s : BulletinHistory) (call : BulletinCall) : Prop :=
  ∀ previous, FallsBackTo bulletins s.files call previous → previous.Admitted call

section Calls

variable {bulletins : Location} {files : MemoryFiles} {call : BulletinCall}
  {bulletin : MemoryBulletin}

theorem emptyBulletin_admitted (generatedAt : Int64) (call : BulletinCall) :
    (emptyBulletin generatedAt).Admitted call := by
  intro context _
  constructor
  · intro line hline
    rw [emptyBulletin, linesOf_emptySections] at hline
    cases hline
  · intro citation hcitation
    cases hcitation

/-- What a new bulletin shows, its recall has found. -/
theorem buildMemoryBulletin_admitted {recalled : HybridRecallResult}
    (h : call.recallFor = .ok recalled) :
    (buildMemoryBulletin recalled call.bulletinOptions).Admitted call := by
  have hrecall := hybridRecall_admitted h
  intro context hcontext
  constructor
  · intro line hline
    obtain ⟨entry, hmem, rfl⟩ := mem_buildMemoryBulletin hline
    exact (hrecall entry hmem).2 context hcontext
  · intro citation hcitation
    simp only [buildMemoryBulletin, citationsForSections] at hcitation
    obtain ⟨entry, hmem, rfl⟩ := List.mem_map.mp (List.mem_of_mem_filter hcitation)
    obtain ⟨hcitation, hadmitted⟩ := hrecall entry hmem
    rw [hcitation]
    exact hadmitted context hcontext

theorem appendMemoryLog_eq_ok {env : RecallEnv} {event : String}
    (h : env.appendMemoryLog event = .ok ()) : env.logs event = true := by
  rw [RecallEnv.appendMemoryLog] at h
  split at h
  · assumption
  · cases h

variable {files' : MemoryFiles}

theorem persistBulletin_eq_ok {given : MemoryBulletin}
    (h : persistBulletin call bulletins files given = (.ok bulletin, files')) :
    bulletin = given ∧ call.persists = true ∧
      files' = writeFile files (call.place bulletins) ⟨call.now, .bulletin given⟩ := by
  rw [persistBulletin] at h
  split at h
  · next hpersists =>
      obtain ⟨hresult, hfiles⟩ := Prod.mk.inj h
      exact ⟨(Except.ok.inj hresult).symm, hpersists, hfiles.symm⟩
  · cases h

/-- What is returned: a new bulletin, an earlier snapshot, or nothing. -/
theorem generate_cases
    (h : generateBulletinForMessage bulletins files call = (.ok bulletin, files')) :
    files' = writeFile files (call.place bulletins) ⟨call.now, .bulletin bulletin⟩ ∧
      ((∃ recalled, call.recallFor = .ok recalled ∧
          bulletin = buildMemoryBulletin recalled call.bulletinOptions) ∨
        FallsBackTo bulletins files call bulletin ∨
        bulletin = emptyBulletin call.bulletinOptions.generatedAt) := by
  unfold generateBulletinForMessage at h
  cases hrecall : call.recallFor with
  | ok recalled =>
    simp only [hrecall] at h
    obtain ⟨rfl, -, hfiles⟩ := persistBulletin_eq_ok h
    exact ⟨hfiles, .inl ⟨recalled, rfl, rfl⟩⟩
  | error err =>
    simp only [hrecall] at h
    cases hfailed : call.env.appendMemoryLog "memory.bulletin.generation_failed" with
    | error err => simp [hfailed] at h
    | ok _ =>
      cases hlatest : loadLatestBulletin call bulletins files with
      | error err => simp [hfailed, hlatest] at h
      | ok previous =>
        cases hfallback : call.env.appendMemoryLog "memory.bulletin.fallback" with
        | error err => simp [hfailed, hlatest, hfallback] at h
        | ok _ =>
          simp only [hfailed, hlatest, hfallback] at h
          obtain ⟨rfl, hpersists, hfiles⟩ := persistBulletin_eq_ok h
          refine ⟨hfiles, .inr ?_⟩
          cases previous with
          | none => exact .inr rfl
          | some previous =>
            exact .inl ⟨⟨err, hrecall⟩, hlatest,
              ⟨appendMemoryLog_eq_ok hfailed, appendMemoryLog_eq_ok hfallback⟩, hpersists⟩

/-- Without a bulletin the files stay as they are. -/
theorem generate_error {err : MemoryRecallError}
    (h : generateBulletinForMessage bulletins files call = (.error err, files')) :
    files' = files := by
  have hpersist : ∀ given, persistBulletin call bulletins files given = (.error err, files') →
      files' = files := by
    intro given hgiven
    rw [persistBulletin] at hgiven
    split at hgiven
    · cases hgiven
    · exact (Prod.mk.inj hgiven).2.symm
  unfold generateBulletinForMessage at h
  repeat' split at h
  all_goals first
    | exact hpersist _ h
    | exact (Prod.mk.inj h).2.symm

theorem generate_of_fallsBackTo (h : FallsBackTo bulletins files call bulletin) :
    generateBulletinForMessage bulletins files call =
      (.ok bulletin, writeFile files (call.place bulletins) ⟨call.now, .bulletin bulletin⟩) := by
  obtain ⟨⟨err, herr⟩, hlatest, ⟨hfailed, hfallback⟩, hpersists⟩ := h
  simp [generateBulletinForMessage, herr, RecallEnv.appendMemoryLog, hfailed, hlatest, hfallback,
    persistBulletin, hpersists]

theorem loadLatestBulletin_mem {previous : MemoryBulletin}
    (h : loadLatestBulletin call bulletins files = .ok (some previous)) :
    ∃ entry ∈ files, entry.2.content = .bulletin previous := by
  rw [loadLatestBulletin] at h
  split at h
  · cases h
  simp only at h
  split at h
  · cases h
  obtain ⟨⟨found, modified⟩, hlast, rfl⟩ := Option.map_eq_some_iff.mp (Except.ok.inj h)
  have hparsed := (List.mem_insertionSort notNewer).mp (List.mem_of_getLast? hlast)
  obtain ⟨⟨path, file⟩, hentry, hcontent⟩ := List.mem_filterMap.mp hparsed
  have hlisted : (path, file) ∈ call.listing files := List.mem_of_mem_filter hentry
  refine ⟨_, (call.listing_perm files).mem_iff.mp hlisted, ?_⟩
  simp only at hcontent
  split at hcontent
  · next bulletin hbulletin =>
      cases hcontent
      exact hbulletin
  · cases hcontent

theorem mem_writeFile {loc : Location} {file : SnapshotFile} {entry : Location × SnapshotFile}
    (h : entry ∈ writeFile files loc file) : entry ∈ files ∨ entry.2 = file := by
  rw [writeFile] at h
  split at h
  · obtain ⟨before, hbefore, rfl⟩ := List.mem_map.mp h
    split
    · exact .inr rfl
    · exact .inl hbefore
  · rcases List.mem_append.mp h with h | h
    · exact .inl h
    · rw [List.mem_singleton.mp h]
      exact .inr rfl

end Calls

/-! ## Every history -/

/-- Every snapshot's text is that of its lines. -/
def SnapshotsComposed (files : MemoryFiles) : Prop :=
  ∀ entry ∈ files, ∀ bulletin, entry.2.content = .bulletin bulletin → bulletin.Composed

section Steps

variable {bulletins : Location} {s : BulletinHistory} {call : BulletinCall}

theorem bulletinStep_returned (bulletins : Location) (s : BulletinHistory) (call : BulletinCall) :
    (bulletinStep bulletins s call).returned = s.returned ++
      (generateBulletinForMessage bulletins s.files call).1.toOption.toList.map (call, ·) := by
  simp only [bulletinStep]
  cases (generateBulletinForMessage bulletins s.files call).1 <;> simp [Except.toOption]

/-- A call returns nothing and leaves the files, or returns what it has stored. -/
theorem bulletinStep_cases (bulletins : Location) (s : BulletinHistory) (call : BulletinCall) :
    (bulletinStep bulletins s call = s ∧
      ∀ bulletin, (generateBulletinForMessage bulletins s.files call).1 ≠ .ok bulletin) ∨
    ∃ bulletin files', generateBulletinForMessage bulletins s.files call = (.ok bulletin, files') ∧
      bulletinStep bulletins s call =
        { files := files', returned := s.returned ++ [(call, bulletin)] } := by
  cases hresult : generateBulletinForMessage bulletins s.files call with
  | mk result files' =>
    cases result with
    | error err =>
      refine .inl ⟨?_, by simp⟩
      simp only [bulletinStep, hresult]
      rw [generate_error hresult]
    | ok bulletin =>
      refine .inr ⟨bulletin, files', rfl, ?_⟩
      simp only [bulletinStep, hresult]

theorem composed_of_generate (hfiles : SnapshotsComposed s.files) {bulletin : MemoryBulletin}
    {files' : MemoryFiles}
    (h : generateBulletinForMessage bulletins s.files call = (.ok bulletin, files')) :
    bulletin.Composed := by
  rcases (generate_cases h).2 with ⟨recalled, -, rfl⟩ | hfallback | rfl
  · exact .inl (by simp only [buildMemoryBulletin])
  · obtain ⟨entry, hentry, hcontent⟩ := loadLatestBulletin_mem hfallback.latest
    exact hfiles entry hentry bulletin hcontent
  · exact .inr rfl

/-- Whatever is stored and returned is the text of its lines. -/
def HistoryComposed (s : BulletinHistory) : Prop :=
  SnapshotsComposed s.files ∧ ∀ entry ∈ s.returned, entry.2.Composed

theorem HistoryComposed.step (h : HistoryComposed s) (call : BulletinCall) :
    HistoryComposed (bulletinStep bulletins s call) := by
  rcases bulletinStep_cases bulletins s call with ⟨hsame, -⟩ | ⟨bulletin, files', hresult, hstep⟩
  · rwa [hsame]
  · have hcomposed := composed_of_generate h.1 hresult
    rw [hstep]
    constructor
    · intro entry hentry stored hstored
      obtain ⟨rfl, -⟩ := generate_cases hresult
      rcases mem_writeFile hentry with hentry | hentry
      · exact h.1 entry hentry stored hstored
      · rw [hentry] at hstored
        cases hstored
        exact hcomposed
    · intro entry hentry
      rcases List.mem_append.mp hentry with hentry | hentry
      · exact h.2 entry hentry
      · rw [List.mem_singleton.mp hentry]
        exact hcomposed

/-- Some call has returned what its context denies. -/
def ShowsDenied (s : BulletinHistory) : Prop := ∃ entry ∈ s.returned, ¬ entry.2.Admitted entry.1

theorem ShowsDenied.step (h : ShowsDenied s) (call : BulletinCall) :
    ShowsDenied (bulletinStep bulletins s call) := by
  obtain ⟨entry, hentry, hdenied⟩ := h
  rcases bulletinStep_cases bulletins s call with ⟨hsame, -⟩ | ⟨bulletin, files', -, hstep⟩
  · rw [hsame]
    exact ⟨entry, hentry, hdenied⟩
  · rw [hstep]
    exact ⟨entry, List.mem_append_left _ hentry, hdenied⟩

theorem showsDenied_step_iff (hclean : ¬ ShowsDenied s) (call : BulletinCall) :
    ¬ ShowsDenied (bulletinStep bulletins s call) ↔ FallbackAdmitted bulletins s call := by
  rcases bulletinStep_cases bulletins s call with ⟨hsame, hnone⟩ | ⟨bulletin, files', hresult, hstep⟩
  · rw [hsame]
    refine iff_of_true hclean fun previous hfallback => ?_
    rw [generate_of_fallsBackTo hfallback] at hnone
    exact absurd rfl (hnone previous)
  · rw [hstep]
    constructor
    · intro hnot previous hfallback
      obtain ⟨hprevious, -⟩ := Prod.mk.inj ((generate_of_fallsBackTo hfallback).symm.trans hresult)
      cases hprevious
      by_contra hdenied
      exact hnot ⟨_, List.mem_append_right _ List.mem_cons_self, hdenied⟩
    · rintro hfallback ⟨entry, hentry, hdenied⟩
      rcases List.mem_append.mp hentry with hentry | hentry
      · exact hclean ⟨entry, hentry, hdenied⟩
      · rw [List.mem_singleton.mp hentry] at hdenied
        rcases (generate_cases hresult).2 with ⟨recalled, hrecall, rfl⟩ | hprevious | rfl
        · exact hdenied (buildMemoryBulletin_admitted hrecall)
        · exact hdenied (hfallback bulletin hprevious)
        · exact hdenied (emptyBulletin_admitted _ call)

end Steps

/-- Over every history of calls, under whatever contexts and over whatever repositories: no
bulletin shows a denied source, if and only if, whenever an earlier snapshot answers a call,
the context of that call admits it. -/
theorem no_denied_source_iff (bulletins : Location) (calls : List BulletinCall) :
    NoDeniedSource (run (bulletinStep bulletins) {} calls) ↔
      Meets (bulletinStep bulletins) (FallbackAdmitted bulletins) {} calls := by
  have hcomposed : HistoryComposed (run (bulletinStep bulletins) {} calls) :=
    @run_invariant' _ _ (bulletinStep bulletins) HistoryComposed (fun _ call h => h.step call) _
      calls ⟨nofun, nofun⟩
  rw [← run_sound_iff (fun _ => True) ShowsDenied (fun _ _ _ => trivial)
    (fun _ call _ hbad => hbad.step call) (fun _ call _ hclean => showsDenied_step_iff hclean call)
    trivial (by rintro ⟨entry, hentry, -⟩; cases hentry)]
  constructor
  · rintro h ⟨⟨call, bulletin⟩, hentry, hdenied⟩
    exact hdenied (h call bulletin hentry).2
  · intro h call bulletin hentry
    refine ⟨hcomposed.2 _ hentry, ?_⟩
    by_contra hdenied
    exact h ⟨_, hentry, hdenied⟩

/-! ## A narrower context -/

def etcMemory : MemoryNode where
  memoryId := "m1"
  orchestratorId := "eng"
  nodeType := .fact
  importance := 50
  content := "secret"
  summary := "secret"
  confidence := 0x3F800000
  source := { sourceType := .ingestFile, sourcePath := some "/etc", capturedBy := .extractor }
  status := .active
  createdAt := 0
  updatedAt := 0

def etcQueries : RecallQueries where
  queryFullText _ _ := .ok []
  queryVector _ _ := .ok (.ranked [etcMemory])
  loadUnresolvedContradictionIds _ := .ok []
  sortByScore _ _ entries := entries
  loadEdges _ := .ok []
  sortByScore_perm _ _ _ := .refl _

def etcCall (messageId : String) (root : Location) : BulletinCall where
  env :=
    { orchestratorId := "eng", queries := etcQueries, fs := linkedWorkspace, logFile := "/log"
      logs := fun _ => true }
  messageId := messageId
  request := { requestingOrchestratorId := "eng", queryText := "secret" }
  recallOptions := { nowUnixSeconds := 0 }
  workspaceContext :=
    some { orchestratorId := "eng", privateWorkspaceRoot := root, sharedWorkspaces := [] }

/-- The second call's own recall is denied, and the first one's bulletin is returned. -/
theorem earlier_bulletin_shown :
    ¬ NoDeniedSource (run (bulletinStep ["bulletins"]) {}
      [etcCall "a" ["etc"], etcCall "b" ["ws"]]) := by
  intro h
  have hshown : ((generateBulletinForMessage ["bulletins"]
      (bulletinStep ["bulletins"] {} (etcCall "a" ["etc"])).files
        (etcCall "b" ["ws"])).1.toOption.map (·.citations)) = some [citationFor etcMemory] := by
    decide +kernel
  obtain ⟨bulletin, hbulletin, hcitations⟩ := Option.map_eq_some_iff.mp hshown
  have hmem : (etcCall "b" ["ws"], bulletin) ∈ (run (bulletinStep ["bulletins"]) {}
      [etcCall "a" ["etc"], etcCall "b" ["ws"]]).returned := by
    rw [run_cons, run_cons, run_nil, bulletinStep_returned, hbulletin]
    exact List.mem_append_right _ List.mem_cons_self
  have hadmitted := ((h _ _ hmem).2 _ rfl).2 (citationFor etcMemory)
    (hcitations ▸ List.mem_cons_self) "/etc" rfl
  exact absurd hadmitted (by rw [← sourcePathDenied_eq_false]; decide)

end Direclaw.Memory
