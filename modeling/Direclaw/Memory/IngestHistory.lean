import Direclaw.Memory.Extractor
import Direclaw.Memory.IngestConservation

/-!
# What the directories decide

`process_one_file` moves a file to `ingest_processed` before it is extracted, and the
extractor goes by the name the file has there. Under a name that is free it is the file's
own; otherwise it ends in a number, and no such file is extracted.
-/

namespace Direclaw.Memory

open Direclaw.Lib

/-! ## One call -/

namespace Ingester

variable (g : Ingester) (env : IngestEnv)

/-- The operations up to the end of a file. -/
def finish : ℕ → IngestState → IngestState
  | 0, s => s
  | fuel + 1, s =>
    match s.control with
    | .idle | .files _ => s
    | _ => finish fuel (g.advance env s)

/-- `process_one_file` on a file that was read: at most six operations follow. -/
def processOneFile (s : IngestState) (file : IngestFile) : IngestState :=
  g.finish env 6 { s with control := g.examine file [] }

/-- Whether the file was accepted, and the memories afterwards. -/
def outcome (s : IngestState) (file : IngestFile) : Bool × Database :=
  let after := g.processOneFile env s file
  (g.sourceExists after.db (g.idempotencyKey file), after.db)

/-- Size and extension of the file itself let it through. -/
def Examined (file : IngestFile) : Prop :=
  file.bytes.length ≤ g.maxBytes ∧ ["txt", "md", "json"].contains file.extension = true

/-- Under its own name the file can be extracted and its memories stored. -/
def Acceptable (db : Database) (file : IngestFile) : Prop :=
  g.Examined file ∧ ∃ extracted,
    g.extract g.orchestratorId (g.ingestProcessed ++ "/" ++ file.name) file.bytes = .ok extracted ∧
      ((g.request env file file.name extracted).exec db).2 = .ok .inserted

end Ingester

/-- The operations that are left, at most. -/
def IngestControl.remaining : IngestControl → ℕ
  | .idle | .files _ => 0
  | .report .. | .rejection .. => 1
  | .reject .. => 2
  | .commit .. => 3
  | .extract .. => 4
  | .move .. => 5
  | .query .. => 6

/-- Whatever comes now, the database stays. -/
def IngestControl.Quiet (control : IngestControl) : Prop := control.remaining ≤ 2

section Calls

variable {g : Ingester} {env : IngestEnv} {s : IngestState}

theorem finish_of_remaining {fuel : ℕ} (h : 0 < s.control.remaining) :
    g.finish env (fuel + 1) s = g.finish env fuel (g.advance env s) := by
  rw [Ingester.finish]
  split
  · next hcontrol =>
      rw [hcontrol] at h
      exact absurd h (lt_irrefl 0)
  · next hcontrol =>
      rw [hcontrol] at h
      exact absurd h (lt_irrefl 0)
  · rfl

theorem finish_of_done {fuel : ℕ} (h : s.control.remaining = 0) : g.finish env fuel s = s := by
  cases fuel with
  | zero => rfl
  | succ fuel =>
    rw [Ingester.finish]
    split
    · rfl
    · rfl
    · next hidle hfiles =>
        exfalso
        cases hcontrol : s.control with
        | idle => exact hidle hcontrol
        | files pending => exact hfiles pending hcontrol
        | _ =>
          rw [hcontrol] at h
          cases h

/-- Every operation leaves fewer. -/
theorem advance_remaining (g : Ingester) (env : IngestEnv) (h : 0 < s.control.remaining) :
    (g.advance env s).control.remaining < s.control.remaining := by
  rw [Ingester.advance]
  cases hcontrol : s.control with
  | idle =>
    rw [hcontrol] at h
    cases h
  | files pending =>
    rw [hcontrol] at h
    cases h
  | query file pending => exact Nat.lt_succ_self 5
  | move file duplicate pending =>
    dsimp only
    split
    · cases duplicate with
      | true => exact (by decide : 1 < 5)
      | false => exact Nat.lt_succ_self 4
    · exact Nat.succ_pos 4
  | extract file name pending =>
    dsimp only
    split
    · exact (by decide : 2 < 4)
    · exact Nat.lt_succ_self 3
  | commit file name extracted pending =>
    dsimp only
    split
    · exact (by decide : 1 < 3)
    · exact (by decide : 1 < 3)
    · exact Nat.lt_succ_self 2
  | report name manifest pending => exact Nat.succ_pos 0
  | reject file processed code message pending =>
    cases processed with
    | none =>
      dsimp only
      split
      · exact Nat.lt_succ_self 1
      · exact Nat.succ_pos 1
    | some name =>
      dsimp only
      split
      · exact Nat.lt_succ_self 1
      · exact Nat.succ_pos 1
  | rejection file name code message pending => exact Nat.succ_pos 0

theorem advance_quiet (h : 0 < s.control.remaining) (hquiet : s.control.Quiet) :
    (g.advance env s).db = s.db := by
  rw [IngestControl.Quiet] at hquiet
  rw [Ingester.advance]
  cases hcontrol : s.control with
  | report name manifest pending => rfl
  | rejection file name code message pending => rfl
  | reject file processed code message pending =>
    cases processed with
    | none =>
      dsimp only
      split
      · rfl
      · rfl
    | some name =>
      dsimp only
      split
      · rfl
      · rfl
  | idle => rfl
  | files pending =>
    cases pending with
    | nil => rfl
    | cons name pending =>
      rw [hcontrol] at h
      exact absurd h (lt_irrefl 0)
  | query file pending => rfl
  | move file duplicate pending =>
    rw [hcontrol] at hquiet
    exact absurd hquiet (by decide : ¬ 5 ≤ 2)
  | extract file name pending =>
    rw [hcontrol] at hquiet
    exact absurd hquiet (by decide : ¬ 4 ≤ 2)
  | commit file name extracted pending =>
    rw [hcontrol] at hquiet
    exact absurd hquiet (by decide : ¬ 3 ≤ 2)

theorem finish_quiet : ∀ (fuel : ℕ) {s : IngestState}, s.control.Quiet →
    (g.finish env fuel s).db = s.db
  | 0, _, _ => rfl
  | fuel + 1, s, hquiet => by
      rcases Nat.eq_zero_or_pos s.control.remaining with hdone | hleft
      · rw [finish_of_done hdone]
      · rw [finish_of_remaining hleft, finish_quiet fuel, advance_quiet hleft hquiet]
        exact (advance_remaining g env hleft).le.trans hquiet

/-! ## What a call does to the database -/

theorem processOneFile_refused {file : IngestFile} (h : ¬ g.Examined file) :
    (g.processOneFile env s file).db = s.db := by
  apply finish_quiet
  show (g.examine file []).remaining ≤ 2
  rw [Ingester.examine]
  split
  · exact le_refl 2
  · next hsize =>
      split
      · next hextension => exact absurd ⟨not_lt.mp hsize, hextension⟩ h
      · exact le_refl 2

/-- A file that was not ingested before is moved to the name that is free for it. -/
theorem advance_move {file : IngestFile} {pending : List String} (hfile : file ∈ s.ingest)
    (hcontrol : s.control = .move file false pending) :
    g.advance env s =
      { s with
        ingest := s.ingest.filter (· != file)
        processed := s.processed.write (s.processed.freeName file.name) (.file file)
        control := .extract file (s.processed.freeName file.name) pending } := by
  rw [Ingester.advance, hcontrol]
  exact if_pos hfile

theorem advance_extract {file : IngestFile} {name : String} {pending : List String}
    (hcontrol : s.control = .extract file name pending) :
    g.advance env s =
      match g.extract g.orchestratorId (g.ingestProcessed ++ "/" ++ name) file.bytes with
      | .error err =>
        { s with control := .reject file (some name) (rejectionCode err) err.display pending }
      | .ok extracted => { s with control := .commit file name extracted pending } := by
  have hself : s = { s with control := .extract file name pending } := by rw [← hcontrol]
  exact (congrArg (g.advance env) hself).trans rfl

/-- What is extracted is stored, and a report or a rejection is left. -/
theorem finish_commit {file : IngestFile} {name : String} {extracted : ExtractedMemory}
    {pending : List String} (fuel : ℕ)
    (hcontrol : s.control = .commit file name extracted pending) :
    (g.finish env (fuel + 1) s).db = ((g.request env file name extracted).exec s.db).1 := by
  have hleft : 0 < s.control.remaining := by
    rw [hcontrol]
    exact Nat.succ_pos 2
  rw [finish_of_remaining hleft]
  have hless := advance_remaining g env hleft
  rw [hcontrol] at hless
  rw [finish_quiet fuel (Nat.le_of_lt_succ hless), Ingester.advance, hcontrol]

theorem processOneFile_examined {file : IngestFile} (hfile : file ∈ s.ingest)
    (hexamined : g.Examined file)
    (hnew : g.sourceExists s.db (g.idempotencyKey file) = false) :
    (g.processOneFile env s file).db =
      match g.extract g.orchestratorId
          (g.ingestProcessed ++ "/" ++ s.processed.freeName file.name) file.bytes with
      | .error _ => s.db
      | .ok extracted =>
        ((g.request env file (s.processed.freeName file.name) extracted).exec s.db).1 := by
  have hexamine : g.examine file [] = .query file [] := by
    rw [Ingester.examine, if_neg (not_lt.mpr hexamined.1), if_pos hexamined.2]
  let name := s.processed.freeName file.name
  let moved : IngestState :=
    { s with
      ingest := s.ingest.filter (· != file)
      processed := s.processed.write name (.file file)
      control := .extract file name [] }
  have hcall : g.processOneFile env s file = g.finish env 3 (g.advance env moved) := by
    have hmove := @advance_move g env { s with control := .move file false [] } file [] hfile rfl
    rw [Ingester.processOneFile, hexamine]
    show g.finish env 5 { s with
      control := .move file (g.sourceExists s.db (g.idempotencyKey file)) [] } = _
    rw [hnew, finish_of_remaining, hmove, finish_of_remaining]
    · exact Nat.succ_pos 3
    · exact Nat.succ_pos 4
  rw [hcall, @advance_extract g env moved file name [] rfl]
  cases hextract : g.extract g.orchestratorId (g.ingestProcessed ++ "/" ++ name) file.bytes with
  | error err => exact finish_quiet 3 (le_refl 2)
  | ok extracted => exact finish_commit 2 rfl

end Calls

/-! ## Names that are taken -/

/-- Something stands under the name. -/
def IngestDir.Taken (dir : IngestDir) (name : String) : Prop := name ∈ dir.map Prod.fst

section Names

variable {dir : IngestDir} {fileName : String}

theorem freeName_of_free (h : ¬ dir.Taken fileName) : dir.freeName fileName = fileName := by
  have hall : (dir.all fun entry => entry.1 != fileName) = true := by
    rw [List.all_eq_true]
    intro entry hentry
    rw [bne_iff_ne]
    rintro rfl
    exact h (List.mem_map_of_mem hentry)
  rw [IngestDir.freeName, List.range_succ_eq_map, List.map_cons, List.find?_cons_of_pos]
  · rfl
  · exact hall

/-- In place of a taken name comes one with a number at its end. -/
theorem freeName_of_taken (h : dir.Taken fileName) :
    ∃ suffix, dir.freeName fileName = IngestDir.candidate fileName (suffix + 1) := by
  have hfree := IngestDir.freeName_free dir fileName
  obtain ⟨entry, hentry, hname⟩ := List.mem_map.mp h
  rw [IngestDir.freeName] at hfree ⊢
  cases hfind : ((List.range (dir.length + 1)).map (IngestDir.candidate fileName)).find? fun name =>
      dir.all fun entry => entry.1 != name with
  | none =>
    rw [hfind] at hfree
    exact absurd hname (hfree entry hentry)
  | some found =>
    rw [hfind] at hfree
    obtain ⟨n, -, hn⟩ := List.mem_map.mp (List.mem_of_find?_eq_some hfind)
    cases n with
    | zero =>
      have hsame : found = fileName := hn.symm
      exact absurd (hname.trans hsame.symm) (hfree entry hentry)
    | succ suffix => exact ⟨suffix, hn.symm⟩

theorem pathFileName_append {front : String} {digits : List Char} (hslash : '/' ∉ digits) :
    pathFileName (front ++ String.ofList ('.' :: digits)) =
      pathFileName front ++ '.' :: digits := by
  have hpass : ∀ c ∈ digits.reverse ++ ['.'], (c != '/') = true := by
    intro c hc
    rw [bne_iff_ne]
    rintro rfl
    rcases List.mem_append.mp hc with hc | hc
    · exact hslash (List.mem_reverse.mp hc)
    · exact absurd (List.mem_singleton.mp hc) (by decide)
  rw [pathFileName, String.toList_append, String.toList_ofList, List.reverse_append,
    List.reverse_cons, List.takeWhile_append_of_pos hpass, List.reverse_append,
    List.reverse_append, List.reverse_reverse]
  rfl

/-- What stands after the last dot is a number, or there is no extension at all. -/
theorem pathExtension_candidate (front : String) (suffix : ℕ) :
    pathExtension (front ++ String.ofList ('.' :: Text.decimal (suffix + 1))) = "" ∨
      pathExtension (front ++ String.ofList ('.' :: Text.decimal (suffix + 1))) =
        String.ofList (Text.toAsciiLowercase (Text.decimal (suffix + 1))) := by
  have hdot := Text.not_mem_decimal (by decide : Char.isDigit '.' = false) (suffix + 1)
  have hslash := Text.not_mem_decimal (by decide : Char.isDigit '/' = false) (suffix + 1)
  rw [pathExtension, pathFileName_append hslash, Text.extension, Text.splitAtLastDot_append hdot]
  cases pathFileName front with
  | nil => exact .inl rfl
  | cons c rest =>
    right
    show String.ofList (((if (c :: rest) ++ '.' :: Text.decimal (suffix + 1) = ['.', '.']
      then none else some (Text.decimal (suffix + 1))).map Text.toAsciiLowercase).getD []) = _
    rw [if_neg]
    · rfl
    · intro heq
      have hlength := congrArg List.length heq
      have hpos := List.length_pos_of_ne_nil (Text.decimal_ne_nil (suffix + 1))
      simp only [List.length_append, List.length_cons, List.length_nil] at hlength
      omega

theorem toAsciiLowercase_decimal (n : ℕ) :
    Text.toAsciiLowercase (Text.decimal n) = Text.decimal n := by
  have hdigit : ∀ c ∈ Text.decimal n, Text.asciiLower c = c := by
    intro c hc
    have hc := Text.isDigit_of_mem_decimal hc
    rw [Char.isDigit, Bool.and_eq_true, decide_eq_true_eq, decide_eq_true_eq] at hc
    rw [Text.asciiLower, if_neg]
    rintro ⟨hupper, -⟩
    exact absurd (hupper.trans hc.2) (by decide)
  rw [Text.toAsciiLowercase, List.map_congr_left hdigit, List.map_id']

/-- No file is extracted under a name that `move_with_collision` has made up. -/
theorem extract_candidate (x : Extractor) (orchestratorId directory fileName : String)
    (bytes : List UInt8) (suffix : ℕ) :
    ∃ err, x.extractCandidatesFromIngestFile orchestratorId
      (directory ++ "/" ++ IngestDir.candidate fileName (suffix + 1)) bytes = .error err := by
  have hpath : directory ++ "/" ++ IngestDir.candidate fileName (suffix + 1) =
      (directory ++ "/" ++ fileName) ++ String.ofList ('.' :: Text.decimal (suffix + 1)) := by
    rw [IngestDir.candidate, String.append_assoc, String.append_assoc, String.append_assoc]
  have hletter : ∀ (c : Char) (rest : List Char), c.isDigit = false →
      pathExtension ((directory ++ "/" ++ fileName) ++
        String.ofList ('.' :: Text.decimal (suffix + 1))) ≠ String.ofList (c :: rest) := by
    intro c rest hc heq
    rcases pathExtension_candidate (directory ++ "/" ++ fileName) suffix with hnone | hdigits
    · rw [hnone] at heq
      have hlist : "".toList = c :: rest := (congrArg String.toList heq).trans String.toList_ofList
      rw [String.toList_empty] at hlist
      cases hlist
    · rw [hdigits, toAsciiLowercase_decimal] at heq
      have hlist := congrArg String.toList heq
      rw [String.toList_ofList, String.toList_ofList] at hlist
      apply Text.not_mem_decimal hc (suffix + 1)
      rw [hlist]
      exact List.mem_cons_self
  rw [hpath, Extractor.extractCandidatesFromIngestFile]
  split
  · exact ⟨_, rfl⟩
  · split
    · next htxt => exact absurd htxt (hletter 't' ['x', 't'] (by decide))
    · next hmd => exact absurd hmd (hletter 'm' ['d'] (by decide))
    · next hjson => exact absurd hjson (hletter 'j' ['s', 'o', 'n'] (by decide))
    · exact ⟨_, rfl⟩

end Names

/-! ## Two histories -/

section Histories

variable {g : Ingester} {x : Extractor} {env : IngestEnv} {s : IngestState} {file : IngestFile}

theorem sourceExists_iff {g : Ingester} {db : Database} {extracted : ExtractedMemory}
    {name : String} :
    g.sourceExists db (g.idempotencyKey file) = true ↔
      UpsertCall.Recorded (g.request env file name extracted).source db := by
  rw [Ingester.sourceExists, List.any_eq_true, UpsertCall.Recorded]
  simp only [Bool.and_eq_true, beq_iff_eq]
  rfl

theorem outcome_of_taken (hfile : file ∈ s.ingest)
    (hnew : (g.extracting x).sourceExists s.db ((g.extracting x).idempotencyKey file) = false)
    (htaken : s.processed.Taken file.name) :
    (g.extracting x).outcome env s file = (false, s.db) := by
  have hdb : ((g.extracting x).processOneFile env s file).db = s.db := by
    by_cases hexamined : (g.extracting x).Examined file
    · obtain ⟨suffix, hname⟩ := freeName_of_taken htaken
      obtain ⟨err, herr⟩ := extract_candidate x g.orchestratorId g.ingestProcessed file.name
        file.bytes suffix
      rw [processOneFile_examined hfile hexamined hnew, hname, Ingester.extracting_extract,
        Ingester.extracting_orchestratorId, Ingester.extracting_ingestProcessed, herr]
    · exact processOneFile_refused hexamined
  rw [Ingester.outcome, hdb, hnew]

theorem outcome_of_not_acceptable (hfile : file ∈ s.ingest)
    (hnew : (g.extracting x).sourceExists s.db ((g.extracting x).idempotencyKey file) = false)
    (hnot : ¬ (g.extracting x).Acceptable env s.db file) :
    (g.extracting x).outcome env s file = (false, s.db) := by
  by_cases htaken : s.processed.Taken file.name
  · exact outcome_of_taken hfile hnew htaken
  have hdb : ((g.extracting x).processOneFile env s file).db = s.db := by
    by_cases hexamined : (g.extracting x).Examined file
    · rw [processOneFile_examined hfile hexamined hnew, freeName_of_free htaken]
      split
      · rfl
      · next extracted hextracted =>
          rcases ((g.extracting x).request env file file.name extracted).exec_cases s.db with
            ⟨hsame, -⟩ | ⟨recorded, written, -, -, -, hexec⟩
          · exact hsame
          · exact absurd ⟨hexamined, extracted, hextracted, by rw [hexec]⟩ hnot
    · exact processOneFile_refused hexamined
  rw [Ingester.outcome, hdb, hnew]

theorem outcome_of_acceptable (hfile : file ∈ s.ingest)
    (hnew : (g.extracting x).sourceExists s.db ((g.extracting x).idempotencyKey file) = false)
    (hfree : ¬ s.processed.Taken file.name) (h : (g.extracting x).Acceptable env s.db file) :
    ∃ extracted, x.extractCandidatesFromIngestFile g.orchestratorId
        (g.ingestProcessed ++ "/" ++ file.name) file.bytes = .ok extracted ∧
      (g.extracting x).outcome env s file =
        (true, (((g.extracting x).request env file file.name extracted).exec s.db).1) := by
  obtain ⟨hexamined, extracted, hextracted, hinserted⟩ := h
  have hdb : ((g.extracting x).processOneFile env s file).db =
      (((g.extracting x).request env file file.name extracted).exec s.db).1 := by
    rw [processOneFile_examined hfile hexamined hnew, freeName_of_free hfree, hextracted]
  rw [Ingester.extracting_extract, Ingester.extracting_orchestratorId,
    Ingester.extracting_ingestProcessed] at hextracted
  refine ⟨extracted, hextracted, ?_⟩
  have hrecorded := sourceExists_iff.mpr (UpsertCall.recorded_of_ok hinserted)
  rw [Ingester.outcome, hdb]
  exact congrArg (·, _) hrecorded

/-- The state with these directories. -/
def IngestState.among (s : IngestState) (processed rejected : IngestDir) : IngestState :=
  { s with processed := processed, rejected := rejected }

theorem same_iff (hfile : file ∈ s.ingest)
    (hnew : (g.extracting x).sourceExists s.db ((g.extracting x).idempotencyKey file) = false)
    (processed rejected processed' rejected' : IngestDir) :
    (g.extracting x).outcome env (s.among processed rejected) file =
        (g.extracting x).outcome env (s.among processed' rejected') file ↔
      (processed.Taken file.name ↔ processed'.Taken file.name) ∨
        ¬ (g.extracting x).Acceptable env s.db file := by
  by_cases hacceptable : (g.extracting x).Acceptable env s.db file
  · rw [or_iff_left (not_not_intro hacceptable)]
    have htaken : ∀ P R, IngestDir.Taken P file.name →
        (g.extracting x).outcome env (s.among P R) file = (false, s.db) :=
      fun P R h => @outcome_of_taken g x env (s.among P R) file hfile hnew h
    have hfree : ∀ P R, ¬ IngestDir.Taken P file.name → ∃ extracted,
        x.extractCandidatesFromIngestFile g.orchestratorId
          (g.ingestProcessed ++ "/" ++ file.name) file.bytes = .ok extracted ∧
        (g.extracting x).outcome env (s.among P R) file =
          (true, (((g.extracting x).request env file file.name extracted).exec s.db).1) :=
      fun P R h => @outcome_of_acceptable g x env (s.among P R) file hfile hnew h hacceptable
    by_cases h : processed.Taken file.name
    · by_cases h' : processed'.Taken file.name
      · rw [htaken _ _ h, htaken _ _ h']
        exact iff_of_true rfl (iff_of_true h h')
      · obtain ⟨extracted, -, houtcome⟩ := hfree processed' rejected' h'
        rw [htaken _ _ h, houtcome]
        refine iff_of_false (fun heq => ?_) fun hiff => h' (hiff.mp h)
        exact absurd (congrArg Prod.fst heq) Bool.false_ne_true
    · obtain ⟨extracted, hextracted, houtcome⟩ := hfree processed rejected h
      by_cases h' : processed'.Taken file.name
      · rw [htaken _ _ h', houtcome]
        refine iff_of_false (fun heq => ?_) fun hiff => h (hiff.mpr h')
        exact absurd (congrArg Prod.fst heq).symm Bool.false_ne_true
      · -- one extraction, under one path
        obtain ⟨extracted', hextracted', houtcome'⟩ := hfree processed' rejected' h'
        obtain rfl := Except.ok.inj (hextracted.symm.trans hextracted')
        rw [houtcome, houtcome']
        exact iff_of_true rfl (iff_of_false h h')
  · have hrefused : ∀ P R, (g.extracting x).outcome env (s.among P R) file = (false, s.db) :=
      fun P R => @outcome_of_not_acceptable g x env (s.among P R) file hfile hnew hacceptable
    rw [hrefused, hrefused]
    exact iff_of_true rfl (.inr hacceptable)

/-- For every file that was not ingested before: two histories of the directories give one
outcome, if and only if the file's name is free in both or in neither, or the file is
refused under its own name; so that they all do means that it is. -/
theorem sameOutcome_iff (g : Ingester) (x : Extractor) (env : IngestEnv) (s : IngestState)
    (file : IngestFile) (hfile : file ∈ s.ingest)
    (hnew : (g.extracting x).sourceExists s.db ((g.extracting x).idempotencyKey file) = false) :
    (∀ processed rejected processed' rejected',
      (g.extracting x).outcome env (s.among processed rejected) file =
          (g.extracting x).outcome env (s.among processed' rejected') file ↔
        (processed.Taken file.name ↔ processed'.Taken file.name) ∨
          ¬ (g.extracting x).Acceptable env s.db file) ∧
    ((∀ processed rejected processed' rejected',
      (g.extracting x).outcome env (s.among processed rejected) file =
        (g.extracting x).outcome env (s.among processed' rejected') file) ↔
      ¬ (g.extracting x).Acceptable env s.db file) := by
  refine ⟨same_iff hfile hnew, fun hall => ?_, fun hnot P R P' R' => ?_⟩
  · -- once with nothing in the way, once with a file of that name
    have hpair := (same_iff hfile hnew [] [] [(file.name, .file file)] []).mp (hall _ _ _ _)
    refine hpair.resolve_left fun hiff => ?_
    exact List.not_mem_nil (hiff.mpr List.mem_cons_self)
  · exact (same_iff hfile hnew P R P' R').mpr (.inr hnot)

end Histories

/-! ### A second file of one name -/

/-- A worker over directories of the file system's root. -/
def notesIngester : Ingester where
  orchestratorId := "eng"
  ingest := "/ingest"
  ingestProcessed := "/ingest_processed"
  ingestRejected := "/ingest_rejected"
  maxFileSizeMb := 1
  sha256 := Sha256.digest
  extract _ _ _ := .ok {}
  errorText _ := "error"

def notesExtractor : Extractor where
  fromSlice _ := .ok {}
  sha256 := Sha256.digest
  nowSecs := 0

def notesEnv : IngestEnv where
  canonicalize := some
  now := 0

/-- The note `a`, and later the note `b` under the same name. -/
def firstNotes : IngestFile where
  name := "notes.md"
  bytes := [0x61]

def secondNotes : IngestFile where
  name := "notes.md"
  bytes := [0x62]

def withFile (file : IngestFile) : IngestState where
  ingest := [file]

theorem sameOutcome_firstNotes :
    (∀ processed rejected processed' rejected',
      (notesIngester.extracting notesExtractor).outcome notesEnv
          ((withFile firstNotes).among processed rejected) firstNotes =
        (notesIngester.extracting notesExtractor).outcome notesEnv
          ((withFile firstNotes).among processed' rejected') firstNotes) ↔
      ¬ (notesIngester.extracting notesExtractor).Acceptable notesEnv {} firstNotes :=
  (sameOutcome_iff notesIngester notesExtractor notesEnv (withFile firstNotes) firstNotes
    List.mem_cons_self rfl).2

/-- What the first note leaves behind, with the second one in `ingest`. -/
def afterFirstNotes : IngestState :=
  let after := (notesIngester.extracting notesExtractor).processOneFile notesEnv
    (withFile firstNotes) firstNotes
  { after with ingest := [secondNotes], control := .idle }

/-- The second note is refused after the first one, and would be accepted without it. -/
theorem second_notes_refused :
    ((notesIngester.extracting notesExtractor).outcome notesEnv (withFile firstNotes)
      firstNotes).1 = true ∧
    (notesIngester.extracting notesExtractor).sourceExists afterFirstNotes.db
      ((notesIngester.extracting notesExtractor).idempotencyKey secondNotes) = false ∧
    ((notesIngester.extracting notesExtractor).outcome notesEnv afterFirstNotes
      secondNotes).1 = false ∧
    ((notesIngester.extracting notesExtractor).outcome notesEnv (afterFirstNotes.among [] [])
      secondNotes).1 = true := by
  decide +kernel

end Direclaw.Memory
