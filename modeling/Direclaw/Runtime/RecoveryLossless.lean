import Direclaw.Runtime.QueueWorker
import Direclaw.Runtime.Recovery

/-!
# What a recovery overwrites

A recovery renames what it found in `processing` to names made from its index and its old
name. The indices keep these names apart from each other, and nothing is dropped that does
not count as answered; but a rename replaces what has the new name already. The recovery is
lossless exactly when none of its names is taken.
-/

namespace Direclaw.Runtime

open Direclaw.Lib Direclaw.Queue

/-! ## Moved files -/

/-- An entry of `processing` and the name it gets in `incoming`. -/
structure MovedFile where
  entry : FileName × File
  target : FileName

section Moves

variable (hash : List Char → List Char) (outgoingKeys : List MessageKey)

/-- The entries that are no duplicates, with their new names. -/
def movedFiles : ℕ → List MessageKey → List (FileName × File) → List MovedFile
  | _, _, [] => []
  | index, seen, (name, file) :: rest =>
    if isDuplicate outgoingKeys seen (File.messageKey file) then
      movedFiles (index + 1) seen rest
    else
      ⟨(name, file), recoveredProcessingFilename hash index (recoverableName name)⟩ ::
        movedFiles (index + 1) ((File.messageKey file).toList ++ seen) rest

def droppedNames : List MessageKey → List (FileName × File) → List FileName
  | _, [] => []
  | seen, (name, file) :: rest =>
    if isDuplicate outgoingKeys seen (File.messageKey file) then name :: droppedNames seen rest
    else droppedNames ((File.messageKey file).toList ++ seen) rest

end Moves

/-- The directory with the files under their new names. -/
def moveIn (incoming : Directory) (moved : List MovedFile) : Directory :=
  moved.foldl (fun d m => d.insert m.target m.entry.2) incoming

section MoveIn

variable {moved : List MovedFile} {incoming : Directory} {name : FileName}

theorem lookup_moveIn_of_not_mem (h : name ∉ moved.map (·.target)) :
    (moveIn incoming moved).lookup name = incoming.lookup name := by
  induction moved generalizing incoming with
  | nil => rfl
  | cons m rest ih =>
    rw [List.map_cons, List.mem_cons, not_or] at h
    show (moveIn (incoming.insert m.target m.entry.2) rest).lookup name = _
    rw [ih h.2, Directory.lookup_insert, if_neg h.1]

theorem lookup_moveIn_of_mem {m : MovedFile} (hnodup : (moved.map (·.target)).Nodup)
    (h : m ∈ moved) : (moveIn incoming moved).lookup m.target = some m.entry.2 := by
  induction moved generalizing incoming with
  | nil => cases h
  | cons first rest ih =>
    rw [List.map_cons, List.nodup_cons] at hnodup
    show (moveIn (incoming.insert first.target first.entry.2) rest).lookup m.target = _
    rcases List.mem_cons.mp h with rfl | h
    · rw [lookup_moveIn_of_not_mem hnodup.1, Directory.lookup_insert, if_pos rfl]
    · exact ih hnodup.2 h

end MoveIn

/-! ## The loop, by its moves -/

section Loop

variable {hash : List Char → List Char} {outgoingKeys : List MessageKey}
  {entries : List (FileName × File)} {index : ℕ} {seen : List MessageKey} {q q' : QueueState}
  {report report' : ProcessingRecoveryReport}

theorem recoverEntries_moves (h : recoverEntries hash outgoingKeys index seen entries q report =
      (q', .ok report')) :
    report'.recovered =
        report.recovered ++ (movedFiles hash outgoingKeys index seen entries).map (·.target) ∧
      report'.droppedDuplicates =
        report.droppedDuplicates ++ droppedNames outgoingKeys seen entries ∧
      q'.incoming = moveIn q.incoming (movedFiles hash outgoingKeys index seen entries) ∧
      ∀ name, name ∈ entries.map Prod.fst ∨ q.processing.lookup name = none →
        q'.processing.lookup name = none := by
  induction entries generalizing index seen q report with
  | nil =>
    cases h
    exact ⟨(List.append_nil _).symm, (List.append_nil _).symm, rfl,
      fun _ h => h.resolve_left (by simp)⟩
  | cons e rest ih =>
    obtain ⟨name, file⟩ := e
    unfold recoverEntries at h
    unfold movedFiles droppedNames
    -- an entry leaves `processing` whether it is dropped or moved
    have hleaves : ∀ {d d' : Directory}, (∀ other, other ∈ rest.map Prod.fst ∨
          (d.erase name).lookup other = none → d'.lookup other = none) →
        ∀ other, other ∈ ((name, file) :: rest).map Prod.fst ∨ d.lookup other = none →
          d'.lookup other = none := by
      intro d d' hd other hother
      simp only [Directory.lookup_erase] at hd
      rcases hother with hother | hother
      · rcases List.mem_cons.mp hother with rfl | hrest
        · exact hd _ (.inr (if_pos rfl))
        · exact hd other (.inl hrest)
      · exact hd other (.inr (by rw [hother, ite_self]))
    split at h
    · cases h
    · next key hkey =>
        rw [processingMessageKey_eq hkey] at h
        split at h
        · next hdup =>
            obtain ⟨hrecovered, hdropped, hincoming, hprocessing⟩ := ih h
            rw [if_pos hdup, if_pos hdup]
            refine ⟨hrecovered, ?_, hincoming, hleaves hprocessing⟩
            rw [hdropped, List.append_assoc, List.singleton_append]
        · next hdup =>
            obtain ⟨hrecovered, hdropped, hincoming, hprocessing⟩ := ih h
            rw [if_neg hdup, if_neg hdup]
            refine ⟨?_, hdropped, hincoming, hleaves hprocessing⟩
            rw [hrecovered, List.append_assoc, List.map_cons, List.singleton_append]

/-- Where an entry can stand: at the front, or further back. -/
theorem exists_split_cons {α : Type*} {P : List α → Prop} {x y : α} {xs : List α} :
    (∃ before after, x :: xs = before ++ y :: after ∧ P before) ↔
      (x = y ∧ P []) ∨ ∃ before after, xs = before ++ y :: after ∧ P (x :: before) := by
  constructor
  · rintro ⟨before, after, heq, hP⟩
    cases before with
    | nil => exact .inl ⟨(List.cons.inj heq).1, hP⟩
    | cons b before =>
      obtain ⟨rfl, htail⟩ := List.cons.inj heq
      exact .inr ⟨before, after, htail, hP⟩
  · rintro (⟨rfl, hP⟩ | ⟨before, after, rfl, hP⟩)
    · exact ⟨[], xs, rfl, hP⟩
    · exact ⟨x :: before, after, rfl, hP⟩

theorem mem_movedFiles {m : MovedFile} :
    m ∈ movedFiles hash outgoingKeys index seen entries ↔
      ∃ before after, entries = before ++ m.entry :: after ∧
        ¬ DuplicateOf outgoingKeys seen before m.entry.2 ∧
        m.target = recoveredProcessingFilename hash (index + before.length)
          (recoverableName m.entry.1) := by
  induction entries generalizing index seen with
  | nil =>
    constructor
    · intro h
      cases h
    · rintro ⟨before, after, hnil, _⟩
      exact absurd hnil.symm (by simp)
  | cons e rest ih =>
    obtain ⟨name, file⟩ := e
    obtain ⟨⟨n, f⟩, target⟩ := m
    unfold movedFiles
    rw [exists_split_cons (P := fun before => ¬ DuplicateOf outgoingKeys seen before f ∧
      target = recoveredProcessingFilename hash (index + before.length) (recoverableName n))]
    simp only [duplicateOf_cons, List.length_nil, Nat.add_zero, List.length_cons,
      ← Nat.add_assoc, Nat.add_right_comm index _ 1]
    by_cases hdup : isDuplicate outgoingKeys seen (File.messageKey file) = true
    · simp only [hdup, if_true, ih]
      refine ⟨.inr, ?_⟩
      rintro (⟨hhead, hnot, _⟩ | hrest)
      · cases hhead
        exact absurd (isDuplicate_eq_true.mp hdup) hnot
      · exact hrest
    · simp only [hdup, Bool.false_eq_true, if_false, List.mem_cons, ih]
      refine or_congr_left ?_
      constructor
      · intro hhead
        cases hhead
        exact ⟨rfl, fun hd => hdup (isDuplicate_eq_true.mpr hd), rfl⟩
      · rintro ⟨hhead, _, htarget⟩
        cases hhead
        rw [htarget]

/-- The indices keep the new names apart. -/
theorem movedFiles_nodup :
    ((movedFiles hash outgoingKeys index seen entries).map (·.target)).Nodup := by
  induction entries generalizing index seen with
  | nil => exact List.nodup_nil
  | cons e rest ih =>
    unfold movedFiles
    split
    · exact ih
    · rw [List.map_cons, List.nodup_cons]
      refine ⟨fun hmem => ?_, ih⟩
      obtain ⟨m, hm, htarget⟩ := List.mem_map.mp hmem
      obtain ⟨before, after, _, _, hname⟩ := mem_movedFiles.mp hm
      rw [hname] at htarget
      have hindex := recoveredProcessingFilename_index htarget
      omega

theorem droppedNames_subset {name : FileName} (h : name ∈ droppedNames outgoingKeys seen entries) :
    name ∈ entries.map Prod.fst := by
  induction entries generalizing seen with
  | nil => cases h
  | cons e rest ih =>
    rw [List.map_cons, List.mem_cons]
    unfold droppedNames at h
    split at h
    · rcases List.mem_cons.mp h with rfl | h
      · exact .inl rfl
      · exact .inr (ih h)
    · exact .inr (ih h)

theorem movedFiles_entries (hnodup : (entries.map Prod.fst).Nodup) :
    (movedFiles hash outgoingKeys index seen entries).map (·.entry) =
      entries.filter fun e => e.1 ∉ droppedNames outgoingKeys seen entries := by
  induction entries generalizing index seen with
  | nil => rfl
  | cons e rest ih =>
    obtain ⟨name, file⟩ := e
    rw [List.map_cons, List.nodup_cons] at hnodup
    unfold movedFiles droppedNames
    split
    · rw [ih hnodup.2, List.filter_cons_of_neg (by simp)]
      refine List.filter_congr fun e he => ?_
      have hmem : e.1 ∈ rest.map Prod.fst := List.mem_map_of_mem he
      have hne : e.1 ≠ name := fun heq => hnodup.1 (heq ▸ hmem)
      simp [hne]
    · rw [List.map_cons, ih hnodup.2, List.filter_cons_of_pos]
      exact decide_eq_true fun hmem => hnodup.1 (droppedNames_subset hmem)

end Loop

/-! ## Lossless recoveries -/

/-- Every file of `processing` is dropped, and then counts as answered, or is in `incoming`
under a new name, which no file had and no other file gets. What was in `incoming` still is. -/
structure Lossless (q q' : QueueState) (report : ProcessingRecoveryReport) : Prop where
  emptied : ∀ name, q'.processing.lookup name = none
  answered : ∀ name file, q.processing.lookup name = some file →
    name ∈ report.droppedDuplicates → CountsAsAnswered q name file
  moved : List.Forall₂
    (fun (e : FileName × File) target =>
      q.incoming.lookup target = none ∧ q'.incoming.lookup target = some e.2)
    ((sortedProcessing q.processing).filter (·.1 ∉ report.droppedDuplicates)) report.recovered
  apart : report.recovered.Nodup
  kept : ∀ name file, q.incoming.lookup name = some file → q'.incoming.lookup name = some file

/-- No file of `incoming` has the name that an unanswered file of `processing` gets for its
place among them. -/
def TargetsFree (hash : List Char → List Char) (q : QueueState) : Prop :=
  ∀ before name file after, sortedProcessing q.processing = before ++ (name, file) :: after →
    ¬ CountsAsAnswered q name file →
    q.incoming.lookup
      (recoveredProcessingFilename hash before.length (recoverableName name)) = none

/-- **Lossless, exactly.** A recovery that goes through loses nothing if and only if the names
that it makes up are free. -/
theorem recovery_lossless_iff {hash : List Char → List Char} {q q' : QueueState}
    {report : ProcessingRecoveryReport}
    (h : recoverQueueProcessingPaths hash q = (q', .ok report)) :
    Lossless q q' report ↔ TargetsFree hash q := by
  have hfate := fun name file (hfile : q.processing.lookup name = some file) => recover_fate h hfile
  unfold recoverQueueProcessingPaths at h
  split at h
  · cases h
  next outgoingKeys hkeys =>
  obtain ⟨hrecovered, hdropped, hincoming, hprocessing⟩ := recoverEntries_moves h
  simp only [List.nil_append] at hrecovered hdropped
  have hmoved : ∀ m, m ∈ movedFiles hash outgoingKeys 0 [] (sortedProcessing q.processing) ↔
      ∃ before after, sortedProcessing q.processing = before ++ m.entry :: after ∧
        ¬ CountsAsAnswered q m.entry.1 m.entry.2 ∧
        m.target = recoveredProcessingFilename hash before.length (recoverableName m.entry.1) := by
    intro m
    rw [mem_movedFiles]
    refine exists_congr fun before => exists_congr fun after => and_congr_right fun hsplit => ?_
    rw [countsAsAnswered_iff hkeys hsplit, Nat.zero_add]
  -- the files and the names of the report go in step
  have hforall : List.Forall₂ (fun (e : FileName × File) target =>
        q.incoming.lookup target = none ∧ q'.incoming.lookup target = some e.2)
      ((sortedProcessing q.processing).filter (·.1 ∉ report.droppedDuplicates))
      report.recovered ↔
      ∀ m ∈ movedFiles hash outgoingKeys 0 [] (sortedProcessing q.processing),
        q.incoming.lookup m.target = none ∧ q'.incoming.lookup m.target = some m.entry.2 := by
    rw [hrecovered, hdropped, ← movedFiles_entries (sortedProcessing_nodup q.processing),
      List.forall₂_map_left_iff, List.forall₂_map_right_iff, List.forall₂_same]
  constructor
  · intro hlossless before name file after hsplit hnot
    have hmem := (hmoved ⟨(name, file),
      recoveredProcessingFilename hash before.length (recoverableName name)⟩).mpr
        ⟨before, after, hsplit, hnot, rfl⟩
    exact (hforall.mp hlossless.moved _ hmem).1
  intro hfree
  have htarget : ∀ m ∈ movedFiles hash outgoingKeys 0 [] (sortedProcessing q.processing),
      q.incoming.lookup m.target = none := by
    intro m hm
    obtain ⟨before, after, hsplit, hnot, hname⟩ := (hmoved m).mp hm
    rw [hname]
    exact hfree before m.entry.1 m.entry.2 after hsplit hnot
  refine ⟨fun name => hprocessing name ?_, ?_, hforall.mpr fun m hm => ⟨htarget m hm, ?_⟩, ?_, ?_⟩
  · cases hlookup : q.processing.lookup name with
    | none => exact .inr rfl
    | some file => exact .inl (List.mem_map_of_mem (mem_sortedProcessing.mpr hlookup))
  · intro name file hlookup hdrop
    by_contra hnot
    exact ((hfate name file hlookup).2 hnot).1 hdrop
  · rw [hincoming]
    exact lookup_moveIn_of_mem movedFiles_nodup hm
  · rw [hrecovered]
    exact movedFiles_nodup
  · intro name file hlookup
    rw [hincoming, lookup_moveIn_of_not_mem, hlookup]
    intro hmem
    obtain ⟨m, hm, rfl⟩ := List.mem_map.mp hmem
    rw [htarget m hm] at hlookup
    cases hlookup

/-! ### Names that are free, and one that is taken -/

/-- The digest of the names in use. -/
def nameDigest (name : List Char) : List Char :=
  if name = "c.json".toList then "f3e8967d7ac06872".toList else idleEnv.hash name

def messageFile (modified : ℕ) (messageId : String) : File :=
  ⟨modified, .json (sampleMessage messageId).encode⟩

/-- Three files were claimed, two of them with one message, and then the process died. Another
message has come in since. -/
def claimedThree : QueueState where
  incoming := AList.insert "d.json".toList (messageFile 8 "m3") ∅
  processing := AList.insert "c.json".toList (messageFile 7 "m2")
    (AList.insert "b.json".toList (messageFile 6 "m1")
      (AList.insert "a.json".toList (messageFile 5 "m1") ∅))

def reportOfThree : ProcessingRecoveryReport where
  recovered := ["recovered_0_6025a12236ee54ba.json".toList,
    "recovered_2_f3e8967d7ac06872.json".toList]
  droppedDuplicates := ["b.json".toList]

theorem recovery_lossless_iff_threeFiles :
    Lossless claimedThree (recoverQueueProcessingPaths nameDigest claimedThree).1
      reportOfThree := by
  have hrecover : recoverQueueProcessingPaths nameDigest claimedThree =
      ((recoverQueueProcessingPaths nameDigest claimedThree).1, .ok reportOfThree) := rfl
  refine (recovery_lossless_iff hrecover).mpr ?_
  -- a recovered name never is `d.json`
  intro before name file after _ _
  rfl

def claimedBefore : QueueState where
  processing := AList.insert "a.json".toList ⟨5, .json inThread.encode⟩ ∅

def reportOfOne : ProcessingRecoveryReport where
  recovered := ["recovered_0_6025a12236ee54ba.json".toList]

/-- What the last recovery put back is still in `incoming`, and a file with the old name has
been claimed again. -/
def recoveredBefore : QueueState where
  incoming := AList.insert "recovered_0_6025a12236ee54ba.json".toList
    ⟨4, .json (sampleMessage "m0").encode⟩ ∅
  processing := claimedBefore.processing

/-- The first message is lost. -/
theorem recovery_replaces_recovered :
    ¬ ∀ hash q q' report, recoverQueueProcessingPaths hash q = (q', .ok report) →
      Lossless q q' report := by
  intro hall
  have hrecover : recoverQueueProcessingPaths idleEnv.hash recoveredBefore =
      ((recoverQueueProcessingPaths idleEnv.hash recoveredBefore).1, .ok reportOfOne) := rfl
  have hlossless := hall _ _ _ _ hrecover
  have hkept := hlossless.kept "recovered_0_6025a12236ee54ba.json".toList
    ⟨4, .json (sampleMessage "m0").encode⟩ rfl
  have hnow : (recoverQueueProcessingPaths idleEnv.hash recoveredBefore).1.incoming.lookup
      "recovered_0_6025a12236ee54ba.json".toList = some ⟨5, .json inThread.encode⟩ := rfl
  rw [hnow] at hkept
  have hmodified : (5 : ℕ) = 4 := congrArg File.modified (Option.some.inj hkept)
  omega

end Direclaw.Runtime
