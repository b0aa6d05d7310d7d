import Direclaw.Lib.Fallible
import Direclaw.Queue.Lifecycle

/-!
# Recovering claimed files after a crash

`recover_queue_processing_paths` of `runtime/recovery.rs`. A file that a dead
process left in `processing` is renamed back into `incoming`, unless its message
counts as answered: an outgoing file has the same `(channel, message_id)`, or an
earlier file of `processing` had.
-/

namespace Direclaw.Runtime

open Direclaw.Lib Direclaw.Queue

/-- `(channel, message_id)`. -/
abbrev MessageKey := String × String

structure ProcessingRecoveryReport where
  recovered : List FileName := []
  droppedDuplicates : List FileName := []
deriving DecidableEq, Repr

/-- What the name of a recovered file starts with. -/
def recoveredTag : List Char := ['r', 'e', 'c', 'o', 'v', 'e', 'r', 'e', 'd', '_']

def recoveredProcessingFilename (hash : List Char → List Char) (index : ℕ) (name : FileName) :
    FileName :=
  let ext := (Text.extension name).getD "json".toList
  recoveredTag ++ (Text.decimal index ++ '_' :: hash name) ++ '.' :: ext

def processingMessageKey (name : FileName) (content : Content) :
    Except String (Option MessageKey) :=
  match content with
  | .notUtf8 _ => .error (s!"failed to read processing file {String.ofList name}: " ++
      "stream did not contain valid UTF-8")
  | content => .ok (content.payload.map fun incoming => (incoming.channel, incoming.messageId))

def outgoingMessageKey (name : FileName) (content : Content) : Except String (Option MessageKey) :=
  match content with
  | .notUtf8 _ => .error (s!"failed to read outgoing file {String.ofList name}: " ++
      "stream did not contain valid UTF-8")
  | content =>
    .ok (content.readOutgoing.map fun outgoing => (outgoing.channel, outgoing.messageId))

def isJsonFile (name : FileName) : Bool := Text.extension name == some "json".toList

def collectKeys : List (FileName × File) → Except String (List MessageKey)
  | [] => .ok []
  | (name, file) :: rest => do
      if isJsonFile name then
        let key ← outgoingMessageKey name file.content
        let keys ← collectKeys rest
        return key.toList ++ keys
      else collectKeys rest

def collectOutgoingMessageKeys (outgoing : Directory) : Except String (List MessageKey) :=
  collectKeys (outgoing.entries.map fun e => (e.1, e.2))

def sortedProcessing (processing : Directory) : List (FileName × File) :=
  (processing.entries.map fun e => (e.1, e.2)).insertionSort fun a b => a.1 ≤ b.1

/-- A blank name cannot be kept. -/
def recoverableName (name : FileName) : FileName :=
  if Text.isBlank name then "message.json".toList else name

/-- Whether a file with this key is dropped, given the keys seen before it. -/
def isDuplicate (outgoingKeys seen : List MessageKey) : Option MessageKey → Bool
  | some key => outgoingKeys.contains key || seen.contains key
  | none => false

section Loop

variable (hash : List Char → List Char) (outgoingKeys : List MessageKey)

def dropProcessing (q : QueueState) (name : FileName) : QueueState :=
  { q with processing := q.processing.erase name }

def recoverProcessing (q : QueueState) (index : ℕ) (name : FileName) (file : File) : QueueState :=
  { q with
    processing := q.processing.erase name
    incoming := q.incoming.insert
      (recoveredProcessingFilename hash index (recoverableName name)) file }

/-- The loop over the sorted entries. -/
def recoverEntries : ℕ → List MessageKey → List (FileName × File) → QueueState →
    ProcessingRecoveryReport → QueueState × Except String ProcessingRecoveryReport
  | _, _, [], q, report => (q, .ok report)
  | index, seen, (name, file) :: rest, q, report =>
    match processingMessageKey name file.content with
    | .error err => (q, .error err)
    | .ok key =>
      if isDuplicate outgoingKeys seen key then
        recoverEntries (index + 1) seen rest (dropProcessing q name)
          { report with droppedDuplicates := report.droppedDuplicates ++ [name] }
      else
        recoverEntries (index + 1) (key.toList ++ seen) rest
          (recoverProcessing hash q index name file)
          { report with
            recovered := report.recovered ++
              [recoveredProcessingFilename hash index (recoverableName name)] }

end Loop

def recoverQueueProcessingPaths (hash : List Char → List Char) (q : QueueState) :
    QueueState × Except String ProcessingRecoveryReport :=
  match collectOutgoingMessageKeys q.outgoing with
  | .error err => (q, .error err)
  | .ok outgoingKeys =>
    recoverEntries hash outgoingKeys 0 [] (sortedProcessing q.processing) q {}

/-! ## Which keys count as answered -/

def File.messageKey (file : File) : Option MessageKey :=
  file.content.payload.map fun incoming => (incoming.channel, incoming.messageId)

def File.answeredKey (file : File) : Option MessageKey :=
  file.content.readOutgoing.map fun outgoing => (outgoing.channel, outgoing.messageId)

theorem processingMessageKey_eq {name : FileName} {file : File} {key : Option MessageKey}
    (h : processingMessageKey name file.content = .ok key) : key = File.messageKey file := by
  unfold processingMessageKey at h
  split at h
  · cases h
  · exact (Except.ok.inj h).symm

theorem outgoingMessageKey_eq {name : FileName} {file : File} {key : Option MessageKey}
    (h : outgoingMessageKey name file.content = .ok key) : key = File.answeredKey file := by
  unfold outgoingMessageKey at h
  split at h
  · cases h
  · exact (Except.ok.inj h).symm

theorem mem_collectKeys {key : MessageKey} : ∀ {entries : List (FileName × File)}
    {keys : List MessageKey}, collectKeys entries = .ok keys →
    (key ∈ keys ↔ ∃ e ∈ entries, isJsonFile e.1 = true ∧ File.answeredKey e.2 = some key)
  | [], keys, h => by
      cases h
      simp
  | (name, file) :: rest, keys, h => by
      unfold collectKeys at h
      split at h
      · next hjson =>
          obtain ⟨k, hk, h⟩ := bind_eq_ok h
          obtain ⟨ks, hks, h⟩ := bind_eq_ok h
          cases h
          rw [List.mem_append, mem_collectKeys hks, outgoingMessageKey_eq hk]
          simp [hjson]
      · next hjson =>
          rw [mem_collectKeys h]
          simp [hjson]

def Answered (outgoing : Directory) (key : MessageKey) : Prop :=
  ∃ name file, outgoing.lookup name = some file ∧ isJsonFile name = true ∧
    File.answeredKey file = some key

theorem mem_collectOutgoingMessageKeys {outgoing : Directory} {keys : List MessageKey}
    (h : collectOutgoingMessageKeys outgoing = .ok keys) (key : MessageKey) :
    key ∈ keys ↔ Answered outgoing key := by
  rw [mem_collectKeys h]
  constructor
  · rintro ⟨⟨name, file⟩, hmem, hjson, hkey⟩
    exact ⟨name, file, Directory.mem_entries.mp hmem, hjson, hkey⟩
  · rintro ⟨name, file, hlookup, hjson, hkey⟩
    exact ⟨(name, file), Directory.mem_entries.mpr hlookup, hjson, hkey⟩

/-! ## The loop -/

section Fate

variable {hash : List Char → List Char} {outgoingKeys : List MessageKey}

/-- The index can be read off a recovered name. -/
theorem recoveredProcessingFilename_index {i j : ℕ} {n m : FileName}
    (h : recoveredProcessingFilename hash i n = recoveredProcessingFilename hash j m) : i = j := by
  unfold recoveredProcessingFilename at h
  simp only [List.append_assoc, List.cons_append] at h
  have htail := congrArg (Text.splitOnce '_') (List.append_cancel_left h)
  rw [Text.splitOnce_append (Text.not_mem_decimal (by decide) i),
    Text.splitOnce_append (Text.not_mem_decimal (by decide) j)] at htail
  exact Text.decimal_injective (Prod.mk.inj (Option.some.inj htail)).1

/-- What is in the report stays, only names of the list are added as dropped, names
of lower index are left alone in `incoming`, and nothing appears in `processing`. -/
theorem recoverEntries_frame : ∀ {entries : List (FileName × File)} {index : ℕ}
    {seen : List MessageKey} {q q' : QueueState} {report report' : ProcessingRecoveryReport},
    recoverEntries hash outgoingKeys index seen entries q report = (q', .ok report') →
    (∀ n ∈ report.droppedDuplicates, n ∈ report'.droppedDuplicates) ∧
    (∀ n ∈ report.recovered, n ∈ report'.recovered) ∧
    (∀ n ∈ report'.droppedDuplicates, n ∈ report.droppedDuplicates ∨ n ∈ entries.map Prod.fst) ∧
    (∀ i n, i < index → q'.incoming.lookup (recoveredProcessingFilename hash i n) =
      q.incoming.lookup (recoveredProcessingFilename hash i n)) ∧
    (∀ n, q.processing.lookup n = none → q'.processing.lookup n = none)
  | [], index, seen, q, q', report, report', h => by
      cases h
      exact ⟨fun _ h => h, fun _ h => h, fun _ h => .inl h, fun _ _ _ => rfl, fun _ h => h⟩
  | (name, file) :: rest, index, seen, q, q', report, report', h => by
      unfold recoverEntries at h
      split at h
      · cases h
      · split at h
        · obtain ⟨hdrop, hrec, hnew, hin, hproc⟩ := recoverEntries_frame h
          refine ⟨fun n hn => hdrop n (List.mem_append_left _ hn), hrec, ?_,
            fun i n hi => hin i n (by omega), ?_⟩
          · intro n hn
            rcases hnew n hn with hn | hn
            · rcases List.mem_append.mp hn with hn | hn
              · exact .inl hn
              · exact .inr (List.mem_cons.mpr (.inl (List.mem_singleton.mp hn)))
            · exact .inr (List.mem_cons_of_mem _ hn)
          · intro n hn
            apply hproc
            rw [dropProcessing, Directory.lookup_erase, hn, ite_self]
        · obtain ⟨hdrop, hrec, hnew, hin, hproc⟩ := recoverEntries_frame h
          refine ⟨hdrop, fun n hn => hrec n (List.mem_append_left _ hn), ?_, ?_, ?_⟩
          · intro n hn
            rcases hnew n hn with hn | hn
            · exact .inl hn
            · exact .inr (List.mem_cons_of_mem _ hn)
          · -- this file's own name has the index `index`, which is not below it
            intro i n hi
            rw [hin i n (by omega), recoverProcessing, Directory.lookup_insert, if_neg]
            intro heq
            have := recoveredProcessingFilename_index heq
            omega
          · intro n hn
            apply hproc
            rw [recoverProcessing, Directory.lookup_erase, hn, ite_self]

/-- The loop reads `outgoing` and never writes it. -/
theorem recoverEntries_outgoing : ∀ (entries : List (FileName × File)) (index : ℕ)
    (seen : List MessageKey) (q : QueueState) (report : ProcessingRecoveryReport),
    (recoverEntries hash outgoingKeys index seen entries q report).1.outgoing = q.outgoing
  | [], _, _, _, _ => rfl
  | (name, file) :: rest, index, seen, q, report => by
      unfold recoverEntries
      split
      · rfl
      · split
        · rw [recoverEntries_outgoing rest]
          rfl
        · rw [recoverEntries_outgoing rest]
          rfl

def DuplicateOf (outgoingKeys seen : List MessageKey) (before : List (FileName × File))
    (file : File) : Prop :=
  ∃ key, File.messageKey file = some key ∧
    (key ∈ outgoingKeys ∨ key ∈ seen ∨ ∃ e ∈ before, File.messageKey e.2 = some key)

theorem isDuplicate_eq_true {seen : List MessageKey} {file : File} :
    isDuplicate outgoingKeys seen (File.messageKey file) = true ↔
      DuplicateOf outgoingKeys seen [] file := by
  unfold DuplicateOf isDuplicate
  cases File.messageKey file <;> simp

/-- Whether an earlier file is dropped or recovered, its key counts from then on. -/
theorem duplicateOf_cons {seen : List MessageKey} {before : List (FileName × File)}
    {e : FileName × File} {file : File} :
    DuplicateOf outgoingKeys seen (e :: before) file ↔
      DuplicateOf outgoingKeys
        (if isDuplicate outgoingKeys seen (File.messageKey e.2) then seen
          else (File.messageKey e.2).toList ++ seen) before file := by
  unfold DuplicateOf
  refine exists_congr fun key => and_congr_right fun _ => ?_
  -- only an entry with the very key in question can make a difference
  cases hkey : File.messageKey e.2 with
  | none => simp [isDuplicate, hkey]
  | some k =>
    by_cases hk : k = key
    · subst hk
      by_cases hout : k ∈ outgoingKeys
      · simp [hout]
      · by_cases hseen : k ∈ seen <;> simp [isDuplicate, hkey, hout, hseen]
    · have hne : ¬ key = k := fun h => hk h.symm
      by_cases hdup : isDuplicate outgoingKeys seen (some k) = true <;>
        simp [hdup, hkey, hk, hne]

def RecoveredAs (hash : List Char → List Char) (index : ℕ) (name : FileName) (file : File)
    (q : QueueState) (report : ProcessingRecoveryReport) : Prop :=
  recoveredProcessingFilename hash index (recoverableName name) ∈ report.recovered ∧
    q.incoming.lookup (recoveredProcessingFilename hash index (recoverableName name)) = some file

variable {name : FileName} {file : File} {after : List (FileName × File)}

theorem recoverEntries_fate : ∀ {before : List (FileName × File)} {index : ℕ}
    {seen : List MessageKey} {q q' : QueueState} {report report' : ProcessingRecoveryReport},
    recoverEntries hash outgoingKeys index seen (before ++ (name, file) :: after) q report =
      (q', .ok report') →
    ((before ++ (name, file) :: after).map Prod.fst).Nodup →
    name ∉ report.droppedDuplicates →
    (DuplicateOf outgoingKeys seen before file →
      name ∈ report'.droppedDuplicates ∧ q'.processing.lookup name = none) ∧
    (¬ DuplicateOf outgoingKeys seen before file →
      name ∉ report'.droppedDuplicates ∧
      RecoveredAs hash (index + before.length) name file q' report')
  | [], index, seen, q, q', report, report', h, hnodup, hfresh => by
      rw [List.nil_append] at h hnodup
      have hnotin : name ∉ after.map Prod.fst := (List.nodup_cons.mp hnodup).1
      unfold recoverEntries at h
      split at h
      · cases h
      · next key hkey =>
          rw [processingMessageKey_eq hkey] at h
          split at h
          · next hdup =>
              obtain ⟨hdrop, _, _, _, hproc⟩ := recoverEntries_frame h
              constructor
              · intro _
                refine ⟨hdrop name (by simp), hproc name ?_⟩
                rw [dropProcessing, Directory.lookup_erase, if_pos rfl]
              · intro hno
                exact absurd (isDuplicate_eq_true.mp hdup) hno
          · next hdup =>
              obtain ⟨_, hrec, hnew, hin, _⟩ := recoverEntries_frame h
              constructor
              · intro hyes
                exact absurd (isDuplicate_eq_true.mpr hyes) hdup
              intro _
              constructor
              · intro hmem
                rcases hnew name hmem with hmem | hmem
                · exact hfresh hmem
                · exact hnotin hmem
              · -- later entries have higher indices and leave this one alone
                refine ⟨hrec _ (by simp), ?_⟩
                rw [List.length_nil, Nat.add_zero, hin index _ (Nat.lt_succ_self _),
                  recoverProcessing, Directory.lookup_insert, if_pos rfl]
  | (n, f) :: before, index, seen, q, q', report, report', h, hnodup, hfresh => by
      have hcons := List.nodup_cons.mp hnodup
      have hne : name ≠ n := by
        rintro rfl
        exact hcons.1 (by simp)
      rw [List.cons_append] at h
      unfold recoverEntries at h
      split at h
      · cases h
      · next key hkey =>
          rw [processingMessageKey_eq hkey] at h
          rw [duplicateOf_cons, List.length_cons, ← Nat.add_assoc, Nat.add_right_comm]
          split at h
          · next hdup =>
              rw [if_pos hdup]
              refine recoverEntries_fate h hcons.2 ?_
              simp [hfresh, hne]
          · next hdup =>
              rw [if_neg hdup]
              exact recoverEntries_fate h hcons.2 hfresh

end Fate

/-! ## Whole recoveries -/

/-- The file left in `processing` counts as answered. -/
def CountsAsAnswered (q : QueueState) (name : FileName) (file : File) : Prop :=
  ∃ key, File.messageKey file = some key ∧
    (Answered q.outgoing key ∨
      ∃ n f, q.processing.lookup n = some f ∧ n < name ∧ File.messageKey f = some key)

theorem mem_sortedProcessing {processing : Directory} {name : FileName} {file : File} :
    (name, file) ∈ sortedProcessing processing ↔ processing.lookup name = some file := by
  rw [sortedProcessing, List.mem_insertionSort, Directory.mem_entries]

theorem sortedProcessing_nodup (processing : Directory) :
    ((sortedProcessing processing).map Prod.fst).Nodup := by
  have hperm := (List.perm_insertionSort (fun a b : FileName × File => a.1 ≤ b.1)
    (processing.entries.map fun e => (e.1, e.2))).map Prod.fst
  refine hperm.nodup_iff.mpr ?_
  rw [List.map_map]
  exact processing.nodupKeys

instance : Std.Total fun a b : FileName × File => a.1 ≤ b.1 := ⟨fun a b => le_total a.1 b.1⟩

instance : IsTrans (FileName × File) fun a b => a.1 ≤ b.1 := ⟨fun _ _ _ => le_trans⟩

/-- What comes before an entry are the files with smaller names. -/
theorem sortedProcessing_before {processing : Directory} {before after : List (FileName × File)}
    {name : FileName} {file : File}
    (h : sortedProcessing processing = before ++ (name, file) :: after) (e : FileName × File) :
    e ∈ before ↔ processing.lookup e.1 = some e.2 ∧ e.1 < name := by
  have hsorted : (sortedProcessing processing).Pairwise fun a b => a.1 ≤ b.1 :=
    List.pairwise_insertionSort _ _
  have hnodup := sortedProcessing_nodup processing
  rw [h] at hsorted hnodup
  have hmem : e ∈ sortedProcessing processing ↔ processing.lookup e.1 = some e.2 :=
    mem_sortedProcessing
  rw [h, List.mem_append, List.mem_cons] at hmem
  obtain ⟨_, hright, hcross⟩ := List.pairwise_append.mp hsorted
  rw [List.map_append, List.map_cons] at hnodup
  obtain ⟨_, _, hdisjoint⟩ := List.nodup_append.mp hnodup
  constructor
  · intro hbefore
    refine ⟨hmem.mp (.inl hbefore), lt_of_le_of_ne (hcross e hbefore _ List.mem_cons_self) ?_⟩
    exact hdisjoint e.1 (List.mem_map_of_mem hbefore) name List.mem_cons_self
  · rintro ⟨hlookup, hlt⟩
    rcases hmem.mpr hlookup with hbefore | rfl | hafter
    · exact hbefore
    · exact absurd hlt (lt_irrefl _)
    · exact absurd hlt (not_lt.mpr ((List.pairwise_cons.mp hright).1 e hafter))

theorem recover_outgoing {hash : List Char → List Char} {q q' : QueueState}
    {result : Except String ProcessingRecoveryReport}
    (h : recoverQueueProcessingPaths hash q = (q', result)) : q'.outgoing = q.outgoing := by
  obtain rfl : (recoverQueueProcessingPaths hash q).1 = q' := congrArg Prod.fst h
  unfold recoverQueueProcessingPaths
  split
  · rfl
  · exact recoverEntries_outgoing _ _ _ _ _

/-- As the loop sees it when it comes to the file. -/
theorem countsAsAnswered_iff {q : QueueState} {outgoingKeys : List MessageKey}
    {before after : List (FileName × File)} {name : FileName} {file : File}
    (hkeys : collectOutgoingMessageKeys q.outgoing = .ok outgoingKeys)
    (hsplit : sortedProcessing q.processing = before ++ (name, file) :: after) :
    CountsAsAnswered q name file ↔ DuplicateOf outgoingKeys [] before file := by
  unfold CountsAsAnswered DuplicateOf
  refine exists_congr fun key => and_congr_right fun _ => ?_
  rw [mem_collectOutgoingMessageKeys hkeys]
  refine or_congr_right ?_
  simp only [List.not_mem_nil, false_or, sortedProcessing_before hsplit, Prod.exists, and_assoc]

/-- **Fate of a file.** A recovery that goes through drops exactly the files that
count as answered, and puts every other one back into `incoming`. -/
theorem recover_fate {hash : List Char → List Char} {q q' : QueueState}
    {report : ProcessingRecoveryReport} {name : FileName} {file : File}
    (h : recoverQueueProcessingPaths hash q = (q', .ok report))
    (hfile : q.processing.lookup name = some file) :
    (CountsAsAnswered q name file →
      name ∈ report.droppedDuplicates ∧ q'.processing.lookup name = none) ∧
    (¬ CountsAsAnswered q name file →
      name ∉ report.droppedDuplicates ∧ ∃ index, RecoveredAs hash index name file q' report) := by
  unfold recoverQueueProcessingPaths at h
  split at h
  · cases h
  · next outgoingKeys hkeys =>
      obtain ⟨before, after, hsplit⟩ := List.append_of_mem (mem_sortedProcessing.mpr hfile)
      rw [hsplit] at h
      have hnodup := sortedProcessing_nodup q.processing
      rw [hsplit] at hnodup
      rw [countsAsAnswered_iff hkeys hsplit]
      obtain ⟨hdup, hback⟩ := recoverEntries_fate h hnodup (by simp)
      exact ⟨hdup, fun hno => ⟨(hback hno).1, _, (hback hno).2⟩⟩

end Direclaw.Runtime
