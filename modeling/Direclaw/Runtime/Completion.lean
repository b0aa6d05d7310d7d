import Direclaw.Lib.Run
import Direclaw.Runtime.QueueWorker
import Direclaw.Runtime.Recovery

/-!
# Completing a message across a crash

`complete_success_many` writes the batch one file at a time and then removes the
claimed file. A crash can come between any two of these, and recovery judges by
the keys in `outgoing` alone: one written message of the batch is as good as all
of them, and a batch that went out on another channel is not recognised at all.
-/

namespace Direclaw.Runtime

open Direclaw.Lib Direclaw.Queue Direclaw.Orchestration

/-! ## What an outgoing write answers -/

/-- The key that recovery reads off an outgoing message. -/
def replyKey (item : OutgoingMessage) : MessageKey := (item.channel, item.messageId)

section Writes

variable {isFile : String → Bool} {outgoing : Directory} {item : OutgoingMessage} {key : MessageKey}

/-- The one outgoing name that no recovery looks at is `.json`. -/
theorem isJsonFile_uniqueOutgoingFilename (channel messageId : String) (timestamp : Int64)
    (index : ℕ) :
    isJsonFile (uniqueOutgoingFilename channel messageId timestamp index) = true ↔
      0 < index ∨ ¬ (channel = "heartbeat" ∧ messageId = "") := by
  have hext : ∀ (x : Char) (s : List Char), isJsonFile (x :: s ++ jsonSuffix) = true := by
    intro x s
    have hsplit : Text.splitAtLastDot (x :: s ++ jsonSuffix) = some (x :: s, "json".toList) :=
      Text.splitAtLastDot_append (by decide) (x :: s)
    have hne : x :: s ++ jsonSuffix ≠ ['.', '.'] := by
      intro heq
      have hlength := congrArg List.length heq
      have hsuffix : jsonSuffix.length = 5 := by decide
      simp only [List.length_append, List.length_cons, List.length_nil] at hlength
      omega
    rw [isJsonFile, Text.extension, hsplit]
    simp only [if_neg hne]
    decide
  have hcons : ∀ s : List Char, s ≠ [] → isJsonFile (s ++ jsonSuffix) = true := by
    intro s hs
    cases s with
    | nil => exact absurd rfl hs
    | cons x s => exact hext x s
  unfold uniqueOutgoingFilename
  split
  · next hzero =>
      rw [outgoingFilename, outgoingStem]
      split
      · next hbeat =>
          by_cases hid : messageId = ""
          · subst hid
            simp only [hzero, hbeat, lt_irrefl, and_self, not_true, or_self, iff_false]
            decide
          · have hne : sanitizeFilenameComponent messageId.toList ≠ [] := by
              simpa [sanitizeFilenameComponent] using hid
            simp [hcons _ hne, hid]
      · next hbeat =>
          rw [hcons _ (by simp)]
          simp [hbeat]
  · next hpos =>
      rw [hcons _ (by simp)]
      simp [Nat.pos_of_ne_zero hpos]

def writtenFile (isFile : String → Bool) (now : ℕ) (item : OutgoingMessage) : File :=
  ⟨now, .json (normalizeOutgoingMessage isFile item).1.encode⟩

theorem answeredKey_writtenFile (now : ℕ) :
    File.answeredKey (writtenFile isFile now item) = some (replyKey item) := by
  simp only [writtenFile, File.answeredKey, Content.readOutgoing, OutgoingMessage.decode_encode,
    Option.map_some]
  rfl

def writtenNames (isFile : String → Bool) (now : ℕ) :
    Directory → ℕ → List OutgoingMessage → List FileName
  | _, _, [] => []
  | outgoing, index, item :: items =>
    (freeOutgoingFilename outgoing item index).getD [] ::
      writtenNames isFile now (writeOutgoingMessage isFile outgoing item index now) (index + 1) items

/-- Recovery looks at the file: a heartbeat reply without an id that comes first is
named `.json` if that is free, which has no extension. -/
def Listed (outgoing : Directory) (index : ℕ) (item : OutgoingMessage) : Prop :=
  ¬ (item.channel = "heartbeat" ∧ item.messageId = "") ∨ 0 < index ∨
    outgoing.lookup jsonSuffix ≠ none

/-- The name that is chosen: the first one if it is free, else a later one. -/
theorem freeOutgoingFilename_index (outgoing : Directory) (item : OutgoingMessage)
    (startIndex : ℕ) :
    ∃ i, freeOutgoingFilename outgoing item startIndex =
        some (uniqueOutgoingFilename item.channel item.messageId item.timestamp (startIndex + i)) ∧
      outgoing.lookup (uniqueOutgoingFilename item.channel item.messageId item.timestamp
        (startIndex + i)) = none ∧
      (i = 0 ↔ outgoing.lookup (uniqueOutgoingFilename item.channel item.messageId item.timestamp
        startIndex) = none) := by
  obtain ⟨name, hname, hfree⟩ := freeOutgoingFilename_spec outgoing item startIndex
  by_cases hfirst : outgoing.lookup (uniqueOutgoingFilename item.channel item.messageId
      item.timestamp startIndex) = none
  · -- the search stops at its first candidate
    refine ⟨0, ?_, hfirst, by simp [hfirst]⟩
    rw [freeOutgoingFilename, List.range_succ_eq_map, List.map_cons, List.find?_cons_of_pos]
    simp [hfirst]
  · have hmem := List.mem_of_find?_eq_some hname
    obtain ⟨i, _, rfl⟩ := List.mem_map.mp hmem
    refine ⟨i, hname, hfree, ?_⟩
    constructor
    · rintro rfl
      exact hfree
    · exact fun h => absurd h hfirst

section Names

variable {now : ℕ}

theorem writeOutgoingMessage_eq {index : ℕ} {name : FileName}
    (h : freeOutgoingFilename outgoing item index = some name) :
    writeOutgoingMessage isFile outgoing item index now =
      outgoing.insert name (writtenFile isFile now item) := by
  simp only [writeOutgoingMessage, h]
  rfl

theorem length_writtenNames : ∀ (items : List OutgoingMessage) (outgoing : Directory) (index : ℕ),
    (writtenNames isFile now outgoing index items).length = items.length
  | [], _, _ => rfl
  | item :: items, outgoing, index => by
      simp only [writtenNames, List.length_cons, length_writtenNames items]

/-- No write replaces a file that was there before the batch. -/
theorem lookup_of_mem_writtenNames : ∀ {items : List OutgoingMessage} {outgoing : Directory}
    {index : ℕ} {n : FileName}, n ∈ writtenNames isFile now outgoing index items →
      outgoing.lookup n = none
  | item :: items, outgoing, index, n, hmem => by
      obtain ⟨name, hname, hfree⟩ := freeOutgoingFilename_spec outgoing item index
      rw [writtenNames, hname] at hmem
      rcases List.mem_cons.mp hmem with rfl | hmem
      · exact hfree
      · have hlater := lookup_of_mem_writtenNames hmem
        by_contra hold
        obtain ⟨f, hf⟩ := Option.ne_none_iff_exists'.mp hold
        rw [writeOutgoingMessage_keeps isFile hf item index now] at hlater
        cases hlater

theorem writtenNames_nodup : ∀ (items : List OutgoingMessage) (outgoing : Directory) (index : ℕ),
    (writtenNames isFile now outgoing index items).Nodup
  | [], _, _ => List.nodup_nil
  | item :: items, outgoing, index => by
      obtain ⟨name, hname, _⟩ := freeOutgoingFilename_spec outgoing item index
      rw [writtenNames, hname]
      refine List.nodup_cons.mpr ⟨?_, writtenNames_nodup items _ _⟩
      -- the first name is taken when the later ones are chosen
      intro hmem
      have hlater := lookup_of_mem_writtenNames hmem
      rw [writeOutgoingMessage_eq hname, Directory.lookup_insert] at hlater
      simp at hlater

theorem lookup_writeOutgoingFrom : ∀ {items : List OutgoingMessage} {outgoing : Directory}
    {index : ℕ} {n : FileName} {f : File},
    (writeOutgoingFrom isFile now outgoing index items).lookup n = some f ↔
      outgoing.lookup n = some f ∨ ∃ (i : ℕ) (item : OutgoingMessage), items[i]? = some item ∧
        (writtenNames isFile now outgoing index items)[i]? = some n ∧ f = writtenFile isFile now item
  | [], outgoing, index, n, f => by simp [writeOutgoingFrom]
  | item :: items, outgoing, index, n, f => by
      obtain ⟨name, hname, hfree⟩ := freeOutgoingFilename_spec outgoing item index
      rw [writeOutgoingFrom, lookup_writeOutgoingFrom, writtenNames, hname,
        writeOutgoingMessage_eq hname, Directory.lookup_insert]
      constructor
      · rintro (h | ⟨i, other, hitem, hn, hf⟩)
        · split at h
          · next heq =>
              cases h
              exact .inr ⟨0, item, rfl, by rw [heq]; rfl, rfl⟩
          · exact .inl h
        · exact .inr ⟨i + 1, other, hitem, hn, hf⟩
      · rintro (h | ⟨i, other, hitem, hn, hf⟩)
        · refine .inl ?_
          rw [if_neg, h]
          rintro rfl
          rw [hfree] at h
          cases h
        · cases i with
          | zero =>
            cases hitem
            obtain rfl : name = n := Option.some.inj hn
            exact .inl (by rw [if_pos rfl, hf])
          | succ i => exact .inr ⟨i, other, hitem, hn, hf⟩

/-- From the second message on every name is listed, and the first name is chosen
from what was there before. -/
theorem isJsonFile_writtenNames : ∀ {items : List OutgoingMessage} {outgoing : Directory}
    {index i : ℕ} {n : FileName}, items[i]? = some item →
      (writtenNames isFile now outgoing index items)[i]? = some n →
      (isJsonFile n = true ↔ Listed outgoing (index + i) item)
  | first :: items, outgoing, index, 0, n, hitem, hn => by
      cases hitem
      obtain ⟨j, hname, _, hzero⟩ := freeOutgoingFilename_index outgoing item index
      rw [writtenNames, hname] at hn
      obtain rfl := Option.some.inj hn
      rw [Option.getD_some]
      rw [isJsonFile_uniqueOutgoingFilename, Listed, Nat.add_zero, Nat.add_pos_iff_pos_or_pos,
        Nat.pos_iff_ne_zero (n := j), ne_eq j, hzero]
      by_cases hbeat : index = 0 ∧ item.channel = "heartbeat" ∧ item.messageId = ""
      · obtain ⟨rfl, hc, hid⟩ := hbeat
        have hsuffix : uniqueOutgoingFilename "heartbeat" "" item.timestamp 0 = jsonSuffix := rfl
        rw [hc, hid, hsuffix]
        simp
      · have hany : 0 < index ∨ ¬ (item.channel = "heartbeat" ∧ item.messageId = "") := by
          rw [Nat.pos_iff_ne_zero]
          exact not_and_or.mp hbeat
        rcases hany with hpos | hno
        · simp [hpos]
        · simp [hno]
  | first :: items, outgoing, index, i + 1, n, hitem, hn => by
      have hitem' : items[i]? = some item := hitem
      have hn' : (writtenNames isFile now (writeOutgoingMessage isFile outgoing first index now)
          (index + 1) items)[i]? = some n := hn
      have hpos : 0 < index + 1 + i := by omega
      have hpos' : 0 < index + (i + 1) := by omega
      simp only [isJsonFile_writtenNames hitem' hn', Listed, hpos, hpos', true_or, or_true]

end Names

end Writes

/-! ## Deliveries -/

/-- The outgoing files that channels pick up between a crash and the recovery: some
that were there before the completion, and some of the batch, by their place in it. -/
structure Delivery where
  earlier : List FileName := []
  replies : List ℕ := []

section Deliveries

variable {isFile : String → Bool} {outgoing : Directory} {key : MessageKey} {now : ℕ}
  {items : List OutgoingMessage}

/-- Only files that are there can be picked up. -/
def Delivery.names (d : Delivery) (before : Directory) (written : List FileName) : List FileName :=
  d.earlier.filter (fun n => (before.lookup n).isSome) ++ d.replies.filterMap (written[·]?)

/-- Files that are picked up are gone. -/
def deliver (names : List FileName) (outgoing : Directory) : Directory :=
  names.foldl (fun d n => d.erase n) outgoing

theorem lookup_deliver (names : List FileName) (outgoing : Directory) (n : FileName) :
    (deliver names outgoing).lookup n = if n ∈ names then none else outgoing.lookup n := by
  unfold deliver
  induction names generalizing outgoing with
  | nil => simp
  | cons name names ih =>
    rw [List.foldl_cons, ih, Directory.lookup_erase]
    by_cases hn : n = name
    · simp [hn]
    · simp [hn]

variable {d : Delivery} {n : FileName}

theorem mem_names_of_lookup {index : ℕ} {f : File} (h : outgoing.lookup n = some f) :
    n ∈ d.names outgoing (writtenNames isFile now outgoing index items) ↔ n ∈ d.earlier := by
  rw [Delivery.names, List.mem_append, List.mem_filter, h]
  constructor
  · rintro (hmem | hmem)
    · exact hmem.1
    · obtain ⟨i, _, hn⟩ := List.mem_filterMap.mp hmem
      rw [lookup_of_mem_writtenNames (List.mem_of_getElem? hn)] at h
      cases h
  · exact fun hmem => .inl ⟨hmem, rfl⟩

theorem mem_names_of_written {index i : ℕ}
    (h : (writtenNames isFile now outgoing index items)[i]? = some n) :
    n ∈ d.names outgoing (writtenNames isFile now outgoing index items) ↔ i ∈ d.replies := by
  rw [Delivery.names, List.mem_append, List.mem_filter, List.mem_filterMap,
    lookup_of_mem_writtenNames (List.mem_of_getElem? h)]
  constructor
  · rintro (hmem | ⟨j, hj, hn⟩)
    · cases hmem.2
    · obtain ⟨hlt, _⟩ := List.getElem?_eq_some_iff.mp hn
      obtain rfl : j = i :=
        (List.getElem?_inj hlt (writtenNames_nodup items outgoing index)).mp (hn.trans h.symm)
      exact hj
  · exact fun hi => .inr ⟨i, hi, h⟩

/-- What is still in `outgoing` when a batch was written and some files delivered. -/
def remaining (isFile : String → Bool) (now : ℕ) (outgoing : Directory)
    (items : List OutgoingMessage) (d : Delivery) : Directory :=
  deliver (d.names outgoing (writtenNames isFile now outgoing 0 items))
    (writeOutgoingFrom isFile now outgoing 0 items)

theorem lookup_remaining {f : File} :
    (remaining isFile now outgoing items d).lookup n = some f ↔
      (outgoing.lookup n = some f ∧ n ∉ d.earlier) ∨
        ∃ i item, items[i]? = some item ∧ i ∉ d.replies ∧
          (writtenNames isFile now outgoing 0 items)[i]? = some n ∧
          f = writtenFile isFile now item := by
  rw [remaining, lookup_deliver]
  constructor
  · intro h
    split at h
    · cases h
    · next hleft =>
        rcases lookup_writeOutgoingFrom.mp h with hold | ⟨i, item, hitem, hn, hf⟩
        · exact .inl ⟨hold, fun hmem => hleft ((mem_names_of_lookup hold).mpr hmem)⟩
        · exact .inr ⟨i, item, hitem, fun hmem => hleft ((mem_names_of_written hn).mpr hmem), hn, hf⟩
  · rintro (⟨hold, hno⟩ | ⟨i, item, hitem, hno, hn, hf⟩)
    · rw [if_neg (mt (mem_names_of_lookup hold).mp hno)]
      exact lookup_writeOutgoingFrom.mpr (.inl hold)
    · rw [if_neg (mt (mem_names_of_written hn).mp hno)]
      exact lookup_writeOutgoingFrom.mpr (.inr ⟨i, item, hitem, hn, hf⟩)

/-- **Keys after the writes.** The keys that are still in `outgoing` are those of the
files from before and of the listed messages of the batch that nobody picked up. -/
theorem answered_remaining_iff :
    Answered (remaining isFile now outgoing items d) key ↔
      (∃ n f, outgoing.lookup n = some f ∧ n ∉ d.earlier ∧ isJsonFile n = true ∧
        File.answeredKey f = some key) ∨
      ∃ i item, items[i]? = some item ∧ i ∉ d.replies ∧ replyKey item = key ∧
        Listed outgoing i item := by
  constructor
  · rintro ⟨n, f, hlookup, hjson, hkey⟩
    rcases lookup_remaining.mp hlookup with ⟨hold, hno⟩ | ⟨i, item, hitem, hno, hn, rfl⟩
    · exact .inl ⟨n, f, hold, hno, hjson, hkey⟩
    · refine .inr ⟨i, item, hitem, hno, ?_, ?_⟩
      · exact Option.some.inj ((answeredKey_writtenFile now).symm.trans hkey)
      · have := (isJsonFile_writtenNames hitem hn).mp hjson
        rwa [Nat.zero_add] at this
  · rintro (⟨n, f, hold, hno, hjson, hkey⟩ | ⟨i, item, hitem, hno, rfl, hlisted⟩)
    · exact ⟨n, f, lookup_remaining.mpr (.inl ⟨hold, hno⟩), hjson, hkey⟩
    · have hlt : i < (writtenNames isFile now outgoing 0 items).length := by
        rw [length_writtenNames]
        exact (List.getElem?_eq_some_iff.mp hitem).1
      have hn := List.getElem?_eq_getElem hlt
      refine ⟨_, _, lookup_remaining.mpr (.inr ⟨i, item, hitem, hno, hn, rfl⟩), ?_,
        answeredKey_writtenFile now⟩
      rw [isJsonFile_writtenNames hitem hn, Nat.zero_add]
      exact hlisted

theorem answered_writeOutgoingFrom_iff :
    Answered (writeOutgoingFrom isFile now outgoing 0 items) key ↔
      Answered outgoing key ∨ ∃ (i : ℕ) (item : OutgoingMessage), items[i]? = some item ∧
        replyKey item = key ∧ Listed outgoing i item := by
  have h := @answered_remaining_iff isFile outgoing key now items {}
  simpa [remaining, deliver, Delivery.names, Answered] using h

end Deliveries

/-! ## Crash points of a completion -/

/-- One file operation of `complete_success_many`. -/
inductive CompletionOp : Type where
  | write (index : ℕ) (item : OutgoingMessage)
  | remove

def completionOps : ℕ → List OutgoingMessage → List CompletionOp
  | _, [] => [.remove]
  | index, item :: items => .write index item :: completionOps (index + 1) items

section Crash

variable (isFile : String → Bool) (now : ℕ) (name : FileName)

def CompletionOp.apply (q : QueueState) : CompletionOp → QueueState
  | .write index item => { q with outgoing := writeOutgoingMessage isFile q.outgoing item index now }
  | .remove => { q with processing := q.processing.erase name }

/-- What a crash after `k` of the operations leaves. -/
def crashAfter (q : QueueState) (batch : List OutgoingMessage) (k : ℕ) : QueueState :=
  run (CompletionOp.apply isFile now name) q ((completionOps 0 batch).take k)

/-- What the next start finds after a crash and some deliveries. -/
def restartAfter (q : QueueState) (batch : List OutgoingMessage) (k : ℕ) (d : Delivery) :
    QueueState :=
  { crashAfter isFile now name q batch k with
    outgoing := deliver (d.names q.outgoing (writtenNames isFile now q.outgoing 0 (batch.take k)))
      (crashAfter isFile now name q batch k).outgoing }

/-- Every message of the batch has a file of its own, which was delivered or is in
`outgoing`. -/
def BatchOut (outgoing outgoing' : Directory) (batch : List OutgoingMessage) (k : ℕ)
    (d : Delivery) : Prop :=
  ∀ (i : ℕ) (item : OutgoingMessage), batch[i]? = some item →
    ∃ n, (writtenNames isFile now outgoing 0 (batch.take k))[i]? = some n ∧
      (i ∈ d.replies ∨ outgoing'.lookup n = some (writtenFile isFile now item))

/-- The key of the claimed file is also that of a file in `outgoing` from before the
completion, of one of the first `k` messages, neither of them picked up, or of a
claimed file with a smaller name. -/
def LooksAnswered (q : QueueState) (name : FileName) (file : File) (batch : List OutgoingMessage)
    (k : ℕ) (d : Delivery) : Prop :=
  ∃ key, File.messageKey file = some key ∧
    ((∃ n f, q.outgoing.lookup n = some f ∧ n ∉ d.earlier ∧ isJsonFile n = true ∧
        File.answeredKey f = some key) ∨
      (∃ (i : ℕ) (item : OutgoingMessage), i < k ∧ batch[i]? = some item ∧ i ∉ d.replies ∧
        replyKey item = key ∧ Listed q.outgoing i item) ∨
      ∃ n f, q.processing.lookup n = some f ∧ n < name ∧ File.messageKey f = some key)

variable {isFile now name} {q : QueueState}

theorem run_completionOps_take : ∀ {items : List OutgoingMessage} {q : QueueState} (index : ℕ) {k : ℕ},
    k ≤ items.length → run (CompletionOp.apply isFile now name) q ((completionOps index items).take k) =
      { q with outgoing := writeOutgoingFrom isFile now q.outgoing index (items.take k) }
  | [], q, index, k, h => by
      obtain rfl : k = 0 := Nat.le_zero.mp h
      rfl
  | item :: items, q, index, 0, _ => rfl
  | item :: items, q, index, k + 1, h => by
      simp only [completionOps, List.take_succ_cons, run_cons, CompletionOp.apply, writeOutgoingFrom]
      exact run_completionOps_take (index + 1) (Nat.le_of_succ_le_succ h)

theorem run_completionOps : ∀ {items : List OutgoingMessage} {q : QueueState} (index : ℕ),
    run (CompletionOp.apply isFile now name) q (completionOps index items) =
      { q with
        outgoing := writeOutgoingFrom isFile now q.outgoing index items
        processing := q.processing.erase name }
  | [], q, index => rfl
  | item :: items, q, index => by
      simp only [completionOps, run_cons, CompletionOp.apply, writeOutgoingFrom]
      exact run_completionOps (index + 1)

variable {batch : List OutgoingMessage} {k : ℕ}

/-- Without a crash this is `complete_success_many`. -/
theorem completeSuccessMany_eq_run {claimed : ClaimedMessage} {file : File}
    (h : q.processing.lookup claimed.name = some file) (hne : batch.isEmpty = false) :
    completeSuccessMany isFile q claimed batch now =
      (run (CompletionOp.apply isFile now claimed.name) q (completionOps 0 batch), .ok ()) := by
  rw [completeSuccessMany_eq isFile h hne, run_completionOps]

theorem length_completionOps (index : ℕ) (items : List OutgoingMessage) :
    (completionOps index items).length = items.length + 1 := by
  induction items generalizing index with
  | nil => rfl
  | cons item items ih => simp only [completionOps, List.length_cons, ih]

/-- Up to the last write the claimed file is still there. -/
theorem crashAfter_eq (hk : k ≤ batch.length) :
    crashAfter isFile now name q batch k =
      { q with outgoing := writeOutgoingFrom isFile now q.outgoing 0 (batch.take k) } :=
  run_completionOps_take 0 hk

/-- Removing the claimed file does not touch `outgoing`. -/
theorem crashAfter_outgoing (q : QueueState) (batch : List OutgoingMessage) (k : ℕ) :
    (crashAfter isFile now name q batch k).outgoing =
      writeOutgoingFrom isFile now q.outgoing 0 (batch.take k) := by
  rcases Nat.lt_or_ge batch.length k with hlt | hle
  · rw [crashAfter, List.take_of_length_le (by rw [length_completionOps]; exact hlt),
      run_completionOps, List.take_of_length_le hlt.le]
  · rw [crashAfter_eq hle]

theorem restartAfter_outgoing (q : QueueState) (batch : List OutgoingMessage) (k : ℕ)
    (d : Delivery) : (restartAfter isFile now name q batch k d).outgoing =
      remaining isFile now q.outgoing (batch.take k) d := by
  rw [restartAfter, crashAfter_outgoing]
  rfl

/-- The batch is out exactly when all of it was written. -/
theorem batchOut_restartAfter_iff {d : Delivery} :
    BatchOut isFile now q.outgoing (restartAfter isFile now name q batch k d).outgoing batch k d ↔
      batch.length ≤ k := by
  rw [restartAfter_outgoing]
  constructor
  · intro hout
    by_contra hk
    obtain ⟨n, hn, _⟩ := hout k _ (List.getElem?_eq_getElem (not_le.mp hk))
    have hlt := (List.getElem?_eq_some_iff.mp hn).1
    rw [length_writtenNames, List.length_take] at hlt
    omega
  · intro hk i item hitem
    rw [List.take_of_length_le hk]
    have hlt : i < (writtenNames isFile now q.outgoing 0 batch).length := by
      rw [length_writtenNames]
      exact (List.getElem?_eq_some_iff.mp hitem).1
    refine ⟨_, List.getElem?_eq_getElem hlt, ?_⟩
    by_cases hpicked : i ∈ d.replies
    · exact .inl hpicked
    · exact .inr (lookup_remaining.mpr
        (.inr ⟨i, item, hitem, hpicked, List.getElem?_eq_getElem hlt, rfl⟩))

/-- What recovery judges by, said of what there was before the completion. -/
theorem countsAsAnswered_restartAfter_iff {d : Delivery} {file : File} (hk : k ≤ batch.length) :
    CountsAsAnswered (restartAfter isFile now name q batch k d) name file ↔
      LooksAnswered q name file batch k d := by
  unfold CountsAsAnswered LooksAnswered
  refine exists_congr fun key => and_congr_right fun _ => ?_
  have hprocessing : (restartAfter isFile now name q batch k d).processing = q.processing := by
    rw [restartAfter, crashAfter_eq hk]
  have htake : ∀ (i : ℕ) (item : OutgoingMessage),
      (batch.take k)[i]? = some item ↔ i < k ∧ batch[i]? = some item := by
    intro i item
    rw [List.getElem?_take]
    split <;> simp_all
  rw [restartAfter_outgoing, answered_remaining_iff, hprocessing, or_assoc]
  simp only [htake, and_assoc]

end Crash

/-- **Completion across a crash.** The process dies after `k` of the operations, some
outgoing files are delivered, and the next recovery goes through. Every message of
the batch is out, or the claimed file is back in `incoming` and not dropped: this
holds exactly if the crash came after the last write, or nothing makes the claimed
file look answered. -/
theorem crash_safe_iff (hash : List Char → List Char) (isFile : String → Bool) (now : ℕ)
    (q q' : QueueState) (report : ProcessingRecoveryReport) (claimed : ClaimedMessage) (file : File)
    (batch : List OutgoingMessage) (k : ℕ) (d : Delivery)
    (hfile : q.processing.lookup claimed.name = some file)
    (hrecover : recoverQueueProcessingPaths hash
      (restartAfter isFile now claimed.name q batch k d) = (q', .ok report)) :
    (BatchOut isFile now q.outgoing q'.outgoing batch k d ∨
        (claimed.name ∉ report.droppedDuplicates ∧
          ∃ target ∈ report.recovered, q'.incoming.lookup target = some file)) ↔
      batch.length ≤ k ∨ ¬ LooksAnswered q claimed.name file batch k d := by
  rw [recover_outgoing hrecover, batchOut_restartAfter_iff]
  by_cases hk : batch.length ≤ k
  · simp only [hk, true_or]
  · -- before the last write the claimed file is there for the recovery to judge
    have hle : k ≤ batch.length := (not_le.mp hk).le
    have hstill : (restartAfter isFile now claimed.name q batch k d).processing.lookup
        claimed.name = some file := by
      rw [restartAfter, crashAfter_eq hle]
      exact hfile
    obtain ⟨hdrop, hback⟩ := recover_fate hrecover hstill
    rw [countsAsAnswered_restartAfter_iff hle] at hdrop hback
    simp only [hk, false_or]
    constructor
    · rintro ⟨hnot, _⟩ hanswered
      exact hnot (hdrop hanswered).1
    · intro hno
      obtain ⟨hnot, index, hmem, hlookup⟩ := hback hno
      exact ⟨hnot, _, hmem, hlookup⟩

/-! ### One of two replies is written -/

def threadTarget : SlackTargetRef where
  channelProfileId := "profile-1"
  channelId := "C1"
  threadTs := some "5.0"
  postingMode := .threadReply

def twoReplies : List OutgoingMessage :=
  replies idleEnv inThread (some threadTarget)
    [("Step `plan` failed on attempt 1. Retrying.", "orchestrator"), ("done", "orchestrator")]

/-- What the next start makes of it, when `k` operations were done. -/
def recoverTwoReplies (k : ℕ) : QueueState × Except String ProcessingRecoveryReport :=
  recoverQueueProcessingPaths idleEnv.hash
    (restartAfter idleEnv.isFile 100 "a.json".toList (claimedFile inThread) twoReplies k {})

/-- The second reply was never written, and the message is dropped. -/
theorem half_written_batch_dropped :
    (claimedFile inThread).processing.lookup "a.json".toList =
      some ⟨1, .json inThread.encode⟩ ∧
    (recoverTwoReplies 1).2 = .ok { droppedDuplicates := ["a.json".toList] } ∧
    ¬ (BatchOut idleEnv.isFile 100 (claimedFile inThread).outgoing
        (recoverTwoReplies 1).1.outgoing twoReplies 1 {} ∨
      ∃ target, (recoverTwoReplies 1).1.incoming.lookup target =
        some ⟨1, .json inThread.encode⟩) := by
  refine ⟨rfl, rfl, ?_⟩
  rintro (hout | ⟨target, hin⟩)
  · obtain ⟨n, hn, _⟩ := hout 1 _ rfl
    cases hn
  · have hempty : (recoverTwoReplies 1).1.incoming = ∅ := rfl
    rw [hempty] at hin
    cases hin

theorem crash_safe_iff_before_writes :
    ∃ target, (recoverTwoReplies 0).1.incoming.lookup target =
      some ⟨1, .json inThread.encode⟩ := by
  have hsafe := (crash_safe_iff idleEnv.hash idleEnv.isFile 100 (claimedFile inThread) _
    { recovered := ["recovered_0_6025a12236ee54ba.json".toList] } ⟨"a.json".toList, inThread⟩ _
    twoReplies 0 {} rfl rfl).mpr (.inr ?_)
  · rcases hsafe with hout | ⟨_, target, _, hin⟩
    · obtain ⟨n, hn, _⟩ := hout 0 _ rfl
      cases hn
    · exact ⟨target, hin⟩
  · rintro ⟨key, _, ⟨n, f, hout, _⟩ | ⟨i, item, hlt, _⟩ | ⟨n, f, hproc, hlt, _⟩⟩
    · cases hout
    · exact absurd hlt (Nat.not_lt_zero i)
    · -- the claimed file is the only one
      have hn : n = "a.json".toList := by
        by_contra hne
        rw [claimedFile, Directory.lookup_insert, if_neg hne] at hproc
        cases hproc
      rw [hn] at hlt
      exact absurd hlt (lt_irrefl _)

/-! ## Complete batches on another channel -/

section Replies

variable {env : WorkerEnv} {settings : Settings} {inbound : IncomingMessage}
  {target : Option SlackTargetRef}

variable {responses : List (String × String)}

theorem replyKey_of_mem {item : OutgoingMessage} (h : item ∈ replies env inbound target responses) :
    item.channel = (outboundContext inbound target).channel ∧ item.messageId = inbound.messageId := by
  obtain ⟨i, hi, rfl⟩ := List.mem_mapIdx.mp h
  exact ⟨rfl, rfl⟩

/-- The replies keep the channel of the message, unless it is a scheduled trigger
with a Slack target. -/
theorem outboundContext_channel_iff
    (h : resolveOutboundSlackTarget env.text settings inbound = .ok target) :
    (outboundContext inbound target).channel = inbound.channel ↔
      (inbound.channel = "scheduler" → target = none) := by
  cases target with
  | none => simp [outboundContext]
  | some target =>
    by_cases hslack : inbound.channel = "slack"
    · rw [outboundContext, hslack]
      simp
    · by_cases hsched : inbound.channel = "scheduler"
      · rw [outboundContext, hsched]
        simp
      · simp [resolveOutboundSlackTarget, hslack, hsched] at h

/-- A file named `.json` is not read by the recovery; it is what a lone reply to a
heartbeat message without an id is called when the name is free. -/
def Readable (outgoing : Directory) (inbound : IncomingMessage)
    (responses : List (String × String)) : Prop :=
  ¬ (inbound.channel = "heartbeat" ∧ inbound.messageId = "") ∨
    outgoing.lookup jsonSuffix ≠ none ∨ 1 < responses.length

theorem answered_sameKey_iff {batch : List OutgoingMessage} {isFile : String → Bool}
    {outgoing : Directory} {now : ℕ}
    (hkeys : ∀ item ∈ batch, item.channel = inbound.channel ∧ item.messageId = inbound.messageId)
    (hlength : batch.length = responses.length) (hne : responses ≠ []) :
    Answered (writeOutgoingFrom isFile now outgoing 0 batch) (inbound.channel, inbound.messageId) ↔
      Answered outgoing (inbound.channel, inbound.messageId) ∨
        Readable outgoing inbound responses := by
  have hindex : ∀ i (hi : i < batch.length), Listed outgoing i batch[i] →
      ∃ (i : ℕ) (item : OutgoingMessage), batch[i]? = some item ∧
        replyKey item = (inbound.channel, inbound.messageId) ∧ Listed outgoing i item := by
    intro i hi hlisted
    refine ⟨i, batch[i], List.getElem?_eq_getElem hi, ?_, hlisted⟩
    rw [replyKey, (hkeys _ (List.getElem_mem hi)).1, (hkeys _ (List.getElem_mem hi)).2]
  have hpos : 0 < batch.length := by
    rw [hlength]
    exact List.length_pos_iff.mpr hne
  rw [answered_writeOutgoingFrom_iff]
  refine or_congr_right ?_
  constructor
  · rintro ⟨i, item, hitem, _, hno | hlater | htaken⟩
    · obtain ⟨hc, hid⟩ := hkeys item (List.mem_of_getElem? hitem)
      rw [hc, hid] at hno
      exact .inl hno
    · have hlt := (List.getElem?_eq_some_iff.mp hitem).1
      exact .inr (.inr (by omega))
    · exact .inr (.inl htaken)
  · -- the first reply is listed, or else the second one
    rintro (hno | htaken | hmany)
    · obtain ⟨hc, hid⟩ := hkeys _ (List.getElem_mem hpos)
      refine hindex 0 hpos (.inl ?_)
      rw [hc, hid]
      exact hno
    · exact hindex 0 hpos (.inr (.inr htaken))
    · exact hindex 1 (by omega) (.inr (.inl Nat.one_pos))

theorem answered_replies_iff {outgoing : Directory} {now : ℕ}
    (hresolve : resolveOutboundSlackTarget env.text settings inbound = .ok target)
    (hne : responses ≠ []) :
    Answered (writeOutgoingFrom env.isFile now outgoing 0 (replies env inbound target responses))
        (inbound.channel, inbound.messageId) ↔
      Answered outgoing (inbound.channel, inbound.messageId) ∨
        ((inbound.channel = "scheduler" → target = none) ∧ Readable outgoing inbound responses) := by
  rw [← outboundContext_channel_iff hresolve]
  by_cases hsame : (outboundContext inbound target).channel = inbound.channel
  · rw [and_iff_right hsame]
    refine answered_sameKey_iff (fun item hmem => ?_) (by simp [replies]) hne
    exact ⟨(replyKey_of_mem hmem).1.trans hsame, (replyKey_of_mem hmem).2⟩
  · -- no reply has the message's channel, so no write adds its key
    simp only [hsame, false_and, or_false]
    rw [answered_writeOutgoingFrom_iff]
    refine or_iff_left ?_
    rintro ⟨i, item, hitem, hkey, _⟩
    have hmem := List.mem_of_getElem? hitem
    exact hsame ((replyKey_of_mem hmem).1.symm.trans (Prod.mk.inj hkey).1)

end Replies

/-- **Answered messages, exactly.** All replies to a claimed message are written, the
process dies before it removes the claimed file, and the next recovery goes through.
It drops the file if and only if the replies are on the message's own channel and
can be read, or another outgoing file or an earlier claimed file has the key. -/
theorem answered_dropped_iff (env : WorkerEnv) (settings : Settings) (q q' : QueueState)
    (report : ProcessingRecoveryReport) (name : FileName) (file : File) (inbound : IncomingMessage)
    (target : Option SlackTargetRef) (action : RoutedSelectorAction) (now : ℕ)
    (hfile : q.processing.lookup name = some file)
    (hpayload : file.content.payload = some inbound)
    (hresolve : resolveOutboundSlackTarget env.text settings (normalizeInboundPayload inbound) =
      .ok target)
    (haction : ∀ reason, action ≠ .noResponse reason)
    (hrecover : recoverQueueProcessingPaths env.hash { q with
      outgoing := writeOutgoingFrom env.isFile now q.outgoing 0 (replies env
        (normalizeInboundPayload inbound) target (actionToOutboundMessages env action)) } =
      (q', .ok report)) :
    (name ∈ report.droppedDuplicates ∧ q'.processing.lookup name = none) ↔
      ((inbound.channel = "scheduler" → target = none) ∧
          Readable q.outgoing inbound (actionToOutboundMessages env action)) ∨
        Answered q.outgoing (inbound.channel, inbound.messageId) ∨
        ∃ n f, q.processing.lookup n = some f ∧ n < name ∧
          File.messageKey f = some (inbound.channel, inbound.messageId) := by
  obtain ⟨hdrop, hback⟩ := recover_fate hrecover hfile
  have hkey : File.messageKey file = some (inbound.channel, inbound.messageId) := by
    rw [File.messageKey, hpayload]
    rfl
  have hreplies := @answered_replies_iff env settings (normalizeInboundPayload inbound) target
    (actionToOutboundMessages env action) q.outgoing now hresolve
    (actionToOutboundMessages_ne_nil haction)
  have hiff : CountsAsAnswered { q with
      outgoing := writeOutgoingFrom env.isFile now q.outgoing 0 (replies env
        (normalizeInboundPayload inbound) target (actionToOutboundMessages env action)) } name file ↔
      ((inbound.channel = "scheduler" → target = none) ∧
          Readable q.outgoing inbound (actionToOutboundMessages env action)) ∨
        Answered q.outgoing (inbound.channel, inbound.messageId) ∨
        ∃ n f, q.processing.lookup n = some f ∧ n < name ∧
          File.messageKey f = some (inbound.channel, inbound.messageId) := by
    simp only [CountsAsAnswered, hkey, Option.some.injEq, exists_eq_left']
    rw [← or_assoc]
    refine or_congr_left (hreplies.trans or_comm)
  rw [← hiff]
  constructor
  · intro h
    by_contra hno
    exact (hback hno).1 h.1
  · exact hdrop

/-! ### A scheduled trigger answered on Slack -/

def triggerText : String :=
  "\x7b\"jobId\":\"job-1\",\"executionId\":\"exec-1\"," ++
  "\"triggeredAt\":5,\"orchestratorId\":\"main\"," ++
  "\"targetAction\":\x7b\"type\":\"workflow_start\"," ++
  "\"workflow_id\":\"flow\"\x7d," ++
  "\"targetRef\":\x7b\"channel\":\"slack\"," ++
  "\"channelProfileId\":\"profile-1\",\"channelId\":\"C1\"," ++
  "\"postingMode\":\"channel_post\"\x7d\x7d"

/-- Piece by piece: the whole text is too long to be evaluated at once. -/
theorem bracket_not_mem_triggerText : '[' ∉ triggerText.toList := by
  have happend := @Text.not_mem_toList_append '['
  refine happend (happend (happend (happend (happend (happend ?_ ?_) ?_) ?_) ?_) ?_) ?_
  all_goals decide

def triggerJson : Json :=
  .object [("jobId", .str "job-1"), ("executionId", .str "exec-1"), ("triggeredAt", .int 5),
    ("orchestratorId", .str "main"),
    ("targetAction", .object [("type", .str "workflow_start"), ("workflow_id", .str "flow")]),
    ("targetRef", .object [("channel", .str "slack"), ("channelProfileId", .str "profile-1"),
      ("channelId", .str "C1"), ("postingMode", .str "channel_post")])]

/-- The idle orchestrator, with a reader that knows the trigger. -/
def triggerEnv : WorkerEnv :=
  { idleEnv with
    text := { idleEnv.text with
      fromStr := fun text => if text = triggerText then some triggerJson else none } }

def triggerMessage : IncomingMessage where
  channel := "scheduler"
  sender := "scheduler:main"
  senderId := "scheduler"
  message := triggerText
  timestamp := 5
  messageId := "sched-exec-1"

def triggerTarget : SlackTargetRef where
  channelProfileId := "profile-1"
  channelId := "C1"
  postingMode := .channelPost

/-- The queue when all replies to a message are written and its file is still
claimed. -/
def repliesWritten (env : WorkerEnv) (inbound : IncomingMessage) (target : Option SlackTargetRef)
    (action : RoutedSelectorAction) : QueueState :=
  { claimedFile inbound with
    outgoing := writeOutgoingFrom env.isFile 100 ∅ 0
      (replies env (normalizeInboundPayload inbound) target (actionToOutboundMessages env action)) }

/-- The trigger was answered on Slack, and goes back to `incoming` to run again. -/
theorem answered_trigger_recovered :
    (claimedFile triggerMessage).processing.lookup "a.json".toList =
      some ⟨1, .json triggerMessage.encode⟩ ∧
    resolveOutboundSlackTarget triggerEnv.text sampleSettings
      (normalizeInboundPayload triggerMessage) = .ok (some triggerTarget) ∧
    (recoverQueueProcessingPaths triggerEnv.hash (repliesWritten triggerEnv triggerMessage
      (some triggerTarget) (.workflowStart "run-1" "flow"))).2 =
        .ok { recovered := ["recovered_0_6025a12236ee54ba.json".toList] } := by
  have hnormal : normalizeInboundPayload triggerMessage = triggerMessage :=
    normalizeInboundPayload_of_no_tags rfl bracket_not_mem_triggerText
  refine ⟨rfl, ?_, ?_⟩
  · rw [hnormal]
    decide +kernel
  · rw [repliesWritten, hnormal]
    rfl

theorem answered_dropped_iff_thread :
    (recoverQueueProcessingPaths idleEnv.hash (repliesWritten idleEnv inThread
      (some threadTarget) (.workflowStart "run-1" "flow"))).1.processing.lookup "a.json".toList =
        none := by
  refine ((answered_dropped_iff idleEnv sampleSettings (claimedFile inThread) _ _
    "a.json".toList _ inThread (some threadTarget) (.workflowStart "run-1" "flow") 100 rfl rfl
    rfl (by simp) (show recoverQueueProcessingPaths idleEnv.hash (repliesWritten idleEnv
      inThread (some threadTarget) (.workflowStart "run-1" "flow")) = (_, .ok _) from rfl)).mpr
    (.inl ⟨?_, ?_⟩)).2
  · intro h
    exact absurd h (by decide)
  · exact .inl (by decide)

end Direclaw.Runtime
