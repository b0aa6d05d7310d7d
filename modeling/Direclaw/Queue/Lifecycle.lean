import Direclaw.Queue.FileTags
import Direclaw.Queue.Paths

/-!
# The life of a queue file

`queue/lifecycle.rs` as functions on the four queue directories and the requeue
counter. Every operation returns the state it leaves and its result; file-system
calls fail only when the file is not there.
-/

namespace Direclaw.Queue

open Direclaw.Lib

structure QueueState where
  incoming : Directory := ∅
  processing : Directory := ∅
  outgoing : Directory := ∅
  failed : Directory := ∅
  requeueCounter : ℕ := 0

/-- `REQUEUE_COUNTER.fetch_add(1)`. -/
def QueueState.bumpCounter (q : QueueState) : QueueState :=
  { q with requeueCounter := (q.requeueCounter + 1) % 2 ^ 64 }

inductive QueueError : Type where
  | notFound (name : FileName)
  | invalidInput (name : FileName) (message : String)
  | notUtf8 (name : FileName)
  | parse (name : FileName)
deriving DecidableEq, Repr

/-- A claimed message; its file has the same name in both directories. -/
structure ClaimedMessage where
  name : FileName
  payload : IncomingMessage
deriving DecidableEq

structure RequeuedMessage where
  name : FileName
  attempt : ℕ
deriving DecidableEq, Repr

inductive FailureDisposition : Type where
  | requeued (message : RequeuedMessage)
  | deadLettered (name : FileName) (attempt : ℕ)
deriving DecidableEq, Repr

/-- What `read_to_string` and `serde_json::from_str::<IncomingMessage>` make of a
file. -/
def Content.readIncoming (name : FileName) : Content → Except QueueError IncomingMessage
  | .notUtf8 _ => .error (.notUtf8 name)
  | .notJson _ => .error (.parse name)
  | .json value =>
    match IncomingMessage.decode value with
    | some payload => .ok payload
    | none => .error (.parse name)

/-- The payload of a well-formed file. -/
def Content.payload : Content → Option IncomingMessage
  | .json value => IncomingMessage.decode value
  | _ => none

theorem Content.readIncoming_of_some {c : Content} {p : IncomingMessage} (h : c.payload = some p)
    (name : FileName) : c.readIncoming name = .ok p := by
  cases c with
  | notUtf8 bytes => cases h
  | notJson text => cases h
  | json value => simp only [Content.readIncoming, show IncomingMessage.decode value = some p from h]

theorem Content.readIncoming_of_none {c : Content} (h : c.payload = none) (name : FileName) :
    ∃ err, c.readIncoming name = .error err := by
  cases c with
  | notUtf8 bytes => exact ⟨_, rfl⟩
  | notJson text => exact ⟨_, rfl⟩
  | json value =>
    exact ⟨.parse name, by
      simp only [Content.readIncoming, show IncomingMessage.decode value = none from h]⟩

def Content.readOutgoing : Content → Option OutgoingMessage
  | .json value => OutgoingMessage.decode value
  | _ => none

/-! ## Requeueing -/

section Operations

variable (hash : List Char → List Char)

def requeueProcessingFile (q : QueueState) (name : FileName) :
    QueueState × Except QueueError RequeuedMessage :=
  let attempt := Text.u32Succ (requeueAttemptFromName name)
  let target := uniqueRequeueName hash name attempt q.requeueCounter
  let q := q.bumpCounter
  match q.processing.lookup name with
  | none => (q, .error (.notFound name))
  | some file =>
    ({ q with
        processing := q.processing.erase name
        incoming := q.incoming.insert target file },
      .ok { name := target, attempt := attempt })

def requeueFailure (q : QueueState) (claimed : ClaimedMessage) :
    QueueState × Except QueueError RequeuedMessage :=
  requeueProcessingFile hash q claimed.name

/-! ## Claiming -/

/-- Oldest first, then by name. -/
def claimOrder (a b : FileName × File) : Prop :=
  toLex (a.2.modified, a.1) ≤ toLex (b.2.modified, b.1)

instance claimOrder.decidable : DecidableRel claimOrder :=
  fun a b => inferInstanceAs (Decidable (toLex (a.2.modified, a.1) ≤ toLex (b.2.modified, b.1)))

def sortedIncoming (incoming : Directory) : List (FileName × File) :=
  ((incoming.entries.map fun e => (e.1, e.2)).filter
    fun e => isValidQueueJsonFilename e.1).insertionSort claimOrder

def claimFirst (q : QueueState) : List (FileName × File) →
    QueueState × Except QueueError (Option ClaimedMessage)
  | [] => (q, .ok none)
  | (name, _) :: rest =>
    match q.incoming.lookup name with
    | none => claimFirst q rest
    | some file =>
      let q := { q with
        incoming := q.incoming.erase name
        processing := q.processing.insert name file }
      match file.content.readIncoming name with
      | .error err =>
        match requeueProcessingFile hash q name with
        | (q, .ok _) => (q, .error err)
        | (q, .error requeueErr) => (q, .error requeueErr)
      | .ok payload =>
        (q, .ok (some { name := name, payload := normalizeInboundPayload payload }))

def claimOldest (q : QueueState) : QueueState × Except QueueError (Option ClaimedMessage) :=
  claimFirst hash q (sortedIncoming q.incoming)

/-! ## Dead letters -/

def deadLetterFailure (q : QueueState) (claimed : ClaimedMessage) (failureAttempt : ℕ)
    (error : String) (now : Int) : QueueState × Except QueueError FileName :=
  let target := deadLetterFilename hash claimed.payload.messageId q.requeueCounter
  let q := q.bumpCounter
  let envelope : Json := .object [("failed_at", .int now), ("failure_attempt", .int failureAttempt),
    ("error", .str error), ("source_processing_path", .str (String.ofList claimed.name)),
    ("message", claimed.payload.encode)]
  let q := { q with failed := q.failed.insert target ⟨now.toNat, .json envelope⟩ }
  match q.processing.lookup claimed.name with
  | none => (q, .error (.notFound claimed.name))
  | some _ => ({ q with processing := q.processing.erase claimed.name }, .ok target)

def requeueOrDeadLetterFailure (q : QueueState) (claimed : ClaimedMessage)
    (maxRequeueAttempts : ℕ) (error : String) (now : Int) :
    QueueState × Except QueueError FailureDisposition :=
  let attempt := nextFailureAttempt claimed.name
  if max maxRequeueAttempts 1 ≤ attempt then
    match deadLetterFailure hash q claimed attempt error now with
    | (q, .ok name) => (q, .ok (.deadLettered name attempt))
    | (q, .error err) => (q, .error err)
  else
    match requeueProcessingFile hash q claimed.name with
    | (q, .ok requeued) => (q, .ok (.requeued requeued))
    | (q, .error err) => (q, .error err)

/-! ## Completion -/

variable (isFile : String → Bool)

/-- The first name, from `startIndex` on, that is free in `outgoing`. Among one
more candidate than there are files one is free. -/
def freeOutgoingFilename (outgoing : Directory) (item : OutgoingMessage) (startIndex : ℕ) :
    Option FileName :=
  (((List.range (outgoing.keys.length + 1)).map fun i =>
    uniqueOutgoingFilename item.channel item.messageId item.timestamp (startIndex + i))).find?
      fun name => (outgoing.lookup name).isNone

/-- `write_outgoing_message`: one file write. The line it logs about omitted files
is not kept. -/
def writeOutgoingMessage (outgoing : Directory) (item : OutgoingMessage) (startIndex : ℕ)
    (now : ℕ) : Directory :=
  let normalized := (normalizeOutgoingMessage isFile item).1
  match freeOutgoingFilename outgoing item startIndex with
  | some name => outgoing.insert name ⟨now, .json normalized.encode⟩
  | none => outgoing

/-- The writes of the loop in `complete_success_many`, from `index` on. -/
def writeOutgoingFrom (now : ℕ) : Directory → ℕ → List OutgoingMessage → Directory
  | outgoing, _, [] => outgoing
  | outgoing, index, item :: items =>
    writeOutgoingFrom now (writeOutgoingMessage isFile outgoing item index now) (index + 1) items

/-- `fs::remove_file` of the claimed file. -/
def removeProcessing (q : QueueState) (name : FileName) : QueueState × Except QueueError Unit :=
  match q.processing.lookup name with
  | none => (q, .error (.notFound name))
  | some _ => ({ q with processing := q.processing.erase name }, .ok ())

def completeSuccessMany (q : QueueState) (claimed : ClaimedMessage)
    (outgoing : List OutgoingMessage) (now : ℕ) : QueueState × Except QueueError Unit :=
  if outgoing.isEmpty then
    (q, .error (.invalidInput claimed.name
      "complete_success_many requires at least one outgoing message"))
  else
    removeProcessing { q with outgoing := writeOutgoingFrom isFile now q.outgoing 0 outgoing }
      claimed.name

def completeSuccessNoOutgoing (q : QueueState) (claimed : ClaimedMessage) :
    QueueState × Except QueueError Unit :=
  removeProcessing q claimed.name

end Operations

/-! ## Outgoing files are never replaced -/

section Outgoing

/-- The search for a free name ends: there are more candidates than files. -/
theorem freeOutgoingFilename_spec (outgoing : Directory) (item : OutgoingMessage)
    (startIndex : ℕ) :
    ∃ name, freeOutgoingFilename outgoing item startIndex = some name ∧
      outgoing.lookup name = none := by
  cases hfind : freeOutgoingFilename outgoing item startIndex with
  | some name =>
    refine ⟨name, rfl, ?_⟩
    simpa using List.find?_some hfind
  | none =>
    have hall := List.find?_eq_none.mp hfind
    have hsub : ((List.range (outgoing.keys.length + 1)).map fun i => uniqueOutgoingFilename
        item.channel item.messageId item.timestamp (startIndex + i)) ⊆ outgoing.keys := by
      intro name hmem
      have hsome := hall name hmem
      rw [Option.isNone_iff_eq_none, ← ne_eq, ← Option.isSome_iff_ne_none] at hsome
      exact AList.lookup_isSome.mp hsome
    have hnodup : ((List.range (outgoing.keys.length + 1)).map fun i => uniqueOutgoingFilename
        item.channel item.messageId item.timestamp (startIndex + i)).Nodup := by
      refine List.Nodup.map ?_ List.nodup_range
      intro i j hij
      exact Nat.add_left_cancel (uniqueOutgoingFilename_injective _ _ _ hij)
    have hlen := (List.subperm_of_subset hnodup hsub).length_le
    simp only [List.length_map, List.length_range] at hlen
    exact absurd hlen (Nat.not_succ_le_self _)

variable (isFile : String → Bool)

theorem writeOutgoingMessage_keeps {outgoing : Directory} {n : FileName} {f : File}
    (h : outgoing.lookup n = some f) (item : OutgoingMessage) (index now : ℕ) :
    (writeOutgoingMessage isFile outgoing item index now).lookup n = some f := by
  obtain ⟨name, hname, hfree⟩ := freeOutgoingFilename_spec outgoing item index
  simp only [writeOutgoingMessage, hname]
  rw [Directory.lookup_insert, if_neg, h]
  rintro rfl
  rw [h] at hfree
  cases hfree

theorem writeOutgoingFrom_keeps {n : FileName} {f : File} (now : ℕ) :
    ∀ (items : List OutgoingMessage) {outgoing : Directory} (index : ℕ),
    outgoing.lookup n = some f → (writeOutgoingFrom isFile now outgoing index items).lookup n = some f
  | [], _, _, h => h
  | item :: items, _, index, h =>
    writeOutgoingFrom_keeps now items (index + 1) (writeOutgoingMessage_keeps isFile h item index now)

end Outgoing

/-! ## What settling a claimed file does -/

section Settling

variable (hash : List Char → List Char) {q : QueueState} {name : FileName} {file : File}

/-- The name under which `requeue_processing_file` puts a file back. -/
def requeueTarget (q : QueueState) (name : FileName) : FileName :=
  uniqueRequeueName hash name (Text.u32Succ (requeueAttemptFromName name)) q.requeueCounter

theorem requeueProcessingFile_eq (h : q.processing.lookup name = some file) :
    requeueProcessingFile hash q name =
      ({ q.bumpCounter with
          processing := q.processing.erase name
          incoming := q.incoming.insert (requeueTarget hash q name) file },
        .ok { name := requeueTarget hash q name
              attempt := Text.u32Succ (requeueAttemptFromName name) }) := by
  simp only [requeueProcessingFile, QueueState.bumpCounter, h, requeueTarget]

variable {claimed : ClaimedMessage}

theorem deadLetterFailure_eq (h : q.processing.lookup claimed.name = some file) (attempt : ℕ)
    (error : String) (now : Int) :
    ∃ envelope, deadLetterFailure hash q claimed attempt error now =
      ({ q.bumpCounter with
          processing := q.processing.erase claimed.name
          failed := q.failed.insert
            (deadLetterFilename hash claimed.payload.messageId q.requeueCounter) envelope },
        .ok (deadLetterFilename hash claimed.payload.messageId q.requeueCounter)) := by
  simp only [deadLetterFailure, QueueState.bumpCounter, h]
  exact ⟨_, rfl⟩

theorem requeueOrDeadLetterFailure_cases (h : q.processing.lookup claimed.name = some file)
    (maxRequeueAttempts : ℕ) (error : String) (now : Int) :
    (max maxRequeueAttempts 1 ≤ nextFailureAttempt claimed.name ∧
      ∃ envelope, requeueOrDeadLetterFailure hash q claimed maxRequeueAttempts error now =
        ({ q.bumpCounter with
            processing := q.processing.erase claimed.name
            failed := q.failed.insert
              (deadLetterFilename hash claimed.payload.messageId q.requeueCounter) envelope },
          .ok (.deadLettered (deadLetterFilename hash claimed.payload.messageId q.requeueCounter)
            (nextFailureAttempt claimed.name)))) ∨
    (nextFailureAttempt claimed.name < max maxRequeueAttempts 1 ∧
      requeueOrDeadLetterFailure hash q claimed maxRequeueAttempts error now =
        ({ q.bumpCounter with
            processing := q.processing.erase claimed.name
            incoming := q.incoming.insert (requeueTarget hash q claimed.name) file },
          .ok (.requeued { name := requeueTarget hash q claimed.name
                           attempt := nextFailureAttempt claimed.name }))) := by
  by_cases hmax : max maxRequeueAttempts 1 ≤ nextFailureAttempt claimed.name
  · obtain ⟨envelope, he⟩ :=
      deadLetterFailure_eq hash h (nextFailureAttempt claimed.name) error now
    refine .inl ⟨hmax, envelope, ?_⟩
    simp only [requeueOrDeadLetterFailure, if_pos hmax, he]
  · refine .inr ⟨not_le.mp hmax, ?_⟩
    simp only [requeueOrDeadLetterFailure, if_neg hmax, requeueProcessingFile_eq hash h]
    rfl

theorem removeProcessing_eq (h : q.processing.lookup name = some file) :
    removeProcessing q name = ({ q with processing := q.processing.erase name }, .ok ()) := by
  simp only [removeProcessing, h]

theorem completeSuccessMany_eq (isFile : String → Bool)
    (h : q.processing.lookup claimed.name = some file) {outgoing : List OutgoingMessage}
    (hne : outgoing.isEmpty = false) (now : ℕ) :
    completeSuccessMany isFile q claimed outgoing now =
      ({ q with
          outgoing := writeOutgoingFrom isFile now q.outgoing 0 outgoing
          processing := q.processing.erase claimed.name }, .ok ()) := by
  simp only [completeSuccessMany, hne, removeProcessing, h, Bool.false_eq_true, if_false]

end Settling

/-! ## What claiming does -/

/-- The file is in `incoming` under a name that the queue looks at. -/
def Listed (incoming : Directory) (name : FileName) (file : File) : Prop :=
  incoming.lookup name = some file ∧ isValidQueueJsonFilename name = true

variable {incoming : Directory}

theorem Listed.unique {name : FileName} {f g : File} (hf : Listed incoming name f)
    (hg : Listed incoming name g) : f = g :=
  Option.some.inj (hf.1.symm.trans hg.1)

theorem mem_sortedIncoming {name : FileName} {file : File} :
    (name, file) ∈ sortedIncoming incoming ↔ Listed incoming name file := by
  rw [sortedIncoming, List.mem_insertionSort, List.mem_filter, Directory.mem_entries, Listed]

instance : Std.Total claimOrder := ⟨fun _ _ => le_total _ _⟩

instance : IsTrans (FileName × File) claimOrder := ⟨fun _ _ _ => le_trans⟩

/-- The first entry is the least one. -/
theorem sortedIncoming_head {name : FileName} {file : File} {rest : List (FileName × File)}
    (h : sortedIncoming incoming = (name, file) :: rest) :
    Listed incoming name file ∧ ∀ n f, Listed incoming n f →
      toLex (file.modified, name) ≤ toLex (f.modified, n) := by
  have hmem : (name, file) ∈ sortedIncoming incoming := by rw [h]; exact List.mem_cons_self
  refine ⟨mem_sortedIncoming.mp hmem, ?_⟩
  intro n f hlisted
  have hsorted : (sortedIncoming incoming).Pairwise claimOrder := List.pairwise_insertionSort _ _
  have hother := mem_sortedIncoming.mpr hlisted
  rw [h] at hsorted hother
  rcases List.mem_cons.mp hother with heq | hrest
  · cases heq
    exact le_refl _
  · exact (List.pairwise_cons.mp hsorted).1 _ hrest

section Claiming

variable (hash : List Char → List Char)

/-- The state after a file that cannot be read was claimed and put back. -/
def afterBadClaim (q : QueueState) (name : FileName) (file : File) : QueueState :=
  { q.bumpCounter with
    incoming := (q.incoming.erase name).insert (requeueTarget hash q name) file
    processing := (q.processing.insert name file).erase name }

def afterClaim (q : QueueState) (name : FileName) (file : File) : QueueState :=
  { q with
    incoming := q.incoming.erase name
    processing := q.processing.insert name file }

/-- `claim_oldest` takes the first listed file: it returns its message, or puts it
back under a requeue name when it cannot be read. -/
theorem claimOldest_cases (q : QueueState) :
    (sortedIncoming q.incoming = [] ∧ claimOldest hash q = (q, .ok none)) ∨
    (∃ name file, (sortedIncoming q.incoming).head? = some (name, file) ∧
      Listed q.incoming name file ∧
      (∀ n f, Listed q.incoming n f → toLex (file.modified, name) ≤ toLex (f.modified, n)) ∧
      ((∃ payload, file.content.payload = some payload ∧
          claimOldest hash q = (afterClaim q name file,
            .ok (some { name := name, payload := normalizeInboundPayload payload }))) ∨
        (file.content.payload = none ∧
          ∃ err, claimOldest hash q = (afterBadClaim hash q name file, .error err)))) := by
  cases hs : sortedIncoming q.incoming with
  | nil => exact .inl ⟨rfl, by rw [claimOldest, hs, claimFirst]⟩
  | cons e rest =>
    obtain ⟨name, file⟩ := e
    obtain ⟨hlisted, hmin⟩ := sortedIncoming_head hs
    refine .inr ⟨name, file, rfl, hlisted, hmin, ?_⟩
    have hlookup : q.incoming.lookup name = some file := hlisted.1
    cases hp : file.content.payload with
    | some payload =>
      refine .inl ⟨payload, rfl, ?_⟩
      simp only [claimOldest, hs, claimFirst, hlookup, Content.readIncoming_of_some hp,
        afterClaim]
    | none =>
      obtain ⟨err, herr⟩ := Content.readIncoming_of_none hp name
      refine .inr ⟨rfl, err, ?_⟩
      simp only [claimOldest, hs, claimFirst, hlookup, herr, requeueProcessingFile,
        QueueState.bumpCounter, Directory.lookup_insert, afterBadClaim, requeueTarget, if_true]

end Claiming

end Direclaw.Queue
