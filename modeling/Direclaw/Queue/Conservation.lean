import Direclaw.Lib.Custody
import Direclaw.Lib.Run
import Direclaw.Queue.Claiming

/-!
# No message is lost

Along every sequence of queue operations in one process, each message that was
ever enqueued is in exactly one place: a file of `incoming`, of `processing` or of
`failed`, or consumed by a completion. The proof is that no rename or write lands
on a name in use. Requeue and dead-letter names end in a counter that is never
used twice, so they differ from each other and from every earlier one; what is
left is that producers stay away from the names that are still to come.
-/

namespace Direclaw.Queue

open Direclaw.Lib

/-! ## Operations and places -/

inductive Place : Type where
  | incoming (name : FileName)
  | processing (name : FileName)
  | failed (name : FileName)
  | consumed
deriving DecidableEq, Repr

inductive QueueOp : Type where
  | enqueue (name : FileName) (file : File)
  | claimOldest
  | completeSuccessMany (claimed : ClaimedMessage) (outgoing : List OutgoingMessage) (now : ℕ)
  | completeSuccessNoOutgoing (claimed : ClaimedMessage)
  | requeueFailure (claimed : ClaimedMessage)
  | requeueOrDeadLetterFailure (claimed : ClaimedMessage) (maxRequeueAttempts : ℕ)
      (error : String) (now : Int)

/-- The queue with a ledger of every message ever enqueued: its bytes, and where
it is. -/
structure TrackedQueue where
  queue : QueueState := {}
  ledger : List (Content × Place) := []

/-- The bytes an operation brings into the queue. -/
def QueueOp.enqueued : QueueOp → Option Content
  | .enqueue _ file => some file.content
  | _ => none

/-- What is at a place. A dead letter is an envelope around the message, so its
bytes are not compared. -/
def QueueState.holds (q : QueueState) : Place → Content → Prop
  | .incoming name, c => ∃ file, q.incoming.lookup name = some file ∧ file.content = c
  | .processing name, c => ∃ file, q.processing.lookup name = some file ∧ file.content = c
  | .failed name, _ => (q.failed.lookup name).isSome
  | .consumed, _ => False

section Steps

variable (hash : List Char → List Char) (isFile : String → Bool)

/-- Which message a call of `claim_oldest` moves, and where to. -/
def claimMove (q : QueueState) : Option (Place × Place) :=
  match (sortedIncoming q.incoming).head? with
  | none => none
  | some (name, file) =>
    if file.content.payload.isSome then some (.incoming name, .processing name)
    else
      some (.incoming name, .incoming (requeueTarget hash q name))

namespace TrackedQueue

/-- The queue after an operation, and the move it makes in the ledger. -/
def step (t : TrackedQueue) : QueueOp → TrackedQueue
  | .enqueue name file =>
    { queue := { t.queue with incoming := t.queue.incoming.insert name file }
      ledger := t.ledger ++ [(file.content, .incoming name)] }
  | .claimOldest =>
    { queue := (claimOldest hash t.queue).1
      ledger :=
        match claimMove hash t.queue with
        | some (src, dst) => moveTokens src dst t.ledger
        | none => t.ledger }
  | .completeSuccessMany claimed outgoing now =>
    match completeSuccessMany isFile t.queue claimed outgoing now with
    | (queue, .ok ()) =>
      { queue := queue, ledger := moveTokens (.processing claimed.name) .consumed t.ledger }
    | (queue, .error _) => { t with queue := queue }
  | .completeSuccessNoOutgoing claimed =>
    match completeSuccessNoOutgoing t.queue claimed with
    | (queue, .ok ()) =>
      { queue := queue, ledger := moveTokens (.processing claimed.name) .consumed t.ledger }
    | (queue, .error _) => { t with queue := queue }
  | .requeueFailure claimed =>
    match requeueFailure hash t.queue claimed with
    | (queue, .ok requeued) =>
      { queue := queue
        ledger := moveTokens (.processing claimed.name) (.incoming requeued.name) t.ledger }
    | (queue, .error _) => { t with queue := queue }
  | .requeueOrDeadLetterFailure claimed maxRequeueAttempts error now =>
    match requeueOrDeadLetterFailure hash t.queue claimed maxRequeueAttempts error now with
    | (queue, .ok (.requeued requeued)) =>
      { queue := queue
        ledger := moveTokens (.processing claimed.name) (.incoming requeued.name) t.ledger }
    | (queue, .ok (.deadLettered name _)) =>
      { queue := queue
        ledger := moveTokens (.processing claimed.name) (.failed name) t.ledger }
    | (queue, .error _) => { t with queue := queue }

end TrackedQueue

/-- A name that `unique_requeue_name` can still return. -/
def StillToCome (q : QueueState) (name : FileName) : Prop :=
  ∃ original attempt counter, isValidQueueJsonFilename original = true ∧
    q.requeueCounter ≤ counter ∧ name = uniqueRequeueName hash original attempt counter

/-- What callers keep to: a producer takes a name that is not in use, and a
claimed message is settled while its file is in `processing`. -/
def CallersKeep (t : TrackedQueue) : QueueOp → Prop
  | .enqueue name _ =>
    t.queue.incoming.lookup name = none ∧ t.queue.processing.lookup name = none
  | .claimOldest => True
  | .completeSuccessMany claimed _ _ | .completeSuccessNoOutgoing claimed
  | .requeueFailure claimed | .requeueOrDeadLetterFailure claimed _ _ _ =>
    (t.queue.processing.lookup claimed.name).isSome

/-- Besides, producers stay away from requeue names still to come. -/
def ProducersKeep (t : TrackedQueue) (op : QueueOp) : Prop :=
  CallersKeep t op ∧ ∀ name file, op = .enqueue name file → ¬ StillToCome hash t.queue name

end Steps

/-! ## The invariant -/

/-- Names in use are disjoint from each other and from those still to come. -/
structure NamesApart (hash : List Char → List Char) (q : QueueState) : Prop where
  disjoint : ∀ name, (q.incoming.lookup name).isSome → q.processing.lookup name = none
  valid : ∀ name, (q.processing.lookup name).isSome → isValidQueueJsonFilename name = true
  incoming : ∀ name, (q.incoming.lookup name).isSome → ¬ StillToCome hash q name
  processing : ∀ name, (q.processing.lookup name).isSome → ¬ StillToCome hash q name
  failed : ∀ name, (q.failed.lookup name).isSome →
    ∀ id counter, q.requeueCounter ≤ counter → name ≠ deadLetterFilename hash id counter

structure QueueInv (hash : List Char → List Char) (t : TrackedQueue) : Prop where
  names : NamesApart hash t.queue
  custody : InCustody Place.consumed t.queue.holds t.ledger

/-! ## Names -/

section Names

variable {hash : List Char → List Char} {q q' : QueueState} {name : FileName}

theorem StillToCome.mono (hle : q.requeueCounter ≤ q'.requeueCounter)
    (h : StillToCome hash q' name) : StillToCome hash q name := by
  obtain ⟨original, attempt, counter, hvalid, hc, hname⟩ := h
  exact ⟨original, attempt, counter, hvalid, hle.trans hc, hname⟩

theorem stillToCome_requeueTarget (hvalid : isValidQueueJsonFilename name = true) :
    StillToCome hash q (requeueTarget hash q name) :=
  ⟨name, _, q.requeueCounter, hvalid, le_refl _, rfl⟩

/-- Once the counter has moved on it is not. -/
theorem not_stillToCome_requeueTarget (hlt : q.requeueCounter < q'.requeueCounter) :
    ¬ StillToCome hash q' (requeueTarget hash q name) := by
  rintro ⟨original, attempt, counter, hvalid', hc, hname⟩
  have heq := uniqueRequeueName_counter hname
  omega

/-- The target of a requeue is in use nowhere. -/
theorem NamesApart.requeueTarget_free (h : NamesApart hash q)
    (hvalid : isValidQueueJsonFilename name = true) :
    q.incoming.lookup (requeueTarget hash q name) = none ∧
      q.processing.lookup (requeueTarget hash q name) = none := by
  have hcome := @stillToCome_requeueTarget hash q name hvalid
  constructor
  · by_contra hin
    exact h.incoming _ (Option.isSome_iff_ne_none.mpr hin) hcome
  · by_contra hin
    exact h.processing _ (Option.isSome_iff_ne_none.mpr hin) hcome

theorem bumpCounter_eq (hwrap : q.requeueCounter + 1 < 2 ^ 64) :
    q.bumpCounter.requeueCounter = q.requeueCounter + 1 := Nat.mod_eq_of_lt hwrap

/-- Files leave `processing`, `outgoing` grows: nothing else changes. -/
theorem NamesApart.remove (h : NamesApart hash q) (outgoing : Directory) :
    NamesApart hash { q with outgoing := outgoing, processing := q.processing.erase name } where
  disjoint n hn := by
    rw [Directory.lookup_erase]
    split
    · rfl
    · exact h.disjoint n hn
  valid n hn := by
    rw [Directory.lookup_erase] at hn
    split at hn
    · cases hn
    · exact h.valid n hn
  incoming := h.incoming
  processing n hn := by
    rw [Directory.lookup_erase] at hn
    split at hn
    · cases hn
    · exact h.processing n hn
  failed := h.failed

theorem NamesApart.deadLetter (h : NamesApart hash q) {id : String} {envelope : File}
    (hwrap : q.requeueCounter + 1 < 2 ^ 64) :
    NamesApart hash { q.bumpCounter with
      failed := q.failed.insert (deadLetterFilename hash id q.requeueCounter) envelope } := by
  have hc := bumpCounter_eq hwrap
  have hle : q.requeueCounter ≤ q.bumpCounter.requeueCounter := by omega
  refine ⟨h.disjoint, h.valid, fun n hn hs => h.incoming n hn (hs.mono hle),
    fun n hn hs => h.processing n hn (hs.mono hle), fun n hn id' counter hcounter heq => ?_⟩
  have hcounter' : q.requeueCounter + 1 ≤ counter := hc ▸ hcounter
  rw [Directory.lookup_insert] at hn
  split at hn
  · next hname =>
      have := deadLetterFilename_counter (hname.symm.trans heq)
      omega
  · exact h.failed n hn id' counter (by omega) heq

theorem NamesApart.requeue (h : NamesApart hash q) {file : File}
    (hvalid : isValidQueueJsonFilename name = true) (hwrap : q.requeueCounter + 1 < 2 ^ 64) :
    NamesApart hash { q.bumpCounter with
      incoming := q.incoming.insert (requeueTarget hash q name) file } := by
  have hc := bumpCounter_eq hwrap
  have hle : q.requeueCounter ≤ q.bumpCounter.requeueCounter := by omega
  refine ⟨fun n hn => ?_, h.valid, fun n hn hs => ?_, fun n hn hs => h.processing n hn (hs.mono hle),
    fun n hn id counter hcounter => h.failed n hn id counter (hle.trans hcounter)⟩
  · rw [Directory.lookup_insert] at hn
    split at hn
    · next heq => rw [heq]; exact (h.requeueTarget_free hvalid).2
    · exact h.disjoint n hn
  · rw [Directory.lookup_insert] at hn
    split at hn
    · next heq =>
        rw [heq] at hs
        refine not_stillToCome_requeueTarget ?_ hs
        change q.requeueCounter < q.bumpCounter.requeueCounter
        omega
    · exact h.incoming n hn (hs.mono hle)

theorem NamesApart.claim (h : NamesApart hash q) {file : File}
    (hlisted : Listed q.incoming name file) : NamesApart hash (afterClaim q name file) := by
  have hsome : (q.incoming.lookup name).isSome := by rw [hlisted.1]; rfl
  refine ⟨fun n hn => ?_, fun n hn => ?_, fun n hn => ?_, fun n hn => ?_, h.failed⟩
  · simp only [afterClaim, Directory.lookup_erase, Directory.lookup_insert] at hn ⊢
    split at hn
    · cases hn
    · next hne => rw [if_neg hne]; exact h.disjoint n hn
  · simp only [afterClaim, Directory.lookup_insert] at hn
    split at hn
    · next heq => rw [heq]; exact hlisted.2
    · exact h.valid n hn
  · simp only [afterClaim, Directory.lookup_erase] at hn
    split at hn
    · cases hn
    · exact h.incoming n hn
  · simp only [afterClaim, Directory.lookup_insert] at hn
    split at hn
    · next heq => rw [heq]; exact h.incoming name hsome
    · exact h.processing n hn

theorem NamesApart.enqueue (h : NamesApart hash q) {file : File}
    (hfree : q.processing.lookup name = none) (hcome : ¬ StillToCome hash q name) :
    NamesApart hash { q with incoming := q.incoming.insert name file } := by
  refine ⟨fun n hn => ?_, h.valid, fun n hn => ?_, h.processing, h.failed⟩
  · rw [Directory.lookup_insert] at hn
    split at hn
    · next heq => rw [heq]; exact hfree
    · exact h.disjoint n hn
  · rw [Directory.lookup_insert] at hn
    split at hn
    · next heq => rw [heq]; exact hcome
    · exact h.incoming n hn

end Names

/-! ## Moves -/

section Moves

variable {q q' : QueueState} {ledger : List (Content × Place)} {name : FileName} {file : File}

def QueueState.fileAt (q : QueueState) : Place → Option File
  | .incoming name => q.incoming.lookup name
  | .processing name => q.processing.lookup name
  | .failed name => q.failed.lookup name
  | .consumed => none

theorem not_holds {p : Place} (h : q.fileAt p = none) (c : Content) : ¬ q.holds p c := by
  cases p <;> simp_all [QueueState.fileAt, QueueState.holds]

theorem holds_congr {p : Place} (h : q'.fileAt p = q.fileAt p) (c : Content) :
    q'.holds p c ↔ q.holds p c := by
  cases p <;> simp_all [QueueState.fileAt, QueueState.holds]

/-- A dead letter keeps more than the content of its file. -/
theorem holds_of_fileAt {src dst : Place} {envelope : File} (hsrc : q.fileAt src = some file)
    (hdst : q'.fileAt dst = some envelope)
    (hsame : envelope = file ∨ ∃ target, dst = .failed target) {c : Content}
    (hkept : ∀ n, src ≠ .failed n) (h : q.holds src c) : q'.holds dst c := by
  rcases hsame with rfl | ⟨target, rfl⟩
  · cases src <;> cases dst <;> simp_all [QueueState.fileAt, QueueState.holds]
  · simp_all [QueueState.fileAt, QueueState.holds]

/-- One file goes to a free place, and every other one stays. -/
theorem custody_move {src dst : Place} (h : InCustody .consumed q.holds ledger)
    (hsrc : q.fileAt src = some file) (hkept : ∀ n, src ≠ .failed n) (hdst : q.fileAt dst = none)
    (hleft : q'.fileAt src = none)
    (hmoved : dst = .consumed ∨ ∃ envelope, q'.fileAt dst = some envelope ∧
      (envelope = file ∨ ∃ target, dst = .failed target))
    (hother : ∀ p, p ≠ src → p ≠ dst → q'.fileAt p = q.fileAt p) :
    InCustody .consumed q'.holds (moveTokens src dst ledger) := by
  have hheld : ∃ c, q.holds src c := by
    cases src <;> simp_all [QueueState.fileAt, QueueState.holds]
  refine h.move ?_ hheld (.inr (not_holds hdst)) (fun c hc => hmoved.imp_right ?_) (not_holds hleft)
    fun p c hs hd => holds_congr (hother p hs hd) c
  · rintro rfl
    cases hsrc
  · rintro ⟨envelope, hnew, hsame⟩
    exact holds_of_fileAt hsrc hnew hsame hkept hc

theorem custody_remove (h : InCustody .consumed q.holds ledger)
    (hlookup : q.processing.lookup name = some file) (hi : q'.incoming = q.incoming)
    (hp : q'.processing = q.processing.erase name) (hf : q'.failed = q.failed) :
    InCustody .consumed q'.holds (moveTokens (.processing name) .consumed ledger) := by
  refine custody_move h hlookup nofun rfl ?_ (.inl rfl) ?_
  · simp [QueueState.fileAt, hp]
  · rintro (n | n | n | _) hsrc - <;> simp_all [QueueState.fileAt]

theorem custody_requeue {target : FileName} (h : InCustody .consumed q.holds ledger)
    (hlookup : q.processing.lookup name = some file) (hfree : q.incoming.lookup target = none)
    (hi : q'.incoming = q.incoming.insert target file)
    (hp : q'.processing = q.processing.erase name) (hf : q'.failed = q.failed) :
    InCustody .consumed q'.holds (moveTokens (.processing name) (.incoming target) ledger) := by
  refine custody_move h hlookup nofun hfree ?_ (.inr ⟨file, ?_, .inl rfl⟩) ?_
  · simp [QueueState.fileAt, hp]
  · simp [QueueState.fileAt, hi]
  · rintro (n | n | n | _) hsrc hdst <;> simp_all [QueueState.fileAt]

theorem custody_deadLetter {target : FileName} {envelope : File}
    (h : InCustody .consumed q.holds ledger) (hlookup : q.processing.lookup name = some file)
    (hfree : q.failed.lookup target = none) (hi : q'.incoming = q.incoming)
    (hp : q'.processing = q.processing.erase name)
    (hf : q'.failed = q.failed.insert target envelope) :
    InCustody .consumed q'.holds (moveTokens (.processing name) (.failed target) ledger) := by
  refine custody_move h hlookup nofun hfree ?_ (.inr ⟨envelope, ?_, .inr ⟨target, rfl⟩⟩) ?_
  · simp [QueueState.fileAt, hp]
  · simp [QueueState.fileAt, hf]
  · rintro (n | n | n | _) hsrc hdst <;> simp_all [QueueState.fileAt]

theorem custody_claim (h : InCustody .consumed q.holds ledger)
    (hlookup : q.incoming.lookup name = some file) (hfree : q.processing.lookup name = none) :
    InCustody .consumed (afterClaim q name file).holds
      (moveTokens (.incoming name) (.processing name) ledger) := by
  refine custody_move h hlookup nofun hfree ?_ (.inr ⟨file, ?_, .inl rfl⟩) ?_
  · simp [QueueState.fileAt, afterClaim]
  · simp [QueueState.fileAt, afterClaim]
  · rintro (n | n | n | _) hsrc hdst <;> simp_all [QueueState.fileAt, afterClaim]

theorem custody_badClaim {hash : List Char → List Char} (h : InCustody .consumed q.holds ledger)
    (hlookup : q.incoming.lookup name = some file) (hproc : q.processing.lookup name = none)
    (hfree : q.incoming.lookup (requeueTarget hash q name) = none) :
    InCustody .consumed (afterBadClaim hash q name file).holds
      (moveTokens (.incoming name) (.incoming (requeueTarget hash q name)) ledger) := by
  have hne : name ≠ requeueTarget hash q name := by
    intro heq
    rw [← heq, hlookup] at hfree
    cases hfree
  refine custody_move h hlookup nofun hfree ?_ (.inr ⟨file, ?_, .inl rfl⟩) ?_
  · simp [QueueState.fileAt, afterBadClaim, hne]
  · simp [QueueState.fileAt, afterBadClaim]
  · rintro (n | n | n | _) hsrc hdst
    case processing =>
      -- the file was in `processing` only between the two renames
      by_cases hn : name = n
      · subst hn
        simp [QueueState.fileAt, afterBadClaim, hproc]
      · simp [QueueState.fileAt, afterBadClaim, Ne.symm hn]
    all_goals simp_all [QueueState.fileAt, afterBadClaim, QueueState.bumpCounter]

theorem custody_enqueue (h : InCustody .consumed q.holds ledger)
    (hfree : q.incoming.lookup name = none) :
    InCustody .consumed
      ({ q with incoming := q.incoming.insert name file } : QueueState).holds
      (ledger ++ [(file.content, .incoming name)]) := by
  refine h.add (not_holds hfree) ⟨file, by rw [Directory.lookup_insert, if_pos rfl], rfl⟩ ?_
  rintro (n | n | n | _) c hp <;> refine holds_congr ?_ c <;> simp_all [QueueState.fileAt]

end Moves

/-! ## One operation -/

section OneStep

variable {hash : List Char → List Char} {isFile : String → Bool} {t : TrackedQueue}

theorem inv_claimOldest (h : QueueInv hash t) (hwrap : t.queue.requeueCounter + 1 < 2 ^ 64) :
    QueueInv hash (t.step hash isFile .claimOldest) := by
  simp only [TrackedQueue.step]
  rcases claimOldest_cases hash t.queue with ⟨hnil, hclaim⟩ | ⟨n, f, hhead, hlisted, _, hcase⟩
  · rw [hclaim]
    simp only [claimMove, hnil, List.head?_nil]
    exact h
  · have hproc : t.queue.processing.lookup n = none :=
      h.names.disjoint n (by rw [hlisted.1]; rfl)
    rcases hcase with ⟨payload, hp, hclaim⟩ | ⟨hp, err, hclaim⟩
    · rw [hclaim]
      simp only [claimMove, hhead, hp, Option.isSome_some, if_true]
      exact ⟨h.names.claim hlisted, custody_claim h.custody hlisted.1 hproc⟩
    · rw [hclaim]
      simp only [claimMove, hhead, hp, Option.isSome_none, Bool.false_eq_true, if_false]
      have hfree := h.names.requeueTarget_free hlisted.2
      exact ⟨((h.names.claim hlisted).remove t.queue.outgoing).requeue hlisted.2 hwrap,
        custody_badClaim h.custody hlisted.1 hproc hfree.1⟩

theorem inv_requeue (h : QueueInv hash t) {name : FileName} {file : File}
    (hlookup : t.queue.processing.lookup name = some file)
    (hwrap : t.queue.requeueCounter + 1 < 2 ^ 64) :
    QueueInv hash
      { queue := { t.queue.bumpCounter with
          processing := t.queue.processing.erase name
          incoming := t.queue.incoming.insert (requeueTarget hash t.queue name) file }
        ledger := moveTokens (.processing name) (.incoming (requeueTarget hash t.queue name))
          t.ledger } := by
  have hvalid := h.names.valid name (by rw [hlookup]; rfl)
  have hfree := h.names.requeueTarget_free hvalid
  exact ⟨(h.names.remove t.queue.outgoing).requeue hvalid hwrap,
    custody_requeue h.custody hlookup hfree.1 rfl rfl rfl⟩

/-- Every operation of well-behaved callers keeps the ledger in order. -/
theorem inv_queueOp (op : QueueOp) (h : QueueInv hash t) (hok : ProducersKeep hash t op)
    (hwrap : t.queue.requeueCounter + 1 < 2 ^ 64) : QueueInv hash (t.step hash isFile op) := by
  cases op with
  | enqueue name file =>
    obtain ⟨⟨hin, hproc⟩, hcome⟩ := hok
    exact ⟨h.names.enqueue hproc (hcome name file rfl), custody_enqueue h.custody hin⟩
  | claimOldest => exact inv_claimOldest h hwrap
  | completeSuccessMany claimed outgoing now =>
    obtain ⟨file, hlookup⟩ := Option.isSome_iff_exists.mp hok.1
    cases hempty : outgoing.isEmpty with
    | true =>
      -- an empty batch is refused before anything is written
      simp only [TrackedQueue.step, completeSuccessMany, hempty, if_true]
      exact h
    | false =>
      simp only [TrackedQueue.step, completeSuccessMany_eq isFile hlookup hempty]
      exact ⟨h.names.remove _, custody_remove h.custody hlookup rfl rfl rfl⟩
  | completeSuccessNoOutgoing claimed =>
    obtain ⟨file, hlookup⟩ := Option.isSome_iff_exists.mp hok.1
    simp only [TrackedQueue.step, completeSuccessNoOutgoing, removeProcessing_eq hlookup]
    exact ⟨h.names.remove t.queue.outgoing, custody_remove h.custody hlookup rfl rfl rfl⟩
  | requeueFailure claimed =>
    obtain ⟨file, hlookup⟩ := Option.isSome_iff_exists.mp hok.1
    simp only [TrackedQueue.step, Queue.requeueFailure, requeueProcessingFile_eq hash hlookup]
    exact inv_requeue h hlookup hwrap
  | requeueOrDeadLetterFailure claimed maxRequeueAttempts error now =>
    obtain ⟨file, hlookup⟩ := Option.isSome_iff_exists.mp hok.1
    simp only [TrackedQueue.step]
    rcases requeueOrDeadLetterFailure_cases hash hlookup maxRequeueAttempts error now with
      ⟨_, envelope, he⟩ | ⟨_, he⟩
    · rw [he]
      -- names in `failed` were made with smaller counter values
      have hfree : t.queue.failed.lookup (deadLetterFilename hash claimed.payload.messageId
          t.queue.requeueCounter) = none := by
        by_contra hin
        exact h.names.failed _ (Option.isSome_iff_ne_none.mpr hin) _ _ (le_refl _) rfl
      exact ⟨(h.names.remove t.queue.outgoing).deadLetter hwrap,
        custody_deadLetter h.custody hlookup hfree rfl rfl rfl⟩
    · rw [he]
      exact inv_requeue h hlookup hwrap

variable (hash isFile t)

/-- The ledger lists what was enqueued, and its bytes are never changed. -/
theorem step_ledger (op : QueueOp) :
    (t.step hash isFile op).ledger.map Prod.fst = t.ledger.map Prod.fst ++ op.enqueued.toList := by
  cases op with
  | enqueue name file => simp [TrackedQueue.step, QueueOp.enqueued]
  | claimOldest =>
    simp only [TrackedQueue.step, QueueOp.enqueued]
    split <;> simp [moveTokens_fst]
  | completeSuccessMany claimed outgoing now =>
    simp only [TrackedQueue.step, QueueOp.enqueued]
    split <;> simp [moveTokens_fst]
  | completeSuccessNoOutgoing claimed =>
    simp only [TrackedQueue.step, QueueOp.enqueued]
    split <;> simp [moveTokens_fst]
  | requeueFailure claimed =>
    simp only [TrackedQueue.step, QueueOp.enqueued]
    split <;> simp [moveTokens_fst]
  | requeueOrDeadLetterFailure claimed maxRequeueAttempts error now =>
    simp only [TrackedQueue.step, QueueOp.enqueued]
    split <;> simp [moveTokens_fst]

theorem bumpCounter_le (q : QueueState) :
    q.bumpCounter.requeueCounter ≤ q.requeueCounter + 1 := Nat.mod_le _ _

/-- What a requeue leaves of the rest of the queue, whether it finds the file or
not. -/
theorem requeueProcessingFile_rest (q : QueueState) (name : FileName) :
    (requeueProcessingFile hash q name).1.outgoing = q.outgoing ∧
      (requeueProcessingFile hash q name).1.requeueCounter = q.bumpCounter.requeueCounter := by
  simp only [requeueProcessingFile]
  split <;> exact ⟨rfl, rfl⟩

theorem deadLetterFailure_rest (q : QueueState) (claimed : ClaimedMessage) (attempt : ℕ)
    (error : String) (now : Int) :
    (deadLetterFailure hash q claimed attempt error now).1.outgoing = q.outgoing ∧
      (deadLetterFailure hash q claimed attempt error now).1.requeueCounter =
        q.bumpCounter.requeueCounter := by
  simp only [deadLetterFailure]
  split <;> exact ⟨rfl, rfl⟩

theorem removeProcessing_rest (q : QueueState) (name : FileName) :
    (removeProcessing q name).1.outgoing = q.outgoing ∧
      (removeProcessing q name).1.requeueCounter = q.requeueCounter := by
  unfold removeProcessing
  split <;> exact ⟨rfl, rfl⟩

/-- The queue after an operation, whatever the ledger says. -/
def applyOp (q : QueueState) : QueueOp → QueueState
  | .enqueue name file => { q with incoming := q.incoming.insert name file }
  | .claimOldest => (claimOldest hash q).1
  | .completeSuccessMany claimed outgoing now => (completeSuccessMany isFile q claimed outgoing now).1
  | .completeSuccessNoOutgoing claimed => (completeSuccessNoOutgoing q claimed).1
  | .requeueFailure claimed => (requeueFailure hash q claimed).1
  | .requeueOrDeadLetterFailure claimed maxRequeueAttempts error now =>
    (requeueOrDeadLetterFailure hash q claimed maxRequeueAttempts error now).1

theorem step_queue (op : QueueOp) :
    (t.step hash isFile op).queue = applyOp hash isFile t.queue op := by
  cases op <;> simp only [TrackedQueue.step, applyOp]
  case completeSuccessMany => split <;> next h => rw [h]
  case completeSuccessNoOutgoing => split <;> next h => rw [h]
  case requeueFailure => split <;> next h => rw [h]
  case requeueOrDeadLetterFailure => split <;> next h => rw [h]

/-- An operation keeps every outgoing file and uses up at most one counter value. -/
theorem apply_rest (q : QueueState) (op : QueueOp) :
    (∀ n f, q.outgoing.lookup n = some f → (applyOp hash isFile q op).outgoing.lookup n = some f) ∧
      (applyOp hash isFile q op).requeueCounter ≤ q.requeueCounter + 1 := by
  have hbump := bumpCounter_le q
  cases op with
  | enqueue name file => exact ⟨fun _ _ h => h, Nat.le_succ _⟩
  | claimOldest =>
    simp only [applyOp]
    rcases claimOldest_cases hash q with ⟨_, hclaim⟩ | ⟨n, f, _, _, _, hcase⟩
    · rw [hclaim]
      exact ⟨fun _ _ h => h, Nat.le_succ _⟩
    · rcases hcase with ⟨_, _, hclaim⟩ | ⟨_, _, hclaim⟩
      · rw [hclaim]
        exact ⟨fun _ _ h => h, Nat.le_succ _⟩
      · rw [hclaim]
        exact ⟨fun _ _ h => h, hbump⟩
  | completeSuccessMany claimed outgoing now =>
    simp only [applyOp, completeSuccessMany]
    split
    · exact ⟨fun _ _ h => h, Nat.le_succ _⟩
    · obtain ⟨hout, hcount⟩ := removeProcessing_rest
        { q with outgoing := writeOutgoingFrom isFile now q.outgoing 0 outgoing } claimed.name
      rw [hout, hcount]
      exact ⟨fun _ _ h => writeOutgoingFrom_keeps isFile now outgoing 0 h, Nat.le_succ _⟩
  | completeSuccessNoOutgoing claimed =>
    simp only [applyOp, completeSuccessNoOutgoing]
    obtain ⟨hout, hcount⟩ := removeProcessing_rest q claimed.name
    rw [hout, hcount]
    exact ⟨fun _ _ h => h, Nat.le_succ _⟩
  | requeueFailure claimed =>
    simp only [applyOp, requeueFailure]
    obtain ⟨hout, hcount⟩ := requeueProcessingFile_rest hash q claimed.name
    rw [hout, hcount]
    exact ⟨fun _ _ h => h, hbump⟩
  | requeueOrDeadLetterFailure claimed maxRequeueAttempts error now =>
    simp only [applyOp, requeueOrDeadLetterFailure]
    have hdead := deadLetterFailure_rest hash q claimed (nextFailureAttempt claimed.name) error now
    have hback := requeueProcessingFile_rest hash q claimed.name
    split
    · split <;> next h =>
        rw [h] at hdead
        rw [hdead.1, hdead.2]
        exact ⟨fun _ _ h => h, hbump⟩
    · split <;> next h =>
        rw [h] at hback
        rw [hback.1, hback.2]
        exact ⟨fun _ _ h => h, hbump⟩

end OneStep

/-! ## Whole runs -/

section Runs

variable (hash : List Char → List Char) (isFile : String → Bool)

theorem queueInv_init : QueueInv hash {} := by
  refine ⟨⟨?_, ?_, ?_, ?_, ?_⟩, ⟨?_, List.Pairwise.nil, ?_⟩⟩
  · intro n hn
    cases hn
  · intro n hn
    cases hn
  · intro n hn
    cases hn
  · intro n hn
    cases hn
  · intro n hn
    cases hn
  · intro t ht
    cases ht
  · intro p c hp
    cases p with
    | incoming n => obtain ⟨f, hf, _⟩ := hp; cases hf
    | processing n => obtain ⟨f, hf, _⟩ := hp; cases hf
    | failed n => cases hp
    | consumed => cases hp

theorem run_queueInv {t : TrackedQueue} {ops : List QueueOp} (h : QueueInv hash t)
    (hok : Meets (TrackedQueue.step hash isFile) (ProducersKeep hash) t ops)
    (hlen : t.queue.requeueCounter + ops.length < 2 ^ 64) :
    QueueInv hash (run (TrackedQueue.step hash isFile) t ops) := by
  induction ops generalizing t with
  | nil => exact h
  | cons op ops ih =>
    rw [List.length_cons] at hlen
    -- one operation uses up at most one counter value
    have hcount := (apply_rest hash isFile t.queue op).2
    rw [← step_queue] at hcount
    exact ih (inv_queueOp op h hok.1 (by omega)) hok.2 (by omega)

theorem run_ledger (t : TrackedQueue) (ops : List QueueOp) :
    (run (TrackedQueue.step hash isFile) t ops).ledger.map Prod.fst =
      t.ledger.map Prod.fst ++ ops.filterMap QueueOp.enqueued := by
  induction ops generalizing t with
  | nil => simp
  | cons op ops ih =>
    rw [run_cons, ih, step_ledger, List.append_assoc]
    congr 1
    cases hop : op.enqueued <;> simp [hop]

theorem run_outgoing_keeps {n : FileName} {f : File} (ops : List QueueOp) {t : TrackedQueue}
    (h : t.queue.outgoing.lookup n = some f) :
    (run (TrackedQueue.step hash isFile) t ops).queue.outgoing.lookup n = some f := by
  refine run_invariant' (I := fun s : TrackedQueue => s.queue.outgoing.lookup n = some f) ?_ ops h
  intro s op hs
  rw [step_queue]
  exact (apply_rest hash isFile s.queue op).1 n f hs

end Runs

/-- Agrees with the digest on `a.json:1`; elsewhere it only keeps texts apart. -/
def sampleHash (text : List Char) : List Char :=
  if text = "a.json:1".toList then "328c8a96c782f796".toList else 'x' :: text

theorem sampleHash_injective : Function.Injective sampleHash := by
  intro s s' h
  unfold sampleHash at h
  split at h <;> split at h
  · next hs hs' => rw [hs, hs']
  · exact absurd (List.cons.inj h).1 (by decide)
  · exact absurd (List.cons.inj h).1 (by decide)
  · exact (List.cons.inj h).2

def queued (name messageId : String) (modified : ℕ) : QueueOp :=
  .enqueue name.toList ⟨modified, .json (sampleMessage messageId).encode⟩

/-- `a.json` is claimed, then another message arrives under the name that its
requeue is going to use. -/
def guessedName : List QueueOp :=
  [queued "a.json" "m1" 1, .claimOldest, queued "requeue_a1_328c8a96c782f796_0.json" "m2" 2,
    .requeueFailure ⟨"a.json".toList, sampleMessage "m1"⟩]

/-- `a.json` fails once, is claimed again and answered. -/
def failedOnce : List QueueOp :=
  [queued "a.json" "m1" 1, .claimOldest, .requeueFailure ⟨"a.json".toList, sampleMessage "m1"⟩,
    .claimOldest,
    .completeSuccessNoOutgoing
      ⟨"requeue_a1_328c8a96c782f796_0.json".toList, sampleMessage "m1"⟩]

end Direclaw.Queue
