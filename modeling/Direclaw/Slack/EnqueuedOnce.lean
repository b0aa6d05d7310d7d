import Direclaw.Slack.Enqueue

/-!
# Every message is enqueued once

What `message_already_queued` looks for is all that is left of an earlier call, and the
queue renames and deletes it. A message goes from `incoming` over `processing` to
`outgoing` in the order of the looks, so an offer cannot miss it on the way; it does miss it
when the file was put back under another name, or is gone.
-/

namespace Direclaw.Slack

open Direclaw.Lib Direclaw.Queue Direclaw.Runtime

/-! ## What is left of a message -/

def InIncoming (q : QueueState) (messageId : String) : Prop :=
  (q.incoming.lookup (incomingName messageId)).isSome

def InProcessing (q : QueueState) (messageId : String) : Prop :=
  (q.processing.lookup (incomingName messageId)).isSome

def Answered (q : QueueState) (messageId : String) : Prop :=
  directoryHasOutgoingMessage q.outgoing messageId = true

instance (q : QueueState) (messageId : String) : Decidable (InIncoming q messageId) :=
  inferInstanceAs (Decidable ((q.incoming.lookup (incomingName messageId)).isSome = true))

instance (q : QueueState) (messageId : String) : Decidable (InProcessing q messageId) :=
  inferInstanceAs (Decidable ((q.processing.lookup (incomingName messageId)).isSome = true))

instance (q : QueueState) (messageId : String) : Decidable (Answered q messageId) :=
  inferInstanceAs (Decidable (directoryHasOutgoingMessage q.outgoing messageId = true))

/-- The looks from `stage` on find the message. -/
def Findable (q : QueueState) (messageId : String) : OfferStage → Prop
  | .incoming => InIncoming q messageId ∨ InProcessing q messageId ∨ Answered q messageId
  | .processing => InProcessing q messageId ∨ Answered q messageId
  | .outgoing => Answered q messageId
  | .write => False

theorem answered_iff {q : QueueState} {messageId : String} :
    Answered q messageId ↔
      ∃ name, (q.outgoing.lookup name).isSome ∧ isAnswerName messageId name = true := by
  unfold Answered directoryHasOutgoingMessage
  rw [List.any_eq_true]
  exact exists_congr fun name => and_congr_left fun _ => by
    rw [AList.lookup_isSome, AList.mem_keys]

/-! ## The condition -/

/-- What an operation of the queue must not do to a message that is offered again: put its
file back, or settle it, without an answer to it in `outgoing`. -/
def OpKeeps (q : QueueState) (messageId : String) : QueueOp → Prop
  | .enqueue _ _ => True
  | .claimOldest => ∀ entry ∈ (sortedIncoming q.incoming).head?,
      entry.1 = incomingName messageId → entry.2.content.payload.isSome
  | .completeSuccessMany claimed outgoing _ => claimed.name = incomingName messageId →
      ∃ item ∈ outgoing, item.channel = "slack" ∧ item.messageId = messageId
  | .completeSuccessNoOutgoing claimed => claimed.name = incomingName messageId → Answered q messageId
  | .requeueFailure claimed => claimed.name = incomingName messageId → Answered q messageId
  | .requeueOrDeadLetterFailure claimed _ _ _ =>
    claimed.name = incomingName messageId → Answered q messageId

def EventKeeps (q : QueueState) (messageId : String) : IngestEvent → Prop
  | .queue op => OpKeeps q messageId op
  | .recover => InProcessing q messageId → Answered q messageId
  | .deliver name => isAnswerName messageId name = false
  | _ => True

def IngestState.writtenIds (s : IngestState) : List String := s.written.map SlackKey.messageId

/-- A message that was written is offered again only while one of the looks finds it; this
stays so until the offer has ended; and nothing is written while another offer of the same
message is past its look into `incoming`. -/
def OfferSafe (s : IngestState) : IngestEvent → Prop
  | .offer profileId _ conversationId message =>
    SlackKey.messageId { profileId, conversationId, ts := message.ts } ∈ s.writtenIds →
      Findable s.queue (SlackKey.messageId { profileId, conversationId, ts := message.ts }) .incoming
  | .advance index _ _ => ∀ offer ∈ s.offers[index]?, offer.stage = .write →
      ∀ other ∈ s.offers.eraseIdx index, other.messageId = offer.messageId → other.stage = .incoming
  | event => ∀ offer ∈ s.offers, offer.messageId ∈ s.writtenIds →
      EventKeeps s.queue offer.messageId event

section Decidable

instance Findable.decidable (q : QueueState) (messageId : String) :
    (stage : OfferStage) → Decidable (Findable q messageId stage)
  | .incoming => inferInstanceAs
      (Decidable (InIncoming q messageId ∨ InProcessing q messageId ∨ Answered q messageId))
  | .processing => inferInstanceAs (Decidable (InProcessing q messageId ∨ Answered q messageId))
  | .outgoing => inferInstanceAs (Decidable (Answered q messageId))
  | .write => inferInstanceAs (Decidable False)

instance OpKeeps.decidable (q : QueueState) (messageId : String) :
    (op : QueueOp) → Decidable (OpKeeps q messageId op)
  | .enqueue _ _ => inferInstanceAs (Decidable True)
  | .claimOldest => inferInstanceAs (Decidable (∀ entry ∈ (sortedIncoming q.incoming).head?,
      entry.1 = incomingName messageId → entry.2.content.payload.isSome = true))
  | .completeSuccessMany claimed outgoing _ =>
    inferInstanceAs (Decidable (claimed.name = incomingName messageId →
      ∃ item ∈ outgoing, item.channel = "slack" ∧ item.messageId = messageId))
  | .completeSuccessNoOutgoing claimed => inferInstanceAs
      (Decidable (claimed.name = incomingName messageId → Answered q messageId))
  | .requeueFailure claimed => inferInstanceAs
      (Decidable (claimed.name = incomingName messageId → Answered q messageId))
  | .requeueOrDeadLetterFailure claimed _ _ _ => inferInstanceAs
      (Decidable (claimed.name = incomingName messageId → Answered q messageId))

instance EventKeeps.decidable (q : QueueState) (messageId : String) :
    (event : IngestEvent) → Decidable (EventKeeps q messageId event)
  | .queue op => OpKeeps.decidable q messageId op
  | .recover => inferInstanceAs (Decidable (InProcessing q messageId → Answered q messageId))
  | .deliver name => inferInstanceAs (Decidable (isAnswerName messageId name = false))
  | .offer _ _ _ _ | .advance _ _ _ | .abandon _ => inferInstanceAs (Decidable True)

instance OfferSafe.decidable (s : IngestState) :
    (event : IngestEvent) → Decidable (OfferSafe s event)
  | .offer profileId _ conversationId message => inferInstanceAs (Decidable
      (SlackKey.messageId { profileId, conversationId, ts := message.ts } ∈ s.writtenIds →
        Findable s.queue
          (SlackKey.messageId { profileId, conversationId, ts := message.ts }) .incoming))
  | .advance index _ _ => inferInstanceAs (Decidable (∀ offer ∈ s.offers[index]?,
      offer.stage = .write → ∀ other ∈ s.offers.eraseIdx index,
        other.messageId = offer.messageId → other.stage = .incoming))
  | .abandon index => inferInstanceAs (Decidable (∀ offer ∈ s.offers,
      offer.messageId ∈ s.writtenIds → EventKeeps s.queue offer.messageId (.abandon index)))
  | .queue op => inferInstanceAs (Decidable (∀ offer ∈ s.offers,
      offer.messageId ∈ s.writtenIds → EventKeeps s.queue offer.messageId (.queue op)))
  | .recover => inferInstanceAs (Decidable (∀ offer ∈ s.offers,
      offer.messageId ∈ s.writtenIds → EventKeeps s.queue offer.messageId .recover))
  | .deliver name => inferInstanceAs (Decidable (∀ offer ∈ s.offers,
      offer.messageId ∈ s.writtenIds → EventKeeps s.queue offer.messageId (.deliver name)))

end Decidable

/-! ## What the operations leave -/

section Frames

variable {q q' : QueueState} {messageId : String} {stage : OfferStage}

theorem Findable.mono (h : Findable q messageId stage)
    (hin : InIncoming q messageId → Findable q' messageId .incoming)
    (hproc : InProcessing q messageId → Findable q' messageId .processing)
    (hanswer : Answered q messageId → Answered q' messageId) : Findable q' messageId stage := by
  cases stage with
  | incoming =>
    rcases h with h | h | h
    · exact hin h
    · exact .inr (hproc h)
    · exact .inr (.inr (hanswer h))
  | processing =>
    rcases h with h | h
    · exact hproc h
    · exact .inr (hanswer h)
  | outgoing => exact hanswer h
  | write => exact h

/-- An operation that can take a file out of `processing` and leaves the rest. -/
structure SettlesOnly (q q' : QueueState) (name : FileName) : Prop where
  incoming : ∀ n, (q.incoming.lookup n).isSome → (q'.incoming.lookup n).isSome
  processing : ∀ n, n ≠ name → q'.processing.lookup n = q.processing.lookup n
  outgoing : ∀ n, (q.outgoing.lookup n).isSome → (q'.outgoing.lookup n).isSome

theorem SettlesOnly.answered {name : FileName} (h : SettlesOnly q q' name)
    (hanswer : Answered q messageId) : Answered q' messageId := by
  obtain ⟨n, hn, hname⟩ := answered_iff.mp hanswer
  exact answered_iff.mpr ⟨n, h.outgoing n hn, hname⟩

variable {name : FileName} {d : Directory}

theorem SettlesOnly.findable (h : SettlesOnly q q' name)
    (hname : name = incomingName messageId → Answered q' messageId)
    (hfind : Findable q messageId stage) : Findable q' messageId stage := by
  refine hfind.mono (fun hin => .inl (h.incoming _ hin)) ?_ h.answered
  intro hproc
  by_cases heq : name = incomingName messageId
  · exact .inr (hname heq)
  · left
    unfold InProcessing
    rw [h.processing _ (Ne.symm heq)]
    exact hproc

theorem isSome_insert {d : Directory} {n name : FileName} {file : File}
    (h : (d.lookup n).isSome) : ((d.insert name file).lookup n).isSome := by
  rw [Directory.lookup_insert]
  split
  · rfl
  · exact h

theorem isSome_insert_self {file : File} : ((d.insert name file).lookup name).isSome := by
  rw [AList.lookup_insert]
  rfl

theorem isSome_erase {d : Directory} {n name : FileName} (h : (d.lookup n).isSome)
    (hne : n ≠ name) : ((d.erase name).lookup n).isSome := by
  rw [Directory.lookup_erase, if_neg hne]
  exact h

theorem lookup_erase_ne (hne : n ≠ name) : (d.erase name).lookup n = d.lookup n := by
  rw [Directory.lookup_erase, if_neg hne]

theorem removeProcessing_settles (q : QueueState) (name : FileName) :
    SettlesOnly q (removeProcessing q name).1 name := by
  unfold removeProcessing
  split
  · exact ⟨fun _ h => h, fun _ _ => rfl, fun _ h => h⟩
  · exact ⟨fun _ h => h, fun _ hne => lookup_erase_ne hne, fun _ h => h⟩

theorem requeueProcessingFile_settles (hash : List Char → List Char) (q : QueueState)
    (name : FileName) : SettlesOnly q (requeueProcessingFile hash q name).1 name := by
  simp only [requeueProcessingFile]
  split
  · exact ⟨fun _ h => h, fun _ _ => rfl, fun _ h => h⟩
  · exact ⟨fun _ h => isSome_insert h, fun _ hne => lookup_erase_ne hne, fun _ h => h⟩

theorem deadLetterFailure_settles (hash : List Char → List Char) (q : QueueState)
    (claimed : ClaimedMessage) (attempt : ℕ) (error : String) (now : Int) :
    SettlesOnly q (deadLetterFailure hash q claimed attempt error now).1 claimed.name := by
  simp only [deadLetterFailure]
  split
  · exact ⟨fun _ h => h, fun _ _ => rfl, fun _ h => h⟩
  · exact ⟨fun _ h => h, fun _ hne => lookup_erase_ne hne, fun _ h => h⟩

theorem requeueOrDeadLetterFailure_settles (hash : List Char → List Char) (q : QueueState)
    (claimed : ClaimedMessage) (maxRequeueAttempts : ℕ) (error : String) (now : Int) :
    SettlesOnly q (requeueOrDeadLetterFailure hash q claimed maxRequeueAttempts error now).1
      claimed.name := by
  have hdead := deadLetterFailure_settles hash q claimed (nextFailureAttempt claimed.name) error now
  have hback := requeueProcessingFile_settles hash q claimed.name
  simp only [requeueOrDeadLetterFailure]
  split
  · split <;> next h =>
      rw [h] at hdead
      exact hdead
  · split <;> next h =>
      rw [h] at hback
      exact hback

/-! ### Answers -/

theorem isAnswerName_outgoing (messageId : String) (timestamp : Int64) (index : ℕ) :
    isAnswerName messageId (uniqueOutgoingFilename "slack" messageId timestamp index) = true := by
  have hstem : ∃ rest, outgoingStem "slack" messageId timestamp = answerPrefix messageId ++ rest := by
    refine ⟨decimalI64 timestamp, ?_⟩
    unfold outgoingStem answerPrefix
    rw [if_neg (by decide)]
    show _ = "slack_".toList ++ (sanitizeFilenameComponent messageId.toList ++ ['_']) ++ _
    rw [show sanitizeFilenameComponent "slack".toList = "slack".toList by decide,
      List.append_assoc, List.append_assoc]
    rfl
  obtain ⟨rest, hstem⟩ := hstem
  have hname : ∃ tail, uniqueOutgoingFilename "slack" messageId timestamp index =
      answerPrefix messageId ++ tail ++ '.' :: "json".toList := by
    unfold uniqueOutgoingFilename outgoingFilename
    split
    · exact ⟨rest, by rw [hstem]; rfl⟩
    · exact ⟨rest ++ '_' :: Text.decimal index, by rw [hstem, ← List.append_assoc]; rfl⟩
  obtain ⟨tail, hname⟩ := hname
  have hcons : answerPrefix messageId ++ tail =
      's' :: ("lack_".toList ++ (sanitizeFilenameComponent messageId.toList ++ ['_']) ++ tail) := rfl
  have hext := (Text.fileStem_extension_append (by decide : 's' ≠ '.')
    ("lack_".toList ++ (sanitizeFilenameComponent messageId.toList ++ ['_']) ++ tail)
    (by decide : '.' ∉ "json".toList)).2
  unfold isAnswerName
  rw [hname, hcons, hext, ← hcons]
  simp only [beq_self_eq_true, Bool.true_and, List.isPrefixOf_iff_prefix, List.append_assoc]
  exact List.prefix_append _ _

variable (isFile : String → Bool)

theorem writeOutgoingMessage_answered {outgoing : Directory} {item : OutgoingMessage}
    (hchannel : item.channel = "slack") (hid : item.messageId = messageId) (index now : ℕ) :
    ∃ name, ((writeOutgoingMessage isFile outgoing item index now).lookup name).isSome ∧
      isAnswerName messageId name = true := by
  obtain ⟨name, hname, -⟩ := freeOutgoingFilename_spec outgoing item index
  refine ⟨name, ?_, ?_⟩
  · simp only [writeOutgoingMessage, hname, Directory.lookup_insert, if_true, Option.isSome_some]
  · obtain ⟨i, -, hi⟩ := List.mem_map.mp (List.mem_of_find?_eq_some hname)
    rw [← hi, hchannel, hid]
    exact isAnswerName_outgoing messageId item.timestamp (index + i)

theorem writeOutgoingFrom_isSome {n : FileName} (now : ℕ) {items : List OutgoingMessage}
    {outgoing : Directory} (index : ℕ) (h : (outgoing.lookup n).isSome) :
    ((writeOutgoingFrom isFile now outgoing index items).lookup n).isSome := by
  obtain ⟨file, hfile⟩ := Option.isSome_iff_exists.mp h
  rw [writeOutgoingFrom_keeps isFile now items index hfile]
  rfl

theorem writeOutgoingFrom_answered {item : OutgoingMessage} (hchannel : item.channel = "slack")
    (hid : item.messageId = messageId) (now : ℕ) {items : List OutgoingMessage}
    (hmem : item ∈ items) (outgoing : Directory) (index : ℕ) :
    ∃ name, ((writeOutgoingFrom isFile now outgoing index items).lookup name).isSome ∧
      isAnswerName messageId name = true := by
  induction items generalizing outgoing index with
  | nil => cases hmem
  | cons head rest ih =>
    rcases List.mem_cons.mp hmem with rfl | hrest
    · obtain ⟨name, hname, hanswer⟩ :=
        @writeOutgoingMessage_answered messageId isFile outgoing item hchannel hid index now
      exact ⟨name, writeOutgoingFrom_isSome isFile now (index + 1) hname, hanswer⟩
    · exact ih hrest _ _

/-! ### One operation -/

variable (hash : List Char → List Char)

theorem Findable.claimOldest (h : Findable q messageId stage)
    (hkeeps : OpKeeps q messageId .claimOldest) :
    Findable (Queue.claimOldest hash q).1 messageId stage := by
  rcases claimOldest_cases hash q with ⟨-, hclaim⟩ | ⟨name, file, hhead, -, -, hcase⟩
  · rw [hclaim]
    exact h
  rcases hcase with ⟨payload, -, hclaim⟩ | ⟨hbad, err, hclaim⟩
  · rw [hclaim]
    refine h.mono ?_ (fun hproc => .inl (isSome_insert hproc)) id
    intro hin
    by_cases hname : incomingName messageId = name
    · right
      left
      show ((q.processing.insert name file).lookup (incomingName messageId)).isSome
      rw [Directory.lookup_insert, if_pos hname]
      rfl
    · exact .inl (isSome_erase hin hname)
  · have hname : incomingName messageId ≠ name := by
      rintro rfl
      have hreadable := hkeeps (incomingName messageId, file) hhead rfl
      rw [hbad] at hreadable
      cases hreadable
    rw [hclaim]
    refine h.mono (fun hin => .inl (isSome_insert (isSome_erase hin hname))) ?_ id
    intro hproc
    exact .inl (isSome_erase (isSome_insert hproc) hname)

theorem Findable.applyOp (h : Findable q messageId stage) {op : QueueOp}
    (hkeeps : OpKeeps q messageId op) :
    Findable (Queue.applyOp hash isFile q op) messageId stage := by
  cases op with
  | enqueue name file => exact h.mono (fun hin => .inl (isSome_insert hin)) .inl id
  | claimOldest => exact h.claimOldest hash hkeeps
  | completeSuccessMany claimed outgoing now =>
    simp only [Queue.applyOp, completeSuccessMany]
    split
    · exact h
    · have hsettles := removeProcessing_settles
        { q with outgoing := writeOutgoingFrom isFile now q.outgoing 0 outgoing } claimed.name
      refine hsettles.findable ?_ (h.mono .inl .inl ?_)
      · intro hname
        obtain ⟨item, hitem, hchannel, hid⟩ := hkeeps hname
        exact hsettles.answered (answered_iff.mpr
          (writeOutgoingFrom_answered isFile hchannel hid now hitem q.outgoing 0))
      · intro hanswer
        obtain ⟨name, hname, hanswer⟩ := answered_iff.mp hanswer
        exact answered_iff.mpr ⟨name, writeOutgoingFrom_isSome isFile now 0 hname, hanswer⟩
  | completeSuccessNoOutgoing claimed =>
    have hsettles := removeProcessing_settles q claimed.name
    exact hsettles.findable (fun hname => hsettles.answered (hkeeps hname)) h
  | requeueFailure claimed =>
    have hsettles := requeueProcessingFile_settles hash q claimed.name
    exact hsettles.findable (fun hname => hsettles.answered (hkeeps hname)) h
  | requeueOrDeadLetterFailure claimed maxRequeueAttempts error now =>
    have hsettles :=
      requeueOrDeadLetterFailure_settles hash q claimed maxRequeueAttempts error now
    exact hsettles.findable (fun hname => hsettles.answered (hkeeps hname)) h

theorem recoverEntries_incoming {outgoingKeys seen : List MessageKey}
    {entries : List (FileName × File)} {index : ℕ} {report : ProcessingRecoveryReport}
    {n : FileName} (h : (q.incoming.lookup n).isSome) :
    ((recoverEntries hash outgoingKeys index seen entries q report).1.incoming.lookup n).isSome := by
  induction entries generalizing index seen q report with
  | nil => exact h
  | cons entry rest ih =>
    unfold recoverEntries
    split
    · exact h
    · split
      · exact ih h
      · exact ih (isSome_insert h)

theorem Findable.recover (h : Findable q messageId stage)
    (hkeeps : InProcessing q messageId → Answered q messageId) :
    Findable (recoverQueueProcessingPaths hash q).1 messageId stage := by
  have hout : (recoverQueueProcessingPaths hash q).1.outgoing = q.outgoing := recover_outgoing rfl
  have hanswer : Answered q messageId → Answered (recoverQueueProcessingPaths hash q).1 messageId := by
    intro hanswer
    unfold Answered
    rw [hout]
    exact hanswer
  refine h.mono ?_ (fun hproc => .inr (hanswer (hkeeps hproc))) hanswer
  intro hin
  left
  unfold recoverQueueProcessingPaths
  split
  · exact hin
  · exact recoverEntries_incoming hash hin

theorem Findable.deliver (h : Findable q messageId stage)
    (hkeeps : isAnswerName messageId name = false) :
    Findable { q with outgoing := q.outgoing.erase name } messageId stage := by
  refine h.mono .inl .inl ?_
  intro hanswer
  obtain ⟨n, hn, hname⟩ := answered_iff.mp hanswer
  refine answered_iff.mpr ⟨n, isSome_erase hn ?_, hname⟩
  rintro rfl
  rw [hkeeps] at hname
  cases hname

end Frames

/-! ## The invariant -/

/-- No message was written twice, and what is offered again will be found. -/
structure IngestInv (s : IngestState) : Prop where
  nodup : s.writtenIds.Nodup
  findable : ∀ offer ∈ s.offers, offer.messageId ∈ s.writtenIds →
    Findable s.queue offer.messageId offer.stage

section Steps

variable {hash : List Char → List Char} {isFile : String → Bool} {s : IngestState}

theorem IngestInv.keeps (h : IngestInv s) {q : QueueState}
    (hkeeps : ∀ offer ∈ s.offers, offer.messageId ∈ s.writtenIds →
      Findable s.queue offer.messageId offer.stage → Findable q offer.messageId offer.stage) :
    IngestInv { s with queue := q } :=
  ⟨h.nodup, fun offer hmem hwritten => hkeeps offer hmem hwritten (h.findable offer hmem hwritten)⟩

/-- A look that fails leaves the message to the next ones. -/
theorem IngestInv.lookAt (h : IngestInv s) {index : ℕ} {offer : Offer} {found : Bool}
    {next : OfferStage}
    (hnext : found = false → offer.messageId ∈ s.writtenIds →
      Findable s.queue offer.messageId next) : IngestInv (lookAt s index offer found next) := by
  refine ⟨h.nodup, ?_⟩
  intro other hmem hwritten
  unfold Slack.lookAt at hmem
  cases found with
  | true => exact h.findable other (List.mem_of_mem_eraseIdx hmem) hwritten
  | false =>
    rcases List.mem_or_eq_of_mem_set hmem with hold | rfl
    · exact h.findable other hold hwritten
    · exact hnext rfl hwritten

theorem IngestInv.advance (h : IngestInv s) {index : ℕ} {offer : Offer}
    (hoffer : s.offers[index]? = some offer)
    (hsafe : offer.stage = .write → ∀ other ∈ s.offers.eraseIdx index,
      other.messageId = offer.messageId → other.stage = .incoming) (now : Int64) (modified : ℕ) :
    IngestInv (advanceOffer s index offer now modified) := by
  have hfind := h.findable offer (List.mem_of_getElem? hoffer)
  unfold advanceOffer
  cases hstage : offer.stage with
  | incoming =>
    refine h.lookAt fun hfound hwritten => ?_
    rcases hstage ▸ hfind hwritten with hin | hrest
    · exact absurd (hin.symm.trans hfound) (by decide)
    · exact hrest
  | processing =>
    refine h.lookAt fun hfound hwritten => ?_
    rcases hstage ▸ hfind hwritten with hproc | hanswer
    · exact absurd (hproc.symm.trans hfound) (by decide)
    · exact hanswer
  | outgoing =>
    refine h.lookAt fun hfound hwritten => ?_
    have hanswer := hfind hwritten
    rw [hstage] at hanswer
    exact absurd (hanswer.symm.trans hfound) (by decide)
  | write =>
    have hnew : offer.messageId ∉ s.writtenIds := fun hwritten => by
      have := hfind hwritten
      rw [hstage] at this
      exact this
    refine ⟨?_, ?_⟩
    · unfold IngestState.writtenIds
      rw [List.map_append, List.nodup_append]
      refine ⟨h.nodup, List.nodup_singleton _, ?_⟩
      intro id hid other hother
      obtain rfl := List.mem_singleton.mp hother
      rintro rfl
      exact hnew hid
    · intro other hmem hwritten
      have hold := List.mem_of_mem_eraseIdx hmem
      by_cases hid : other.messageId = offer.messageId
      · -- the file that was just written is still ahead of its looks
        rw [hsafe hstage other hmem hid]
        rw [hid]
        exact .inl isSome_insert_self
      · have hwritten : other.messageId ∈ s.writtenIds := by
          unfold IngestState.writtenIds at hwritten ⊢
          rw [List.map_append] at hwritten
          rcases List.mem_append.mp hwritten with hwritten | hlast
          · exact hwritten
          · exact absurd (List.mem_singleton.mp hlast) hid
        exact (h.findable other hold hwritten).mono (fun hin => .inl (isSome_insert hin)) .inl id

theorem IngestInv.step (h : IngestInv s) {event : IngestEvent} (hsafe : OfferSafe s event) :
    IngestInv (ingestStep hash isFile s event) := by
  cases event with
  | offer profileId profile conversationId message =>
    refine ⟨h.nodup, ?_⟩
    intro offer hmem hwritten
    rcases List.mem_append.mp hmem with hold | hnew
    · exact h.findable offer hold hwritten
    · obtain rfl := List.mem_singleton.mp hnew
      exact hsafe hwritten
  | advance index now modified =>
    cases hoffer : s.offers[index]? with
    | none =>
      simp only [ingestStep, hoffer]
      exact h
    | some offer =>
      simp only [ingestStep, hoffer]
      exact h.advance hoffer (hsafe offer hoffer) now modified
  | abandon index =>
    exact ⟨h.nodup, fun offer hmem => h.findable offer (List.mem_of_mem_eraseIdx hmem)⟩
  | queue op =>
    exact h.keeps fun offer hmem hwritten hfind => hfind.applyOp isFile hash (hsafe offer hmem hwritten)
  | recover =>
    exact h.keeps fun offer hmem hwritten hfind => hfind.recover hash (hsafe offer hmem hwritten)
  | deliver name =>
    exact h.keeps fun offer hmem hwritten hfind => hfind.deliver (hsafe offer hmem hwritten)

end Steps

/-- **At most once.** However socket, polls, claims, failures, recoveries, completions and
deliveries interleave. -/
theorem written_at_most_once (hash : List Char → List Char) (isFile : String → Bool)
    (q : QueueState) {events : List IngestEvent}
    (hsafe : Meets (ingestStep hash isFile) OfferSafe { queue := q } events) :
    (run (ingestStep hash isFile) { queue := q } events).written.Nodup := by
  have hinit : IngestInv { queue := q } := by
    refine ⟨List.nodup_nil, ?_⟩
    intro offer hmem
    cases hmem
  have hinv := run_invariant (fun _ _ h hok => h.step hok) hinit hsafe
  exact List.Nodup.of_map _ hinv.nodup

/-! ### Offered again -/

def offeredMessage : IngestEvent :=
  .offer "main" { channel := .slack, orchestratorId := "main" } "C1"
    { ts := "100.0", text := some "hi", user := some "U1" }

/-- `enqueue_incoming` from its first look to the end. -/
def enqueueOffered : List IngestEvent := offeredMessage :: List.replicate 4 (.advance 0 0 0)

def claimedOffered : ClaimedMessage where
  name := "slack-main-C1-100_0.json".toList
  payload :=
    { channel := "slack", sender := "U1", senderId := "U1", message := "hi", timestamp := 0
      messageId := "slack-main-C1-100_0" }

def offeredAnswer : OutgoingMessage where
  channel := "slack"
  sender := "U1"
  message := "hello"
  originalMessage := "hi"
  timestamp := 0
  messageId := "slack-main-C1-100_0"
  agent := "main"

def completeOffered : IngestEvent :=
  .queue (.completeSuccessMany claimedOffered [offeredAnswer] 1)

/-- Backfill offers a message of the socket that is claimed and answered between its first
two looks; the last one finds the answer. -/
def offeredWhileClaimed : List IngestEvent :=
  enqueueOffered ++ [offeredMessage, .advance 0 0 0, .queue .claimOldest, completeOffered,
    .advance 0 0 0, .advance 0 0 0]

theorem written_at_most_once_while_claimed :
    Meets (ingestStep id fun _ => false) OfferSafe { queue := {} } offeredWhileClaimed ∧
      (run (ingestStep id fun _ => false) { queue := {} } offeredWhileClaimed).written.Nodup := by
  have hsafe : Meets (ingestStep id fun _ => false) OfferSafe { queue := {} }
      offeredWhileClaimed := by decide
  exact ⟨hsafe, written_at_most_once id (fun _ => false) {} hsafe⟩

/-- Backfill offers it after it was answered. -/
def offeredAfterDelivery : List IngestEvent :=
  enqueueOffered ++ [.queue .claimOldest, completeOffered,
    .deliver "slack_slack-main-C1-100_0_0.json".toList] ++ enqueueOffered

theorem written_twice_after_delivery :
    ¬ (run (ingestStep id fun _ => false) { queue := {} } offeredAfterDelivery).written.Nodup := by
  decide

end Direclaw.Slack
