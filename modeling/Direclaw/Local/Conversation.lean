import Direclaw.Local.ChatTui
import Mathlib.Data.List.Induction
import Mathlib.Data.List.Forall2

/-!
# What a chat says

Over every run of the chat, with its keys, its files and its threads in any order: the
transcript is one turn after the other, each with a message that was enqueued and the
assistant's lines for that message, and a turn ends with its answer.
-/

namespace Direclaw.Local

open Direclaw.Lib Direclaw.Queue Direclaw.Orchestration

/-! ## Turns -/

/-- A message and what the assistant has said to it. -/
structure ChatTurn where
  message : IncomingMessage
  replies : List String := []

namespace ChatTurn

def lines (t : ChatTurn) : List ChatLine :=
  ⟨.you, t.message.message⟩ :: t.replies.map fun reply => ⟨.assistant, reply⟩

def say (t : ChatTurn) (text : String) : ChatTurn :=
  if text ∈ t.replies then t else { t with replies := t.replies ++ [text] }

variable {t : ChatTurn} {text reply : String}

@[simp] theorem message_say : (t.say text).message = t.message := by
  unfold say
  split <;> rfl

theorem mem_say : reply ∈ (t.say text).replies ↔ reply ∈ t.replies ∨ reply = text := by
  unfold say
  split
  · next h =>
      refine ⟨.inl, ?_⟩
      rintro (hmem | rfl)
      · exact hmem
      · exact h
  · simp

theorem nodup_say (h : t.replies.Nodup) : (t.say text).replies.Nodup := by
  unfold say
  split
  · exact h
  · next hnew =>
      refine List.nodup_append.mpr ⟨h, List.nodup_singleton text, ?_⟩
      rintro a ha b hb rfl
      exact hnew (List.mem_singleton.mp hb ▸ ha)

theorem message_foldl_say (texts : List String) : (texts.foldl say t).message = t.message := by
  induction texts generalizing t with
  | nil => rfl
  | cons text texts ih => rw [List.foldl_cons, ih, message_say]

theorem mem_foldl_say {texts : List String} :
    reply ∈ (texts.foldl say t).replies ↔ reply ∈ t.replies ∨ reply ∈ texts := by
  induction texts generalizing t with
  | nil => simp
  | cons text texts ih => rw [List.foldl_cons, ih, mem_say, List.mem_cons, or_assoc]

theorem nodup_foldl_say {texts : List String} (h : t.replies.Nodup) :
    (texts.foldl say t).replies.Nodup := by
  induction texts generalizing t with
  | nil => exact h
  | cons text texts ih => exact ih (nodup_say h)

end ChatTurn

/-- The lines that are not the system's. -/
def spoken (transcript : List ChatLine) : List ChatLine :=
  transcript.filter (·.speaker ≠ .system)

@[simp] theorem spoken_append (lines more : List ChatLine) :
    spoken (lines ++ more) = spoken lines ++ spoken more := List.filter_append ..

/-! ## What a line stands for -/

def OfMessage (messageId : String) (value : Json) : Prop :=
  sourceMessageId value = some messageId ∧ recordedRunId value ≠ ""

section Lines

variable (session : LocalChatSession) (events : List ChatEvent)

/-- Of the runs that were listed for the message at some turn, one that started last. -/
def LatestRunOf (messageId runId : String) : Prop :=
  ∃ turn entries value, .turn turn ∈ events ∧ turn.files.runs = .entries entries ∧
    .run value ∈ entries ∧ OfMessage messageId value ∧ recordedRunId value = runId ∧
      ∀ other, .run other ∈ entries → OfMessage messageId other →
        recordedStartedAt other ≤ recordedStartedAt value

/-- The progress of a run of the message, or why there is none. -/
def UpdateLine (messageId text : String) : Prop :=
  (∃ err, text = "processing update failed: " ++ err) ∨
    ∃ runId turn progress, LatestRunOf events messageId runId ∧ .turn turn ∈ events ∧
      turn.files.progress runId = .snapshot progress ∧ renderProgressLine progress = some text

/-- What the thread of the message has come to. -/
def Delivered (messageId : String) (rx : ResultRx) : Prop :=
  (∃ prepareError drainError polls, .processed prepareError drainError polls ∈ events ∧
    rx = .received (processMessage session messageId prepareError drainError polls)) ∨
    rx = .disconnected ∧ .panicked ∈ events

structure Answered (rx : ResultRx) (t : ChatTurn) : Prop where
  delivered : Delivered session events t.message.messageId rx
  own : ∀ responses, rx = .received (.ok responses) →
    ∀ response ∈ responses, response.messageId = t.message.messageId
  answer : ∀ line ∈ answerLines t.message.messageId rx, line ∈ t.replies
  replied : t.replies ≠ []
  distinct : t.replies.Nodup
  only : ∀ reply ∈ t.replies,
    reply ∈ answerLines t.message.messageId rx ∨ UpdateLine events t.message.messageId reply

structure Open (worker : ProcessingWorker) (t : ChatTurn) : Prop where
  messageId : worker.messageId = t.message.messageId
  seen : worker.seenAssistantLines = t.replies
  delivered : worker.resultRx = .empty ∨
    Delivered session events t.message.messageId worker.resultRx
  run : ∀ runId, worker.runId = some runId → LatestRunOf events t.message.messageId runId
  distinct : t.replies.Nodup
  only : ∀ reply ∈ t.replies, UpdateLine events t.message.messageId reply

/-- **The conversation.** `refused` is a message that could not be enqueued, with which the
chat ends. -/
structure Conversation (s : Chat) (closed : List ChatTurn) (current : Option ChatTurn)
    (refused : Option String) : Prop where
  incoming : s.incoming = (closed ++ current.toList).map (·.message)
  spoken : spoken s.tui.transcript = (closed ++ current.toList).flatMap (·.lines) ++
    refused.toList.map fun text => ⟨.you, text⟩
  answered : List.Forall₂ (Answered session events) s.taken closed
  processing : ∀ worker, s.tui.processing = some worker →
    ∃ t, current = some t ∧ Open session events worker t
  idle : s.tui.processing = none → current = none
  refused : refused ≠ none → ∃ err, s.ended = some (.error err)

end Lines

section More

variable {session : LocalChatSession} {events : List ChatEvent} (event : ChatEvent)

theorem LatestRunOf.more {messageId runId : String} (h : LatestRunOf events messageId runId) :
    LatestRunOf (events ++ [event]) messageId runId := by
  obtain ⟨turn, entries, value, hturn, h⟩ := h
  exact ⟨turn, entries, value, List.mem_append_left _ hturn, h⟩

theorem UpdateLine.more {messageId text : String} (h : UpdateLine events messageId text) :
    UpdateLine (events ++ [event]) messageId text := by
  refine h.imp_right ?_
  rintro ⟨runId, turn, progress, hrun, hturn, h⟩
  exact ⟨runId, turn, progress, hrun.more event, List.mem_append_left _ hturn, h⟩

theorem Delivered.more {messageId : String} {rx : ResultRx}
    (h : Delivered session events messageId rx) :
    Delivered session (events ++ [event]) messageId rx := by
  refine h.imp ?_ fun ⟨hrx, hmem⟩ => ⟨hrx, List.mem_append_left _ hmem⟩
  rintro ⟨prepareError, drainError, polls, hmem, hrx⟩
  exact ⟨prepareError, drainError, polls, List.mem_append_left _ hmem, hrx⟩

theorem Answered.more {rx : ResultRx} {t : ChatTurn} (h : Answered session events rx t) :
    Answered session (events ++ [event]) rx t :=
  { h with
    delivered := h.delivered.more event
    only := fun reply hreply => (h.only reply hreply).imp_right (·.more event) }

theorem Open.more {worker : ProcessingWorker} {t : ChatTurn} (h : Open session events worker t) :
    Open session (events ++ [event]) worker t :=
  { h with
    delivered := h.delivered.imp_right (·.more event)
    run := fun runId hrun => (h.run runId hrun).more event
    only := fun reply hreply => (h.only reply hreply).more event }

theorem Conversation.more {s : Chat} {closed : List ChatTurn} {current : Option ChatTurn}
    {refused : Option String} (h : Conversation session events s closed current refused) :
    Conversation session (events ++ [event]) s closed current refused :=
  { h with
    answered := h.answered.imp fun _ _ hrx => hrx.more event
    processing := fun worker hworker => by
      obtain ⟨t, ht, hopen⟩ := h.processing worker hworker
      exact ⟨t, ht, hopen.more event⟩ }

end More

/-! ## The run of a message -/

theorem considerRun_spec (messageId : String) (latest : Option (ℤ × String)) (value : Json) :
    (∀ next ∈ considerRun messageId latest value, next ∈ latest ∨
      OfMessage messageId value ∧ next = (recordedStartedAt value, recordedRunId value)) ∧
      (∀ first ∈ latest, ∃ next ∈ considerRun messageId latest value, first.1 ≤ next.1) ∧
      (OfMessage messageId value →
        ∃ next ∈ considerRun messageId latest value, recordedStartedAt value ≤ next.1) := by
  unfold considerRun
  split
  · next hskip =>
      refine ⟨fun next hnext => .inl hnext, fun first hfirst => ⟨first, hfirst, le_rfl⟩, ?_⟩
      rintro ⟨hsource, hrun⟩
      exact absurd hskip (by simp [hsource, hrun])
  · next hkeep =>
      obtain ⟨hsource, hrun⟩ := not_or.mp hkeep
      have hof : OfMessage messageId value := ⟨not_not.mp hsource, hrun⟩
      cases latest with
      | none => simp [hof]
      | some first =>
        obtain ⟨currentStarted, runId⟩ := first
        by_cases hlater : recordedStartedAt value ≥ currentStarted
        · simp [hof, hlater]
        · simp [hof, hlater, (not_le.mp hlater).le]

theorem findRunIdFrom_spec {runsRoot messageId : String} {entries : List RunsEntry}
    {latest found : Option (ℤ × String)}
    (h : findRunIdFrom runsRoot messageId latest entries = .ok found) :
    (∀ run ∈ found, run ∈ latest ∨ ∃ value, .run value ∈ entries ∧ OfMessage messageId value ∧
      run = (recordedStartedAt value, recordedRunId value)) ∧
      (∀ first ∈ latest, ∃ run ∈ found, first.1 ≤ run.1) ∧
      ∀ value, .run value ∈ entries → OfMessage messageId value →
        ∃ run ∈ found, recordedStartedAt value ≤ run.1 := by
  induction entries generalizing latest with
  | nil =>
    obtain rfl := Except.ok.inj h
    exact ⟨fun run hrun => .inl hrun, fun first hfirst => ⟨first, hfirst, le_rfl⟩,
      fun value hmem => absurd hmem List.not_mem_nil⟩
  | cons entry rest ih =>
    cases entry with
    | failed err => cases h
    | skipped =>
      obtain ⟨hfound, hfirst, hall⟩ := ih h
      refine ⟨fun run hrun => (hfound run hrun).imp_right ?_, hfirst, fun value hmem => ?_⟩
      · rintro ⟨value, hmem, hvalue⟩
        exact ⟨value, List.mem_cons_of_mem _ hmem, hvalue⟩
      · rcases List.mem_cons.mp hmem with heq | hmem
        · cases heq
        · exact hall value hmem
    | run value =>
      obtain ⟨hfound, hfirst, hall⟩ := ih h
      obtain ⟨hnext, hkept, hvalue⟩ := considerRun_spec messageId latest value
      refine ⟨fun run hrun => ?_, fun first hmem => ?_, fun other hmem hof => ?_⟩
      · rcases hfound run hrun with hmem | ⟨other, hmem, hother⟩
        · exact (hnext run hmem).imp_right fun hown => ⟨value, List.mem_cons_self, hown⟩
        · exact .inr ⟨other, List.mem_cons_of_mem _ hmem, hother⟩
      · obtain ⟨next, hmem', hle⟩ := hkept first hmem
        obtain ⟨run, hrun, hle'⟩ := hfirst next hmem'
        exact ⟨run, hrun, hle.trans hle'⟩
      · rcases List.mem_cons.mp hmem with heq | hmem
        · cases heq
          obtain ⟨next, hmem', hle⟩ := hvalue hof
          obtain ⟨run, hrun, hle'⟩ := hfirst next hmem'
          exact ⟨run, hrun, hle.trans hle'⟩
        · exact hall other hmem hof

/-- Only a run of the message is taken, and none of them has started after it. -/
theorem findRunIdForMessage_spec {runsRoot messageId runId : String} {runs : RunsListing}
    (h : findRunIdForMessage runsRoot messageId runs = .ok (some runId)) :
    ∃ entries value, runs = .entries entries ∧ .run value ∈ entries ∧
      OfMessage messageId value ∧ recordedRunId value = runId ∧
        ∀ other, .run other ∈ entries → OfMessage messageId other →
          recordedStartedAt other ≤ recordedStartedAt value := by
  cases runs with
  | missing => cases h
  | unreadable err => cases h
  | entries entries =>
    obtain ⟨found, hfound, hrun⟩ := map_eq_ok h
    obtain ⟨⟨startedAt, runId'⟩, rfl, rfl⟩ := Option.map_eq_some_iff.mp hrun
    obtain ⟨hof, -, hall⟩ := findRunIdFrom_spec hfound
    rcases hof _ rfl with hnone | ⟨value, hmem, hvalue, heq⟩
    · cases hnone
    · obtain ⟨rfl, rfl⟩ := Prod.mk.inj heq
      refine ⟨entries, value, rfl, hmem, hvalue, rfl, fun other hother hof' => ?_⟩
      obtain ⟨run, hrun', hle⟩ := hall other hother hof'
      cases hrun'
      exact hle

/-! ## One step -/

/-- The lines shown so far end with the turn in processing. -/
structure Showing (before : List ChatLine) (t : ChatTurn)
    (shown : List ChatLine × ProcessingWorker) : Prop where
  spoken : spoken shown.1 = before ++ t.lines
  seen : shown.2.seenAssistantLines = t.replies

section Pushing

variable {before : List ChatLine} {t : ChatTurn} {shown : List ChatLine × ProcessingWorker}

theorem Showing.push (h : Showing before t shown) (text : String) :
    Showing before (t.say text) (pushAssistantLine shown text) := by
  unfold pushAssistantLine ChatTurn.say
  rw [h.seen]
  split
  · exact h
  · refine ⟨?_, rfl⟩
    rw [spoken_append, h.spoken]
    simp [ChatTurn.lines, Local.spoken]

theorem Showing.pushAll (h : Showing before t shown) (texts : List String) :
    Showing before (texts.foldl ChatTurn.say t) (texts.foldl pushAssistantLine shown) := by
  induction texts generalizing t shown with
  | nil => exact h
  | cons text texts ih => exact ih (h.push text)

/-- The other fields of the worker stay. -/
theorem pushAssistantLine_worker (shown : List ChatLine × ProcessingWorker) (text : String) :
    (pushAssistantLine shown text).2.messageId = shown.2.messageId ∧
      (pushAssistantLine shown text).2.resultRx = shown.2.resultRx ∧
      (pushAssistantLine shown text).2.runId = shown.2.runId := by
  unfold pushAssistantLine
  split <;> exact ⟨rfl, rfl, rfl⟩

end Pushing

section Progress

variable {session : LocalChatSession} {events : List ChatEvent} {before : List ChatLine}
  {message : IncomingMessage} {shown : List ChatLine × ProcessingWorker}

/-- The message is in processing and its lines are the last ones. -/
def Shows (session : LocalChatSession) (events : List ChatEvent) (before : List ChatLine)
    (message : IncomingMessage) (shown : List ChatLine × ProcessingWorker) : Prop :=
  ∃ t : ChatTurn, t.message = message ∧ Showing before t shown ∧ Open session events shown.2 t

theorem Shows.push (h : Shows session events before message shown) {text : String}
    (htext : UpdateLine events message.messageId text) :
    Shows session events before message (pushAssistantLine shown text) := by
  obtain ⟨t, rfl, hshowing, hopen⟩ := h
  obtain ⟨hid, hrx, hrun⟩ := pushAssistantLine_worker shown text
  refine ⟨t.say text, ChatTurn.message_say, hshowing.push text, ?_⟩
  refine ⟨?_, (hshowing.push text).seen, ?_, fun runId => ?_, ChatTurn.nodup_say hopen.distinct,
    fun reply hreply => ?_⟩
  · rw [hid, ChatTurn.message_say, hopen.messageId]
  · rw [hrx, ChatTurn.message_say]
    exact hopen.delivered
  · rw [hrun, ChatTurn.message_say]
    exact hopen.run runId
  · rw [ChatTurn.message_say]
    rcases ChatTurn.mem_say.mp hreply with hold | rfl
    · exact hopen.only reply hold
    · exact htext

theorem Shows.setRun (h : Shows session events before message shown) {runId : String}
    (hrun : LatestRunOf events message.messageId runId) :
    Shows session events before message (shown.1, { shown.2 with runId := some runId }) := by
  obtain ⟨t, rfl, hshowing, hopen⟩ := h
  refine ⟨t, rfl, ⟨hshowing.spoken, hshowing.seen⟩, { hopen with run := fun other heq => ?_ }⟩
  cases heq
  exact hrun

theorem Shows.setLastLine (h : Shows session events before message shown)
    (line : Option String) :
    Shows session events before message (shown.1, { shown.2 with lastProgressLine := line }) := by
  obtain ⟨t, rfl, hshowing, hopen⟩ := h
  exact ⟨t, rfl, ⟨hshowing.spoken, hshowing.seen⟩, { hopen with }⟩

variable {turn : LoopTurn}

theorem Shows.emitProgress (h : Shows session events before message shown) {runId : String}
    (hrun : LatestRunOf events message.messageId runId) (hturn : .turn turn ∈ events) :
    Shows session events before message
      (emitProgress (turn.files.progress runId) shown).2 := by
  unfold Local.emitProgress
  split
  · exact h
  · exact h
  · exact h
  · next progress hprogress =>
      split
      · exact h
      · next line hline =>
          split
          · exact h
          · exact (h.setLastLine (some line)).push
              (.inr ⟨runId, turn, progress, hrun, hturn, hprogress, hline⟩)

theorem Shows.maybeEmitProgressUpdate (h : Shows session events before message shown)
    (hturn : .turn turn ∈ events) :
    Shows session events before message
      (maybeEmitProgressUpdate session.runsRoot turn.files shown).2 := by
  have hworker : shown.2.messageId = message.messageId ∧
      ∀ runId, shown.2.runId = some runId → LatestRunOf events message.messageId runId := by
    obtain ⟨t, rfl, -, hopen⟩ := h
    exact ⟨hopen.messageId, hopen.run⟩
  unfold Local.maybeEmitProgressUpdate
  split
  · next runId hrun => exact h.emitProgress (hworker.2 runId hrun) hturn
  · split
    · exact h
    · exact h
    · next runId hfound =>
        rw [hworker.1] at hfound
        obtain ⟨entries, value, hruns, hmem, hof, hid, hlatest⟩ := findRunIdForMessage_spec hfound
        have hrun : LatestRunOf events message.messageId runId :=
          ⟨turn, entries, value, hturn, hruns, hmem, hof, hid, hlatest⟩
        exact (h.setRun hrun).emitProgress hrun hturn

theorem Shows.showProgress (h : Shows session events before message shown)
    (hturn : .turn turn ∈ events) :
    Shows session events before message (showProgress session.runsRoot turn.files shown) := by
  have hupdate := h.maybeEmitProgressUpdate hturn
  unfold Local.showProgress
  split
  · next next heq =>
      rw [heq] at hupdate
      exact hupdate
  · next err next heq =>
      rw [heq] at hupdate
      exact hupdate.push (.inl ⟨err, rfl⟩)

end Progress

/-! ## The answer -/

variable {messageId : String}

/-- The replies that are waited for are those to the message. -/
theorem processMessage_own {session : LocalChatSession} {prepareError drainError : Option String}
    {polls : List Poll} {responses : List OutgoingMessage}
    (h : processMessage session messageId prepareError drainError polls = .ok responses) :
    ∀ response ∈ responses, response.messageId = messageId := by
  unfold processMessage at h
  split at h
  · cases h
  · cases h
  · have hresult := mapError_eq_ok h
    have hconsistent := consistent_wait messageId polls
    have hfound : (waitForOutgoingMessages messageId polls).found = responses := by
      unfold WaitState.result at hresult
      split at hresult
      · cases hresult
      · exact Except.ok.inj hresult
      · exact Except.ok.inj hresult
    intro response hmem
    rw [← hfound, hconsistent.found] at hmem
    obtain ⟨reply, hreply, rfl⟩ := List.mem_map.mp hmem
    exact hconsistent.matching reply hreply

theorem Delivered.own {session : LocalChatSession} {events : List ChatEvent}
    {responses : List OutgoingMessage}
    (h : Delivered session events messageId (.received (.ok responses))) :
    ∀ response ∈ responses, response.messageId = messageId := by
  rcases h with ⟨prepareError, drainError, polls, -, hrx⟩ | ⟨hrx, -⟩
  · exact processMessage_own (ResultRx.received.inj hrx).symm
  · cases hrx

theorem answerLines_ne_nil {session : LocalChatSession} {events : List ChatEvent} {rx : ResultRx}
    (h : Delivered session events messageId rx) : answerLines messageId rx ≠ [] := by
  rcases h with ⟨prepareError, drainError, polls, -, rfl⟩ | ⟨rfl, -⟩
  · cases processMessage session messageId prepareError drainError polls with
    | error err => simp [answerLines]
    | ok responses => cases responses <;> simp [answerLines]
  · simp [answerLines]

theorem Open.close {session : LocalChatSession} {events : List ChatEvent}
    {worker : ProcessingWorker} {t : ChatTurn} (h : Open session events worker t)
    (hrx : Delivered session events t.message.messageId worker.resultRx) :
    Answered session events worker.resultRx
      ((answerLines worker.messageId worker.resultRx).foldl ChatTurn.say t) := by
  have hmessage := ChatTurn.message_foldl_say (t := t)
    (answerLines worker.messageId worker.resultRx)
  refine ⟨?_, ?_, ?_, ?_, ChatTurn.nodup_foldl_say h.distinct, ?_⟩
  · rw [hmessage]
    exact hrx
  · intro responses heq
    rw [hmessage]
    rw [heq] at hrx
    exact hrx.own
  · intro line hline
    rw [hmessage, ← h.messageId] at hline
    exact ChatTurn.mem_foldl_say.mpr (.inr hline)
  · obtain ⟨line, hline⟩ := List.exists_mem_of_ne_nil _ (answerLines_ne_nil hrx)
    rw [← h.messageId] at hline
    exact List.ne_nil_of_mem (ChatTurn.mem_foldl_say.mpr (.inr hline))
  · intro reply hreply
    rw [hmessage, ← h.messageId]
    rcases ChatTurn.mem_foldl_say.mp hreply with hold | hanswer
    · exact .inr (h.messageId ▸ h.only reply hold)
    · exact .inl hanswer

/-! ## One event -/

@[simp] theorem advanceSpinner_fields (tui : TuiState) (due : Bool) :
    (tui.advanceSpinner due).transcript = tui.transcript ∧
      (tui.advanceSpinner due).processing = tui.processing := by
  unfold TuiState.advanceSpinner
  split <;> exact ⟨rfl, rfl⟩

@[simp] theorem advanceCursorBlink_fields (tui : TuiState) (due : Bool) :
    (tui.advanceCursorBlink due).transcript = tui.transcript ∧
      (tui.advanceCursorBlink due).processing = tui.processing := by
  unfold TuiState.advanceCursorBlink
  split <;> exact ⟨rfl, rfl⟩

section Checking

variable {runsRoot : String} {files : RunFiles} {tui : TuiState} {worker : ProcessingWorker}
  {shown : List ChatLine × ProcessingWorker}

theorem checkProcessingResult_of_empty (hworker : tui.processing = some worker)
    (hshown : showProgress runsRoot files (tui.transcript, worker) = shown)
    (hempty : shown.2.resultRx = .empty) :
    checkProcessingResult runsRoot files tui =
      ({ tui with transcript := shown.1, processing := some shown.2 }, none) := by
  simp only [checkProcessingResult, hworker, hshown]
  rw [hempty]

theorem checkProcessingResult_of_taken (hworker : tui.processing = some worker)
    (hshown : showProgress runsRoot files (tui.transcript, worker) = shown)
    (htaken : shown.2.resultRx ≠ .empty) :
    checkProcessingResult runsRoot files tui =
      ({ tui with
          transcript :=
            ((answerLines shown.2.messageId shown.2.resultRx).foldl pushAssistantLine shown).1
          processing := none },
        some shown.2.resultRx) := by
  simp only [checkProcessingResult, hworker, hshown]

end Checking

section Steps

variable {session : LocalChatSession} {events : List ChatEvent} {s : Chat}
  {closed : List ChatTurn} {current : Option ChatTurn}

theorem Conversation.shows (h : Conversation session events s closed current none)
    {worker : ProcessingWorker} (hworker : s.tui.processing = some worker) :
    ∃ t, current = some t ∧ Shows session events (closed.flatMap (·.lines)) t.message
      (s.tui.transcript, worker) := by
  obtain ⟨t, rfl, hopen⟩ := h.processing worker hworker
  refine ⟨t, rfl, t, rfl, ⟨?_, hopen.seen⟩, hopen⟩
  simpa using h.spoken

variable {turn : LoopTurn}

theorem Conversation.check (h : Conversation session events s closed current none)
    (hturn : .turn turn ∈ events) {tui : TuiState} (htranscript : tui.transcript = s.tui.transcript)
    (hprocessing : tui.processing = s.tui.processing) :
    ∃ closed' current', Conversation session events
      { s with
        tui := (checkProcessingResult session.runsRoot turn.files tui).1
        taken := s.taken ++
          (checkProcessingResult session.runsRoot turn.files tui).2.toList }
      closed' current' none := by
  cases hworker : tui.processing with
  | none =>
    refine ⟨closed, current, ?_⟩
    simp only [checkProcessingResult, hworker, Option.toList_none, List.append_nil]
    refine { h with
      spoken := ?_, processing := fun worker hsome => ?_, idle := fun _ => ?_ }
    · rw [htranscript]
      exact h.spoken
    · rw [hworker] at hsome
      cases hsome
    · exact h.idle (hprocessing ▸ hworker)
  | some worker =>
    obtain ⟨t, rfl, hshows⟩ := h.shows (hprocessing ▸ hworker)
    rw [← htranscript] at hshows
    obtain ⟨t', hmessage, hshowing, hopen⟩ := hshows.showProgress hturn
    generalize hshown : Local.showProgress session.runsRoot turn.files (tui.transcript, worker) =
      shown at hshowing hopen
    have hincoming : s.incoming = (closed ++ [t']).map (·.message) := by
      rw [h.incoming]
      simp [hmessage]
    by_cases hempty : shown.2.resultRx = .empty
    · rw [checkProcessingResult_of_empty hworker hshown hempty]
      refine ⟨closed, some t', ⟨hincoming, ?_, ?_, fun other hother => ?_, ?_, h.refused⟩⟩
      · simpa using hshowing.spoken
      · simpa using h.answered
      · obtain rfl := Option.some.inj hother
        exact ⟨t', rfl, hopen⟩
      · rintro ⟨⟩
    · rw [checkProcessingResult_of_taken hworker hshown hempty]
      have hanswer := hopen.close (hopen.delivered.resolve_left hempty)
      refine ⟨closed ++ [(answerLines shown.2.messageId shown.2.resultRx).foldl .say t'], none,
        ⟨?_, ?_, ?_, fun other hother => ?_, fun _ => rfl, h.refused⟩⟩
      · rw [hincoming]
        simp [ChatTurn.message_foldl_say]
      · simpa using (hshowing.pushAll (answerLines shown.2.messageId shown.2.resultRx)).spoken
      · exact List.rel_append h.answered (.cons hanswer .nil)
      · cases hother

theorem Conversation.refresh (h : Conversation session events s closed current none)
    (hturn : .turn turn ∈ events) :
    ∃ closed' current',
      Conversation session events (s.refresh session turn) closed' current' none :=
  h.check hturn (by simp) (by simp)

/-- What does not touch the transcript, the thread or the queue. -/
theorem Conversation.congr (h : Conversation session events s closed current none) {s' : Chat}
    (htranscript : Local.spoken s'.tui.transcript = Local.spoken s.tui.transcript)
    (hprocessing : s'.tui.processing = s.tui.processing) (hincoming : s'.incoming = s.incoming)
    (htaken : s'.taken = s.taken) : Conversation session events s' closed current none where
  incoming := hincoming.trans h.incoming
  spoken := htranscript.trans h.spoken
  answered := htaken ▸ h.answered
  processing worker hworker := h.processing worker (hprocessing ▸ hworker)
  idle hnone := h.idle (hprocessing ▸ hnone)
  refused hsome := absurd rfl hsome

theorem Conversation.pressEnter (h : Conversation session events s closed current none)
    (nanos : ℕ) (secs : Int64) (failure : Option String) :
    ∃ current' refused,
      Conversation session events (s.pressEnter session nanos secs failure) closed current'
        refused := by
  unfold Chat.pressEnter
  extract_lets message held tui said incoming
  split_ifs with hempty hexit hbusy
  · exact ⟨current, none, h.congr rfl rfl rfl rfl⟩
  · exact ⟨current, none, h.congr rfl rfl rfl rfl⟩
  · exact ⟨current, none, h.congr (by simp [Local.spoken, tui, held]) rfl rfl rfl⟩
  · have hidle : s.tui.processing = none := Option.not_isSome_iff_eq_none.mp hbusy
    obtain rfl := h.idle hidle
    have hsaid : Local.spoken said = closed.flatMap (·.lines) ++ [⟨.you, String.ofList message⟩] := by
      have hspoken := h.spoken
      simp only [Option.toList_none, List.append_nil, List.map_nil] at hspoken
      rw [show Local.spoken said = Local.spoken s.tui.transcript ++ _ from spoken_append _ _, hspoken]
      rfl
    cases failure with
    | some err =>
      refine ⟨none, some (String.ofList message),
        ⟨h.incoming, ?_, h.answered, fun worker hworker => ?_, fun _ => rfl, fun _ => ⟨err, rfl⟩⟩⟩
      · simpa using hsaid
      · rw [show s.tui.processing = some worker from hworker] at hidle
        cases hidle
    | none =>
      refine ⟨some { message := incoming }, none, ⟨?_, ?_, h.answered, fun worker hworker => ?_,
        fun hnone => ?_, fun hsome => absurd rfl hsome⟩⟩
      · simp [h.incoming]
      · simpa [ChatTurn.lines, incoming, enqueueChatMessage] using hsaid
      · obtain rfl := Option.some.inj hworker
        exact ⟨_, rfl, rfl, rfl, .inl rfl, fun runId hrun => (by cases hrun), List.nodup_nil,
          fun reply hreply => absurd hreply List.not_mem_nil⟩
      · cases hnone

theorem Conversation.press (h : Conversation session events s closed current none) (key : Key) :
    ∃ current' refused,
      Conversation session events (s.press session key) closed current' refused := by
  cases key with
  | ctrlC | esc => exact ⟨current, none, h.congr rfl rfl rfl rfl⟩
  | enter nanos secs failure => exact h.pressEnter nanos secs failure
  | backspace | char c => exact ⟨current, none, h.congr rfl rfl rfl rfl⟩
  | other => exact ⟨current, none, h⟩

theorem Conversation.loopTurn (h : Conversation session events s closed current none)
    (hturn : .turn turn ∈ events) :
    ∃ closed' current' refused,
      Conversation session events (s.loopTurn session turn) closed' current' refused := by
  obtain ⟨closed', current', hrefreshed⟩ := h.refresh hturn
  unfold Chat.loopTurn
  simp only
  split
  · exact ⟨closed', current', none, hrefreshed.congr rfl rfl rfl rfl⟩
  · exact ⟨closed', current', none, hrefreshed.congr rfl rfl rfl rfl⟩
  · exact ⟨closed', current', none, hrefreshed.congr rfl rfl rfl rfl⟩
  · exact ⟨closed', current', none, hrefreshed⟩
  · exact ⟨closed', current', none, hrefreshed⟩
  · exact ⟨closed', hrefreshed.press _⟩

theorem Conversation.deliver (h : Conversation session events s closed current none)
    {found : String → ResultRx}
    (hfound : ∀ messageId, Delivered session events messageId (found messageId)) :
    Conversation session events (s.deliver found) closed current none := by
  unfold Chat.deliver
  split
  · next worker hworker =>
      split
      · obtain ⟨t, rfl, hopen⟩ := h.processing worker hworker
        refine { h with
          spoken := h.spoken, processing := fun other hother => ?_, idle := fun hnone => ?_ }
        · obtain rfl := Option.some.inj hother
          exact ⟨t, rfl, { hopen with delivered := .inr (hopen.messageId ▸ hfound worker.messageId) }⟩
        · cases hnone
      · exact h
      · exact h
  · exact h

theorem Conversation.step {refused : Option String}
    (h : Conversation session events s closed current refused) (event : ChatEvent) :
    ∃ closed' current' refused',
      Conversation session (events ++ [event]) (s.step session event) closed' current' refused' := by
  have hmem : event ∈ events ++ [event] := List.mem_append_right _ List.mem_cons_self
  unfold Chat.step
  split
  · exact ⟨closed, current, refused, h.more event⟩
  · next hgoes =>
      obtain rfl : refused = none := by
        by_contra hrefused
        obtain ⟨err, hended⟩ := h.refused hrefused
        simp [hended] at hgoes
      cases event with
      | turn turn => exact (h.more _).loopTurn hmem
      | processed prepareError drainError polls =>
        exact ⟨closed, current, none, (h.more _).deliver fun messageId =>
          .inl ⟨prepareError, drainError, polls, hmem, rfl⟩⟩
      | panicked =>
        exact ⟨closed, current, none, (h.more _).deliver fun messageId => .inr ⟨rfl, hmem⟩⟩

/-- **Every run.** Whatever keys are pressed and whatever the files and the threads do, the
chat is a conversation: at most the last message is without its answer. -/
theorem chat_is_conversation (session : LocalChatSession) (events : List ChatEvent) :
    ∃ closed current refused, Conversation session events
      (run (Chat.step session) (Chat.start session) events) closed current refused := by
  induction events using List.reverseRecOn with
  | nil =>
    refine ⟨[], none, none, ⟨rfl, rfl, .nil, fun worker hworker => ?_, fun _ => rfl, ?_⟩⟩
    · cases hworker
    · exact fun hsome => absurd rfl hsome
  | append_singleton events event ih =>
    obtain ⟨closed, current, refused, h⟩ := ih
    rw [run_append]
    exact h.step event

end Steps

end Direclaw.Local
