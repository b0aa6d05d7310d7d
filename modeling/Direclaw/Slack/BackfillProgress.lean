import Direclaw.Slack.Backfill
import Mathlib.Data.String.Basic

/-!
# Backfill skips nothing

The cursor of a conversation is where the next history call begins. It stays behind every
message that was not enqueued as long as a poll only moves it past replies that were there
before all messages its own history call has missed.
-/

namespace Direclaw.Slack

open Direclaw.Lib

/-! ## Cursors and keys -/

theorem lookup_insertKey (entries : List (String × String)) (key value : String) :
    (insertKey entries key value).lookup key = some value := by
  unfold insertKey
  split
  · next hany =>
      induction entries with
      | nil => cases hany
      | cons entry rest ih =>
        by_cases heq : entry.1 = key
        · simp [heq]
        · have hrest : (rest.any fun entry => entry.1 == key) = true := by
            simpa [heq] using hany
          rw [List.map_cons, if_neg (by simpa using heq), List.lookup_cons,
            beq_eq_false_iff_ne.mpr (Ne.symm heq)]
          exact ih hrest
  · next hnone =>
      induction entries with
      | nil => simp
      | cons entry rest ih =>
        simp only [List.any_cons, Bool.or_eq_true, beq_iff_eq, not_or] at hnone
        rw [List.cons_append, List.lookup_cons, beq_eq_false_iff_ne.mpr (Ne.symm hnone.1)]
        exact ih hnone.2

theorem defaultOldestTimestamp_not_blank (now : Int) :
    isBlankText (defaultOldestTimestamp now) = false := by
  have hsuffix : (toString ".0").toList.all Text.isWhitespace = false := by decide
  unfold isBlankText defaultOldestTimestamp Text.isBlank
  rw [String.toList_append, List.all_append, hsuffix, Bool.and_false]

section Conversation

variable {conversationId : String}

theorem resolve_eq (now : Int) (cursor : SlackCursorState) :
    resolveOldestCursor now (cursor.conversations.lookup conversationId) =
      (storedCursor conversationId cursor).getD (defaultOldestTimestamp now) := rfl

theorem resolve_not_blank (now : Int) (existing : Option String) :
    isBlankText (resolveOldestCursor now existing) = false := by
  unfold resolveOldestCursor
  cases hcursor : existing.filter fun value => !isBlankText value with
  | none => exact defaultOldestTimestamp_not_blank now
  | some value =>
    have hvalue := (Option.filter_eq_some_iff.mp hcursor).2
    simpa using hvalue

theorem latestOf_cases (latest : String) (messages : List SlackMessage) :
    latestOf latest messages = latest ∨ ∃ m ∈ messages, latestOf latest messages = m.ts := by
  induction messages generalizing latest with
  | nil => exact .inl rfl
  | cons message messages ih =>
    show latestOf (later latest message.ts) messages = latest ∨ _
    rcases ih (later latest message.ts) with heq | ⟨m, hm, heq⟩
    · rcases ite_eq_or_eq (latest < message.ts) message.ts latest with hlater | hlater
      · exact .inr ⟨message, by simp, heq.trans hlater⟩
      · exact .inl (heq.trans hlater)
    · exact .inr ⟨m, List.mem_cons_of_mem _ hm, heq⟩

/-! ## The condition -/

/-- The replies that the next call returns to be enqueued. -/
def nextReplies (conversationId : String) (s : Backfill) (now : Int) : List SlackMessage :=
  match s.control with
  | .replies poll (threadTs :: _) =>
    replyMessages s threadTs (threadOldest conversationId now poll threadTs)
  | _ => []

/-- The messages that have arrived since the history call of the poll. -/
def missedMessages (s : Backfill) : List SlackMessage :=
  match s.control with
  | .replies poll _ => (s.channel.drop poll.visible).filter (·.eligible)
  | _ => []

/-- Messages become visible in the order of their `ts`, and a replies call returns nothing
at or above a message that arrived since the history call of its poll. -/
def BackfillSafe (conversationId : String) (s : Backfill) : BackfillEvent → Prop
  | .channelMessage message => message.eligible = true →
      (∀ other ∈ s.channel, other.ts < message.ts) ∧ ∀ reply ∈ s.thread, reply.2.ts < message.ts
  | .access now .ok => ∀ reply ∈ nextReplies conversationId s now,
      ∀ message ∈ missedMessages s, reply.ts < message.ts
  | _ => True

instance (conversationId : String) (s : Backfill) :
    (event : BackfillEvent) → Decidable (BackfillSafe conversationId s event)
  | .channelMessage message => inferInstanceAs (Decidable (message.eligible = true →
      (∀ other ∈ s.channel, other.ts < message.ts) ∧ ∀ reply ∈ s.thread, reply.2.ts < message.ts))
  | .threadMessage _ _ => inferInstanceAs (Decidable True)
  | .poll _ _ => inferInstanceAs (Decidable True)
  | .access now .ok => inferInstanceAs (Decidable (∀ reply ∈ nextReplies conversationId s now,
      ∀ message ∈ missedMessages s, reply.ts < message.ts))
  | .access _ .notInChannel => inferInstanceAs (Decidable True)
  | .access _ (.error _) => inferInstanceAs (Decidable True)

/-! ## The property -/

/-- A message of a user, newer than the cursor that backfill began from, that was not
enqueued yet. -/
def Pending (s : Backfill) (message : SlackMessage) : Prop :=
  message ∈ s.channel ∧ message.eligible = true ∧ message ∉ s.offered ∧
    ∀ start, s.start = some start → start < message.ts

/-- The stored cursor is below every message that is pending, and the next history call
that succeeds enqueues it. -/
structure SkipsNothing (conversationId : String) (s : Backfill) : Prop where
  behind : ∀ message, Pending s message →
    ∀ stored, storedCursor conversationId s.cursor = some stored → stored < message.ts
  next : ∀ message, Pending s message → ∀ cursor oldest threads,
    s.control = .history cursor oldest threads →
      (storedCursor conversationId s.cursor).isSome ∨ oldest < message.ts →
        ∀ now, message ∈ (access conversationId s now .ok).offered

/-! ## The invariant -/

/-- The `ts` of a message that is visible somewhere in the conversation. -/
def Visible (s : Backfill) (ts : String) : Prop :=
  (∃ message ∈ s.channel, message.ts = ts) ∨ ∃ reply ∈ s.thread, reply.2.ts = ts

/-- The cursor that a poll began from. -/
structure BeganFrom (conversationId : String) (cursor : SlackCursorState) (oldest : String) :
    Prop where
  stored : ∀ stored, storedCursor conversationId cursor = some stored → oldest = stored
  not_blank : isBlankText oldest = false

/-- A poll behind its history call. -/
structure PollInv (conversationId : String) (s : Backfill) (poll : Poll) : Prop where
  began : BeganFrom conversationId s.cursor poll.oldest
  visible : poll.visible ≤ s.channel.length
  early : ∀ message ∈ s.channel.take poll.visible, message.eligible = true →
    poll.oldest < message.ts → message ∈ s.offered
  late : ∀ message ∈ s.channel.drop poll.visible, message.eligible = true →
    poll.oldest < message.ts → poll.latest < message.ts
  latest : poll.latest = poll.oldest ∨ Visible s poll.latest
  not_blank : isBlankText poll.latest = false

def ControlInv (conversationId : String) (s : Backfill) : Prop :=
  match s.control with
  | .idle => True
  | .history _ oldest _ => BeganFrom conversationId s.cursor oldest
  | .bootstrap poll | .replies poll _ => PollInv conversationId s poll

structure BackfillInv (conversationId : String) (s : Backfill) : Prop where
  behind : ∀ message, Pending s message →
    ∀ stored, storedCursor conversationId s.cursor = some stored → stored < message.ts
  started : s.start.isSome = (storedCursor conversationId s.cursor).isSome
  reached : ∀ stored, storedCursor conversationId s.cursor = some stored →
    s.start = some stored ∨ Visible s stored
  control : ControlInv conversationId s

theorem BackfillInv.skipsNothing {s : Backfill} (h : BackfillInv conversationId s) :
    SkipsNothing conversationId s := by
  refine ⟨h.behind, fun message hpending cursor oldest threads hcontrol hnewer now => ?_⟩
  have hbegan : BeganFrom conversationId s.cursor oldest := by
    have hcontrolInv := h.control
    simpa only [ControlInv, hcontrol] using hcontrolInv
  have holdest : oldest < message.ts := by
    rcases hnewer with hsome | hnewer
    · obtain ⟨stored, hstored⟩ := Option.isSome_iff_exists.mp hsome
      rw [hbegan.stored stored hstored]
      exact h.behind message hpending stored hstored
    · exact hnewer
  have hmem : message ∈ historyMessages s oldest :=
    List.mem_filter.mpr ⟨hpending.1, by simp [holdest, hpending.2.1]⟩
  simp only [access, hcontrol]
  exact List.mem_append_right _ hmem

/-! ## Steps -/

theorem Visible.mono {s s' : Backfill} {ts : String} (h : Visible s ts)
    (hchannel : ∀ m ∈ s.channel, m ∈ s'.channel) (hthread : ∀ r ∈ s.thread, r ∈ s'.thread) :
    Visible s' ts := by
  rcases h with ⟨m, hm, heq⟩ | ⟨r, hr, heq⟩
  · exact .inl ⟨m, hchannel m hm, heq⟩
  · exact .inr ⟨r, hthread r hr, heq⟩

variable {s : Backfill}

/-- The stored cursors stay, and messages are only enqueued. -/
theorem BackfillInv.goto (h : BackfillInv conversationId s) {offered : List SlackMessage}
    (hoffered : ∀ m ∈ s.offered, m ∈ offered) {control : PollControl}
    (hcontrol : ControlInv conversationId { s with offered := offered, control := control }) :
    BackfillInv conversationId { s with offered := offered, control := control } := by
  refine ⟨?_, h.started, h.reached, hcontrol⟩
  rintro message ⟨hmem, heligible, hnot, hstart⟩
  exact h.behind message ⟨hmem, heligible, fun hold => hnot (hoffered message hold), hstart⟩

variable {poll : Poll}

theorem PollInv.goto (h : PollInv conversationId s poll) (control : PollControl) :
    PollInv conversationId { s with control := control } poll :=
  ⟨h.began, h.visible, h.early, h.late, h.latest, h.not_blank⟩

/-- A call that enqueues more and moves `latest` along with it. -/
theorem PollInv.advance (h : PollInv conversationId s poll) {messages : List SlackMessage}
    (hvisible : ∀ m ∈ messages, Visible s m.ts) (heligible : ∀ m ∈ messages, m.eligible = true)
    (hmissed : ∀ m ∈ messages, ∀ x ∈ s.channel.drop poll.visible, x.eligible = true → m.ts < x.ts)
    (cursor : SlackCursorState) (control : PollControl) :
    PollInv conversationId { s with offered := s.offered ++ messages, control := control }
      { poll with cursor := cursor, latest := latestOf poll.latest messages } := by
  refine ⟨h.began, h.visible, ?_, ?_, ?_, ?_⟩
  · intro x hx hxe hxo
    exact List.mem_append_left _ (h.early x hx hxe hxo)
  · intro x hx hxe hxo
    rcases latestOf_cases poll.latest messages with heq | ⟨m, hm, heq⟩
    · show latestOf poll.latest messages < x.ts
      rw [heq]
      exact h.late x hx hxe hxo
    · show latestOf poll.latest messages < x.ts
      rw [heq]
      exact hmissed m hm x hx hxe
  · rcases latestOf_cases poll.latest messages with heq | ⟨m, hm, heq⟩
    · show latestOf poll.latest messages = poll.oldest ∨ Visible s (latestOf poll.latest messages)
      rw [heq]
      exact h.latest
    · right
      show Visible s (latestOf poll.latest messages)
      rw [heq]
      exact hvisible m hm
  · rcases latestOf_cases poll.latest messages with heq | ⟨m, hm, heq⟩
    · show isBlankText (latestOf poll.latest messages) = false
      rw [heq]
      exact h.not_blank
    · show isBlankText (latestOf poll.latest messages) = false
      have hm := heligible m hm
      simp only [SlackMessage.eligible, Bool.and_eq_true, Bool.not_eq_true'] at hm
      rw [heq]
      exact hm.1.1.1

theorem ControlInv.mono {s' : Backfill} (h : ControlInv conversationId s)
    (hcontrol : s'.control = s.control) (hcursor : s'.cursor = s.cursor)
    (hpoll : ∀ poll, PollInv conversationId s poll → PollInv conversationId s' poll) :
    ControlInv conversationId s' := by
  unfold ControlInv at h ⊢
  rw [hcontrol, hcursor]
  split at h
  · trivial
  · exact h
  · exact hpoll _ h
  · exact hpoll _ h

theorem pollInv_history {cursor : SlackCursorState} {oldest : String} {threads : List String}
    (hbegan : BeganFrom conversationId s.cursor oldest) (control : PollControl) :
    PollInv conversationId
      { s with offered := s.offered ++ historyMessages s oldest, control := control }
      { cursor, oldest, latest := latestOf oldest (historyMessages s oldest), threads
        visible := s.channel.length } := by
  have hmem : ∀ m ∈ historyMessages s oldest, m ∈ s.channel ∧ m.eligible = true := by
    intro m hm
    obtain ⟨hm, hkeep⟩ := List.mem_filter.mp hm
    exact ⟨hm, (Bool.and_eq_true_iff.mp hkeep).2⟩
  -- as if a poll that has seen everything had gone from `oldest`
  have hall : PollInv conversationId { s with offered := s.offered ++ historyMessages s oldest }
      { cursor, oldest, latest := oldest, threads, visible := s.channel.length } := by
    refine ⟨hbegan, Nat.le_refl _, ?_, ?_, .inl rfl, hbegan.not_blank⟩
    · intro x hx hxe hxo
      rw [List.take_length] at hx
      exact List.mem_append_right _ (List.mem_filter.mpr ⟨hx, by simp [hxo, hxe]⟩)
    · intro x hx
      rw [List.drop_length] at hx
      cases hx
  have hnone : ∀ m ∈ historyMessages s oldest, ∀ x ∈ s.channel.drop s.channel.length,
      x.eligible = true → m.ts < x.ts := by
    intro m _ x hx
    rw [List.drop_length] at hx
    cases hx
  have hadvanced := hall.advance (fun m hm => .inl ⟨m, (hmem m hm).1, rfl⟩)
    (fun m hm => (hmem m hm).2) hnone cursor control
  refine ⟨hadvanced.began, hadvanced.visible, ?_, hadvanced.late, hadvanced.latest,
    hadvanced.not_blank⟩
  exact hall.early

theorem BackfillInv.save (h : BackfillInv conversationId s) (hpoll : PollInv conversationId s poll)
    :
    BackfillInv conversationId
      { s with
        cursor :=
          { poll.cursor with
            conversations := insertKey poll.cursor.conversations conversationId poll.latest }
        control := .idle
        start := s.start.or (some poll.oldest) } := by
  have hstored : storedCursor conversationId
      { poll.cursor with
        conversations := insertKey poll.cursor.conversations conversationId poll.latest } =
      some poll.latest := by
    unfold storedCursor
    rw [lookup_insertKey, Option.filter_some, hpoll.not_blank]
    rfl
  refine ⟨?_, ?_, ?_, trivial⟩
  · rintro message ⟨hmem, heligible, hnot, hstart⟩ stored hs
    rw [hstored] at hs
    cases hs
    have holdest : poll.oldest < message.ts := by
      cases hcursor : storedCursor conversationId s.cursor with
      | some current =>
        rw [hpoll.began.stored current hcursor]
        refine h.behind message ⟨hmem, heligible, hnot, fun start hs => ?_⟩ current hcursor
        exact hstart start (by rw [hs]; rfl)
      | none =>
        have hnone : s.start = none := by
          have hiff := h.started
          rw [hcursor] at hiff
          exact Option.isSome_eq_false_iff.mp hiff |> Option.isNone_iff_eq_none.mp
        exact hstart poll.oldest (by rw [hnone]; rfl)
    rw [← List.take_append_drop poll.visible s.channel] at hmem
    rcases List.mem_append.mp hmem with hearly | hlate
    · exact absurd (hpoll.early message hearly heligible holdest) hnot
    · exact hpoll.late message hlate heligible holdest
  · show (s.start.or (some poll.oldest)).isSome = _
    rw [hstored]
    cases s.start <;> rfl
  · intro stored hs
    rw [hstored] at hs
    cases hs
    rcases hpoll.latest with heq | hvisible
    · cases hcursor : storedCursor conversationId s.cursor with
      | some current =>
        have hlatest : poll.latest = current :=
          heq.trans (hpoll.began.stored current hcursor)
        rw [hlatest]
        rcases h.reached current hcursor with hstart | hvisible
        · left
          show s.start.or (some poll.oldest) = some current
          rw [hstart]
          rfl
        · exact .inr hvisible
      | none =>
        left
        have hiff := h.started
        rw [hcursor] at hiff
        show s.start.or (some poll.oldest) = some poll.latest
        rw [Option.isNone_iff_eq_none.mp (Option.isSome_eq_false_iff.mp hiff), heq]
        rfl
    · exact .inr hvisible

theorem BackfillInv.access (h : BackfillInv conversationId s) (now : Int) (outcome : CallOutcome)
    (hsafe : BackfillSafe conversationId s (.access now outcome)) :
    BackfillInv conversationId (access conversationId s now outcome) := by
  have hcontrol := h.control
  cases hs : s.control with
  | idle =>
    simp only [Slack.access, hs]
    exact h
  | history cursor oldest threads =>
    simp only [ControlInv, hs] at hcontrol
    cases outcome with
    | error enqueued =>
      simp only [Slack.access, hs]
      exact h.goto (fun m hm => List.mem_append_left _ hm) trivial
    | notInChannel =>
      simp only [Slack.access, hs]
      exact @BackfillInv.goto conversationId s h s.offered (fun _ hm => hm) .idle trivial
    | ok =>
      simp only [Slack.access, hs]
      refine h.goto (fun m hm => List.mem_append_left _ hm) ?_
      unfold ControlInv
      split <;> next heq =>
        dsimp only at heq
        split at heq
        all_goals first
          | (cases heq; exact pollInv_history hcontrol _)
          | cases heq
  | bootstrap poll =>
    simp only [ControlInv, hs] at hcontrol
    cases outcome with
    | ok =>
      simp only [Slack.access, hs]
      exact @BackfillInv.goto conversationId s h s.offered (fun _ hm => hm) _ (hcontrol.goto _)
    | notInChannel =>
      simp only [Slack.access, hs]
      exact @BackfillInv.goto conversationId s h s.offered (fun _ hm => hm) _ (hcontrol.goto _)
    | error enqueued =>
      simp only [Slack.access, hs]
      exact @BackfillInv.goto conversationId s h s.offered (fun _ hm => hm) _ (hcontrol.goto _)
  | replies poll pending =>
    simp only [ControlInv, hs] at hcontrol
    cases pending with
    | nil =>
      cases outcome with
      | error enqueued =>
        simp only [Slack.access, hs]
        exact @BackfillInv.goto conversationId s h s.offered (fun _ hm => hm) .idle trivial
      | ok =>
        simp only [Slack.access, hs]
        exact h.save hcontrol
      | notInChannel =>
        simp only [Slack.access, hs]
        exact h.save hcontrol
    | cons threadTs pending =>
      cases outcome with
      | error enqueued =>
        simp only [Slack.access, hs]
        exact h.goto (fun m hm => List.mem_append_left _ hm) trivial
      | notInChannel =>
        simp only [Slack.access, hs]
        exact @BackfillInv.goto conversationId s h s.offered (fun _ hm => hm) _ (hcontrol.goto _)
      | ok =>
        simp only [BackfillSafe, nextReplies, missedMessages, hs] at hsafe
        simp only [Slack.access, hs]
        refine h.goto (fun m hm => List.mem_append_left _ hm) ?_
        have hreply : ∀ m ∈ replyMessages s threadTs
            (threadOldest conversationId now poll threadTs),
            Visible s m.ts ∧ m.eligible = true := by
          intro m hm
          obtain ⟨entry, hentry, rfl⟩ := List.mem_map.mp hm
          obtain ⟨hentry, hkeep⟩ := List.mem_filter.mp hentry
          simp only [Bool.and_eq_true] at hkeep
          exact ⟨.inr ⟨entry, hentry, rfl⟩, hkeep.1.2⟩
        exact hcontrol.advance (fun m hm => (hreply m hm).1) (fun m hm => (hreply m hm).2)
          (fun m hm x hx hxe => hsafe m hm x (List.mem_filter.mpr ⟨hx, hxe⟩)) _ _

theorem BackfillInv.step (h : BackfillInv conversationId s) {event : BackfillEvent}
    (hsafe : BackfillSafe conversationId s event) :
    BackfillInv conversationId (backfillStep conversationId s event) := by
  cases event with
  | access now outcome => exact h.access now outcome hsafe
  | poll now artifacts =>
    simp only [backfillStep]
    split
    · refine @BackfillInv.goto conversationId s h s.offered (fun _ hm => hm) _ ?_
      refine ⟨fun stored hstored => ?_, resolve_not_blank now _⟩
      rw [resolve_eq]
      show (storedCursor conversationId s.cursor).getD _ = stored
      rw [show storedCursor conversationId s.cursor = some stored from hstored]
      rfl
    · exact h
  | threadMessage threadTs message =>
    have hmono : ∀ ts, Visible s ts →
        Visible (backfillStep conversationId s (.threadMessage threadTs message)) ts :=
      fun ts hts => hts.mono (fun _ hm => hm) fun _ hr => List.mem_append_left _ hr
    refine ⟨h.behind, h.started,
      fun stored hstored => (h.reached stored hstored).imp_right (hmono _), ?_⟩
    have hpoll : ∀ poll, PollInv conversationId s poll →
        PollInv conversationId (backfillStep conversationId s (.threadMessage threadTs message))
          poll :=
      fun poll hp => ⟨hp.began, hp.visible, hp.early, hp.late, hp.latest.imp_right (hmono _),
        hp.not_blank⟩
    exact ControlInv.mono h.control rfl rfl hpoll
  | channelMessage message =>
    have hmono : ∀ ts, Visible s ts →
        Visible (backfillStep conversationId s (.channelMessage message)) ts :=
      fun ts hts => hts.mono (fun _ hm => List.mem_append_left _ hm) fun _ hr => hr
    -- the new message is above everything that is visible
    have habove : message.eligible = true → ∀ ts, Visible s ts → ts < message.ts := by
      rintro heligible ts (⟨m, hm, rfl⟩ | ⟨r, hr, rfl⟩)
      · exact (hsafe heligible).1 m hm
      · exact (hsafe heligible).2 r hr
    refine ⟨?_, h.started, fun stored hstored => (h.reached stored hstored).imp_right (hmono _), ?_⟩
    · rintro m ⟨hmem, heligible, hnot, hstart⟩ stored hstored
      rcases List.mem_append.mp hmem with hold | hnew
      · exact h.behind m ⟨hold, heligible, hnot, hstart⟩ stored hstored
      · obtain rfl := List.mem_singleton.mp hnew
        rcases h.reached stored hstored with hs | hvisible
        · exact hstart stored hs
        · exact habove heligible stored hvisible
    · have hpoll : ∀ poll, PollInv conversationId s poll →
          PollInv conversationId (backfillStep conversationId s (.channelMessage message)) poll := by
        intro poll hp
        refine ⟨hp.began, ?_, ?_, ?_, hp.latest.imp_right (hmono _), hp.not_blank⟩
        · have hlength := hp.visible
          simp only [backfillStep, List.length_append]
          omega
        · intro m hm
          simp only [backfillStep, List.take_append_of_le_length hp.visible] at hm
          exact hp.early m hm
        · intro m hm heligible holdest
          simp only [backfillStep, List.drop_append_of_le_length hp.visible] at hm
          rcases List.mem_append.mp hm with hold | hnew
          · exact hp.late m hold heligible holdest
          · obtain rfl := List.mem_singleton.mp hnew
            rcases hp.latest with heq | hvisible
            · rw [heq]
              exact holdest
            · exact habove heligible _ hvisible
      exact ControlInv.mono h.control rfl rfl hpoll

/-- Whatever arrives when, and however many polls there are: no message is skipped. -/
theorem backfill_skips_nothing (conversationId : String) (cursor : SlackCursorState)
    {events : List BackfillEvent}
    (hsafe : Meets (backfillStep conversationId) (BackfillSafe conversationId)
      (backfill conversationId cursor) events) :
    SkipsNothing conversationId
      (run (backfillStep conversationId) (backfill conversationId cursor) events) := by
  have hinit : BackfillInv conversationId (backfill conversationId cursor) := by
    refine ⟨?_, rfl, fun stored hstored => .inl hstored, trivial⟩
    rintro message ⟨hmem, -⟩
    cases hmem
  exact (run_invariant (fun _ _ h hok => h.step hok) hinit hsafe).skipsNothing

end Conversation

def userMessage (ts : String) : SlackMessage := { ts, text := some "hi", user := some "U1" }

def savedCursor : SlackCursorState :=
  { conversations := [("C1", "100.0")], threads := [("C1:090.0", "090.0")] }

/-- Two polls: the reply is there before the message that the first one has missed. -/
def orderedEvents : List BackfillEvent :=
  [.threadMessage "090.0" (userMessage "101.0"), .poll 0 [], .access 0 .ok,
    .channelMessage (userMessage "102.0"), .access 0 .ok, .access 0 .ok, .poll 0 []]

theorem backfill_skips_nothing_ordered :
    Meets (backfillStep "C1") (BackfillSafe "C1") (backfill "C1" savedCursor) orderedEvents ∧
      userMessage "102.0" ∈ (access "C1"
        (run (backfillStep "C1") (backfill "C1" savedCursor) orderedEvents) 0 .ok).offered := by
  have hsafe : Meets (backfillStep "C1") (BackfillSafe "C1") (backfill "C1" savedCursor)
      orderedEvents := by decide
  refine ⟨hsafe, ?_⟩
  refine (backfill_skips_nothing "C1" savedCursor hsafe).next (userMessage "102.0")
    ⟨by decide, by decide, by decide, ?_⟩
    { conversations := [("C1", "101.0")], threads := [("C1:090.0", "101.0")] } "101.0" ["090.0"]
    (by decide) (.inr (by decide)) 0
  rintro start hstart
  have hsaved : (run (backfillStep "C1") (backfill "C1" savedCursor) orderedEvents).start =
      some "100.0" := by decide
  cases hsaved.symm.trans hstart
  decide

/-- A message arrives between the history call and the replies call, and a reply after it:
the cursor goes to the reply. -/
def overtakenEvents : List BackfillEvent :=
  [.poll 0 [], .access 0 .ok, .channelMessage (userMessage "101.0"),
    .threadMessage "090.0" (userMessage "102.0"), .access 0 .ok, .access 0 .ok]

theorem backfill_skips_overtaken :
    ¬ SkipsNothing "C1"
      (run (backfillStep "C1") (backfill "C1" savedCursor) overtakenEvents) := by
  intro h
  have hstart : (run (backfillStep "C1") (backfill "C1" savedCursor) overtakenEvents).start =
      some "100.0" := by decide
  have hpending : Pending (run (backfillStep "C1") (backfill "C1" savedCursor) overtakenEvents)
      (userMessage "101.0") := by
    refine ⟨by decide, by decide, by decide, ?_⟩
    rintro start hs
    cases hstart.symm.trans hs
    decide
  have hbehind := h.behind _ hpending "102.0" (by decide)
  exact absurd hbehind (by decide)

end Direclaw.Slack
