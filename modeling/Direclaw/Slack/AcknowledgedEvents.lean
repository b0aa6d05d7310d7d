import Direclaw.Slack.SocketIntake
import Mathlib.Data.List.Range

/-!
# Acknowledged events

Slack does not send an event again once it is acknowledged. Here every event to enqueue has
a number, and every number is in one place: in the channel, with the worker, or at an end.
The two ends that lose an event are a full channel and a call of `enqueue_incoming` that
fails, and neither leaves an error.
-/

namespace Direclaw.Slack

open Direclaw.Lib Direclaw.Queue Direclaw.Orchestration

/-- The event is in the queue, or an error says that it is not. -/
def Outcome.kept (outcome : Outcome) : Bool :=
  outcome.fate == .written || outcome.fate == .alreadyQueued || outcome.reported

namespace SocketConnection

/-- The numbers of the events that the worker has yet to deal with. -/
def inFlight (s : SocketConnection) : List ℕ :=
  (s.handling.toList ++ s.buffer).map Prod.fst

/-- **No acknowledged event is dropped**: it is on its way, or it is written, there already,
or reported. -/
def EventsKept (s : SocketConnection) : Prop :=
  ∀ event, s.accepted[event]? = some true →
    event ∈ s.inFlight ∨ ∃ outcome ∈ s.outcomes, outcome.event = event ∧ outcome.kept = true

/-- Every event is in one place. -/
def Counted (s : SocketConnection) : Prop :=
  (s.inFlight ++ s.outcomes.map Outcome.event).Perm (List.range s.accepted.length)

/-- An acknowledged event is at an end that does not keep it. -/
def Dropped (s : SocketConnection) : Prop :=
  ∃ outcome ∈ s.outcomes, outcome.kept = false ∧ s.accepted[outcome.event]? = some true

end SocketConnection

/-- The event in a text frame, if it is one to enqueue and gets acknowledged. -/
def acknowledgedEvent (body : Option Json) (ackSent : Bool) : Option SocketEvent := do
  let envelope ← body.bind SocketEnvelope.decode
  let event ← envelope.event
  if event.shouldEnqueue && envelope.envelopeId.isSome && ackSent then some event else none

section Steps

variable {profileId : String} {profile : ChannelProfile} {s : SocketConnection}

/-- An acknowledged event finds room in the channel, and `enqueue_incoming` does not fail
for one. -/
def KeepsEvent (profileId : String) (profile : ChannelProfile) (s : SocketConnection) :
    SocketInput → Prop
  | .text body ackSent =>
    s.reading = true → (acknowledgedEvent body ackSent).isSome = true →
      s.buffer.length < socketBufferCapacity
  | .enqueue now modified fault =>
    ∀ number candidate, s.handling = some (number, candidate) →
      s.accepted[number]? = some true →
      (enqueueIncoming s.queue (candidateOffer profileId profile candidate) now modified
        fault).1.toBool = true
  | _ => True

theorem SocketConnection.Counted.nodup (h : s.Counted) :
    (s.inFlight ++ s.outcomes.map Outcome.event).Nodup :=
  h.nodup_iff.mpr List.nodup_range

theorem SocketConnection.Counted.kept_iff (h : s.Counted) : s.EventsKept ↔ ¬ s.Dropped := by
  have hnodup := List.nodup_append.mp h.nodup
  constructor
  · rintro hkept ⟨outcome, hmem, hlost, hacked⟩
    rcases hkept outcome.event hacked with hflight | ⟨other, hother, heq, hok⟩
    · exact hnodup.2.2 _ hflight _ (List.mem_map_of_mem hmem) rfl
    · obtain rfl : other = outcome := List.inj_on_of_nodup_map hnodup.2.1 hother hmem heq
      rw [hlost] at hok
      cases hok
  · intro hnot event hacked
    have hlt : event < s.accepted.length := (List.getElem?_eq_some_iff.mp hacked).1
    have hplace : event ∈ s.inFlight ++ s.outcomes.map Outcome.event :=
      h.mem_iff.mpr (List.mem_range.mpr hlt)
    rcases List.mem_append.mp hplace with hflight | hdone
    · exact .inl hflight
    · obtain ⟨outcome, hmem, rfl⟩ := List.mem_map.mp hdone
      refine .inr ⟨outcome, hmem, rfl, ?_⟩
      cases hkept : outcome.kept with
      | true => rfl
      | false => exact absurd ⟨outcome, hmem, hkept, hacked⟩ hnot

/-- What one step does to the events: nothing, or it brings a new one that gets into the
channel or finds it full, or it ends the one that the worker has. -/
inductive EventMove (s s' : SocketConnection) (keeps : Prop) : Prop where
  | still (hflight : s'.inFlight = s.inFlight) (houtcomes : s'.outcomes = s.outcomes)
      (haccepted : s'.accepted = s.accepted) (hkeeps : keeps)
  | buffered (acked : Bool) (hflight : s'.inFlight = s.inFlight ++ [s.accepted.length])
      (houtcomes : s'.outcomes = s.outcomes) (haccepted : s'.accepted = s.accepted ++ [acked])
      (hkeeps : keeps)
  | full (acked : Bool) (hflight : s'.inFlight = s.inFlight)
      (houtcomes : s'.outcomes = s.outcomes ++ [⟨s.accepted.length, .bufferFull, false⟩])
      (haccepted : s'.accepted = s.accepted ++ [acked]) (hkeeps : keeps ↔ acked = false)
  | ended (event : ℕ) (fate : Fate) (hflight : s.inFlight = event :: s'.inFlight)
      (houtcomes : s'.outcomes = s.outcomes ++ [⟨event, fate, false⟩])
      (haccepted : s'.accepted = s.accepted)
      (hkeeps : keeps ↔ (s.accepted[event]? = some true → fate ≠ .enqueueFailed))
      (hfate : fate ≠ .bufferFull)

/-- The event in a frame, once it is known which one it is and whether it was
acknowledged. -/
theorem eventMove_handleSocketEvent (event : SocketEvent) (acked : Bool) :
    EventMove s (handleSocketEvent s event acked)
      ((event.shouldEnqueue && acked) = true → s.buffer.length < socketBufferCapacity) := by
  cases haccepted : event.shouldEnqueue with
  | false =>
    have hnothing : handleSocketEvent s event acked = s := by
      simp only [handleSocketEvent, haccepted, Bool.not_false, if_true]
    rw [hnothing]
    exact .still rfl rfl rfl (by simp)
  | true =>
    simp only [handleSocketEvent, haccepted, Bool.not_true, Bool.true_and, Bool.false_eq_true,
      if_false]
    split
    · next hroom =>
        refine .buffered acked ?_ rfl rfl fun _ => hroom
        simp [SocketConnection.inFlight]
    · next hfull =>
        refine .full acked rfl ?_ rfl ?_
        · simp [SocketConnection.settle]
        · simp [hfull]

theorem eventMove_text (body : Option Json) (ackSent : Bool) :
    EventMove s (socketStep profileId profile s (.text body ackSent))
      (KeepsEvent profileId profile s (.text body ackSent)) := by
  simp only [socketStep, KeepsEvent]
  cases hreading : s.reading with
  | false => exact .still rfl rfl rfl (by simp)
  | true =>
    simp only [if_true, true_implies, handleSocketText, acknowledgedEvent]
    cases hbody : body.bind SocketEnvelope.decode with
    | none => exact .still rfl rfl rfl (by simp)
    | some envelope =>
      cases hevent : envelope.event with
      | none =>
        simp only [hevent]
        exact .still rfl rfl rfl (by simp [hevent])
      | some event =>
        have hacked : (do
            let envelope ← some envelope
            let event ← envelope.event
            if event.shouldEnqueue && envelope.envelopeId.isSome && ackSent then some event
            else none : Option SocketEvent).isSome =
            (event.shouldEnqueue && (envelope.envelopeId.isSome && ackSent)) := by
          simp only [bind, Option.bind_some, hevent, ← Bool.and_assoc]
          split
          · next htrue => rw [htrue]; rfl
          · next hfalse => rw [Bool.eq_false_iff.mpr hfalse]; rfl
        rw [hacked]
        simp only [hevent]
        exact eventMove_handleSocketEvent event _

theorem eventMove_enqueue (now : Int64) (modified : ℕ) (fault : Option EnqueueFault) :
    EventMove s (socketStep profileId profile s (.enqueue now modified fault))
      (KeepsEvent profileId profile s (.enqueue now modified fault)) := by
  simp only [socketStep, KeepsEvent]
  cases hhandling : s.handling with
  | none => exact .still rfl rfl rfl (by simp)
  | some next =>
    obtain ⟨number, candidate⟩ := next
    simp only [Option.some.injEq, Prod.mk.injEq, and_imp, workerEnqueue]
    cases hresult : enqueueIncoming s.queue (candidateOffer profileId profile candidate) now
        modified fault with
    | mk result queue =>
      have hflight : s.inFlight = number :: s.buffer.map Prod.fst := by
        simp [SocketConnection.inFlight, hhandling]
      cases result with
      | error failed =>
        refine .ended number .enqueueFailed hflight ?_ rfl ?_ (by simp)
        · simp [SocketConnection.settle]
        · simp [hresult, Except.toBool]
      | ok wrote =>
        cases wrote with
        | true =>
          refine .ended number .written hflight ?_ rfl ?_ (by simp)
          · simp [SocketConnection.settle]
          · simp [hresult, Except.toBool]
        | false =>
          refine .ended number .alreadyQueued hflight ?_ rfl ?_ (by simp)
          · simp [SocketConnection.settle]
          · simp [hresult, Except.toBool]

theorem eventMove_socketStep (input : SocketInput) :
    EventMove s (socketStep profileId profile s input) (KeepsEvent profileId profile s input) := by
  cases input with
  | text body ackSent => exact eventMove_text body ackSent
  | enqueue now modified fault => exact eventMove_enqueue now modified fault
  | frame => exact .still rfl rfl rfl trivial
  | queue queue => exact .still rfl rfl rfl trivial
  | leave exit =>
    simp only [socketStep]
    split <;> exact .still rfl rfl rfl trivial
  | receive =>
    simp only [socketStep]
    split
    · next next rest hnone hbuffer =>
        refine .still ?_ rfl rfl trivial
        simp [SocketConnection.inFlight, hnone, hbuffer]
    · exact .still rfl rfl rfl trivial

theorem SocketConnection.Counted.step (h : s.Counted) (input : SocketInput) :
    (socketStep profileId profile s input).Counted := by
  rw [SocketConnection.Counted] at h ⊢
  have hmove : EventMove s (socketStep profileId profile s input)
      (KeepsEvent profileId profile s input) := eventMove_socketStep input
  cases hmove with
  | still hflight houtcomes haccepted => rwa [hflight, houtcomes, haccepted]
  | buffered acked hflight houtcomes haccepted =>
    rw [hflight, houtcomes, haccepted, List.length_append, List.length_singleton,
      List.range_succ]
    refine List.Perm.trans ?_ (h.append_right _)
    rw [List.append_assoc, List.append_assoc]
    exact List.perm_append_comm.append_left _
  | full acked hflight houtcomes haccepted =>
    rw [hflight, houtcomes, haccepted, List.length_append, List.length_singleton,
      List.range_succ, List.map_append, ← List.append_assoc]
    exact h.append_right _
  | ended event fate hflight houtcomes haccepted =>
    rw [hflight] at h
    rw [houtcomes, haccepted, List.map_append, ← List.append_assoc]
    exact List.perm_append_comm.trans h

theorem SocketConnection.Dropped.step (hdropped : s.Dropped)
    (input : SocketInput) : (socketStep profileId profile s input).Dropped := by
  obtain ⟨outcome, hmem, hlost, hacked⟩ := hdropped
  have hlt := (List.getElem?_eq_some_iff.mp hacked).1
  have hmove : EventMove s (socketStep profileId profile s input)
      (KeepsEvent profileId profile s input) := eventMove_socketStep input
  cases hmove with
  | still _ houtcomes haccepted =>
    exact ⟨outcome, houtcomes ▸ hmem, hlost, haccepted ▸ hacked⟩
  | buffered _ _ houtcomes haccepted =>
    refine ⟨outcome, houtcomes ▸ hmem, hlost, ?_⟩
    rw [haccepted, List.getElem?_append_left hlt, hacked]
  | full _ _ houtcomes haccepted =>
    refine ⟨outcome, houtcomes ▸ List.mem_append_left _ hmem, hlost, ?_⟩
    rw [haccepted, List.getElem?_append_left hlt, hacked]
  | ended _ _ _ houtcomes haccepted =>
    exact ⟨outcome, houtcomes ▸ List.mem_append_left _ hmem, hlost, haccepted ▸ hacked⟩

/-- A step drops an acknowledged event exactly if it does not meet the condition. -/
theorem SocketConnection.Counted.step_iff (h : s.Counted) (hkept : ¬ s.Dropped)
    (input : SocketInput) :
    ¬ (socketStep profileId profile s input).Dropped ↔ KeepsEvent profileId profile s input := by
  have hold : ∀ outcome ∈ s.outcomes, outcome.kept = false → outcome.event < s.accepted.length ∧
      s.accepted[outcome.event]? ≠ some true := by
    intro outcome hmem hlost
    refine ⟨?_, fun hacked => hkept ⟨outcome, hmem, hlost, hacked⟩⟩
    exact List.mem_range.mp (h.mem_iff.mp (List.mem_append_right _ (List.mem_map_of_mem hmem)))
  have hmove : EventMove s (socketStep profileId profile s input)
      (KeepsEvent profileId profile s input) := eventMove_socketStep input
  cases hmove with
  | still _ houtcomes haccepted hkeeps =>
    refine iff_of_true ?_ hkeeps
    rwa [SocketConnection.Dropped, houtcomes, haccepted]
  | buffered acked _ houtcomes haccepted hkeeps =>
    refine iff_of_true ?_ hkeeps
    rintro ⟨outcome, hmem, hlost, hacked⟩
    obtain ⟨hlt, hnot⟩ := hold outcome (houtcomes ▸ hmem) hlost
    rw [haccepted, List.getElem?_append_left hlt] at hacked
    exact hnot hacked
  | full acked _ houtcomes haccepted hkeeps =>
    rw [hkeeps]
    constructor
    · intro hnot
      cases acked with
      | false => rfl
      | true =>
        refine absurd ⟨_, houtcomes ▸ List.mem_append_right _ List.mem_cons_self, rfl, ?_⟩ hnot
        rw [haccepted]
        simp
    · rintro rfl ⟨outcome, hmem, hlost, hacked⟩
      rw [houtcomes] at hmem
      rw [haccepted] at hacked
      rcases List.mem_append.mp hmem with hmem | hmem
      · obtain ⟨hlt, hnot⟩ := hold outcome hmem hlost
        rw [List.getElem?_append_left hlt] at hacked
        exact hnot hacked
      · obtain rfl := List.mem_singleton.mp hmem
        simp at hacked
  | ended event fate _ houtcomes haccepted hkeeps hfate =>
    rw [hkeeps]
    constructor
    · rintro hnot hacked rfl
      refine absurd ⟨_, houtcomes ▸ List.mem_append_right _ List.mem_cons_self, rfl, ?_⟩ hnot
      rw [haccepted]
      exact hacked
    · rintro hcond ⟨outcome, hmem, hlost, hacked⟩
      rw [houtcomes] at hmem
      rw [haccepted] at hacked
      rcases List.mem_append.mp hmem with hmem | hmem
      · exact (hold outcome hmem hlost).2 hacked
      · obtain rfl := List.mem_singleton.mp hmem
        have hnot := hcond hacked
        cases fate with
        | written | alreadyQueued => cases hlost
        | bufferFull => exact hfate rfl
        | enqueueFailed => exact hnot rfl

end Steps

/-! ## Every sequence of frames -/

/-- A connection that has just been made. -/
def connected (queue : QueueState) : SocketConnection := { queue }

/-- Whatever frames come, however the worker keeps up and whatever its calls give: no
acknowledged event is dropped, if and only if every one finds room in the channel and no
call of `enqueue_incoming` for one fails. -/
theorem acknowledged_events_kept_iff (profileId : String) (profile : ChannelProfile)
    (queue : QueueState) (inputs : List SocketInput) :
    (run (socketStep profileId profile) (connected queue) inputs).EventsKept ↔
      Meets (socketStep profileId profile) (KeepsEvent profileId profile) (connected queue)
        inputs := by
  have hcounted : (connected queue).Counted := List.Perm.refl []
  have hrun : (run (socketStep profileId profile) (connected queue) inputs).Counted :=
    run_invariant' (fun _ input h => h.step input) inputs hcounted
  rw [hrun.kept_iff]
  refine run_sound_iff SocketConnection.Counted _ (fun s input h => h.step input)
    (fun s input _ hbad => hbad.step input)
    (fun s input h hgood => h.step_iff hgood input) hcounted ?_
  rintro ⟨outcome, hmem, -⟩
  cases hmem

/-! ## A burst -/

def burstFrame : Json :=
  .object [("envelope_id", .str "E1"),
    ("payload", .object [("event", .object [("type", .str "message"), ("channel", .str "D1"),
      ("user", .str "U1"), ("text", .str "hi"), ("ts", .str "100.0")])])]

def burstEvent : SocketEvent where
  type := "message"
  channel := "D1"
  channelType := none
  user := some "U1"
  botId := none
  subtype := none
  text := some "hi"
  ts := "100.0"
  threadTs := none

def burst (n : ℕ) : List SocketInput := List.replicate n (.text (some burstFrame) true)

theorem burst_step (profileId : String) (profile : ChannelProfile) {s : SocketConnection}
    (hreading : s.reading = true) :
    socketStep profileId profile s (.text (some burstFrame) true) =
      handleSocketEvent s burstEvent true := by
  have hdecode : SocketEnvelope.decode burstFrame =
      some { envelopeId := some "E1", event := some burstEvent } := by rfl
  simp only [socketStep, hreading, if_true, handleSocketText, Option.bind_some, hdecode]
  rfl

theorem run_burst_succ (profileId : String) (profile : ChannelProfile) (n : ℕ) :
    run (socketStep profileId profile) (connected {}) (burst (n + 1)) =
      socketStep profileId profile (run (socketStep profileId profile) (connected {}) (burst n))
        (.text (some burstFrame) true) := by
  rw [burst, List.replicate_succ', run_append]
  rfl

/-- As long as there is room, every frame of a burst gets into the channel. -/
theorem burst_fills (profileId : String) (profile : ChannelProfile) {n : ℕ}
    (hn : n ≤ socketBufferCapacity) :
    (run (socketStep profileId profile) (connected {}) (burst n)).reading = true ∧
      (run (socketStep profileId profile) (connected {}) (burst n)).buffer.length = n ∧
      (run (socketStep profileId profile) (connected {}) (burst n)).accepted.length = n := by
  induction n with
  | zero => exact ⟨rfl, rfl, rfl⟩
  | succ n ih =>
    obtain ⟨hreading, hbuffer, haccepted⟩ := ih (by omega)
    have hroom : (run (socketStep profileId profile) (connected {}) (burst n)).buffer.length <
        socketBufferCapacity := by omega
    have henqueue : burstEvent.shouldEnqueue = true := by decide
    rw [run_burst_succ, burst_step profileId profile hreading]
    simp only [handleSocketEvent, henqueue, Bool.not_true, Bool.false_eq_true, if_false]
    rw [if_pos hroom]
    exact ⟨hreading, by simp [hbuffer], by simp [haccepted]⟩

/-- The event behind a burst that fills the channel is dropped, and so not kept. -/
theorem burst_overflows (profileId : String) (profile : ChannelProfile) {n : ℕ}
    (hn : n = socketBufferCapacity) :
    ¬ (run (socketStep profileId profile) (connected {}) (burst (n + 1))).EventsKept := by
  have hcounted : (run (socketStep profileId profile) (connected {}) (burst (n + 1))).Counted :=
    run_invariant' (fun _ input h => h.step input) _ (List.Perm.refl [])
  rw [hcounted.kept_iff, not_not, run_burst_succ]
  obtain ⟨hreading, hbuffer, haccepted⟩ := burst_fills profileId profile hn.le
  have henqueue : burstEvent.shouldEnqueue = true := by decide
  rw [burst_step profileId profile hreading]
  simp only [handleSocketEvent, henqueue, Bool.not_true, Bool.false_eq_true, if_false]
  rw [if_neg (by rw [hbuffer, hn]; exact lt_irrefl _)]
  refine ⟨_, List.mem_append_right _ List.mem_cons_self, ?_, ?_⟩
  · simp [Outcome.kept]
  · simp [SocketConnection.settle]

/-- One event more than the channel holds, before the worker gets to receive one. -/
theorem burst_dropped :
    ¬ (run (socketStep "main" { channel := .slack, orchestratorId := "eng" }) (connected {})
      (burst (socketBufferCapacity + 1))).EventsKept :=
  burst_overflows "main" { channel := .slack, orchestratorId := "eng" } rfl

end Direclaw.Slack
