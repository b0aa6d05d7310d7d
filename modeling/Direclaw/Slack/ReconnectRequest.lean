import Direclaw.Lib.Run
import Direclaw.Slack.SocketLoop
import Mathlib.Logic.Function.Basic

/-!
# Reconnect requests

`request_reconnect` of `channels/slack/socket.rs` and the two places that see its file: the
start of `run_socket_loop` and every turn of `process_single_connection`. All readers share one
file, and the one that sees it first removes it. The others find nothing.
-/

namespace Direclaw.Slack

open Direclaw.Lib

/-! ## The readers -/

/-- Where a call of `run_socket_loop` is. `startSaw` and `saw` are between `exists` and
`remove_file`; a call that is `starting` may not have been made yet. -/
inductive ReaderStage : Type where
  | starting
  | startSaw
  | loop (phase : SocketPhase)
  | saw
deriving DecidableEq

/-- In its connection, before the next look for the file. -/
def ReaderStage.connected : ReaderStage := .loop .connection

/-- The call is over. -/
def ReaderStage.Ended : ReaderStage → Prop
  | .loop (.returned _) => True
  | _ => False

/-- One step of one reader, and what it meets: the stop flag or the deadline, the end of its
connection, the result of a call of the loop, and whether `remove_file` succeeds. -/
structure ReaderEvent (ι : Type) where
  reader : ι
  stop : Bool := false
  closes : Bool := false
  result : SocketResult := .done
  removes : Bool := true

/-- The request file and the readers. `unseen` are the connections that were open when the
request was made, are still open and have not seen it (which the code does not record). -/
structure Readers (ι : Type) where
  file : Bool
  stage : ι → ReaderStage
  recoverMissedMessages : ι → Bool
  unseen : ι → Bool

section Steps

variable {ι : Type}

def Readers.requestReconnect (s : Readers ι) : Readers ι where
  file := true
  stage := s.stage
  recoverMissedMessages := s.recoverMissedMessages
  unseen i := s.stage i = .connected

def ReaderStage.step (recoverMissedMessages file : Bool) (e : ReaderEvent ι) :
    ReaderStage → ReaderStage × Bool
  | .starting => (if file then .startSaw else .loop .loopHead, file)
  | .startSaw => (.loop .loopHead, file && !e.removes)
  | .loop .connection =>
    if e.stop then
      (.loop (SocketPhase.connection.step recoverMissedMessages e.stop e.result), file)
    else if file then (.saw, file)
    else if e.closes then
      (.loop (SocketPhase.connection.step recoverMissedMessages e.stop e.result), file)
    else (.loop .connection, file)
  | .loop phase => (.loop (phase.step recoverMissedMessages e.stop e.result), file)
  -- the outcome is `ReconnectRequested`, and a pause follows
  | .saw => (.loop .backoff, file && !e.removes)

theorem ended_step {stage : ReaderStage} (h : stage.Ended) (recover file : Bool)
    (e : ReaderEvent ι) : stage.step recover file e = (stage, file) := by
  match stage, h with
  | .loop (.returned outcome), _ => rfl

theorem step_connected_ne (recover : Bool) (e : ReaderEvent ι) :
    (ReaderStage.connected.step recover true e).1 ≠ .connected := by
  obtain ⟨reader, stop, closes, result, removes⟩ := e
  cases stop with
  | true => exact nofun
  | false => exact nofun

variable [DecidableEq ι]

def readerStep (s : Readers ι) (e : ReaderEvent ι) : Readers ι :=
  let next := (s.stage e.reader).step (s.recoverMissedMessages e.reader) s.file e
  { s with
    file := next.2
    stage := Function.update s.stage e.reader next.1
    unseen := Function.update s.unseen e.reader
      (s.unseen e.reader && next.1 = .connected) }

/-- **The request reaches every connection**: in whichever order the readers go on, when the file
is gone no connection is left that was open at the request and has not seen it. -/
def ReachesEvery (s : Readers ι) : Prop :=
  ∀ events : List (ReaderEvent ι), (run readerStep s events).file = false →
    ∀ i, (run readerStep s events).unseen i = false

/-! ## The file goes away -/

variable {s : Readers ι} {i j : ι}

theorem unseen_readerStep_of_ne {e : ReaderEvent ι} (h : i ≠ e.reader) :
    (readerStep s e).unseen i = s.unseen i := Function.update_of_ne h _ _

/-- Alone and undisturbed the reader can come to remove the file. -/
def CanRemove (j : ι) (s : Readers ι) : Prop :=
  ∃ events : List (ReaderEvent ι), (∀ e ∈ events, e.reader = j) ∧
    (run readerStep s events).file = false

/-- The step of a reader that nothing stops and whose calls succeed. -/
def undisturbed (j : ι) : ReaderEvent ι where
  reader := j

theorem CanRemove.of_undisturbed (h : CanRemove j (readerStep s (undisturbed j))) :
    CanRemove j s := by
  obtain ⟨events, hevents, hfile⟩ := h
  exact ⟨undisturbed j :: events, List.forall_mem_cons.mpr ⟨rfl, hevents⟩, hfile⟩

theorem canRemove_of_saw (h : s.stage j = .saw ∨ s.stage j = .startSaw) : CanRemove j s := by
  refine ⟨[undisturbed j], fun e he => ?_, ?_⟩
  · rw [List.mem_singleton.mp he]
    rfl
  · show ((s.stage j).step (s.recoverMissedMessages j) s.file (undisturbed j)).2 = false
    rcases h with h | h
    · rw [h]
      exact Bool.and_false _
    · rw [h]
      exact Bool.and_false _

theorem stage_undisturbed (s : Readers ι) (j : ι) : (readerStep s (undisturbed j)).stage j =
    ((s.stage j).step (s.recoverMissedMessages j) s.file (undisturbed j)).1 :=
  Function.update_self _ _ _

theorem canRemove_of_starting (hfile : s.file = true) (h : s.stage j = .starting) :
    CanRemove j s := by
  apply CanRemove.of_undisturbed
  apply canRemove_of_saw
  rw [stage_undisturbed, h, hfile]
  exact .inr rfl

theorem canRemove_of_connected (hfile : s.file = true) (h : s.stage j = .connected) :
    CanRemove j s := by
  apply CanRemove.of_undisturbed
  apply canRemove_of_saw
  rw [stage_undisturbed, h, hfile]
  exact .inl rfl

theorem step_loop {phase : SocketPhase} (hne : phase ≠ .connection) (h : s.stage j = .loop phase) :
    (readerStep s (undisturbed j)).stage j =
        .loop (phase.step (s.recoverMissedMessages j) false .done) ∧
      (readerStep s (undisturbed j)).file = s.file := by
  rw [stage_undisturbed, h]
  show _ ∧ ((s.stage j).step (s.recoverMissedMessages j) s.file (undisturbed j)).2 = _
  rw [h]
  cases phase with
  | connection => exact absurd rfl hne
  | loopHead | catchUp | openUrl | connect | configure | backoff => exact ⟨rfl, rfl⟩
  | returned outcome => exact ⟨rfl, rfl⟩

theorem canRemove_of_next (phase : SocketPhase) (hne : phase ≠ .connection)
    (hfile : s.file = true) (h : s.stage j = .loop phase)
    (hnext : ∀ t : Readers ι, t.file = true →
      t.stage j = .loop (phase.step (s.recoverMissedMessages j) false .done) → CanRemove j t) :
    CanRemove j s := by
  obtain ⟨hstage, hkept⟩ := step_loop hne h
  exact CanRemove.of_undisturbed (hnext _ (hkept.trans hfile) hstage)

theorem canRemove_of_loop : ∀ {phase : SocketPhase}, ¬ (ReaderStage.loop phase).Ended →
    ∀ s : Readers ι, s.file = true → s.stage j = .loop phase → CanRemove j s := by
  have connection : ∀ s : Readers ι, s.file = true → s.stage j = .loop .connection →
      CanRemove j s := fun _ hfile h => canRemove_of_connected hfile h
  have configure : ∀ s : Readers ι, s.file = true → s.stage j = .loop .configure →
      CanRemove j s := fun _ hfile h => canRemove_of_next .configure nofun hfile h connection
  have connect : ∀ s : Readers ι, s.file = true → s.stage j = .loop .connect → CanRemove j s :=
    fun _ hfile h => canRemove_of_next .connect nofun hfile h configure
  have openUrl : ∀ s : Readers ι, s.file = true → s.stage j = .loop .openUrl → CanRemove j s :=
    fun _ hfile h => canRemove_of_next .openUrl nofun hfile h connect
  have catchUp : ∀ s : Readers ι, s.file = true → s.stage j = .loop .catchUp → CanRemove j s :=
    fun _ hfile h => canRemove_of_next .catchUp nofun hfile h openUrl
  have loopHead : ∀ s : Readers ι, s.file = true → s.stage j = .loop .loopHead →
      CanRemove j s := by
    intro s hfile h
    refine canRemove_of_next .loopHead nofun hfile h ?_
    cases s.recoverMissedMessages j with
    | true => exact catchUp
    | false => exact openUrl
  intro phase hends s hfile h
  cases phase with
  | loopHead => exact loopHead s hfile h
  | catchUp => exact catchUp s hfile h
  | openUrl => exact openUrl s hfile h
  | connect => exact connect s hfile h
  | configure => exact configure s hfile h
  | connection => exact connection s hfile h
  | backoff => exact canRemove_of_next .backoff nofun hfile h loopHead
  | returned outcome => exact absurd trivial hends

theorem canRemove_of_not_ended (hfile : s.file = true) (h : ¬ (s.stage j).Ended) :
    CanRemove j s := by
  cases hstage : s.stage j with
  | starting => exact canRemove_of_starting hfile hstage
  | startSaw => exact canRemove_of_saw (.inr hstage)
  | loop phase => exact canRemove_of_loop (hstage ▸ h) s hfile hstage
  | saw => exact canRemove_of_saw (.inl hstage)

theorem run_of_other (hne : i ≠ j) : ∀ (events : List (ReaderEvent ι)) (s : Readers ι),
    (∀ e ∈ events, e.reader = j) → (run readerStep s events).unseen i = s.unseen i
  | [], _, _ => rfl
  | e :: events, s, h => by
      have he : i ≠ e.reader := (h e List.mem_cons_self).symm ▸ hne
      have hrest := run_of_other hne events (readerStep s e) fun f hf =>
        h f (List.mem_cons_of_mem e hf)
      exact hrest.trans (unseen_readerStep_of_ne he)

/-! ## Who sees the file -/

/-- A connection that has not seen the request is the last reader, or there is none. -/
structure OnlyReader (s : Readers ι) : Prop where
  connected : ∀ i, s.unseen i = true → s.stage i = .connected
  file : ∀ i, s.unseen i = true → s.file = true
  others : ∀ i, s.unseen i = true → ∀ j, j ≠ i → (s.stage j).Ended

theorem OnlyReader.step (h : OnlyReader s) (e : ReaderEvent ι) : OnlyReader (readerStep s e) := by
  -- what is unseen after the step was so before, and the step is one of an ended reader
  have hbefore : ∀ i, (readerStep s e).unseen i = true →
      s.unseen i = true ∧ readerStep s e = s := by
    intro i hi
    have hother : i ≠ e.reader := by
      rintro rfl
      have hself : (readerStep s e).unseen e.reader = _ := Function.update_self _ _ _
      rw [hself, Bool.and_eq_true, decide_eq_true_iff] at hi
      rw [h.connected _ hi.1, h.file _ hi.1] at hi
      exact step_connected_ne _ _ hi.2
    rw [unseen_readerStep_of_ne hother] at hi
    refine ⟨hi, ?_⟩
    have hended := h.others i hi e.reader (Ne.symm hother)
    have hunseen : s.unseen e.reader = false := by
      by_contra hseen
      have hconnected := h.connected e.reader (Bool.not_eq_false _ ▸ hseen)
      rw [hconnected] at hended
      exact hended
    rw [readerStep, ended_step hended, hunseen, Bool.false_and, Function.update_eq_self,
      ← hunseen, Function.update_eq_self]
  refine ⟨fun i hi => ?_, fun i hi => ?_, fun i hi => ?_⟩
  · obtain ⟨hunseen, hsame⟩ := hbefore i hi
    rw [hsame]
    exact h.connected i hunseen
  · obtain ⟨hunseen, hsame⟩ := hbefore i hi
    rw [hsame]
    exact h.file i hunseen
  · obtain ⟨hunseen, hsame⟩ := hbefore i hi
    rw [hsame]
    exact h.others i hunseen

end Steps

/-- For any readers, wherever they are when the request is made: it reaches every connection in
every order of their steps if and only if there is no connection, or all readers but one have
ended. A connection whose next step finds the file is left. -/
theorem requestReconnect_reachesEvery_iff {ι : Type} [DecidableEq ι] (s : Readers ι) :
    (ReachesEvery s.requestReconnect ↔
      (∀ i, s.stage i ≠ .connected) ∨ ∃ i, ∀ j, j ≠ i → (s.stage j).Ended) ∧
    ∀ (t : Readers ι) (e : ReaderEvent ι), t.file = true → t.stage e.reader = .connected →
      (readerStep t e).stage e.reader ≠ .connected := by
  refine ⟨⟨fun h => ?_, fun h events hfile i => ?_⟩, fun t e hfile hstage => ?_⟩
  · by_contra hnot
    obtain ⟨hconnected, hothers⟩ := not_or.mp hnot
    obtain ⟨i, hi⟩ := not_forall_not.mp hconnected
    obtain ⟨j, hj⟩ := not_forall.mp (not_exists.mp hothers i)
    obtain ⟨hne, hends⟩ := Classical.not_imp.mp hj
    -- the other reader removes the file while the connection waits for its next turn
    obtain ⟨events, hevents, hfile⟩ :=
      canRemove_of_not_ended (s := s.requestReconnect) (j := j) rfl hends
    have hseen := h events hfile i
    rw [run_of_other (Ne.symm hne) _ _ hevents] at hseen
    exact of_decide_eq_false hseen hi
  · have hstart : OnlyReader s.requestReconnect := by
      refine ⟨fun i hi => of_decide_eq_true hi, fun _ _ => rfl, fun i hi j hj => ?_⟩
      have hi := of_decide_eq_true hi
      rcases h with hnone | ⟨last, hlast⟩
      · exact absurd hi (hnone i)
      · have heq : i = last := by
          by_contra hne
          have hended := hlast i hne
          rw [hi] at hended
          exact hended
        exact hlast j (heq ▸ hj)
    have hend : OnlyReader (run readerStep s.requestReconnect events) :=
      @run_invariant' _ _ readerStep OnlyReader (fun _ e ht => ht.step e) _ events hstart
    by_contra hunseen
    have hstill := hend.file i (Bool.not_eq_false _ ▸ hunseen)
    rw [hfile] at hstill
    cases hstill
  · have hself : (readerStep t e).stage e.reader = _ := Function.update_self _ _ _
    rw [hself, hfile, hstage]
    exact step_connected_ne _ e

/-! ### Two profiles -/

def twoConnections : Readers String where
  file := false
  stage profile :=
    if profile = "alpha" ∨ profile = "beta" then .connected else .loop (.returned (.ok ()))
  recoverMissedMessages _ := false
  unseen _ := false

/-- The first one sees the request and removes it; the second one never sees it. -/
theorem second_connection_not_reached : ¬ ReachesEvery twoConnections.requestReconnect := by
  intro h
  have hseen := h [{ reader := "alpha" }, { reader := "alpha" }] (by decide) "beta"
  revert hseen
  decide

end Direclaw.Slack
