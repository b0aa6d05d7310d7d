import Direclaw.Lib.Run
import Direclaw.Runtime.BatchOrder

/-!
# Waiting for the replies of a chat

`wait_for_outgoing_messages` of `channels/local/session.rs`. A poll goes over all files of the
outgoing directory, those of other messages too, and removes one file of its own message after
the other. An error at any of them ends the wait, and with it go the replies whose files are
removed already.
-/

namespace Direclaw.Local

open Direclaw.Lib Direclaw.Queue Direclaw.Runtime

/-! ## Polls -/

inductive WaitError : Type where
  | onPoll (err : String)
  | list (err : String)
  | read (name : FileName) (err : String)
  | parse (name : FileName) (err : String)
  | remove (name : FileName) (err : String)
deriving DecidableEq, Repr

def WaitError.display (outgoing : String) : WaitError → String
  | onPoll err => err
  | list err => s!"failed to read {outgoing}: {err}"
  | read name err => s!"failed to read {outgoing}/{String.ofList name}: {err}"
  | parse name err => s!"failed to parse {outgoing}/{String.ofList name}: {err}"
  | remove name err => s!"failed to remove {outgoing}/{String.ofList name}: {err}"

/-- A file that cannot be read or parsed, whatever message it is of. -/
def WaitError.Malformed : WaitError → Prop
  | read _ _ | parse _ _ => True
  | onPoll _ | list _ | remove _ _ => False

/-- What one poll meets: the directory, the accesses that fail, and whether the settle window is
over by its end. -/
structure Poll where
  onPoll : Except String Unit := .ok ()
  listError : Option String := none
  directory : Directory
  readError : FileName → Option String := fun _ => none
  parseError : FileName → String := fun _ => ""
  removeError : FileName → Option String := fun _ => none
  settled : Bool := false

/-- `read_to_string` and `from_str` of one listed file. -/
def Poll.outgoingAt (poll : Poll) (name : FileName) : Except WaitError OutgoingMessage :=
  match poll.readError name, poll.directory.lookup name with
  | some err, _ => .error (.read name err)
  | none, none => .error (.read name "No such file or directory (os error 2)")
  | none, some { content := .notUtf8 _, .. } =>
    .error (.read name "stream did not contain valid UTF-8")
  | none, some file =>
    match file.content.readOutgoing with
    | none => .error (.parse name (poll.parseError name))
    | some outgoing => .ok outgoing

/-! ## The wait -/

structure WaitState where
  found : List OutgoingMessage := []
  removed : List (FileName × OutgoingMessage) := []
  ended : Option (Except WaitError Unit) := none

/-- What the wait returns, if the time is up. -/
def WaitState.result (s : WaitState) : Except WaitError (List OutgoingMessage) :=
  match s.ended with
  | some (.error err) => .error err
  | some (.ok ()) | none => .ok s.found

section Wait

variable (messageId : String)

/-- The body of the loop over the files. -/
def consumeFile (poll : Poll) (s : WaitState) (name : FileName) : WaitState :=
  if s.ended.isSome then s
  else
    match poll.outgoingAt name with
    | .error err => { s with ended := some (.error err) }
    | .ok outgoing =>
      if outgoing.messageId ≠ messageId then s
      else
        match poll.removeError name with
        | some err => { s with ended := some (.error (.remove name err)) }
        | none =>
          { s with found := s.found ++ [outgoing], removed := s.removed ++ [(name, outgoing)] }

/-- The body of the outer loop. A reply was received before the settle window can be over. -/
def pollStep (s : WaitState) (poll : Poll) : WaitState :=
  if s.ended.isSome then s
  else
    match poll.onPoll, poll.listError with
    | .error err, _ => { s with ended := some (.error (.onPoll err)) }
    | .ok (), some err => { s with ended := some (.error (.list err)) }
    | .ok (), none =>
      let after := run (consumeFile messageId poll) s (sortedOutgoingPaths poll.directory)
      let matchedOnThisPoll := s.found.length < after.found.length
      if after.ended.isNone ∧ after.found ≠ [] ∧ ¬ matchedOnThisPoll ∧ poll.settled then
        { after with ended := some (.ok ()) }
      else after

/-- The polls are those for which there is time. -/
def waitForOutgoingMessages (polls : List Poll) : WaitState := run (pollStep messageId) {} polls

/-- The replies of a poll in the order of the files. -/
def repliesOf (poll : Poll) : List (FileName × OutgoingMessage) :=
  (sortedOutgoingPaths poll.directory).filterMap fun name =>
    match poll.outgoingAt name with
    | .error _ => none
    | .ok outgoing => if outgoing.messageId = messageId then some (name, outgoing) else none

/-- **Nothing is lost**: a reply that is removed is among those that are returned. -/
def Lossless (s : WaitState) : Prop :=
  ∀ reply ∈ s.removed, ∃ found, s.result = .ok found ∧ reply.2 ∈ found

/-- No file fails the wait for not being readable or well formed. -/
def Tolerant (s : WaitState) : Prop := ∀ err, s.result = .error err → ¬ err.Malformed

/-- While the wait goes on, a file is well formed, and if it is a reply it can be removed, or
nothing has been removed yet. -/
def FileAdmitted (poll : Poll) (s : WaitState) (name : FileName) : Prop :=
  s.ended = none → ∃ outgoing, poll.outgoingAt name = .ok outgoing ∧
    (outgoing.messageId = messageId → poll.removeError name = none ∨ s.removed = [])

/-- While the wait goes on, its callback and the listing fail only if nothing has been removed
yet, and every file that the listing leads to is admitted. -/
def PollAdmitted (s : WaitState) (poll : Poll) : Prop :=
  s.ended = none →
    (poll.onPoll = .ok () ∧ poll.listError = none ∨ s.removed = []) ∧
      (poll.onPoll = .ok () → poll.listError = none →
        Meets (consumeFile messageId poll) (FileAdmitted messageId poll) s
          (sortedOutgoingPaths poll.directory))

end Wait

/-! ## What is removed -/

section Steps

variable {messageId : String} {s : WaitState} {poll : Poll} {name : FileName}

/-- What was found is what was removed, and all of it is for the message. -/
structure Consistent (messageId : String) (s : WaitState) : Prop where
  found : s.found = s.removed.map Prod.snd
  matching : ∀ reply ∈ s.removed, reply.2.messageId = messageId

/-- What a file does to a wait that goes on. -/
theorem consumeFile_cases (messageId : String) (poll : Poll) (name : FileName)
    (h : s.ended = none) :
    (∃ err, poll.outgoingAt name = .error err ∧
      consumeFile messageId poll s name = { s with ended := some (.error err) }) ∨
    ∃ outgoing, poll.outgoingAt name = .ok outgoing ∧
      ((outgoing.messageId ≠ messageId ∧ consumeFile messageId poll s name = s) ∨
        outgoing.messageId = messageId ∧
          ((∃ err, poll.removeError name = some err ∧ consumeFile messageId poll s name =
              { s with ended := some (.error (.remove name err)) }) ∨
            poll.removeError name = none ∧ consumeFile messageId poll s name =
              { s with
                found := s.found ++ [outgoing]
                removed := s.removed ++ [(name, outgoing)] })) := by
  have hgoes : ¬ s.ended.isSome = true := by
    rw [h]
    exact Bool.false_ne_true
  rw [consumeFile, if_neg hgoes]
  cases hread : poll.outgoingAt name with
  | error err => exact .inl ⟨err, rfl, rfl⟩
  | ok outgoing =>
    refine .inr ⟨outgoing, rfl, ?_⟩
    by_cases hid : outgoing.messageId = messageId
    · refine .inr ⟨hid, ?_⟩
      simp only [hid, ne_eq, not_true_eq_false, if_false]
      cases hremove : poll.removeError name with
      | some err => exact .inl ⟨err, rfl, rfl⟩
      | none => exact .inr ⟨rfl, rfl⟩
    · exact .inl ⟨hid, if_pos hid⟩

theorem consumeFile_of_ended (h : s.ended.isSome = true) : consumeFile messageId poll s name = s :=
  if_pos h

theorem consistent_consumeFile (h : Consistent messageId s) (name : FileName) :
    Consistent messageId (consumeFile messageId poll s name) := by
  cases hended : s.ended with
  | some result =>
    rw [consumeFile_of_ended (by rw [hended]; rfl)]
    exact h
  | none =>
    rcases consumeFile_cases messageId poll name hended with
      ⟨err, -, hstep⟩ | ⟨outgoing, -, ⟨-, hstep⟩ | ⟨hid, ⟨err, -, hstep⟩ | ⟨-, hstep⟩⟩⟩
    · rw [hstep]
      exact ⟨h.found, h.matching⟩
    · rw [hstep]
      exact h
    · rw [hstep]
      exact ⟨h.found, h.matching⟩
    · rw [hstep]
      refine ⟨?_, fun reply hreply => ?_⟩
      · show s.found ++ [outgoing] = (s.removed ++ [(name, outgoing)]).map Prod.snd
        rw [List.map_append, ← h.found]
        rfl
      · rcases List.mem_append.mp hreply with hreply | hreply
        · exact h.matching reply hreply
        · rw [List.mem_singleton.mp hreply]
          exact hid

/-- The wait has failed, and a reply is lost or a malformed file is why. -/
def Failed (s : WaitState) : Prop :=
  ∃ err, s.ended = some (.error err) ∧ (s.removed ≠ [] ∨ err.Malformed)

theorem not_failed_iff (h : Consistent messageId s) : ¬ Failed s ↔ Lossless s ∧ Tolerant s := by
  constructor
  · intro hgood
    rcases hended : s.ended with _ | ⟨err | _⟩
    · have hresult : s.result = .ok s.found := by rw [WaitState.result, hended]
      refine ⟨fun reply hreply => ⟨s.found, hresult, ?_⟩, fun err herr => ?_⟩
      · rw [h.found]
        exact List.mem_map_of_mem hreply
      · rw [hresult] at herr
        cases herr
    · have hresult : s.result = .error err := by rw [WaitState.result, hended]
      refine ⟨fun reply hreply => ?_, fun other hother hmalformed => ?_⟩
      · exact absurd ⟨err, hended, .inl (List.ne_nil_of_mem hreply)⟩ hgood
      · rw [hresult] at hother
        obtain rfl := Except.error.inj hother
        exact hgood ⟨err, hended, .inr hmalformed⟩
    · have hresult : s.result = .ok s.found := by rw [WaitState.result, hended]
      refine ⟨fun reply hreply => ⟨s.found, hresult, ?_⟩, fun err herr => ?_⟩
      · rw [h.found]
        exact List.mem_map_of_mem hreply
      · rw [hresult] at herr
        cases herr
  · rintro ⟨hlossless, htolerant⟩ ⟨err, hended, hwhy⟩
    have hresult : s.result = .error err := by rw [WaitState.result, hended]
    rcases hwhy with hremoved | hmalformed
    · obtain ⟨reply, hreply⟩ := List.exists_mem_of_ne_nil _ hremoved
      obtain ⟨found, hfound, -⟩ := hlossless reply hreply
      rw [hresult] at hfound
      cases hfound
    · exact htolerant err hresult hmalformed

theorem failed_consumeFile (h : Failed s) (name : FileName) :
    Failed (consumeFile messageId poll s name) := by
  obtain ⟨err, hended, hwhy⟩ := h
  rw [consumeFile_of_ended (by rw [hended]; rfl)]
  exact ⟨err, hended, hwhy⟩

theorem not_failed_consumeFile_iff (hgood : ¬ Failed s) :
    ¬ Failed (consumeFile messageId poll s name) ↔ FileAdmitted messageId poll s name := by
  cases hended : s.ended with
  | some result =>
    rw [consumeFile_of_ended (by rw [hended]; rfl)]
    refine iff_of_true hgood fun hnone => ?_
    rw [hended] at hnone
    cases hnone
  | none =>
    rcases consumeFile_cases messageId poll name hended with
      ⟨err, hread, hstep⟩ |
        ⟨outgoing, hread, ⟨hid, hstep⟩ | ⟨hid, ⟨err, hremove, hstep⟩ | ⟨hremove, hstep⟩⟩⟩
    · have hmalformed : err.Malformed := by
        unfold Poll.outgoingAt at hread
        split at hread
        · exact Except.error.inj hread ▸ trivial
        · exact Except.error.inj hread ▸ trivial
        · exact Except.error.inj hread ▸ trivial
        · split at hread
          · exact Except.error.inj hread ▸ trivial
          · cases hread
      rw [hstep]
      refine iff_of_false (not_not_intro ⟨err, rfl, .inr hmalformed⟩) fun hadmitted => ?_
      obtain ⟨outgoing, hok, -⟩ := hadmitted hended
      rw [hread] at hok
      cases hok
    · rw [hstep]
      exact iff_of_true hgood fun _ => ⟨outgoing, hread, fun heq => absurd heq hid⟩
    · rw [hstep]
      constructor
      · intro hfine _
        refine ⟨outgoing, hread, fun _ => .inr ?_⟩
        by_contra hremoved
        exact hfine ⟨_, rfl, .inl hremoved⟩
      · rintro hadmitted ⟨other, hother, hwhy⟩
        obtain ⟨same, hsame, hdone⟩ := hadmitted hended
        rw [hread] at hsame
        obtain rfl := Except.ok.inj hsame
        rcases hdone hid with hnone | hempty
        · rw [hremove] at hnone
          cases hnone
        · obtain rfl := Except.error.inj (Option.some.inj hother)
          exact hwhy.elim (absurd hempty) id
    · rw [hstep]
      refine iff_of_true ?_ fun _ => ⟨outgoing, hread, fun _ => .inl hremove⟩
      rintro ⟨err, herr, -⟩
      rw [show s.ended = none from hended] at herr
      cases herr

theorem pollStep_of_ended (h : s.ended.isSome = true) : pollStep messageId s poll = s := if_pos h

def filesStep (messageId : String) (s : WaitState) (poll : Poll) : WaitState :=
  run (consumeFile messageId poll) s (sortedOutgoingPaths poll.directory)

/-- What a poll does to a wait that goes on. -/
theorem pollStep_cases (messageId : String) (poll : Poll) (h : s.ended = none) :
    (∃ err, (poll.onPoll = .error err) ∧
      pollStep messageId s poll = { s with ended := some (.error (.onPoll err)) }) ∨
    (∃ err, poll.onPoll = .ok () ∧ poll.listError = some err ∧
      pollStep messageId s poll = { s with ended := some (.error (.list err)) }) ∨
    poll.onPoll = .ok () ∧ poll.listError = none ∧
      ((filesStep messageId s poll).ended = none ∧ pollStep messageId s poll =
          { filesStep messageId s poll with ended := some (.ok ()) } ∨
        pollStep messageId s poll = filesStep messageId s poll) := by
  have hgoes : ¬ s.ended.isSome = true := by
    rw [h]
    exact Bool.false_ne_true
  rw [pollStep, if_neg hgoes]
  cases hpoll : poll.onPoll with
  | error err => exact .inl ⟨err, rfl, rfl⟩
  | ok _ =>
    cases hlist : poll.listError with
    | some err => exact .inr (.inl ⟨err, rfl, rfl, rfl⟩)
    | none =>
      refine .inr (.inr ⟨rfl, rfl, ?_⟩)
      by_cases hsettled : (filesStep messageId s poll).ended.isNone = true ∧
          (filesStep messageId s poll).found ≠ [] ∧
            ¬ s.found.length < (filesStep messageId s poll).found.length ∧ poll.settled = true
      · exact .inl ⟨Option.isNone_iff_eq_none.mp hsettled.1, if_pos hsettled⟩
      · exact .inr (if_neg hsettled)

theorem consistent_filesStep (h : Consistent messageId s) (poll : Poll) :
    Consistent messageId (filesStep messageId s poll) := by
  rw [filesStep]
  exact @run_invariant' _ _ (consumeFile messageId poll) (Consistent messageId)
    (fun _ name hs => consistent_consumeFile hs name) _ _ h

theorem consistent_pollStep (h : Consistent messageId s) (poll : Poll) :
    Consistent messageId (pollStep messageId s poll) := by
  have hfiles := consistent_filesStep h poll
  cases hended : s.ended with
  | some result =>
    rw [pollStep_of_ended (by rw [hended]; rfl)]
    exact h
  | none =>
    rcases pollStep_cases messageId poll hended with
      ⟨err, -, hstep⟩ | ⟨err, -, -, hstep⟩ | ⟨-, -, ⟨-, hstep⟩ | hstep⟩
    · rw [hstep]
      exact ⟨h.found, h.matching⟩
    · rw [hstep]
      exact ⟨h.found, h.matching⟩
    · rw [hstep]
      exact ⟨hfiles.found, hfiles.matching⟩
    · rw [hstep]
      exact hfiles

theorem failed_pollStep (h : Failed s) (poll : Poll) : Failed (pollStep messageId s poll) := by
  obtain ⟨err, hended, hwhy⟩ := h
  rw [pollStep_of_ended (by rw [hended]; rfl)]
  exact ⟨err, hended, hwhy⟩

theorem not_failed_filesStep_iff (hgood : ¬ Failed s) :
    ¬ Failed (filesStep messageId s poll) ↔ Meets (consumeFile messageId poll)
      (FileAdmitted messageId poll) s (sortedOutgoingPaths poll.directory) :=
  run_sound_iff (fun _ => True) Failed (fun _ _ _ => trivial)
    (fun _ name _ h => failed_consumeFile h name)
    (fun _ _ _ h => not_failed_consumeFile_iff h) trivial hgood

/-- An error that is no file's fault fails a wait that has removed something. -/
theorem not_failed_error_iff (err : WaitError) (h : ¬ err.Malformed) :
    ¬ Failed { s with ended := some (.error err) } ↔ s.removed = [] := by
  constructor
  · intro hgood
    by_contra hremoved
    exact hgood ⟨err, rfl, .inl hremoved⟩
  · rintro hremoved ⟨other, hother, hwhy⟩
    obtain rfl := Except.error.inj (Option.some.inj hother)
    exact hwhy.elim (absurd hremoved) h

theorem not_failed_pollStep_iff (hgood : ¬ Failed s) :
    ¬ Failed (pollStep messageId s poll) ↔ PollAdmitted messageId s poll := by
  cases hended : s.ended with
  | some result =>
    rw [pollStep_of_ended (by rw [hended]; rfl)]
    refine iff_of_true hgood fun hnone => ?_
    rw [hended] at hnone
    cases hnone
  | none =>
    have hnow : PollAdmitted messageId s poll ↔ _ := forall_prop_of_true hended
    rw [hnow]
    rcases pollStep_cases messageId poll hended with
      ⟨err, hpoll, hstep⟩ | ⟨err, hpoll, hlist, hstep⟩ | ⟨hpoll, hlist, hfiles⟩
    · rw [hstep, not_failed_error_iff (.onPoll err) id, hpoll]
      refine ⟨fun hempty => ⟨.inr hempty, nofun⟩, fun h => h.1.resolve_left fun hboth => ?_⟩
      cases hboth.1
    · rw [hstep, not_failed_error_iff (.list err) id, hlist]
      refine ⟨fun hempty => ⟨.inr hempty, nofun⟩, fun h => h.1.resolve_left fun hboth => ?_⟩
      cases hboth.2
    · have hsame : ¬ Failed (pollStep messageId s poll) ↔
          ¬ Failed (filesStep messageId s poll) := by
        rcases hfiles with ⟨hgoes, hstep⟩ | hstep
        · rw [hstep]
          refine iff_of_true ?_ ?_
          · rintro ⟨err, herr, -⟩
            cases herr
          · rintro ⟨err, herr, -⟩
            rw [hgoes] at herr
            cases herr
        · rw [hstep]
      rw [hsame, not_failed_filesStep_iff hgood]
      exact ⟨fun h => ⟨.inl ⟨hpoll, hlist⟩, fun _ _ => h⟩, fun h => h.2 hpoll hlist⟩

/-! ## The order of the replies -/

/-- A wait without an error has gone over all files of its polls. -/
theorem removed_filesStep (hended : (filesStep messageId s poll).ended = none) :
    s.ended = none ∧
      (filesStep messageId s poll).removed = s.removed ++ repliesOf messageId poll := by
  rw [filesStep] at hended ⊢
  rw [repliesOf]
  generalize sortedOutgoingPaths poll.directory = names at hended ⊢
  induction names generalizing s with
  | nil => exact ⟨hended, (List.append_nil _).symm⟩
  | cons name names ih =>
    rw [run_cons] at hended ⊢
    obtain ⟨hnext, hremoved⟩ := ih hended
    have hgoes : s.ended = none := by
      cases h : s.ended with
      | none => rfl
      | some result =>
        rw [consumeFile_of_ended (by rw [h]; rfl), h] at hnext
        cases hnext
    refine ⟨hgoes, hremoved.trans ?_⟩
    rcases consumeFile_cases messageId poll name hgoes with
      ⟨err, -, hstep⟩ | ⟨outgoing, hread, ⟨hid, hstep⟩ | ⟨hid, ⟨err, -, hstep⟩ | ⟨-, hstep⟩⟩⟩
    · rw [hstep] at hnext
      cases hnext
    · rw [hstep, List.filterMap_cons, hread]
      simp only [hid, if_false]
    · rw [hstep] at hnext
      cases hnext
    · rw [hstep, List.filterMap_cons, hread]
      simp only [hid, if_true, List.append_assoc, List.singleton_append]

theorem ended_filesStep (messageId : String) (poll : Poll) (h : s.ended = none) :
    (filesStep messageId s poll).ended = none ∨
      ∃ err, (filesStep messageId s poll).ended = some (.error err) := by
  rw [filesStep]
  refine @run_invariant' _ _ (consumeFile messageId poll)
    (fun t => t.ended = none ∨ ∃ err, t.ended = some (.error err)) (fun t name ht => ?_) _ _
    (.inl h)
  rcases ht with ht | ⟨err, ht⟩
  · rcases consumeFile_cases messageId poll name ht with
      ⟨err, -, hstep⟩ | ⟨outgoing, -, ⟨-, hstep⟩ | ⟨-, ⟨err, -, hstep⟩ | ⟨-, hstep⟩⟩⟩
    · exact .inr ⟨err, by rw [hstep]⟩
    · exact .inl (by rw [hstep, ht])
    · exact .inr ⟨_, by rw [hstep]⟩
    · exact .inl (by rw [hstep, ht])
  · rw [consumeFile_of_ended (by rw [ht]; rfl)]
    exact .inr ⟨err, ht⟩

theorem removed_pollStep {found : List OutgoingMessage}
    (hresult : (pollStep messageId s poll).result = .ok found) :
    (s.ended = some (.ok ()) ∧ pollStep messageId s poll = s) ∨
      s.ended = none ∧
        (pollStep messageId s poll).removed = s.removed ++ repliesOf messageId poll := by
  cases hended : s.ended with
  | some result =>
    have hsame : pollStep messageId s poll = s := pollStep_of_ended (by rw [hended]; rfl)
    cases result with
    | ok _ => exact .inl ⟨rfl, hsame⟩
    | error err =>
      rw [hsame, WaitState.result, hended] at hresult
      cases hresult
  | none =>
    refine .inr ⟨rfl, ?_⟩
    rcases pollStep_cases messageId poll hended with
      ⟨err, -, hstep⟩ | ⟨err, -, -, hstep⟩ | ⟨-, -, ⟨hgoes, hstep⟩ | hstep⟩
    · rw [hstep] at hresult
      cases hresult
    · rw [hstep] at hresult
      cases hresult
    · rw [hstep]
      exact (removed_filesStep hgoes).2
    · rw [hstep] at hresult ⊢
      rcases ended_filesStep messageId poll hended with hgoes | ⟨err, herr⟩
      · exact (removed_filesStep hgoes).2
      · rw [WaitState.result, herr] at hresult
        cases hresult

end Steps

/-! ## The wait -/

section Run

variable {messageId : String}

theorem consistent_wait (messageId : String) (polls : List Poll) :
    Consistent messageId (waitForOutgoingMessages messageId polls) := by
  refine @run_invariant' _ _ (pollStep messageId) (Consistent messageId)
    (fun _ poll hs => consistent_pollStep hs poll) {} polls ⟨rfl, fun reply h => ?_⟩
  cases h

theorem wait_concat (polls : List Poll) (poll : Poll) :
    waitForOutgoingMessages messageId (polls ++ [poll]) =
      pollStep messageId (waitForOutgoingMessages messageId polls) poll := by
  rw [waitForOutgoingMessages, run_append, run_cons, run_nil, waitForOutgoingMessages]

theorem removed_of_goes {polls : List Poll}
    (h : (waitForOutgoingMessages messageId polls).ended = none) :
    (waitForOutgoingMessages messageId polls).removed = polls.flatMap (repliesOf messageId) := by
  induction polls using List.reverseRecOn with
  | nil => rfl
  | append_singleton polls poll ih =>
    have hresult : (waitForOutgoingMessages messageId (polls ++ [poll])).result =
        .ok (waitForOutgoingMessages messageId (polls ++ [poll])).found := by
      rw [WaitState.result, h]
    rw [wait_concat] at h hresult ⊢
    rcases removed_pollStep hresult with ⟨hended, hsame⟩ | ⟨hended, hremoved⟩
    · rw [hsame, hended] at h
      cases h
    · rw [hremoved, ih hended, List.flatMap_append, List.flatMap_singleton]

/-- A wait without an error returns the replies of its polls, in the order of the files. -/
theorem removed_wait {polls : List Poll} {found : List OutgoingMessage}
    (hresult : (waitForOutgoingMessages messageId polls).result = .ok found) :
    ∃ examined, examined <+: polls ∧
      (waitForOutgoingMessages messageId polls).removed =
        examined.flatMap (repliesOf messageId) := by
  induction polls using List.reverseRecOn generalizing found with
  | nil => exact ⟨[], List.prefix_refl _, rfl⟩
  | append_singleton polls poll ih =>
    rw [wait_concat] at hresult ⊢
    rcases removed_pollStep hresult with ⟨hended, hsame⟩ | ⟨hended, hremoved⟩
    · rw [hsame] at hresult ⊢
      obtain ⟨examined, hprefix, hexamined⟩ := ih hresult
      exact ⟨examined, hprefix.trans (List.prefix_append _ _), hexamined⟩
    · refine ⟨polls ++ [poll], List.prefix_refl _, ?_⟩
      rw [hremoved, removed_of_goes hended, List.flatMap_append, List.flatMap_singleton]

/-- For every sequence of polls: only files of the message are removed, and what is returned are
the removed replies, poll by poll in the order of the files. No reply is lost and no malformed
file fails the wait if and only if every poll is admitted. -/
theorem waitForOutgoingMessages_lossless_iff (messageId : String) (polls : List Poll) :
    (∀ reply ∈ (waitForOutgoingMessages messageId polls).removed,
      reply.2.messageId = messageId) ∧
    (∀ found, (waitForOutgoingMessages messageId polls).result = .ok found →
      ∃ examined, examined <+: polls ∧
        (waitForOutgoingMessages messageId polls).removed =
          examined.flatMap (repliesOf messageId) ∧
        found = (examined.flatMap (repliesOf messageId)).map Prod.snd) ∧
    (Lossless (waitForOutgoingMessages messageId polls) ∧
        Tolerant (waitForOutgoingMessages messageId polls) ↔
      Meets (pollStep messageId) (PollAdmitted messageId) {} polls) := by
  have hconsistent := consistent_wait messageId polls
  refine ⟨hconsistent.matching, fun found hresult => ?_, ?_⟩
  · obtain ⟨examined, hprefix, hremoved⟩ := removed_wait hresult
    refine ⟨examined, hprefix, hremoved, ?_⟩
    have hfound : (waitForOutgoingMessages messageId polls).result =
        .ok (waitForOutgoingMessages messageId polls).found := by
      rw [WaitState.result] at hresult ⊢
      split at hresult
      · cases hresult
      · rfl
      · rfl
    rw [← hremoved, ← hconsistent.found]
    exact Except.ok.inj (hresult.symm.trans hfound)
  · rw [← not_failed_iff hconsistent]
    refine run_sound_iff (fun _ => True) Failed (fun _ _ _ => trivial)
      (fun _ poll _ h => failed_pollStep h poll) (fun _ _ _ h => not_failed_pollStep_iff h)
      trivial ?_
    rintro ⟨err, herr, -⟩
    cases herr

end Run

/-! ### A reply before a malformed file -/

def chatReply : OutgoingMessage where
  channel := "local"
  sender := "cli"
  message := "done"
  originalMessage := "hello"
  timestamp := 1
  messageId := "msg-1"
  agent := "orchestrator"

/-- The reply, and a file of some other message that is not written to its end. -/
def halfWrittenPoll : Poll where
  directory :=
    ((∅ : Directory).insert "local_msg-1_1.json".toList
      { modified := 1, content := .json chatReply.encode }).insert "local_msg-2_1.json".toList
        { modified := 1, content := .notJson "\x7b" }

/-- The file of the reply is gone, and the reply is in no result. -/
theorem reply_lost :
    ((waitForOutgoingMessages "msg-1" [halfWrittenPoll]).removed.map fun reply =>
        (reply.1, reply.2.messageId)) = [("local_msg-1_1.json".toList, "msg-1")] ∧
      ¬ Lossless (waitForOutgoingMessages "msg-1" [halfWrittenPoll]) ∧
      ¬ Tolerant (waitForOutgoingMessages "msg-1" [halfWrittenPoll]) := by
  have hremoved : ((waitForOutgoingMessages "msg-1" [halfWrittenPoll]).removed.map fun reply =>
      (reply.1, reply.2.messageId)) = [("local_msg-1_1.json".toList, "msg-1")] := by
    decide
  have hresult : (waitForOutgoingMessages "msg-1" [halfWrittenPoll]).result =
      .error (.parse "local_msg-2_1.json".toList "") := by
    rfl
  refine ⟨hremoved, fun h => ?_, fun h => h _ hresult trivial⟩
  obtain ⟨reply, rest, hsplit, -, -⟩ := List.map_eq_cons_iff.mp hremoved
  obtain ⟨found, hfound, -⟩ := h reply (hsplit ▸ List.mem_cons_self)
  rw [hresult] at hfound
  cases hfound

end Direclaw.Local
