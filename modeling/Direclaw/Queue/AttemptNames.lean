import Direclaw.Queue.Lifecycle

/-!
# Attempts in file names

The number of failed attempts is kept in the name of a requeued file and nowhere
else. It is read back from every name that is generated, also where the old name
has no extension, so failed claims count up from one cycle to the next.
-/

namespace Direclaw.Queue

open Direclaw.Lib

variable (hash : List Char → List Char)

/-! ## Failed claims -/

/-- The queue with a file moved from `incoming` to `processing`. -/
def QueueState.claiming (q : QueueState) (name : FileName) (file : File) : QueueState :=
  { q with
    incoming := q.incoming.erase name
    processing := q.processing.insert name file }

/-- A file is claimed and put back under a new name. -/
def failedCycle (q : QueueState) (name : FileName) :
    QueueState × Except QueueError RequeuedMessage :=
  match q.incoming.lookup name with
  | none => (q, .error (.notFound name))
  | some file => requeueProcessingFile hash (q.claiming name file) name

variable {hash} {q : QueueState} {name : FileName} {file : File}

theorem failedCycle_eq (h : q.incoming.lookup name = some file) :
    failedCycle hash q name =
      ({ (q.claiming name file).bumpCounter with
          processing := (q.claiming name file).processing.erase name
          incoming := (q.claiming name file).incoming.insert (requeueTarget hash q name) file },
        .ok { name := requeueTarget hash q name
              attempt := Text.u32Succ (requeueAttemptFromName name) }) := by
  simp only [failedCycle, h]
  exact requeueProcessingFile_eq hash (AList.lookup_insert _)

/-- A claim that comes upon a file it cannot read puts it back itself. -/
theorem claimFirst_of_error {err : QueueError} (h : q.incoming.lookup name = some file)
    (hread : file.content.readIncoming name = .error err) (rest : List (FileName × File)) :
    claimFirst hash q ((name, file) :: rest) = ((failedCycle hash q name).1, .error err) := by
  have hcycle : failedCycle hash q name =
      requeueProcessingFile hash (q.claiming name file) name := by
    simp only [failedCycle, h]
  have heq := hcycle.symm.trans (failedCycle_eq h)
  rw [hcycle]
  unfold QueueState.claiming at heq ⊢
  simp only [claimFirst, h, hread, heq]

/-- A file that it can read is put back by the failure of its claim. -/
theorem claimFirst_of_ok {payload : IncomingMessage} (h : q.incoming.lookup name = some file)
    (hread : file.content.readIncoming name = .ok payload) (rest : List (FileName × File)) :
    let claimed := { name := name, payload := normalizeInboundPayload payload : ClaimedMessage }
    claimFirst hash q ((name, file) :: rest) = (q.claiming name file, .ok (some claimed)) ∧
      requeueFailure hash (q.claiming name file) claimed = failedCycle hash q name := by
  refine ⟨?_, ?_⟩
  · simp only [claimFirst, h, hread, QueueState.claiming]
  · simp only [requeueFailure, failedCycle, h]

/-! ## Cycle after cycle -/

/-- Failed claims of one file, one after the other, each at the state that the queue has
got to by then. -/
inductive FailedCycles (hash : List Char → List Char) (name : FileName) :
    ℕ → RequeuedMessage → Prop where
  | first {q q' : QueueState} {requeued : RequeuedMessage}
      (h : failedCycle hash q name = (q', .ok requeued)) : FailedCycles hash name 1 requeued
  | next {k : ℕ} {last requeued : RequeuedMessage} {q q' : QueueState}
      (hlast : FailedCycles hash name k last)
      (h : failedCycle hash q last.name = (q', .ok requeued)) :
      FailedCycles hash name (k + 1) requeued

variable {requeued : RequeuedMessage}

theorem failedCycle_ok {q' : QueueState} (h : failedCycle hash q name = (q', .ok requeued)) :
    requeued = { name := requeueTarget hash q name
                 attempt := Text.u32Succ (requeueAttemptFromName name) } := by
  cases hfile : q.incoming.lookup name with
  | none =>
    simp only [failedCycle, hfile] at h
    cases h
  | some file =>
    cases (failedCycle_eq hfile).symm.trans h
    rfl

theorem u32Succ_le (n : ℕ) : Text.u32Succ n ≤ Text.u32Max := min_le_right _ _

/-- One cycle: the new name counts one more, and it is accepted if the old one was. -/
theorem failedCycle_counts {q' : QueueState} (h : failedCycle hash q name = (q', .ok requeued)) :
    requeued.attempt = Text.u32Succ (requeueAttemptFromName name) ∧
      requeueAttemptFromName requeued.name = requeued.attempt ∧
      (isValidQueueJsonFilename name = true → isValidQueueJsonFilename requeued.name = true) := by
  cases failedCycle_ok h
  refine ⟨rfl, ?_, fun hvalid => ?_⟩
  · exact requeueAttemptFromName_uniqueRequeueName name (u32Succ_le _) _
  · exact isValid_uniqueRequeueName hvalid _ _

/-- Any number of cycles: `u32` arithmetic saturates. -/
theorem FailedCycles.attempt (hfresh : requeueAttemptFromName name = 0) {k : ℕ}
    (h : FailedCycles hash name k requeued) :
    requeued.attempt = min k Text.u32Max ∧
      requeueAttemptFromName requeued.name = requeued.attempt ∧
      (isValidQueueJsonFilename name = true → isValidQueueJsonFilename requeued.name = true) := by
  induction h with
  | first h =>
    obtain ⟨hattempt, hname, hvalid⟩ := failedCycle_counts h
    refine ⟨?_, hname, hvalid⟩
    rw [hattempt, hfresh]
    rfl
  | @next k last requeued q q' hlast h ih =>
    obtain ⟨hcount, hlastname, hlastvalid⟩ := ih
    obtain ⟨hattempt, hname, hvalid⟩ := failedCycle_counts h
    refine ⟨?_, hname, fun hv => hvalid (hlastvalid hv)⟩
    rw [hattempt, hlastname, hcount, Text.u32Succ]
    omega

/-- A cycle ends with the file in `incoming` again, so the next one can follow. -/
theorem failedCycle_returns (h : q.incoming.lookup name = some file) :
    ∃ q' requeued, failedCycle hash q name = (q', .ok requeued) ∧
      q'.incoming.lookup requeued.name = some file :=
  ⟨_, _, failedCycle_eq h, AList.lookup_insert _⟩

/-- Attempt numbers survive the file name, for every name; so the cycles of a name that
counts nothing are counted. -/
theorem attempts_survive_names (hash : List Char → List Char) :
    (∀ original attempt counter, attempt ≤ Text.u32Max →
        requeueAttemptFromName (uniqueRequeueName hash original attempt counter) = attempt) ∧
      (∀ original attempt counter, isValidQueueJsonFilename original = true →
        isValidQueueJsonFilename (uniqueRequeueName hash original attempt counter) = true) ∧
      (∀ name, requeueAttemptFromName name = 0 → ∀ k requeued,
        FailedCycles hash name k requeued → k ≤ Text.u32Max →
        requeued.attempt = k ∧ requeueAttemptFromName requeued.name = k) ∧
      ∀ (q : QueueState) name file, q.incoming.lookup name = some file →
        ∃ q' requeued, failedCycle hash q name = (q', .ok requeued) ∧
          q'.incoming.lookup requeued.name = some file := by
  refine ⟨fun original attempt counter hle =>
      requeueAttemptFromName_uniqueRequeueName original hle counter,
    fun original attempt counter hvalid => isValid_uniqueRequeueName hvalid attempt counter, ?_,
    fun q name file h => failedCycle_returns h⟩
  intro name hfresh k requeued hcycles hk
  obtain ⟨hattempt, hname, -⟩ := hcycles.attempt hfresh
  rw [Nat.min_eq_left hk] at hattempt
  exact ⟨hattempt, hname.trans hattempt⟩

end Direclaw.Queue
