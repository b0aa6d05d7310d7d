import Direclaw.Lib.Run
import Direclaw.Queue.Claiming
import Direclaw.Runtime.Recovery

/-!
# The retry budget

How often a message has failed is kept only in its file name. A failed execution
counts up in the name and dead-letters the message at the limit; but a shutdown
puts pending claims back through the same name generator, and a recovery invents a
name without a count. Followed here is one message in an arbitrary queue: every
event carries the queue it happens in, so other messages may come and go between
two events.
-/

namespace Direclaw.Runtime

open Direclaw.Lib Direclaw.Queue

/-! ## One message through the queue -/

inductive Fate : Type where
  | live
  | deadLettered
  | dropped
deriving DecidableEq, Repr

structure TrackedMessage where
  name : FileName
  fate : Fate := .live
  failures : ℕ := 0
deriving DecidableEq, Repr

inductive RetryEvent : Type where
  /-- An execution fails. -/
  | failed (q : QueueState) (error : String) (now : Int)
  /-- A worker that stops puts the pending claim back. -/
  | shutdown (q : QueueState)
  /-- A crash, and the recovery finds the file at this index. -/
  | recovered (q : QueueState) (index : ℕ)
  /-- A crash, and the recovery finds the message answered. -/
  | dropped (q : QueueState)

section Budget

variable (hash : List Char → List Char) (payload : IncomingMessage) (file : File)
  (maxRequeueAttempts : ℕ)

namespace TrackedMessage

def claimed (t : TrackedMessage) : ClaimedMessage := ⟨t.name, payload⟩

def step (t : TrackedMessage) : RetryEvent → TrackedMessage
  | .failed q error now =>
    match (requeueOrDeadLetterFailure hash q (t.claimed payload) maxRequeueAttempts error now).2
    with
    | .ok (.requeued requeued) => { t with name := requeued.name, failures := t.failures + 1 }
    | .ok (.deadLettered _ _) => { t with fate := .deadLettered, failures := t.failures + 1 }
    | .error _ => t
  | .shutdown q =>
    match (requeueFailure hash q (t.claimed payload)).2 with
    | .ok requeued => { t with name := requeued.name }
    | .error _ => t
  | .recovered _ index =>
    { t with name := recoveredProcessingFilename hash index (recoverableName t.name) }
  | .dropped _ => { t with fate := .dropped }

end TrackedMessage

/-- The event really happens to the message: its file is in `processing` under its
name, and a recovery does with it what the event says. -/
def Happens (t : TrackedMessage) : RetryEvent → Prop
  | .failed q _ _ | .shutdown q => t.fate = .live ∧ q.processing.lookup t.name = some file
  | .recovered q index =>
    t.fate = .live ∧ q.processing.lookup t.name = some file ∧
      ∃ q' report, recoverQueueProcessingPaths hash q = (q', .ok report) ∧
        RecoveredAs hash index t.name file q' report
  | .dropped q =>
    t.fate = .live ∧ q.processing.lookup t.name = some file ∧
      ∃ q' report, recoverQueueProcessingPaths hash q = (q', .ok report) ∧
        t.name ∈ report.droppedDuplicates

/-- The event leaves the count in the name alone: no shutdown, and a recovery only
while nothing has been counted. -/
def KeepsCount (t : TrackedMessage) : RetryEvent → Prop
  | .shutdown _ => False
  | .recovered _ _ => requeueAttemptFromName t.name = 0
  | .failed _ _ _ | .dropped _ => True

/-- Dead-lettered exactly when the failures have reached the limit. -/
def OnBudget (t : TrackedMessage) : Prop :=
  (t.fate = .deadLettered ↔ max 1 maxRequeueAttempts ≤ t.failures) ∧
    t.failures ≤ max 1 maxRequeueAttempts

variable {hash payload file maxRequeueAttempts}

/-! ## Names that recovery gives -/

theorem recoverableName_of_isValid {name : FileName} (h : isValidQueueJsonFilename name = true) :
    recoverableName name = name := by
  unfold recoverableName
  rw [if_neg]
  intro hblank
  obtain ⟨_, stem, _, hname, _⟩ := Text.extension_spec (extension_of_isValid h)
  have hdot := List.all_eq_true.mp hblank '.' (by rw [hname]; simp)
  exact absurd hdot (by decide)

/-- A recovered name is listed again, and carries no count. -/
theorem recoveredProcessingFilename_spec {name : FileName}
    (h : isValidQueueJsonFilename name = true) (index : ℕ) :
    isValidQueueJsonFilename (recoveredProcessingFilename hash index name) = true ∧
      requeueAttemptFromName (recoveredProcessingFilename hash index name) = 0 := by
  have hext := extension_of_isValid h
  have htag : ∀ s : List Char, recoveredTag ++ s = 'r' :: (recoveredTag.tail ++ s) := fun _ => rfl
  have hparts := Text.fileStem_extension_append (by decide : 'r' ≠ '.')
    (recoveredTag.tail ++ (Text.decimal index ++ '_' :: hash name)) (Text.extension_spec hext).1
  rw [recoveredProcessingFilename, hext, Option.getD_some, htag]
  constructor
  · rw [isValidQueueJsonFilename, hparts.1, hparts.2]
    rfl
  · rw [requeueAttemptFromName, hparts.1]
    rfl

/-! ## The invariant -/

/-- A live message carries its number of failures in its name. -/
structure BudgetInv (maxRequeueAttempts : ℕ) (t : TrackedMessage) : Prop where
  valid : isValidQueueJsonFilename t.name = true
  counted : t.fate = .live → requeueAttemptFromName t.name = t.failures
  below : t.fate ≠ .deadLettered → t.failures < max 1 maxRequeueAttempts
  reached : t.fate = .deadLettered → t.failures = max 1 maxRequeueAttempts

variable {t : TrackedMessage}

theorem BudgetInv.onBudget (h : BudgetInv maxRequeueAttempts t) :
    OnBudget maxRequeueAttempts t := by
  by_cases hdead : t.fate = .deadLettered
  · have := h.reached hdead
    exact ⟨⟨fun _ => this.ge, fun _ => hdead⟩, this.le⟩
  · have := h.below hdead
    exact ⟨⟨fun hd => absurd hd hdead, fun hle => absurd this (not_lt.mpr hle)⟩, this.le⟩

theorem budgetInv_failed {q : QueueState} {error : String} {now : Int}
    (hm : maxRequeueAttempts ≤ Text.u32Max) (h : BudgetInv maxRequeueAttempts t)
    (hhappens : Happens hash file t (.failed q error now)) :
    BudgetInv maxRequeueAttempts (t.step hash payload maxRequeueAttempts (.failed q error now)) := by
  obtain ⟨hlive, hfile⟩ := hhappens
  have hcount := h.counted hlive
  have hbelow := h.below (by rw [hlive]; decide)
  -- below the limit the counter does not saturate
  have hlimit : max 1 maxRequeueAttempts ≤ Text.u32Max := max_le (by decide) hm
  have hnext : nextFailureAttempt t.name = t.failures + 1 := by
    rw [nextFailureAttempt, hcount, Text.u32Succ]
    omega
  rcases requeueOrDeadLetterFailure_cases hash
      (show q.processing.lookup (t.claimed payload).name = some file from hfile)
      maxRequeueAttempts error now with ⟨hreached, envelope, he⟩ | ⟨hnot, he⟩
  · simp only [TrackedMessage.step, he]
    change max maxRequeueAttempts 1 ≤ nextFailureAttempt t.name at hreached
    rw [hnext, max_comm] at hreached
    refine ⟨h.valid, ?_, fun hne => absurd rfl hne, fun _ => le_antisymm hbelow hreached⟩
    intro hlive'
    cases hlive'
  · simp only [TrackedMessage.step, he]
    change nextFailureAttempt t.name < max maxRequeueAttempts 1 at hnot
    rw [hnext, max_comm] at hnot
    refine ⟨isValid_uniqueRequeueName h.valid _ _, ?_, fun _ => hnot, ?_⟩
    · intro _
      have hattempt := @requeueAttemptFromName_uniqueRequeueName hash t.name
        (nextFailureAttempt t.name) (by omega) q.requeueCounter
      exact hattempt.trans hnext
    · intro hdead
      change t.fate = .deadLettered at hdead
      rw [hlive] at hdead
      cases hdead

theorem budgetInv_step (e : RetryEvent) (hm : maxRequeueAttempts ≤ Text.u32Max)
    (h : BudgetInv maxRequeueAttempts t) (hhappens : Happens hash file t e)
    (hkeeps : KeepsCount t e) :
    BudgetInv maxRequeueAttempts (t.step hash payload maxRequeueAttempts e) := by
  cases e with
  | failed q error now => exact budgetInv_failed hm h hhappens
  | shutdown q => exact absurd hkeeps id
  | recovered q index =>
    obtain ⟨hvalid, hzero⟩ := @recoveredProcessingFilename_spec hash t.name h.valid index
    simp only [TrackedMessage.step, recoverableName_of_isValid h.valid]
    refine ⟨hvalid, ?_, h.below, h.reached⟩
    -- the new name counts nothing, and nothing was counted before
    intro hlive
    have hnone : requeueAttemptFromName t.name = 0 := hkeeps
    rw [hzero, ← hnone]
    exact h.counted hlive
  | dropped q =>
    have hbelow := h.below (by rw [hhappens.1]; decide)
    refine ⟨h.valid, ?_, fun _ => hbelow, ?_⟩
    · intro hlive
      cases hlive
    · intro hdead
      cases hdead

end Budget

/-- **The retry budget.** Along every run of failures and recoveries of a message,
in which no shutdown requeues it and it is recovered only before its first failure,
it is dead-lettered exactly when its failures reach `max(1, m)`. -/
theorem retry_budget_exact (hash : List Char → List Char) (payload : IncomingMessage) (file : File)
    (maxRequeueAttempts : ℕ) (name : FileName) (es : List RetryEvent)
    (hm : maxRequeueAttempts ≤ Text.u32Max) (hvalid : isValidQueueJsonFilename name = true)
    (hfresh : requeueAttemptFromName name = 0)
    (hrun : Meets (TrackedMessage.step hash payload maxRequeueAttempts)
      (fun t e => Happens hash file t e ∧ KeepsCount t e) { name := name } es) :
    OnBudget maxRequeueAttempts
      (run (TrackedMessage.step hash payload maxRequeueAttempts) { name := name } es) := by
  have hinit : BudgetInv maxRequeueAttempts { name := name } :=
    ⟨hvalid, fun _ => hfresh, fun _ => lt_of_lt_of_le Nat.one_pos (le_max_left _ _),
      fun hd => by cases hd⟩
  have hinv := run_invariant (fun t e h ho => budgetInv_step e hm h ho.1 ho.2) hinit hrun
  exact hinv.onBudget

/-! ### A shutdown counts, and a recovery forgets -/

/-- Agrees with the digest on the names below. -/
def sampleDigest (text : List Char) : List Char :=
  (([("a.json:1", "328c8a96c782f796"),
    ("requeue_a1_328c8a96c782f796_0.json", "b5106f898a8b79fe"),
    ("recovered_0_b5106f898a8b79fe.json:1", "1736859091cd0210")].find?
      fun entry => entry.1.toList == text).map fun entry => entry.2.toList).getD text

def holding (name : String) : QueueState where
  processing := AList.insert name.toList (sampleFile 1) ∅

/-- The worker stops before the first execution, and the next one fails. -/
def shutdownThenFailure : List RetryEvent :=
  [.shutdown (holding "a.json"), .failed (holding "requeue_a1_328c8a96c782f796_0.json") "boom" 5]

/-- The first execution fails, the process dies during the second, the third fails. -/
def failureCrashFailure : List RetryEvent :=
  [.failed (holding "a.json") "boom" 5, .recovered (holding "requeue_a1_328c8a96c782f796_0.json") 0,
    .failed (holding "recovered_0_b5106f898a8b79fe.json") "boom" 6]

def sampleRun (es : List RetryEvent) : TrackedMessage :=
  run (TrackedMessage.step sampleDigest (sampleMessage "m1") 2) { name := "a.json".toList } es

/-- In the first run the message is dead-lettered after one failure, in the second it
is not after two. -/
theorem budget_missed :
    (Meets (TrackedMessage.step sampleDigest (sampleMessage "m1") 2)
        (Happens sampleDigest (sampleFile 1)) { name := "a.json".toList } shutdownThenFailure ∧
      (sampleRun shutdownThenFailure).fate = .deadLettered ∧
      (sampleRun shutdownThenFailure).failures = 1 ∧ ¬ OnBudget 2 (sampleRun shutdownThenFailure)) ∧
    (Meets (TrackedMessage.step sampleDigest (sampleMessage "m1") 2)
        (Happens sampleDigest (sampleFile 1)) { name := "a.json".toList } failureCrashFailure ∧
      (sampleRun failureCrashFailure).fate = .live ∧
      (sampleRun failureCrashFailure).failures = 2 ∧ ¬ OnBudget 2 (sampleRun failureCrashFailure)) := by
  have hearly : (sampleRun shutdownThenFailure).fate = .deadLettered := rfl
  have hone : (sampleRun shutdownThenFailure).failures = 1 := rfl
  have hlate : (sampleRun failureCrashFailure).fate = .live := rfl
  have htwo : (sampleRun failureCrashFailure).failures = 2 := rfl
  refine ⟨⟨⟨⟨rfl, rfl⟩, ⟨rfl, rfl⟩, trivial⟩, hearly, hone, fun h => ?_⟩,
    ⟨⟨⟨rfl, rfl⟩, ⟨rfl, rfl, _, _, rfl, ?_, rfl⟩, ⟨rfl, rfl⟩, trivial⟩, hlate, htwo, fun h => ?_⟩⟩
  · have hle := h.1.mp hearly
    rw [hone] at hle
    exact absurd hle (by decide)
  · exact List.mem_singleton.mpr rfl
  · have hdead := h.1.mpr (by rw [htwo]; decide)
    rw [hlate] at hdead
    cases hdead

theorem retry_budget_exact_two_failures :
    OnBudget 2 (run (TrackedMessage.step sampleDigest (sampleMessage "m1") 2)
      { name := "a.json".toList }
      [.failed (holding "a.json") "boom" 5,
        .failed (holding "requeue_a1_328c8a96c782f796_0.json") "boom" 6]) := by
  refine retry_budget_exact sampleDigest (sampleMessage "m1") (sampleFile 1) 2 _ _ (by decide) rfl
    rfl ?_
  exact ⟨⟨⟨rfl, rfl⟩, trivial⟩, ⟨⟨rfl, rfl⟩, trivial⟩, trivial⟩

end Direclaw.Runtime
