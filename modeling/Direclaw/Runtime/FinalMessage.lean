import Direclaw.Orchestration.AttemptTimes
import Direclaw.Runtime.QueueWorker
import Mathlib.Data.Prod.Lex

/-!
# The message at the end of a run

`workflow_lifecycle_messages` and `final_user_message` of `runtime/queue_worker.rs`, over
the files of one run. The attempt that the answer is taken from is the last one of the
stored results, sorted by the seconds in which they started and ended and then by their
names, so attempts of one second stand in the order of their names.
-/

namespace Direclaw.Runtime

open Direclaw.Lib Direclaw.Orchestration

/-! ## The text of an output -/

def outputLabelKeys : List String :=
  ["status", "summary", "artifact", "decision", "feedback", "plan", "result"]

/-- A label in a text: where it begins, its length with the colon, and its key. -/
structure FoundLabel where
  index : ℕ
  length : ℕ
  key : String

/-- Every label, in the order of the text. -/
def findLabels (lowered : List Char) : List FoundLabel :=
  (outputLabelKeys.flatMap fun key =>
    (Text.matchesFrom (key ++ ":").toList [] 0 lowered).map fun found =>
      { index := found.1.length, length := (key ++ ":").length, key := key }).insertionSort
    fun a b => a.index ≤ b.index

def extractOutputLabelValue (text label : String) : Option String :=
  let trimmed := Text.trim text.toList
  if trimmed.isEmpty then none
  else
    let labels := findLabels (Text.toAsciiLowercase trimmed)
    labels.findSome? fun found =>
      if found.key ≠ label then none
      else
        let start := found.index + found.length
        let stop := ((labels.find? fun next => found.index < next.index).map (·.index)).getD
          trimmed.length
        if stop ≤ start ∨ trimmed.length < stop then none
        else
          let candidate := Text.trim ((trimmed.take stop).drop start)
          if candidate.isEmpty then none else some (String.ofList candidate)

section Text

variable (text : JsonText)

def outputValueText : Json → Option String
  | .null => none
  | .str s => if Text.isBlank s.toList then none else some (Text.trimmed s)
  | other => some (text.toString other) |>.filter fun t => !Text.isBlank t.toList

def outputValueForLabel (value : Json) (label : String) : Option String :=
  (outputValueText text value).map fun t => (extractOutputLabelValue t label).getD t

def finalOutputPriority (configured : List String) : List String :=
  if configured.isEmpty then ["artifact", "summary"] else configured

def selectFinalOutputMessage (outputs : Outputs) (priority : List String) : Option String :=
  priority.findSome? fun key =>
    (Json.field outputs key).bind fun value => outputValueForLabel text value key

/-- The answer that the outputs of an attempt give. -/
def outputsMessage (attempt : StepAttemptRecord) : Option String :=
  selectFinalOutputMessage text attempt.outputs (finalOutputPriority attempt.finalOutputPriority)

end Text

/-! ## The stored results -/

/-- Started, ended, step id, attempt number. -/
abbrev SortKey : Type := ℤ ×ₗ ℤ ×ₗ String ×ₗ ℕ

def sortKey (attempt : StepAttemptRecord) : SortKey :=
  toLex (attempt.startedAt, toLex (attempt.endedAt, toLex (attempt.stepId, attempt.attempt)))

section Store

variable (text : JsonText) (files : RunFiles) (entries : List (String × ℕ))

/-- The records found below the `steps` directory; `entries` are its step directories
with their attempt directories, in the order of the listings. -/
def storedAttempts : List StepAttemptRecord :=
  entries.filterMap fun entry => files.results entry.1 entry.2

def stepAttemptsByTime : List StepAttemptRecord :=
  (storedAttempts files entries).insertionSort fun a b => sortKey a ≤ sortKey b

def latestSucceededAttempt : Option StepAttemptRecord :=
  (storedAttempts files entries).foldl (fun latest record =>
    if record.state ≠ .succeeded then latest
    else match latest with
      | some current => if current.endedAt < record.endedAt then some record else some current
      | none => some record) none

def finalUserMessage (lastAttempt : Option StepAttemptRecord) : String :=
  match lastAttempt.filter (·.state == .succeeded) with
  | some attempt => (outputsMessage text attempt).getD "workflow completed"
  | none =>
    match files.run.state with
    | .canceled => files.run.terminalReason.getD "workflow canceled"
    | .failed => files.run.terminalReason.getD "workflow failed"
    | _ =>
      let fallback := (latestSucceededAttempt files entries).bind fun attempt =>
        (outputsMessage text attempt).or
          ((Json.field attempt.outputs "summary").bind fun value =>
            outputValueForLabel text value "summary")
      match fallback with
      | some message => message
      | none =>
        if Text.isBlank files.progress.summary.toList then "workflow update unavailable"
        else files.progress.summary

end Store

def storeEnv (env : WorkerEnv) (files : RunFiles) (entries : List (String × ℕ)) : WorkerEnv :=
  { env with
    stepAttemptsByTime := fun _ => stepAttemptsByTime files entries
    finalUserMessage := fun _ last => finalUserMessage env.text files entries last }

/-! ## The attempt that is answered with -/

/-- The last message is the answer of the attempt that was recorded last, which
succeeded and has no next step; it is the attempt that the sorted records end with. -/
def AnswersWithLast (env : WorkerEnv) (files : RunFiles) (trace : List Observation)
    (entries : List (String × ℕ)) (runId : String) : Prop :=
  ∃ record, lastRecorded trace = some record ∧ record.Final ∧
    (stepAttemptsByTime files entries).getLast? = some record ∧
      (workflowLifecycleMessages (storeEnv env files entries) runId).getLast? =
        some ((outputsMessage env.text record).getD "workflow completed", "orchestrator")

/-- The attempt that was recorded last succeeded and has no next step, and of the stored
results of its second it has the greatest name. -/
def LastSortsLast (files : RunFiles) (trace : List Observation) : Prop :=
  ∃ record, lastRecorded trace = some record ∧ record.Final ∧
    ∀ step attempt other, files.results step attempt = some other →
      other.startedAt = record.startedAt → other.endedAt = record.endedAt →
        other.stepId < record.stepId ∨
          other.stepId = record.stepId ∧ other.attempt ≤ record.attempt

/-- The listings miss no stored result. -/
def ListsAll (files : RunFiles) (entries : List (String × ℕ)) : Prop :=
  ∀ step attempt, files.results step attempt ≠ none → (step, attempt) ∈ entries

section Sorted

/-- The last of a list that is sorted by a key, for an item whose key is its own. -/
theorem getLast?_sorted_iff {α κ : Type*} [LinearOrder κ] (key : α → κ) {items : List α} {a : α}
    (hmem : a ∈ items) (hown : ∀ b ∈ items, key b = key a → b = a) :
    (items.insertionSort fun b c => key b ≤ key c).getLast? = some a ↔
      ∀ b ∈ items, key b ≤ key a := by
  have htotal : Std.Total fun b c : α => key b ≤ key c := ⟨fun b c => le_total (key b) (key c)⟩
  have htrans : IsTrans α fun b c => key b ≤ key c := ⟨fun _ _ _ => le_trans⟩
  have hsorted := List.pairwise_insertionSort (fun b c : α => key b ≤ key c) items
  have hperm := List.perm_insertionSort (fun b c : α => key b ≤ key c) items
  constructor
  · intro hlast b hb
    obtain ⟨before, hsplit⟩ := List.getLast?_eq_some_iff.mp hlast
    rw [hsplit] at hsorted hperm
    rcases List.mem_append.mp (hperm.mem_iff.mpr hb) with hbefore | hself
    · exact (List.pairwise_append.mp hsorted).2.2 b hbefore a List.mem_cons_self
    · rw [List.mem_singleton.mp hself]
  · intro hmax
    cases hlast : (items.insertionSort fun b c => key b ≤ key c).getLast? with
    | none =>
      rw [List.getLast?_eq_none_iff.mp hlast] at hperm
      rw [← hperm.mem_iff] at hmem
      cases hmem
    | some last =>
      obtain ⟨before, hsplit⟩ := List.getLast?_eq_some_iff.mp hlast
      rw [hsplit] at hsorted hperm
      have hlastmem : last ∈ items := hperm.mem_iff.mp (by simp)
      have hle : key a ≤ key last := by
        rcases List.mem_append.mp (hperm.mem_iff.mpr hmem) with hbefore | hself
        · exact (List.pairwise_append.mp hsorted).2.2 a hbefore last List.mem_cons_self
        · rw [List.mem_singleton.mp hself]
      rw [hown last hlastmem (le_antisymm (hmax last hlastmem) hle)]

theorem sortKey_le_iff {a b : StepAttemptRecord} :
    sortKey a ≤ sortKey b ↔ a.startedAt < b.startedAt ∨ a.startedAt = b.startedAt ∧
      (a.endedAt < b.endedAt ∨ a.endedAt = b.endedAt ∧
        (a.stepId < b.stepId ∨ a.stepId = b.stepId ∧ a.attempt ≤ b.attempt)) := by
  simp only [sortKey, Prod.Lex.toLex_le_toLex]

end Sorted

section Answer

variable {env : WorkerEnv} {files : RunFiles} {trace : List Observation}
  {entries : List (String × ℕ)} {runId : String} {record : StepAttemptRecord}

theorem mem_storedAttempts (hlists : ListsAll files entries) :
    record ∈ storedAttempts files entries ↔
      ∃ step attempt, files.results step attempt = some record := by
  unfold storedAttempts
  rw [List.mem_filterMap]
  constructor
  · rintro ⟨⟨step, attempt⟩, -, hrecord⟩
    exact ⟨step, attempt, hrecord⟩
  · rintro ⟨step, attempt, hrecord⟩
    exact ⟨(step, attempt), hlists step attempt (by rw [hrecord]; nofun), hrecord⟩

/-- A succeeded attempt at the end of the sorted records gives the last message. -/
theorem lifecycle_getLast? (hlast : (stepAttemptsByTime files entries).getLast? = some record)
    (hstate : record.state = .succeeded) :
    (workflowLifecycleMessages (storeEnv env files entries) runId).getLast? =
      some ((outputsMessage env.text record).getD "workflow completed", "orchestrator") := by
  have hne : (stepAttemptsByTime files entries).isEmpty = false := by
    cases hlist : stepAttemptsByTime files entries with
    | nil =>
      rw [hlist] at hlast
      cases hlast
    | cons _ _ => rfl
  have hmessage : finalUserMessage env.text files entries (some record) =
      (outputsMessage env.text record).getD "workflow completed" := by
    unfold finalUserMessage
    rw [Option.filter_some, hstate]
    rfl
  unfold workflowLifecycleMessages storeEnv
  dsimp only
  rw [hne, hlast, hmessage]
  exact List.getLast?_append_cons _ _ _

/-- With times as a forward clock leaves them, a result sorts behind the last recorded one
only within its second. -/
theorem sortKey_le_last_iff (htimed : TimedBase files trace)
    (hlast : lastRecorded trace = some record) {step : String} {attempt : ℕ} {other : StepAttemptRecord}
    (hother : files.results step attempt = some other) :
    sortKey other ≤ sortKey record ↔
      (other.startedAt = record.startedAt → other.endedAt = record.endedAt →
        other.stepId < record.stepId ∨
          other.stepId = record.stepId ∧ other.attempt ≤ record.attempt) := by
  rw [sortKey_le_iff]
  have hrises := (htimed.latest record hlast).2
  rcases htimed.others record hlast step attempt other hother with rfl | ⟨hself, hbefore⟩
  · simp
  · constructor
    · rintro h hstart hend
      rcases h with h | ⟨-, h | ⟨-, h⟩⟩
      · exact absurd hstart h.ne
      · exact absurd hend h.ne
      · exact h
    · intro h
      rcases (hself.trans hbefore).lt_or_eq with hstart | hstart
      · exact .inl hstart
      · refine .inr ⟨hstart, ?_⟩
        rcases (hbefore.trans hrises).lt_or_eq with hend | hend
        · exact .inl hend
        · exact .inr ⟨hend, h hstart hend⟩

theorem answersWithLast_iff (htimed : TimedBase files trace) (hstored : Stored files trace)
    (hlists : ListsAll files entries) :
    AnswersWithLast env files trace entries runId ↔ LastSortsLast files trace := by
  have hsorts : ∀ record, lastRecorded trace = some record →
      ((stepAttemptsByTime files entries).getLast? = some record ↔
        ∀ step attempt other, files.results step attempt = some other →
          other.startedAt = record.startedAt → other.endedAt = record.endedAt →
            other.stepId < record.stepId ∨
              other.stepId = record.stepId ∧ other.attempt ≤ record.attempt) := by
    intro record hlast
    have hmem : record ∈ storedAttempts files entries :=
      (mem_storedAttempts hlists).mpr ⟨_, _, (htimed.latest record hlast).1⟩
    have hown : ∀ other ∈ storedAttempts files entries,
        sortKey other = sortKey record → other = record := by
      intro other hother hkey
      obtain ⟨step, attempt, hfile⟩ := (mem_storedAttempts hlists).mp hother
      obtain ⟨-, rfl, rfl⟩ := hstored step attempt other hfile
      simp only [sortKey, EmbeddingLike.apply_eq_iff_eq, Prod.mk.injEq] at hkey
      have hrecord := (htimed.latest record hlast).1
      rw [← hkey.2.2.1, ← hkey.2.2.2, hfile] at hrecord
      exact Option.some.inj hrecord
    unfold stepAttemptsByTime
    rw [getLast?_sorted_iff sortKey hmem hown]
    constructor
    · intro h step attempt other hother
      exact (sortKey_le_last_iff htimed hlast hother).mp
        (h other ((mem_storedAttempts hlists).mpr ⟨step, attempt, hother⟩))
    · intro h other hother
      obtain ⟨step, attempt, hfile⟩ := (mem_storedAttempts hlists).mp hother
      exact (sortKey_le_last_iff htimed hlast hfile).mpr (h step attempt other hfile)
  constructor
  · rintro ⟨record, hlast, hfinal, hsorted, -⟩
    exact ⟨record, hlast, hfinal, (hsorts record hlast).mp hsorted⟩
  · rintro ⟨record, hlast, hfinal, hties⟩
    have hsorted := (hsorts record hlast).mpr hties
    exact ⟨record, hlast, hfinal, hsorted, lifecycle_getLast? hsorted hfinal.1⟩

end Answer

/-- **The reply.** In every run whose clock does not go back, with any crashes, the last
message is the answer of the attempt that was recorded last exactly if that attempt is
final and no other result of its second has a greater name. -/
theorem reply_from_last_iff (env : WorkerEnv) (orchestrator : OrchestratorConfig)
    (runId workflowId : String) (now : Int) (events : List EngineEvent)
    (hclock : Meets (engineStep orchestrator) TimestampsRise
      (System.created runId workflowId now) events)
    (entries : List (String × ℕ))
    (hlists : ListsAll
      (run (engineStep orchestrator) (System.created runId workflowId now) events).files entries) :
    AnswersWithLast env
        (run (engineStep orchestrator) (System.created runId workflowId now) events).files
        (run (engineStep orchestrator) (System.created runId workflowId now) events).trace
        entries runId ↔
      LastSortsLast
        (run (engineStep orchestrator) (System.created runId workflowId now) events).files
        (run (engineStep orchestrator) (System.created runId workflowId now) events).trace :=
  answersWithLast_iff (run_timedBase runId workflowId now events hclock)
    (run_stored orchestrator runId workflowId now events) hlists

/-- The directories of the results that were written. -/
def writtenEntries (trace : List Observation) : List (String × ℕ) :=
  trace.filterMap fun
    | .wrote (.result record) => some (record.stepId, record.attempt)
    | _ => none

theorem listsAll_written {files : RunFiles} {trace : List Observation} (h : Stored files trace) :
    ListsAll files (writtenEntries trace) := by
  intro step attempt hfile
  obtain ⟨record, hrecord⟩ := Option.ne_none_iff_exists'.mp hfile
  obtain ⟨hmem, rfl, rfl⟩ := h step attempt record hrecord
  exact List.mem_filterMap.mpr ⟨_, hmem, rfl⟩

/-! ### Two steps within a second -/

/-- `plan`, then `answer`. -/
def planThenAnswer : OrchestratorConfig :=
  sampleOrchestrator [sampleStep "plan" none, sampleStep "answer" none]

def answering (text : String) : Input :=
  { now := 1, outcome := .outputs [("summary", .str text)] }

/-- Both steps succeed at their first attempt, and the run succeeds. -/
def answeredRun : List EngineEvent :=
  .call .start 0 ::
    (engineSteps 10 (answering "the plan") ++ engineSteps 21 (answering "the answer"))

/-- The run of `answeredRun`. -/
def answered : System :=
  run (engineStep planThenAnswer) (System.created "run-1" "flow" 0) answeredRun

/-- The run succeeds with `answer`, within the second of `plan`, and the sorted records
end with `plan`. -/
theorem reply_from_plan :
    validateSetupInvariants planThenAnswer = .ok () ∧
    Meets (engineStep planThenAnswer) TimestampsRise (System.created "run-1" "flow" 0)
      answeredRun ∧
    answered.files.run.state = .succeeded ∧
    ListsAll answered.files (writtenEntries answered.trace) ∧
    ¬ AnswersWithLast idleEnv answered.files answered.trace (writtenEntries answered.trace)
      "run-1" := by
  refine ⟨rfl, by decide, by decide,
    listsAll_written (run_stored planThenAnswer "run-1" "flow" 0 answeredRun), ?_⟩
  rintro ⟨record, hlast, -, hsorted, -⟩
  have hanswer : (lastRecorded answered.trace).map (·.stepId) = some "answer" := by decide
  have hplan : (stepAttemptsByTime answered.files (writtenEntries answered.trace)).getLast?.map
      (·.stepId) = some "plan" := by decide
  rw [hlast] at hanswer
  rw [hsorted] at hplan
  exact absurd (hanswer.symm.trans hplan) (by decide)

theorem reply_from_last_iff_answered :
    AnswersWithLast idleEnv answered.files answered.trace (writtenEntries answered.trace) "run-1" ↔
      LastSortsLast answered.files answered.trace :=
  reply_from_last_iff idleEnv planThenAnswer "run-1" "flow" 0 answeredRun (by decide) _
    (listsAll_written (run_stored planThenAnswer "run-1" "flow" 0 answeredRun))

end Direclaw.Runtime
