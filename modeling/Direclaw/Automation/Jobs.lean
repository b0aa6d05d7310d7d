import Direclaw.Automation.Cron
import Direclaw.Orchestration.Routing
import Mathlib.Data.List.AList

/-!
# Scheduled jobs

The job half of `orchestration/scheduler.rs`: a job with its schedule, the next
time it runs, and the edits that `JobStore` makes to a loaded job. An edit is a pure
function from the job that was read to the job that is written back.
-/

namespace Direclaw.Automation

open Direclaw.Lib Direclaw.Orchestration

/-! ## Data -/

inductive JobState : Type where
  | enabled
  | paused
  | disabled
  | deleted
deriving DecidableEq, Repr

def JobState.name : JobState → String
  | .enabled => "enabled"
  | .paused => "paused"
  | .disabled => "disabled"
  | .deleted => "deleted"

inductive MisfirePolicy : Type where
  | fireOnceOnRecovery
  | skipMissed
deriving DecidableEq, Repr

inductive ScheduleConfig : Type where
  | once (runAt : Int)
  | interval (everySeconds : ℕ) (anchorAt : Option Int)
  | cron (expression timezone : String)
deriving DecidableEq, Repr

structure ScheduledJob where
  jobId : String
  orchestratorId : String
  createdBy : List (String × Json) := []
  schedule : ScheduleConfig
  targetAction : TargetAction
  targetRef : Option Json := none
  state : JobState
  misfirePolicy : MisfirePolicy
  nextRunAt : Option Int
  lastRunAt : Option Int := none
  lastResult : Option String := none
  allowOverlap : Bool
  createdAt : Int
  updatedAt : Int

structure NewJob where
  orchestratorId : String
  createdBy : List (String × Json) := []
  schedule : ScheduleConfig
  targetAction : TargetAction
  targetRef : Option Json := none
  misfirePolicy : MisfirePolicy
  allowOverlap : Bool

structure JobPatch where
  schedule : Option ScheduleConfig := none
  targetAction : Option TargetAction := none
  targetRef : Option (Option Json) := none
  misfirePolicy : Option MisfirePolicy := none
  allowOverlap : Option Bool := none

/-! ## Names -/

/-- The decimal rendering of a signed number. -/
def decimalInt : Int → List Char
  | .ofNat n => Text.decimal n
  | .negSucc n => '-' :: Text.decimal (n + 1)

def sanitizeChar (ch : Char) : Char := if ch.isAlphanum then ch else '-'

def sanitizeId (raw : String) : String := String.ofList (raw.toList.map sanitizeChar)

def jobTag : List Char := ['j', 'o', 'b', '-']
def execTag : List Char := ['e', 'x', 'e', 'c', '-']
def skipTag : List Char := ['s', 'k', 'i', 'p', '-']

/-- The id that `create` makes up from the orchestrator and the clock. -/
def newJobId (orchestratorId : String) (nanos : ℕ) : String :=
  String.ofList (jobTag ++ (sanitizeId orchestratorId).toList ++ '-' :: Text.decimal nanos)

def executionIdFor (jobId : String) (nextRunAt : Int) : String :=
  String.ofList (execTag ++ (sanitizeId jobId).toList ++ '-' :: decimalInt nextRunAt)

/-! ### What a name tells -/

/-- The id survives `sanitize_id` as it is. -/
def Sanitized (id : String) : Prop := sanitizeId id = id

theorem sanitizeChar_idem (ch : Char) : sanitizeChar (sanitizeChar ch) = sanitizeChar ch := by
  by_cases h : ch.isAlphanum = true
  · simp only [sanitizeChar, h, if_true]
  · simp only [sanitizeChar, h]
    rfl

theorem sanitized_ofList {cs : List Char} (h : ∀ c ∈ cs, sanitizeChar c = c) :
    Sanitized (String.ofList cs) := by
  rw [Sanitized, sanitizeId, String.toList_ofList, List.map_congr_left h, List.map_id']

theorem sanitizeChar_tags :
    (∀ c ∈ jobTag, sanitizeChar c = c) ∧ (∀ c ∈ execTag, sanitizeChar c = c) ∧
      ∀ c ∈ skipTag, sanitizeChar c = c := by
  simp [jobTag, execTag, skipTag, sanitizeChar, Char.isAlphanum]

theorem sanitizeChar_of_mem_sanitizeId {raw : String} {c : Char}
    (h : c ∈ (sanitizeId raw).toList) : sanitizeChar c = c := by
  rw [sanitizeId, String.toList_ofList] at h
  obtain ⟨ch, _, rfl⟩ := List.mem_map.mp h
  exact sanitizeChar_idem ch

variable {c : Char}

theorem sanitizeChar_of_mem_decimal {n : ℕ} (h : c ∈ Text.decimal n) : sanitizeChar c = c := by
  have hdigit := Text.isDigit_of_mem_decimal h
  rw [sanitizeChar, if_pos]
  simp [Char.isAlphanum, hdigit]

theorem sanitizeChar_of_mem_decimalInt {n : Int} (h : c ∈ decimalInt n) : sanitizeChar c = c := by
  cases n with
  | ofNat n => exact sanitizeChar_of_mem_decimal h
  | negSucc n =>
    rcases List.mem_cons.mp h with rfl | h
    · rfl
    · exact sanitizeChar_of_mem_decimal h

theorem sanitized_newJobId (orchestratorId : String) (nanos : ℕ) :
    Sanitized (newJobId orchestratorId nanos) := by
  apply sanitized_ofList
  intro c hc
  rcases List.mem_append.mp hc with hc | hc
  · rcases List.mem_append.mp hc with hc | hc
    · exact sanitizeChar_tags.1 c hc
    · exact sanitizeChar_of_mem_sanitizeId hc
  · rcases List.mem_cons.mp hc with rfl | hc
    · rfl
    · exact sanitizeChar_of_mem_decimal hc

theorem sanitized_executionIdFor (jobId : String) (nextRunAt : Int) :
    Sanitized (executionIdFor jobId nextRunAt) := by
  apply sanitized_ofList
  intro c hc
  rcases List.mem_append.mp hc with hc | hc
  · rcases List.mem_append.mp hc with hc | hc
    · exact sanitizeChar_tags.2.1 c hc
    · exact sanitizeChar_of_mem_sanitizeId hc
  · rcases List.mem_cons.mp hc with rfl | hc
    · rfl
    · exact sanitizeChar_of_mem_decimalInt hc

/-- The rendering is the digits, after a sign if there is one. -/
theorem decimalInt_eq (n : Int) :
    (0 ≤ n ∧ decimalInt n = Text.decimal n.natAbs) ∨
      (n < 0 ∧ decimalInt n = '-' :: Text.decimal n.natAbs) := by
  cases n with
  | ofNat n => exact .inl ⟨Int.natCast_nonneg n, rfl⟩
  | negSucc n => exact .inr ⟨Int.negSucc_lt_zero n, rfl⟩

theorem head_decimal_ne (h : c.isDigit = false) (n : ℕ) (s t : List Char) :
    Text.decimal n ++ s ≠ c :: t := by
  intro heq
  cases hd : Text.decimal n with
  | nil => exact Text.decimal_ne_nil n hd
  | cons x xs =>
    rw [hd, List.cons_append] at heq
    have hx : x = c := (List.cons.inj heq).1
    have hmem : c ∈ Text.decimal n := by
      rw [hd, ← hx]
      exact List.mem_cons_self
    exact Text.not_mem_decimal h n hmem

/-- A number in front of a dash can be read off. -/
theorem decimalInt_dash_injective {m n : Int} {s t : List Char}
    (h : decimalInt m ++ '-' :: s = decimalInt n ++ '-' :: t) : m = n ∧ s = t := by
  have hdash : ∀ k : ℕ, '-' ∉ Text.decimal k := Text.not_mem_decimal (by decide)
  have hread : ∀ {k l : ℕ}, Text.decimal k ++ '-' :: s = Text.decimal l ++ '-' :: t →
      k = l ∧ s = t := by
    intro k l heq
    have hsplit := congrArg (Text.splitOnce '-') heq
    rw [Text.splitOnce_append (hdash k), Text.splitOnce_append (hdash l)] at hsplit
    obtain ⟨hd, hs⟩ := Prod.mk.inj (Option.some.inj hsplit)
    exact ⟨Text.decimal_injective hd, hs⟩
  rcases decimalInt_eq m with ⟨hm, hm'⟩ | ⟨hm, hm'⟩ <;>
    rcases decimalInt_eq n with ⟨hn, hn'⟩ | ⟨hn, hn'⟩ <;> rw [hm', hn'] at h
  · obtain ⟨habs, hs⟩ := hread h
    exact ⟨by omega, hs⟩
  · exact absurd h (head_decimal_ne (by decide) _ _ _)
  · exact absurd h.symm (head_decimal_ne (by decide) _ _ _)
  · obtain ⟨habs, hs⟩ := hread (List.cons.inj h).2
    exact ⟨by omega, hs⟩

/-- An id that `create` can have made. -/
def CreatedId (jobId : String) : Prop :=
  ∃ orchestratorId nanos, jobId = newJobId orchestratorId nanos

theorem CreatedId.sanitized {jobId : String} (h : CreatedId jobId) : Sanitized jobId := by
  obtain ⟨orchestratorId, nanos, rfl⟩ := h
  exact sanitized_newJobId orchestratorId nanos

/-- The ids that `create` makes do not end in a dash. -/
theorem CreatedId.toList_ne {jobId : String} (h : CreatedId jobId) (s : List Char) :
    jobId.toList ≠ s ++ ['-'] := by
  obtain ⟨orchestratorId, nanos, rfl⟩ := h
  intro heq
  rw [newJobId, String.toList_ofList] at heq
  obtain ⟨digits, d, hd⟩ := List.eq_nil_or_concat (Text.decimal nanos) |>.resolve_left
    (Text.decimal_ne_nil nanos)
  rw [hd] at heq
  have hlast : d = '-' := by
    rw [List.concat_eq_append, ← List.cons_append, ← List.append_assoc] at heq
    exact (List.cons.inj (List.append_inj_right' heq rfl)).1
  have hmem : '-' ∈ Text.decimal nanos := by
    rw [hd, hlast]
    simp
  exact Text.not_mem_decimal (by decide) nanos hmem

/-- **Execution ids.** The job and the time of a run can be read off its id. -/
theorem executionIdFor_injective {jobId jobId' : String} {t t' : Int} (hj : CreatedId jobId)
    (hj' : CreatedId jobId') (h : executionIdFor jobId t = executionIdFor jobId' t') :
    jobId = jobId' ∧ t = t' := by
  have hlist := congrArg String.toList h
  have hs : sanitizeId jobId = jobId := hj.sanitized
  have hs' : sanitizeId jobId' = jobId' := hj'.sanitized
  simp only [executionIdFor, String.toList_ofList, hs, hs', List.append_assoc] at hlist
  have hrest := List.append_cancel_left hlist
  have hdash : ∀ k : ℕ, '-' ∉ Text.decimal k := Text.not_mem_decimal (by decide)
  have hread : ∀ {s s' : List Char} {k l : ℕ},
      s ++ '-' :: Text.decimal k = s' ++ '-' :: Text.decimal l → s = s' ∧ k = l := by
    intro s s' k l heq
    have hd := Text.suffix_unique (hdash k) (hdash l) heq
    rw [hd] at heq
    exact ⟨List.append_cancel_right heq, Text.decimal_injective hd⟩
  have hsign : ∀ (s : List Char) (k : ℕ),
      s ++ '-' :: '-' :: Text.decimal k = (s ++ ['-']) ++ '-' :: Text.decimal k := by
    intro s k
    simp
  rcases decimalInt_eq t with ⟨ht, htext⟩ | ⟨ht, htext⟩ <;>
    rcases decimalInt_eq t' with ⟨ht', htext'⟩ | ⟨ht', htext'⟩ <;> rw [htext, htext'] at hrest
  · obtain ⟨hs, habs⟩ := hread hrest
    exact ⟨String.toList_inj.mp hs, by omega⟩
  · rw [hsign] at hrest
    exact absurd (hread hrest).1 (hj.toList_ne _)
  · rw [hsign] at hrest
    exact absurd (hread hrest).1.symm (hj'.toList_ne _)
  · rw [hsign, hsign] at hrest
    obtain ⟨hs, habs⟩ := hread hrest
    exact ⟨String.toList_inj.mp (List.append_cancel_right hs), by omega⟩

/-! ## When a job runs next -/

section NextRun

variable (zones : TimeZones)

def computeNextRunAt (schedule : ScheduleConfig) (now : Int) (lastRunAt : Option Int) :
    Except String (Option Int) :=
  match schedule with
  | .once runAt => .ok (if lastRunAt.isSome then none else some runAt)
  | .interval everySeconds anchorAt =>
    if everySeconds = 0 then .error "interval.every_seconds must be >= 1"
    else
      match lastRunAt with
      | some last => .ok (some (i64SaturatingAdd last (u64AsI64 everySeconds)))
      | none => .ok (some (i64SaturatingAdd (anchorAt.getD now) (u64AsI64 everySeconds)))
  | .cron expression timezone =>
    if !zones.known timezone then
      .error s!"invalid timezone `{timezone}`; expected IANA timezone id"
    else do
      let cron ← parseCronExpression expression
      match searchCron zones cron timezone maxCronSearchMinutes
          (nextMinute (lastRunAt.getD now)) with
      | some candidate => return some candidate
      | none =>
        throw (s!"unable to compute next run for cron expression `{expression}` " ++
          s!"in timezone `{timezone}`")

def computeRecoveryNextRunAt (schedule : ScheduleConfig) (now : Int) :
    Except String (Option Int) :=
  match schedule with
  | .once _ => .ok none
  | .interval .. | .cron .. => computeNextRunAt zones schedule now (some now)

/-- The values of the source's time type. -/
def IsI64 (t : Int) : Prop := i64Min ≤ t ∧ t ≤ i64Max

variable {zones} {schedule : ScheduleConfig} {now : Int} {last next : Option Int}

theorem computeNextRunAt_eq_none (h : computeNextRunAt zones schedule now last = .ok next) :
    next = none ↔ ∃ runAt, schedule = .once runAt ∧ last.isSome = true := by
  unfold computeNextRunAt at h
  split at h
  · next runAt =>
      cases h
      by_cases hlast : last.isSome = true
      · simp [hlast]
      · simp [hlast]
  · next everySeconds anchorAt =>
      split at h
      · cases h
      · split at h <;> cases h <;> simp
  · next expression timezone =>
      split at h
      · cases h
      · obtain ⟨cron, _, h⟩ := bind_eq_ok h
        split at h
        · cases h
          simp
        · cases h

theorem i64SaturatingAdd_pos {a b : Int} (ha : IsI64 a) (hb : 0 < b) :
    a < i64SaturatingAdd a b ↔ a < i64Max := by
  have hmin := ha.1
  have hmax := ha.2
  simp only [i64SaturatingAdd, i64Min, i64Max] at *
  omega

/-- The run after one at `t` comes later, unless the clock is at its end. -/
theorem lt_computeNextRunAt {t n : Int} (ht : IsI64 t)
    (hevery : ∀ e a, schedule = .interval e a → 0 < u64AsI64 e)
    (h : computeNextRunAt zones schedule now (some t) = .ok (some n)) :
    t < n ↔ ((∃ e a, schedule = .interval e a) → t < i64Max) := by
  unfold computeNextRunAt at h
  split at h
  · next runAt => cases h
  · next e a =>
      split at h
      · cases h
      · cases h
        rw [i64SaturatingAdd_pos ht (hevery e a rfl)]
        exact ⟨fun h _ => h, fun h => h ⟨e, a, rfl⟩⟩
  · next expression timezone =>
      split at h
      · cases h
      · obtain ⟨cron, _, h⟩ := bind_eq_ok h
        split at h
        · next candidate hsearch =>
            cases h
            have hlt := lt_of_searchCron ht.1 ht.2 hsearch
            simp [hlt]
        · cases h

end NextRun

/-! ## Checks -/

section Checks

variable (zones : TimeZones)

def validateSchedule : ScheduleConfig → Except String Unit
  | .once _ => .ok ()
  | .interval everySeconds _ =>
    if everySeconds = 0 then .error "interval.every_seconds must be >= 1"
    else if 31536000 < everySeconds then .error "interval.every_seconds must be <= 31536000"
    else .ok ()
  | .cron expression timezone => do
      let _ ← parseCronExpression expression
      validateIanaTimezone zones timezone

def validateTargetAction : TargetAction → Except String Unit
  | .workflowStart workflowId _ =>
    if Text.isBlank workflowId.toList then
      .error "target_action.workflow_start.workflow_id must be non-empty"
    else .ok ()
  | .commandInvoke functionId _ =>
    if Text.isBlank functionId.toList then
      .error "target_action.command_invoke.function_id must be non-empty"
    else .ok ()

def validTransition : JobState → JobState → Bool
  | .enabled, .paused | .enabled, .disabled | .enabled, .deleted => true
  | .paused, .enabled | .paused, .disabled | .paused, .deleted => true
  | .disabled, .enabled | .disabled, .deleted => true
  | _, _ => false

variable {zones}

theorem everySeconds_range {schedule : ScheduleConfig}
    (h : validateSchedule zones schedule = .ok ()) {e : ℕ} {a : Option Int}
    (hs : schedule = .interval e a) : 0 < e ∧ u64AsI64 e = e := by
  subst hs
  simp only [validateSchedule] at h
  split at h
  · cases h
  · split at h
    · cases h
    · exact ⟨by omega, if_pos (by omega)⟩

theorem everySeconds_pos {schedule : ScheduleConfig} (h : validateSchedule zones schedule = .ok ())
    {e : ℕ} {a : Option Int} (hs : schedule = .interval e a) : 0 < u64AsI64 e := by
  obtain ⟨hpos, heq⟩ := everySeconds_range h hs
  rw [heq]
  exact_mod_cast hpos

end Checks

/-! ## Making and editing a job -/

section Edits

variable (zones : TimeZones)

/-- `create`, up to the write. -/
def newJob (input : NewJob) (now : Int) (nanos : ℕ) : Except String ScheduledJob := do
  validateSchedule zones input.schedule
  validateTargetAction input.targetAction
  validateTargetRef input.targetRef
  if Text.isBlank input.orchestratorId.toList then throw "orchestrator_id must be non-empty"
  let nextRunAt ← computeNextRunAt zones input.schedule now none
  return {
    jobId := newJobId input.orchestratorId nanos
    orchestratorId := input.orchestratorId
    createdBy := input.createdBy
    schedule := input.schedule
    targetAction := input.targetAction
    targetRef := input.targetRef
    state := .enabled
    misfirePolicy := input.misfirePolicy
    nextRunAt := nextRunAt
    allowOverlap := input.allowOverlap
    createdAt := now
    updatedAt := now }

/-! The optional parts of a patch, in the order `update` takes them. -/

def patchSchedule (now : Int) (job : ScheduledJob) : Option ScheduleConfig →
    Except String ScheduledJob
  | none => .ok job
  | some schedule => do
      validateSchedule zones schedule
      let nextRunAt ← computeNextRunAt zones schedule now job.lastRunAt
      return { job with schedule := schedule, nextRunAt := nextRunAt }

def patchTargetAction (job : ScheduledJob) : Option TargetAction → Except String ScheduledJob
  | none => .ok job
  | some action => do
      validateTargetAction action
      return { job with targetAction := action }

def patchTargetRef (job : ScheduledJob) : Option (Option Json) → Except String ScheduledJob
  | none => .ok job
  | some targetRef => do
      validateTargetRef targetRef
      return { job with targetRef := targetRef }

def updateJob (jobId : String) (patch : JobPatch) (now : Int) (job : ScheduledJob) :
    Except String ScheduledJob := do
  if job.state = .deleted then throw s!"job `{jobId}` is deleted"
  let job ← patchSchedule zones now job patch.schedule
  let job ← patchTargetAction job patch.targetAction
  let job ← patchTargetRef job patch.targetRef
  return { job with
    misfirePolicy := patch.misfirePolicy.getD job.misfirePolicy
    allowOverlap := patch.allowOverlap.getD job.allowOverlap
    updatedAt := now }

def runNow (jobId : String) (now : Int) (job : ScheduledJob) : Except String ScheduledJob :=
  if job.state ≠ .enabled then
    .error s!"job `{jobId}` must be enabled before run_now (state={job.state.name})"
  else .ok { job with nextRunAt := some now, updatedAt := now }

def moveJob (next : JobState) (now : Int) (job : ScheduledJob) : Except String ScheduledJob :=
  if validTransition job.state next then .ok { job with state := next, updatedAt := now }
  else
    .error s!"invalid scheduler job transition `{job.state.name}` -> `{next.name}`"

/-- The calls that read one job and write it back. -/
inductive JobEdit : Type where
  | update (patch : JobPatch)
  | pause
  | resume
  | delete
  | runNow

def JobEdit.apply (edit : JobEdit) (jobId : String) (now : Int) (job : ScheduledJob) :
    Except String ScheduledJob :=
  match edit with
  | .update patch => updateJob zones jobId patch now job
  | .pause => moveJob .paused now job
  | .resume => moveJob .enabled now job
  | .delete => moveJob .deleted now job
  | .runNow => Automation.runNow jobId now job

variable {zones} {jobId : String} {now : Int} {job job' : ScheduledJob}

theorem patchSchedule_ok {part : Option ScheduleConfig}
    (h : patchSchedule zones now job part = .ok job') :
    (part = none ∧ job' = job) ∨
      ∃ schedule next, part = some schedule ∧ validateSchedule zones schedule = .ok () ∧
        computeNextRunAt zones schedule now job.lastRunAt = .ok next ∧
          job' = { job with schedule := schedule, nextRunAt := next } := by
  cases part with
  | none =>
    cases h
    exact .inl ⟨rfl, rfl⟩
  | some schedule =>
    obtain ⟨_, hvalid, h⟩ := bind_eq_ok h
    obtain ⟨next, hnext, h⟩ := bind_eq_ok h
    cases h
    exact .inr ⟨schedule, next, rfl, hvalid, hnext, rfl⟩

theorem patchTargetAction_ok {part : Option TargetAction}
    (h : patchTargetAction job part = .ok job') :
    (∀ action, part = some action → validateTargetAction action = .ok ()) ∧
      job' = { job with targetAction := part.getD job.targetAction } := by
  cases part with
  | none =>
    cases h
    exact ⟨nofun, rfl⟩
  | some action =>
    obtain ⟨_, hvalid, h⟩ := bind_eq_ok h
    cases h
    refine ⟨?_, rfl⟩
    rintro _ ⟨⟩
    exact hvalid

theorem patchTargetRef_ok {part : Option (Option Json)}
    (h : patchTargetRef job part = .ok job') :
    job' = { job with targetRef := part.getD job.targetRef } := by
  cases part with
  | none =>
    cases h
    rfl
  | some targetRef =>
    obtain ⟨_, _, h⟩ := bind_eq_ok h
    cases h
    rfl

/-- What an accepted update has checked, and what it leaves. -/
theorem updateJob_spec {patch : JobPatch} (h : updateJob zones jobId patch now job = .ok job') :
    job.state ≠ .deleted ∧
      (∀ action, patch.targetAction = some action → validateTargetAction action = .ok ()) ∧
      ∃ schedule next,
        ((patch.schedule = none ∧ schedule = job.schedule ∧ next = job.nextRunAt) ∨
          (patch.schedule = some schedule ∧ validateSchedule zones schedule = .ok () ∧
            computeNextRunAt zones schedule now job.lastRunAt = .ok next)) ∧
        job' = { job with
          schedule := schedule
          targetAction := patch.targetAction.getD job.targetAction
          targetRef := patch.targetRef.getD job.targetRef
          misfirePolicy := patch.misfirePolicy.getD job.misfirePolicy
          allowOverlap := patch.allowOverlap.getD job.allowOverlap
          nextRunAt := next
          updatedAt := now } := by
  unfold updateJob at h
  rw [throw_if_ok_iff] at h
  obtain ⟨hlive, h⟩ := h
  obtain ⟨job₁, h₁, h⟩ := bind_eq_ok h
  obtain ⟨job₂, h₂, h⟩ := bind_eq_ok h
  obtain ⟨job₃, h₃, h⟩ := bind_eq_ok h
  cases h
  obtain ⟨hvalid, rfl⟩ := patchTargetAction_ok h₂
  obtain rfl := patchTargetRef_ok h₃
  refine ⟨hlive, hvalid, ?_⟩
  rcases patchSchedule_ok h₁ with ⟨hnone, rfl⟩ | ⟨schedule, next, hsome, hschedule, hnext, rfl⟩
  · exact ⟨job₁.schedule, job₁.nextRunAt, .inl ⟨hnone, rfl, rfl⟩, rfl⟩
  · exact ⟨schedule, next, .inr ⟨hsome, hschedule, hnext⟩, rfl⟩

/-- What an accepted update can change. -/
theorem updateJob_ok {patch : JobPatch} (h : updateJob zones jobId patch now job = .ok job') :
    job.state ≠ .deleted ∧ job'.jobId = job.jobId ∧ job'.state = job.state ∧
      job'.lastRunAt = job.lastRunAt ∧
      job'.allowOverlap = patch.allowOverlap.getD job.allowOverlap ∧
      ((patch.schedule = none ∧ job'.schedule = job.schedule ∧ job'.nextRunAt = job.nextRunAt) ∨
        ∃ schedule, patch.schedule = some schedule ∧ job'.schedule = schedule ∧
          validateSchedule zones schedule = .ok () ∧
          computeNextRunAt zones schedule now job.lastRunAt = .ok job'.nextRunAt) := by
  obtain ⟨hlive, -, schedule, next, hschedule, rfl⟩ := updateJob_spec h
  refine ⟨hlive, rfl, rfl, rfl, rfl, ?_⟩
  rcases hschedule with hkept | ⟨hsome, hvalid, hnext⟩
  · exact .inl hkept
  · exact .inr ⟨schedule, hsome, rfl, hvalid, hnext⟩

theorem moveJob_ok {next : JobState} (h : moveJob next now job = .ok job') :
    validTransition job.state next = true ∧ job' = { job with state := next, updatedAt := now } := by
  unfold moveJob at h
  split at h
  · next hvalid =>
      cases h
      exact ⟨hvalid, rfl⟩
  · cases h

theorem runNow_ok (h : runNow jobId now job = .ok job') :
    job.state = .enabled ∧ job' = { job with nextRunAt := some now, updatedAt := now } := by
  unfold runNow at h
  split at h
  · cases h
  · next henabled =>
      cases h
      exact ⟨not_not.mp henabled, rfl⟩

theorem JobEdit.apply_keeps {change : JobEdit} (h : change.apply zones jobId now job = .ok job') :
    job'.jobId = job.jobId ∧ job'.lastRunAt = job.lastRunAt := by
  cases change with
  | update patch =>
    obtain ⟨_, hid, _, hlast, _⟩ := updateJob_ok h
    exact ⟨hid, hlast⟩
  | pause | resume | delete =>
    rw [(moveJob_ok h).2]
    exact ⟨rfl, rfl⟩
  | runNow =>
    rw [(runNow_ok h).2]
    exact ⟨rfl, rfl⟩

theorem newJob_ok {input : NewJob} {nanos : ℕ} (h : newJob zones input now nanos = .ok job) :
    validateSchedule zones input.schedule = .ok () ∧ job.jobId = newJobId input.orchestratorId nanos ∧
      job.schedule = input.schedule ∧ job.state = .enabled ∧ job.lastRunAt = none ∧
      job.allowOverlap = input.allowOverlap ∧
      computeNextRunAt zones input.schedule now none = .ok job.nextRunAt := by
  unfold newJob at h
  obtain ⟨_, hvalid, h⟩ := bind_eq_ok h
  obtain ⟨_, _, h⟩ := bind_eq_ok h
  obtain ⟨_, _, h⟩ := bind_eq_ok h
  by_cases hblank : Text.isBlank input.orchestratorId.toList = true
  · simp only [hblank, if_true] at h
    cases h
  · simp only [hblank] at h
    obtain ⟨nextRunAt, hnext, h⟩ := bind_eq_ok h
    have hjob := Except.ok.inj h
    subst hjob
    exact ⟨hvalid, rfl, rfl, rfl, rfl, rfl, hnext⟩

end Edits

end Direclaw.Automation
