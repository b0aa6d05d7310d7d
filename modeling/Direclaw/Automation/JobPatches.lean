import Direclaw.Automation.ScheduleCalls
import Direclaw.Automation.Utc

/-!
# Job patches

`parse_job_patch` of `app/schedule_parsing.rs` followed by `JobStore::update` of
`orchestration/scheduler.rs`, from the JSON object to the job file. What a patch says is
stated by itself, key by key, and compared with the job that is stored.
-/

namespace Direclaw.Automation

open Direclaw.Lib Direclaw.Orchestration

/-! ## Job files -/

/-- What is in a file of the store; `complaint` is what the reader says of a text that a
write left unfinished. -/
inductive JobFile : Type where
  | job (job : ScheduledJob)
  | torn (complaint : String)

/-- How `persist_job` ends: `fs::write` empties the file before it fills it. -/
inductive JobWrite : Type where
  | written
  | refused (reason : String)
  | brokenOff (reason complaint : String)
deriving DecidableEq, Repr

/-- `JobStore`, in a file system where a path leads to a place of `P`. -/
structure JobStore (P : Type) where
  runtimeRoot : String
  place : String → P

section Store

variable {P : Type}

def JobStore.path (store : JobStore P) (jobId : String) : String :=
  SchedulerFiles.jobPath store.runtimeRoot jobId

def JobStore.jobFile (store : JobStore P) (jobId : String) : P := store.place (store.path jobId)

/-- The files of a store: a job lies where `persist_job` puts it. -/
structure JobFiles (store : JobStore P) where
  file : P → Option JobFile
  own : ∀ {p job}, file p = some (.job job) → store.jobFile job.jobId = p

variable [DecidableEq P] {store : JobStore P}

def JobFiles.put (files : JobFiles store) (job : ScheduledJob) : JobFiles store where
  file := Function.update files.file (store.jobFile job.jobId) (some (.job job))
  own {p other} h := by
    by_cases hp : p = store.jobFile job.jobId
    · subst hp
      rw [Function.update_self] at h
      cases h
      rfl
    · rw [Function.update_of_ne hp] at h
      exact files.own h

def JobFiles.tear (files : JobFiles store) (jobId complaint : String) : JobFiles store where
  file := Function.update files.file (store.jobFile jobId) (some (.torn complaint))
  own {p job} h := by
    by_cases hp : p = store.jobFile jobId
    · subst hp
      rw [Function.update_self] at h
      cases h
    · rw [Function.update_of_ne hp] at h
      exact files.own h

def JobFiles.load (files : JobFiles store) (jobId : String) : Except String ScheduledJob :=
  let path := store.path jobId
  match files.file (store.jobFile jobId) with
  | some (.job job) => .ok job
  | some (.torn complaint) => .error s!"failed to parse {path}: {complaint}"
  | none => .error s!"failed to read {path}: No such file or directory (os error 2)"

def JobFiles.persist (files : JobFiles store) (job : ScheduledJob) :
    JobWrite → Except String ScheduledJob × JobFiles store
  | .written => (.ok job, files.put job)
  | .refused reason => (.error reason, files)
  | .brokenOff reason complaint => (.error reason, files.tear job.jobId complaint)

def JobFiles.update (zones : TimeZones) (files : JobFiles store) (write : JobWrite)
    (jobId : String) (patch : JobPatch) (now : Int) :
    Except String ScheduledJob × JobFiles store :=
  match files.load jobId with
  | .error reason => (.error reason, files)
  | .ok job =>
    match updateJob zones jobId patch now job with
    | .error reason => (.error reason, files)
    | .ok job => files.persist job write

/-- The patch is read, then `update` is called. -/
def JobFiles.applyPatch (zones : TimeZones) (files : JobFiles store) (write : JobWrite)
    (jobId : String) (patch : List (String × Json)) (now : Int) :
    Except String ScheduledJob × JobFiles store :=
  match parseJobPatch patch with
  | .error reason => (.error reason, files)
  | .ok patch => files.update zones write jobId patch now

end Store

/-! ## What a patch says -/

section Meaning

/-- `anchorAt`: a number, or nothing. -/
def SaysAnchor : Option Json → Option Int → Prop
  | none, anchorAt => anchorAt = none
  | some value, anchorAt =>
    (value = .null ∧ anchorAt = none) ∨ ∃ n, value = .int n ∧ anchorAt = some n

/-- `inputs` and `functionArgs`: an object, or nothing. -/
def SaysMap : Option Json → List (String × Json) → Prop
  | none, fields => fields = []
  | some value, fields => value = .object fields

inductive SaysSchedule (fields : List (String × Json)) : ScheduleConfig → Prop
  | once {runAt : Int} : Json.get fields "type" = some (.str "once") →
      Json.get fields "runAt" = some (.int runAt) → SaysSchedule fields (.once runAt)
  | interval {everySeconds : ℕ} {anchorAt : Option Int} :
      Json.get fields "type" = some (.str "interval") →
        Json.get fields "everySeconds" = some (.int everySeconds) →
          SaysAnchor (Json.get fields "anchorAt") anchorAt →
            SaysSchedule fields (.interval everySeconds anchorAt)
  | cron {expression timezone : String} : Json.get fields "type" = some (.str "cron") →
      Json.get fields "expression" = some (.str expression) →
        Json.get fields "timezone" = some (.str timezone) →
          SaysSchedule fields (.cron expression timezone)

inductive SaysAction (fields : List (String × Json)) : TargetAction → Prop
  | workflowStart {workflowId : String} {inputs : List (String × Json)} :
      Json.get fields "type" = some (.str "workflow_start") →
        Json.get fields "workflowId" = some (.str workflowId) →
          SaysMap (Json.get fields "inputs") inputs →
            SaysAction fields (.workflowStart workflowId inputs)
  | commandInvoke {functionId : String} {functionArgs : List (String × Json)} :
      Json.get fields "type" = some (.str "command_invoke") →
        Json.get fields "functionId" = some (.str functionId) →
          SaysMap (Json.get fields "functionArgs") functionArgs →
            SaysAction fields (.commandInvoke functionId functionArgs)

inductive SaysPolicy : Json → MisfirePolicy → Prop
  | fireOnceOnRecovery : SaysPolicy (.str "fire_once_on_recovery") .fireOnceOnRecovery
  | skipMissed : SaysPolicy (.str "skip_missed") .skipMissed

def TellsSchedule (value : Json) (schedule : ScheduleConfig) : Prop :=
  ∃ fields, value = .object fields ∧ SaysSchedule fields schedule

def TellsAction (value : Json) (action : TargetAction) : Prop :=
  ∃ fields, value = .object fields ∧ SaysAction fields action

/-- A value that is absent leaves what is there; of one that is present `tells` holds. -/
def Said {α : Type} (tells : Json → α → Prop) (value : Option Json) (before after : α) : Prop :=
  match value with
  | none => after = before
  | some value => tells value after

/-- `job'` is `job` as the patch says. -/
structure PatchApplied (patch : List (String × Json)) (job job' : ScheduledJob) : Prop where
  schedule : Said TellsSchedule (Json.get patch "schedule") job.schedule job'.schedule
  targetAction : Said TellsAction (Json.get patch "targetAction") job.targetAction
    job'.targetAction
  targetRef : Said (fun value targetRef => targetRef = Json.optionalValue (some value))
    (Json.get patch "targetRef") job.targetRef job'.targetRef
  misfirePolicy : Said SaysPolicy (Json.get patch "misfirePolicy") job.misfirePolicy
    job'.misfirePolicy
  allowOverlap : Said (fun value allowOverlap => value = .bool allowOverlap)
    (Json.get patch "allowOverlap") job.allowOverlap job'.allowOverlap
  jobId : job'.jobId = job.jobId
  orchestratorId : job'.orchestratorId = job.orchestratorId
  createdBy : job'.createdBy = job.createdBy
  state : job'.state = job.state
  lastRunAt : job'.lastRunAt = job.lastRunAt
  lastResult : job'.lastResult = job.lastResult
  createdAt : job'.createdAt = job.createdAt

/-- A call that fails leaves the files alone, and one that does not stores the patched job. -/
def FaithfullyApplied {P : Type} {store : JobStore P} (files files' : JobFiles store)
    (jobId : String) (patch : List (String × Json)) (result : Except String ScheduledJob) : Prop :=
  (∃ reason, result = .error reason ∧ files'.file = files.file) ∨
    ∃ job job', files.file (store.jobFile jobId) = some (.job job) ∧ result = .ok job' ∧
      files'.file (store.jobFile jobId) = some (.job job') ∧
        (∀ p, p ≠ store.jobFile jobId → files'.file p = files.file p) ∧
          PatchApplied patch job job'

end Meaning

/-! ## What is accepted -/

/-- What the calls ask of a patch and a job. -/
structure Acceptable (zones : TimeZones) (now : Int) (patch : List (String × Json))
    (job : ScheduledJob) : Prop where
  live : job.state ≠ .deleted
  schedule : ∀ fields, Json.get patch "schedule" = some (.object fields) →
    ∃ schedule, parseSchedulePatch fields = .ok schedule ∧
      validateSchedule zones schedule = .ok () ∧
        ∃ next, computeNextRunAt zones schedule now job.lastRunAt = .ok next
  targetAction : ∀ fields, Json.get patch "targetAction" = some (.object fields) →
    ∃ action, parseTargetActionConfig fields = .ok action ∧ validateTargetAction action = .ok ()
  targetRef : ∀ value, Json.get patch "targetRef" = some value →
    ∃ target, parseSlackTargetRef value "patch.targetRef" = .ok target
  misfirePolicy : ∀ raw, Json.get patch "misfirePolicy" = some (.str raw) →
    ∃ policy, SaysPolicy (.str raw) policy

/-- An object, with an `anchorAt` that is an integer, `null` or absent. -/
def TypedSchedule (value : Json) : Prop :=
  ∃ fields, value = .object fields ∧
    (Json.get fields "type" = some (.str "interval") → ∀ anchor,
      Json.get fields "anchorAt" = some anchor → anchor = .null ∨ (asI64 anchor).isSome)

/-- An object, with `inputs` or `functionArgs` that are an object or absent. -/
def TypedAction (value : Json) : Prop :=
  ∃ fields, value = .object fields ∧
    (Json.get fields "type" = some (.str "workflow_start") → ∀ inputs,
      Json.get fields "inputs" = some inputs → ∃ map, inputs = .object map) ∧
    (Json.get fields "type" = some (.str "command_invoke") → ∀ args,
      Json.get fields "functionArgs" = some args → ∃ map, args = .object map)

def TypedPolicy (value : Json) : Prop := ∃ raw, value = .str raw

def TypedOverlap (value : Json) : Prop := ∃ b, value = .bool b

/-- Every key that is read has a value of its type. -/
structure WellTyped (patch : List (String × Json)) : Prop where
  schedule : ∀ value, Json.get patch "schedule" = some value → TypedSchedule value
  targetAction : ∀ value, Json.get patch "targetAction" = some value → TypedAction value
  misfirePolicy : ∀ value, Json.get patch "misfirePolicy" = some value → TypedPolicy value
  allowOverlap : ∀ value, Json.get patch "allowOverlap" = some value → TypedOverlap value

/-! ## Reading the parts -/

section Parts

variable {fields patch : List (String × Json)} {value : Json} {now : Int}

theorem okOr_eq_ok_iff {α : Type} {reason : String} {found : Option α} {a : α} :
    okOr reason found = .ok a ↔ found = some a := by
  cases found with
  | none => simp [okOr]
  | some b => simp [okOr]

theorem patchPart_ok_iff {α β : Type} {parse : α → Except String β} {part : Option α}
    {parsed : Option β} : patchPart parse part = .ok parsed ↔
      (part = none ∧ parsed = none) ∨ ∃ a b, part = some a ∧ parse a = .ok b ∧ parsed = some b := by
  cases part with
  | none => simp [patchPart, eq_comm]
  | some a =>
    cases hparse : parse a with
    | error err => simp [patchPart, hparse, Except.map]
    | ok b => simp [patchPart, hparse, Except.map, eq_comm]

variable {target : Option SlackTargetRef} {found : Option Json} {path : String}

theorem bind_asStr_eq_some {text : String} :
    found.bind Json.asStr = some text ↔ found = some (.str text) := by
  rw [Option.bind_eq_some_iff]
  constructor
  · rintro ⟨value, rfl, hstr⟩
    cases value with
    | str s => rw [show s = text from Option.some.inj hstr]
    | null | bool | int | float | array | object => cases hstr
  · rintro rfl
    exact ⟨_, rfl, rfl⟩

theorem bind_asI64_eq_some {n : Int} (h : found.bind asI64 = some n) : found = some (.int n) := by
  obtain ⟨value, rfl, hint⟩ := Option.bind_eq_some_iff.mp h
  cases value with
  | int m =>
    simp only [asI64, Option.ite_none_right_eq_some] at hint
    rw [Option.some.inj hint.2]
  | null | bool | str | float | array | object => cases hint

theorem bind_asU64_eq_some {n : ℕ} (h : found.bind asU64 = some n) : found = some (.int n) := by
  obtain ⟨value, rfl, hint⟩ := Option.bind_eq_some_iff.mp h
  cases value with
  | int m =>
    simp only [asU64, Option.ite_none_right_eq_some] at hint
    obtain ⟨⟨hnonneg, -⟩, hn⟩ := hint
    rw [← Option.some.inj hn, Int.toNat_of_nonneg hnonneg]
  | null | bool | str | float | array | object => cases hint

theorem optionalObjectArg_eq_some {arg : String} {object : List (String × Json)} :
    optionalObjectArg fields arg = some object ↔ Json.get fields arg = some (.object object) := by
  rw [optionalObjectArg, Option.bind_eq_some_iff]
  constructor
  · rintro ⟨value, hget, hobject⟩
    cases value with
    | object held => rw [hget, show held = object from Option.some.inj hobject]
    | null | bool | int | float | array | str => cases hobject
  · intro hget
    exact ⟨_, hget, rfl⟩

/-- A schedule is what the patch says, but for an `anchorAt` of another type. -/
theorem saysSchedule_iff {schedule : ScheduleConfig}
    (h : parseSchedulePatch fields = .ok schedule) : SaysSchedule fields schedule ↔
      (Json.get fields "type" = some (.str "interval") → ∀ anchor,
        Json.get fields "anchorAt" = some anchor → anchor = .null ∨ (asI64 anchor).isSome) := by
  obtain ⟨scheduleType, htype, h⟩ := bind_eq_ok h
  have htype := bind_asStr_eq_some.mp (okOr_eq_ok_iff.mp htype)
  unfold parseScheduleConfig at h
  split at h
  · obtain ⟨runAt, hrunAt, h⟩ := bind_eq_ok h
    cases h
    refine iff_of_true (.once htype (bind_asI64_eq_some (okOr_eq_ok_iff.mp hrunAt)))
      fun hinterval => ?_
    rw [htype] at hinterval
    simp at hinterval
  · obtain ⟨everySeconds, hevery, h⟩ := bind_eq_ok h
    cases h
    have hevery := bind_asU64_eq_some (okOr_eq_ok_iff.mp hevery)
    cases hanchor : Json.get fields "anchorAt" with
    | none =>
      refine iff_of_true (.interval htype hevery ?_) nofun
      rw [hanchor]
      rfl
    | some anchor =>
      constructor
      · rintro (- | ⟨-, -, hsays⟩) - held heq
        cases heq
        rw [hanchor] at hsays
        rcases hsays with ⟨rfl, -⟩ | ⟨n, rfl, hn⟩
        · exact .inl rfl
        · refine .inr ?_
          rw [show asI64 (.int n) = some n from hn]
          rfl
      · intro htyped
        refine .interval htype hevery ?_
        rw [hanchor]
        rcases htyped htype anchor rfl with rfl | hint
        · exact .inl ⟨rfl, rfl⟩
        · obtain ⟨n, hn⟩ := Option.isSome_iff_exists.mp hint
          have hvalue : some anchor = some (.int n) := bind_asI64_eq_some hn
          exact .inr ⟨n, Option.some.inj hvalue, hn⟩
  · obtain ⟨expression, hexpression, h⟩ := bind_eq_ok h
    obtain ⟨timezone, htimezone, h⟩ := bind_eq_ok h
    cases h
    refine iff_of_true (.cron htype (bind_asStr_eq_some.mp (okOr_eq_ok_iff.mp hexpression))
      (bind_asStr_eq_some.mp (okOr_eq_ok_iff.mp htimezone))) fun hinterval => ?_
    rw [htype] at hinterval
    simp at hinterval
  · cases h

theorem saysMap_iff {key : String} :
    SaysMap (Json.get fields key) ((optionalObjectArg fields key).getD []) ↔
      ∀ held, Json.get fields key = some held → ∃ map, held = .object map := by
  cases hget : Json.get fields key with
  | none => simp [SaysMap, optionalObjectArg, hget]
  | some held =>
    cases held with
    | object map => simp [SaysMap, optionalObjectArg, hget, Json.asObject]
    | null | bool | int | float | array | str => simp [SaysMap]

theorem saysAction_iff {action : TargetAction} (h : parseTargetActionConfig fields = .ok action) :
    SaysAction fields action ↔
      (Json.get fields "type" = some (.str "workflow_start") → ∀ inputs,
        Json.get fields "inputs" = some inputs → ∃ map, inputs = .object map) ∧
      (Json.get fields "type" = some (.str "command_invoke") → ∀ args,
        Json.get fields "functionArgs" = some args → ∃ map, args = .object map) := by
  obtain ⟨actionType, htype, h⟩ := bind_eq_ok h
  have htype := bind_asStr_eq_some.mp (okOr_eq_ok_iff.mp htype)
  split at h
  · obtain ⟨workflowId, hworkflow, h⟩ := bind_eq_ok h
    cases h
    have hworkflow := bind_asStr_eq_some.mp (okOr_eq_ok_iff.mp hworkflow)
    rw [htype, ← saysMap_iff]
    simp only [forall_const, Option.some.injEq, Json.str.injEq, String.reduceEq, false_implies,
      and_true]
    constructor
    · rintro (⟨-, -, hsays⟩ | -)
      exact hsays
    · exact .workflowStart htype hworkflow
  · obtain ⟨functionId, hfunction, h⟩ := bind_eq_ok h
    cases h
    have hfunction := bind_asStr_eq_some.mp (okOr_eq_ok_iff.mp hfunction)
    rw [htype, ← @saysMap_iff fields "functionArgs"]
    simp only [forall_const, Option.some.injEq, Json.str.injEq, String.reduceEq, false_implies,
      true_and]
    constructor
    · rintro (- | ⟨-, -, hsays⟩)
      exact hsays
    · exact .commandInvoke htype hfunction
  · cases h

theorem parseMisfirePolicyArg_ok_iff {raw : String} {policy : MisfirePolicy} :
    parseMisfirePolicyArg (some raw) = .ok policy ↔ SaysPolicy (.str raw) policy := by
  constructor
  · intro h
    unfold parseMisfirePolicyArg at h
    split at h
    · next heq => cases heq
    · next heq =>
        cases heq
        cases h
        exact .fireOnceOnRecovery
    · next heq =>
        cases heq
        cases h
        exact .skipMissed
    · cases h
  · rintro (_ | _)
    · rfl
    · rfl

/-! The field path is in the errors only. -/

theorem requiredTrimmedString_path {key text path : String} (path' : String)
    (h : requiredTrimmedString fields key path = .ok text) :
    requiredTrimmedString fields key path' = .ok text := by
  unfold requiredTrimmedString at h ⊢
  split at h
  · cases h
  · split at h
    · cases h
    · next hblank =>
        rw [if_neg hblank]
        exact h

theorem optionalTrimmedString_path {key path : String} {text : Option String} (path' : String)
    (h : optionalTrimmedString fields key path = .ok text) :
    optionalTrimmedString fields key path' = .ok text := by
  unfold optionalTrimmedString at h ⊢
  split at h
  · exact h
  · exact h
  · split at h
    · cases h
    · next hblank =>
        rw [if_neg hblank]
        exact h
  · cases h

theorem parsePostingMode_path {raw path : String} {mode : SlackPostingMode} (path' : String)
    (h : parsePostingMode raw path = .ok mode) : parsePostingMode raw path' = .ok mode := by
  unfold parsePostingMode at h ⊢
  split_ifs at h ⊢
  · exact h
  · exact h

theorem parseSlackTargetRef_path (path' : String) (h : parseSlackTargetRef value path = .ok target)
    : parseSlackTargetRef value path' = .ok target := by
  unfold parseSlackTargetRef at h ⊢
  split at h
  · split at h
    · simp only [throw_if_ok_iff] at h ⊢
      refine ⟨h.1, ?_⟩
      obtain ⟨profileId, hprofile, h⟩ := bind_eq_ok h.2
      obtain ⟨channelId, hchannel, h⟩ := bind_eq_ok h
      obtain ⟨raw, hraw, h⟩ := bind_eq_ok h
      obtain ⟨mode, hmode, h⟩ := bind_eq_ok h
      obtain ⟨threadTs, hthread, h⟩ := bind_eq_ok h
      refine bind_ok_iff.mpr ⟨_, requiredTrimmedString_path path' hprofile, ?_⟩
      refine bind_ok_iff.mpr ⟨_, requiredTrimmedString_path path' hchannel, ?_⟩
      refine bind_ok_iff.mpr ⟨_, requiredTrimmedString_path path' hraw, ?_⟩
      refine bind_ok_iff.mpr ⟨_, parsePostingMode_path path' hmode, ?_⟩
      refine bind_ok_iff.mpr ⟨_, optionalTrimmedString_path path' hthread, ?_⟩
      cases mode with
      | channelPost => exact h
      | threadReply =>
        cases threadTs with
        | none => cases h
        | some threadTs => exact h
    · exact h
  · cases h

theorem validateTargetRef_of_parsed {path : String} {target : Option SlackTargetRef}
    (h : parseSlackTargetRef value path = .ok target) : validateTargetRef (some value) = .ok () :=
  bind_ok_iff.mpr ⟨target, parseSlackTargetRef_path "target_ref" h, rfl⟩

theorem ne_null_of_parsed (h : parseSlackTargetRef value path = .ok target) : value ≠ .null := by
  rintro rfl
  cases h

end Parts

/-! ## The patched job -/

section Patched

variable {zones : TimeZones} {now : Int} {jobId : String} {patch : List (String × Json)}
  {parsed : JobPatch} {job job' : ScheduledJob}

/-- What a patch that is read holds. -/
theorem parseJobPatch_ok (h : parseJobPatch patch = .ok parsed) :
    patchPart parseSchedulePatch (optionalObjectArg patch "schedule") = .ok parsed.schedule ∧
      patchPart parseTargetActionConfig (optionalObjectArg patch "targetAction") =
        .ok parsed.targetAction ∧
      parsed.targetRef = (Json.get patch "targetRef").map some ∧
      (∃ target, patchPart (parseSlackTargetRef · "patch.targetRef") (Json.get patch "targetRef") =
        .ok target) ∧
      patchPart (fun raw => parseMisfirePolicyArg (some raw))
        ((Json.get patch "misfirePolicy").bind Json.asStr) = .ok parsed.misfirePolicy ∧
      parsed.allowOverlap = (Json.get patch "allowOverlap").bind asBool := by
  obtain ⟨schedule, hschedule, h⟩ := bind_eq_ok h
  obtain ⟨action, haction, h⟩ := bind_eq_ok h
  obtain ⟨target, htarget, h⟩ := bind_eq_ok h
  obtain ⟨policy, hpolicy, h⟩ := bind_eq_ok h
  cases h
  exact ⟨hschedule, haction, rfl, ⟨target, htarget⟩, hpolicy, rfl⟩

theorem acceptable_of_ok (hparse : parseJobPatch patch = .ok parsed)
    (hupdate : updateJob zones jobId parsed now job = .ok job') :
    Acceptable zones now patch job := by
  obtain ⟨hschedule, haction, -, ⟨target, htarget⟩, hpolicy, -⟩ := parseJobPatch_ok hparse
  obtain ⟨hlive, hvalidAction, stored, next, hstored, -⟩ := updateJob_spec hupdate
  refine ⟨hlive, fun fields hget => ?_, fun fields hget => ?_, fun value hget => ?_,
    fun raw hget => ?_⟩
  · rw [optionalObjectArg_eq_some.mpr hget] at hschedule
    rcases patchPart_ok_iff.mp hschedule with ⟨hnone, -⟩ | ⟨_, schedule, ⟨⟩, hread, hparsed⟩
    · cases hnone
    · rcases hstored with ⟨hkept, -⟩ | ⟨hnew, hvalid, hnext⟩
      · rw [hkept] at hparsed
        cases hparsed
      · cases hnew.symm.trans hparsed
        exact ⟨stored, hread, hvalid, next, hnext⟩
  · rw [optionalObjectArg_eq_some.mpr hget] at haction
    rcases patchPart_ok_iff.mp haction with ⟨hnone, -⟩ | ⟨_, action, ⟨⟩, hread, hparsed⟩
    · cases hnone
    · exact ⟨action, hread, hvalidAction action hparsed⟩
  · rw [hget] at htarget
    rcases patchPart_ok_iff.mp htarget with ⟨hnone, -⟩ | ⟨_, target, ⟨⟩, hread, -⟩
    · cases hnone
    · exact ⟨target, hread⟩
  · rw [bind_asStr_eq_some.mpr hget] at hpolicy
    rcases patchPart_ok_iff.mp hpolicy with ⟨hnone, -⟩ | ⟨_, policy, ⟨⟩, hread, -⟩
    · cases hnone
    · exact ⟨policy, parseMisfirePolicyArg_ok_iff.mp hread⟩

/-- A part that is absent, or that is read, gives a part of the patch. -/
theorem exists_patchPart {α β : Type} {parse : α → Except String β} {part : Option α}
    (h : ∀ a, part = some a → ∃ b, parse a = .ok b) :
    ∃ parsed, patchPart parse part = .ok parsed := by
  cases part with
  | none => exact ⟨none, rfl⟩
  | some a =>
    obtain ⟨b, hb⟩ := h a rfl
    exact ⟨some b, patchPart_ok_iff.mpr (.inr ⟨a, b, rfl, hb, rfl⟩)⟩

theorem Acceptable.exists_parsed (h : Acceptable zones now patch job) :
    ∃ parsed, parseJobPatch patch = .ok parsed := by
  have hschedule : ∃ parsed, patchPart parseSchedulePatch (optionalObjectArg patch "schedule") =
      .ok parsed := exists_patchPart fun fields hfields => by
    obtain ⟨schedule, hread, -⟩ := h.schedule fields (optionalObjectArg_eq_some.mp hfields)
    exact ⟨schedule, hread⟩
  have haction : ∃ parsed, patchPart parseTargetActionConfig
      (optionalObjectArg patch "targetAction") = .ok parsed :=
    exists_patchPart fun fields hfields => by
      obtain ⟨action, hread, -⟩ := h.targetAction fields (optionalObjectArg_eq_some.mp hfields)
      exact ⟨action, hread⟩
  have hpolicy : ∃ parsed, patchPart (fun raw => parseMisfirePolicyArg (some raw))
      ((Json.get patch "misfirePolicy").bind Json.asStr) = .ok parsed :=
    exists_patchPart fun raw hraw => by
      obtain ⟨policy, hsays⟩ := h.misfirePolicy raw (bind_asStr_eq_some.mp hraw)
      exact ⟨policy, parseMisfirePolicyArg_ok_iff.mpr hsays⟩
  obtain ⟨schedule, hschedule⟩ := hschedule
  obtain ⟨action, haction⟩ := haction
  obtain ⟨target, htarget⟩ := exists_patchPart h.targetRef
  obtain ⟨policy, hpolicy⟩ := hpolicy
  refine ⟨⟨schedule, action, (Json.get patch "targetRef").map some, policy,
    (Json.get patch "allowOverlap").bind asBool⟩, ?_⟩
  refine bind_ok_iff.mpr ⟨schedule, hschedule, bind_ok_iff.mpr ⟨action, haction, ?_⟩⟩
  exact bind_ok_iff.mpr ⟨target, htarget, bind_ok_iff.mpr ⟨policy, hpolicy, rfl⟩⟩

theorem Acceptable.exists_updated (h : Acceptable zones now patch job)
    (hparse : parseJobPatch patch = .ok parsed) :
    ∃ job', updateJob zones jobId parsed now job = .ok job' := by
  obtain ⟨hschedule, haction, htarget, -⟩ := parseJobPatch_ok hparse
  have h₁ : ∃ job₁, patchSchedule zones now job parsed.schedule = .ok job₁ := by
    rcases patchPart_ok_iff.mp hschedule with ⟨-, hnone⟩ | ⟨fields, schedule, hfields, hread, hsome⟩
    · rw [hnone]
      exact ⟨job, rfl⟩
    · rw [hsome]
      obtain ⟨read, hread', hvalid, next, hnext⟩ :=
        h.schedule fields (optionalObjectArg_eq_some.mp hfields)
      cases hread.symm.trans hread'
      exact ⟨_, bind_ok_iff.mpr ⟨(), hvalid, bind_ok_iff.mpr ⟨next, hnext, rfl⟩⟩⟩
  obtain ⟨job₁, h₁⟩ := h₁
  have h₂ : ∃ job₂, patchTargetAction job₁ parsed.targetAction = .ok job₂ := by
    rcases patchPart_ok_iff.mp haction with ⟨-, hnone⟩ | ⟨fields, action, hfields, hread, hsome⟩
    · rw [hnone]
      exact ⟨job₁, rfl⟩
    · rw [hsome]
      obtain ⟨read, hread', hvalid⟩ := h.targetAction fields (optionalObjectArg_eq_some.mp hfields)
      cases hread.symm.trans hread'
      exact ⟨_, bind_ok_iff.mpr ⟨(), hvalid, rfl⟩⟩
  obtain ⟨job₂, h₂⟩ := h₂
  have h₃ : ∃ job₃, patchTargetRef job₂ parsed.targetRef = .ok job₃ := by
    rw [htarget]
    cases hget : Json.get patch "targetRef" with
    | none => exact ⟨job₂, rfl⟩
    | some value =>
      obtain ⟨target, hread⟩ := h.targetRef value hget
      exact ⟨_, bind_ok_iff.mpr ⟨(), validateTargetRef_of_parsed hread, rfl⟩⟩
  obtain ⟨job₃, h₃⟩ := h₃
  unfold updateJob
  simp only [throw_if_ok_iff]
  exact ⟨_, h.live, bind_ok_iff.mpr ⟨job₁, h₁, bind_ok_iff.mpr ⟨job₂, h₂,
    bind_ok_iff.mpr ⟨job₃, h₃, rfl⟩⟩⟩⟩

/-- A key of a patch is told exactly when its value is one that is read. -/
theorem said_part_iff {α β : Type} {parse : α → Except String β} {read : Json → Option α}
    {tells : Json → β → Prop} {good : Json → Prop} {key : String} {part : Option β} {before : β}
    (hpart : patchPart parse ((Json.get patch key).bind read) = .ok part)
    (hread : ∀ value a b, read value = some a → parse a = .ok b → (tells value b ↔ good value))
    (hunread : ∀ value, read value = none → ¬ tells value before ∧ ¬ good value) :
    Said tells (Json.get patch key) before (part.getD before) ↔
      ∀ value, Json.get patch key = some value → good value := by
  cases hget : Json.get patch key with
  | none =>
    rw [hget] at hpart
    cases hpart
    exact iff_of_true rfl nofun
  | some value =>
    rw [hget, Option.bind_some] at hpart
    simp only [Said, Option.some.injEq, forall_eq']
    rcases patchPart_ok_iff.mp hpart with ⟨hnone, rfl⟩ | ⟨a, b, hsome, hparse, rfl⟩
    · exact iff_of_false (hunread value hnone).1 (hunread value hnone).2
    · exact hread value a b hsome hparse

theorem not_object_of_asObject {value : Json} (h : value.asObject = none)
    (fields : List (String × Json)) : value ≠ .object fields := by
  rintro rfl
  cases h

theorem eq_object_of_asObject {value : Json} {fields : List (String × Json)}
    (h : value.asObject = some fields) : value = .object fields := by
  cases value with
  | object held => rw [show held = fields from Option.some.inj h]
  | null | bool | int | float | array | str => cases h

theorem eq_str_of_asStr {value : Json} {raw : String} (h : value.asStr = some raw) :
    value = .str raw := by
  have hvalue : some value = some (.str raw) := bind_asStr_eq_some.mp h
  exact Option.some.inj hvalue

theorem SaysPolicy.typed {value : Json} {policy : MisfirePolicy} :
    SaysPolicy value policy → TypedPolicy value
  | .fireOnceOnRecovery => ⟨_, rfl⟩
  | .skipMissed => ⟨_, rfl⟩

theorem said_targetRef {part : Option (Option Json)} {target : Option (Option SlackTargetRef)}
    {before : Option Json} (hpart : part = (Json.get patch "targetRef").map some)
    (hread : patchPart (parseSlackTargetRef · "patch.targetRef") (Json.get patch "targetRef") =
      .ok target) :
    Said (fun value targetRef => targetRef = Json.optionalValue (some value))
      (Json.get patch "targetRef") before (part.getD before) := by
  rw [hpart]
  cases hget : Json.get patch "targetRef" with
  | none => rfl
  | some value =>
    rw [hget] at hread
    rcases patchPart_ok_iff.mp hread with ⟨hnone, -⟩ | ⟨_, target, ⟨⟩, hread, -⟩
    · cases hnone
    · have hnull := ne_null_of_parsed hread
      cases value with
      | null => exact absurd rfl hnull
      | bool | str | int | float | array | object => rfl

/-- The stored job is what the patch says exactly when no value is of another type. -/
theorem patchApplied_iff (hparse : parseJobPatch patch = .ok parsed)
    (hupdate : updateJob zones jobId parsed now job = .ok job') :
    PatchApplied patch job job' ↔ WellTyped patch := by
  obtain ⟨hschedule, haction, htarget, ⟨target, hread⟩, hpolicy, hoverlap⟩ :=
    parseJobPatch_ok hparse
  obtain ⟨-, -, stored, next, hstored, rfl⟩ := updateJob_spec hupdate
  have hnew : stored = parsed.schedule.getD job.schedule := by
    rcases hstored with ⟨hnone, hkept, -⟩ | ⟨hsome, -⟩
    · rw [hnone, hkept]
      rfl
    · rw [hsome]
      rfl
  subst hnew
  have hsaysSchedule : Said TellsSchedule (Json.get patch "schedule") job.schedule
      (parsed.schedule.getD job.schedule) ↔
      ∀ value, Json.get patch "schedule" = some value → TypedSchedule value := by
    refine said_part_iff hschedule (fun value fields schedule hvalue hread => ?_)
      fun value hvalue => ?_
    · rw [eq_object_of_asObject hvalue]
      simp [TellsSchedule, TypedSchedule, saysSchedule_iff hread]
    · simp [TellsSchedule, TypedSchedule, not_object_of_asObject hvalue]
  have hsaysAction : Said TellsAction (Json.get patch "targetAction") job.targetAction
      (parsed.targetAction.getD job.targetAction) ↔
      ∀ value, Json.get patch "targetAction" = some value → TypedAction value := by
    refine said_part_iff haction (fun value fields action hvalue hread => ?_) fun value hvalue => ?_
    · rw [eq_object_of_asObject hvalue]
      simp [TellsAction, TypedAction, saysAction_iff hread]
    · simp [TellsAction, TypedAction, not_object_of_asObject hvalue]
  have hsaysPolicy : Said SaysPolicy (Json.get patch "misfirePolicy") job.misfirePolicy
      (parsed.misfirePolicy.getD job.misfirePolicy) ↔
      ∀ value, Json.get patch "misfirePolicy" = some value → TypedPolicy value := by
    refine said_part_iff hpolicy (fun value raw policy hvalue hread => ?_) fun value hvalue => ?_
    · have hsays := parseMisfirePolicyArg_ok_iff.mp hread
      rw [eq_str_of_asStr hvalue]
      exact iff_of_true hsays hsays.typed
    · have hno : ¬ TypedPolicy value := by
        rintro ⟨raw, rfl⟩
        cases hvalue
      exact ⟨fun hsays => hno hsays.typed, hno⟩
  have hsaysOverlap : Said (fun value allowOverlap => value = .bool allowOverlap)
      (Json.get patch "allowOverlap") job.allowOverlap
        (parsed.allowOverlap.getD job.allowOverlap) ↔
      ∀ value, Json.get patch "allowOverlap" = some value → TypedOverlap value := by
    rw [hoverlap]
    cases hget : Json.get patch "allowOverlap" with
    | none => exact iff_of_true rfl nofun
    | some value =>
      cases value with
      | bool b => simp [Said, asBool, TypedOverlap]
      | null | str | int | float | array | object => simp [Said, TypedOverlap]
  have hsaysTarget := @said_targetRef patch _ _ job.targetRef htarget hread
  constructor
  · intro h
    exact ⟨hsaysSchedule.mp h.schedule, hsaysAction.mp h.targetAction,
      hsaysPolicy.mp h.misfirePolicy, hsaysOverlap.mp h.allowOverlap⟩
  · intro h
    exact ⟨hsaysSchedule.mpr h.schedule, hsaysAction.mpr h.targetAction, hsaysTarget,
      hsaysPolicy.mpr h.misfirePolicy, hsaysOverlap.mpr h.allowOverlap, rfl, rfl, rfl, rfl, rfl,
      rfl, rfl⟩

end Patched

/-! ## Faithful patches -/

section Faithful

variable {P : Type} {store : JobStore P}

theorem load_eq_ok_iff {files : JobFiles store} {jobId : String} {job : ScheduledJob} :
    files.load jobId = .ok job ↔ files.file (store.jobFile jobId) = some (.job job) := by
  unfold JobFiles.load
  cases files.file (store.jobFile jobId) with
  | none => simp
  | some held =>
    cases held with
    | job held => simp
    | torn complaint => simp

variable [DecidableEq P]

theorem JobFiles.put_self (files : JobFiles store) (job : ScheduledJob) :
    (files.put job).file (store.jobFile job.jobId) = some (.job job) :=
  Function.update_self _ _ _

/-- A call that gets to its write has read the patch and the job, and changed the job. -/
theorem applyPatch_cases (zones : TimeZones) (files : JobFiles store) (write : JobWrite)
    (jobId : String) (patch : List (String × Json)) (now : Int) :
    ((∃ reason, files.applyPatch zones write jobId patch now = (.error reason, files)) ∧
        ∀ job, files.file (store.jobFile jobId) = some (.job job) →
          ¬ Acceptable zones now patch job) ∨
      ∃ job job' parsed, files.file (store.jobFile jobId) = some (.job job) ∧
        parseJobPatch patch = .ok parsed ∧ updateJob zones jobId parsed now job = .ok job' ∧
          files.applyPatch zones write jobId patch now = files.persist job' write := by
  unfold JobFiles.applyPatch
  cases hparse : parseJobPatch patch with
  | error reason =>
    refine .inl ⟨⟨reason, rfl⟩, fun job _ hacceptable => ?_⟩
    obtain ⟨parsed, hparsed⟩ := hacceptable.exists_parsed
    rw [hparse] at hparsed
    cases hparsed
  | ok parsed =>
    dsimp only
    unfold JobFiles.update
    cases hload : files.load jobId with
    | error reason =>
      refine .inl ⟨⟨reason, rfl⟩, fun job hjob _ => ?_⟩
      rw [load_eq_ok_iff.mpr hjob] at hload
      cases hload
    | ok job =>
      have hjob := load_eq_ok_iff.mp hload
      cases hupdate : updateJob zones jobId parsed now job with
      | error reason =>
        refine .inl ⟨⟨reason, by simp only [hupdate]⟩, fun other hother hacceptable => ?_⟩
        cases hjob.symm.trans hother
        obtain ⟨job', hjob'⟩ := @Acceptable.exists_updated _ _ jobId _ _ _ hacceptable hparse
        rw [hupdate] at hjob'
        cases hjob'
      | ok job' =>
        exact .inr ⟨job, job', parsed, hjob, rfl, hupdate, by simp only [hupdate]⟩

/-- A patch is applied faithfully exactly when, if it comes to the write, its keys have
values of their types and the write is not broken off. -/
theorem applyPatch_faithful_iff (zones : TimeZones) (files : JobFiles store) (write : JobWrite)
    (jobId : String) (patch : List (String × Json)) (now : Int) :
    FaithfullyApplied files (files.applyPatch zones write jobId patch now).2 jobId patch
        (files.applyPatch zones write jobId patch now).1 ↔
      ∀ job, files.file (store.jobFile jobId) = some (.job job) → Acceptable zones now patch job →
        match write with
        | .written => WellTyped patch
        | .refused _ => True
        | .brokenOff _ _ => False := by
  rcases applyPatch_cases zones files write jobId patch now with
    ⟨⟨reason, hcall⟩, hnot⟩ | ⟨job, job', parsed, hjob, hparse, hupdate, hcall⟩
  · rw [hcall]
    exact iff_of_true (.inl ⟨reason, rfl, rfl⟩) fun job hjob hacceptable =>
      absurd hacceptable (hnot job hjob)
  · rw [hcall]
    have hacceptable := acceptable_of_ok hparse hupdate
    have hplace : store.jobFile job'.jobId = store.jobFile jobId := by
      rw [(updateJob_ok hupdate).2.1]
      exact files.own hjob
    have hcondition : ∀ Q : Prop, (∀ held, files.file (store.jobFile jobId) = some (.job held) →
        Acceptable zones now patch held → Q) ↔ Q := by
      intro Q
      exact ⟨fun h => h job hjob hacceptable, fun h _ _ _ => h⟩
    rw [hcondition]
    cases write with
    | refused reason => exact iff_of_true (.inl ⟨reason, rfl, rfl⟩) trivial
    | brokenOff reason complaint =>
      refine iff_of_false ?_ not_false
      rintro (⟨_, -, hsame⟩ | ⟨_, _, -, hresult, -⟩)
      · have hfile := congrFun hsame (store.jobFile jobId)
        rw [hjob] at hfile
        simp [JobFiles.persist, JobFiles.tear, hplace] at hfile
      · cases hresult
    | written =>
      rw [← patchApplied_iff hparse hupdate]
      constructor
      · rintro (⟨_, hresult, -⟩ | ⟨held, held', hheld, hresult, -, -, happlied⟩)
        · cases hresult
        · cases hjob.symm.trans hheld
          cases hresult
          exact happlied
      · intro happlied
        refine .inr ⟨job, job', hjob, rfl, ?_, fun p hp => ?_, happlied⟩
        · rw [← hplace]
          exact files.put_self job'
        · exact Function.update_of_ne (hplace ▸ hp) _ _

def engineeringStore : JobStore String where
  runtimeRoot := "/srv/engineering"
  place := id

def reportJob : ScheduledJob where
  jobId := "job-engineering-7"
  orchestratorId := "engineering"
  schedule := .once 100
  targetAction := .workflowStart "report" []
  state := .enabled
  misfirePolicy := .skipMissed
  nextRunAt := some 100
  allowOverlap := false
  createdAt := 0
  updatedAt := 0

def reportFiles : JobFiles engineeringStore :=
  JobFiles.put { file := fun _ => none, own := nofun } reportJob

/-- A text for `allowOverlap` is passed over, and the update is reported done. -/
theorem allowOverlap_text_ignored :
    ¬ ∀ (zones : TimeZones) (files : JobFiles engineeringStore) (jobId : String)
      (patch : List (String × Json)) (now : Int),
      FaithfullyApplied files (files.applyPatch zones .written jobId patch now).2 jobId patch
        (files.applyPatch zones .written jobId patch now).1 := by
  intro h
  have hjob : reportFiles.file (engineeringStore.jobFile "job-engineering-7") =
      some (.job reportJob) := JobFiles.put_self _ reportJob
  have hload : reportFiles.load "job-engineering-7" = .ok reportJob := load_eq_ok_iff.mpr hjob
  have hcall : reportFiles.applyPatch utc .written "job-engineering-7"
      [("allowOverlap", .str "true")] 50 =
        reportFiles.persist { reportJob with updatedAt := 50 } .written := by
    show JobFiles.update utc reportFiles .written "job-engineering-7" {} 50 = _
    unfold JobFiles.update
    rw [hload]
    rfl
  have hfaithful := h utc reportFiles "job-engineering-7" [("allowOverlap", .str "true")] 50
  rw [hcall] at hfaithful
  rcases hfaithful with ⟨_, hresult, -⟩ | ⟨_, _, -, -, -, -, happlied⟩
  · cases hresult
  · have hsaid : Json.str "true" = .bool _ := happlied.allowOverlap
    cases hsaid

end Faithful

end Direclaw.Automation
