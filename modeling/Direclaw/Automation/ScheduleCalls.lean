import Direclaw.Automation.CallPrograms

/-!
# Schedule functions

The functions of `schedule.*` that a selector can invoke: the arguments as
`app/command_dispatch.rs` and `app/schedule_parsing.rs` read them, and what each call reads
and writes. A job file is found by a path; where a path leads is up to the file system.
-/

namespace Direclaw.Automation

open Direclaw.Lib Direclaw.Orchestration

/-! ## Arguments -/

/-- `ok_or_else`. -/
def okOr {α : Type} (reason : String) : Option α → Except String α
  | some value => .ok value
  | none => .error reason

def asI64 : Json → Option Int
  | .int n => if -9223372036854775808 ≤ n ∧ n ≤ 9223372036854775807 then some n else none
  | _ => none

def asU64 : Json → Option ℕ
  | .int n => if 0 ≤ n ∧ n ≤ 18446744073709551615 then some n.toNat else none
  | _ => none

def asBool : Json → Option Bool
  | .bool b => some b
  | _ => none

def stringArg (arg value : String) : Except String String :=
  if Text.isBlank value.toList then .error s!"missing required function argument `{arg}`"
  else .ok value

def requiredStringArg (args : List (String × Json)) (arg : String) : Except String String :=
  match Json.get args arg with
  | some (.str value) => stringArg arg value
  | some _ => .error s!"argument `{arg}` must be a string"
  | none => .error s!"missing required function argument `{arg}`"

def optionalStringArg (args : List (String × Json)) (arg : String) :
    Except String (Option String) :=
  match Json.get args arg with
  | some (.str value) => (stringArg arg value).map some
  | some _ => .error s!"argument `{arg}` must be a string"
  | none => .ok none

def optionalBoolArg (args : List (String × Json)) (arg : String) : Except String (Option Bool) :=
  match Json.get args arg with
  | some (.bool value) => .ok (some value)
  | some _ => .error s!"argument `{arg}` must be a boolean"
  | none => .ok none

def optionalObjectArg (args : List (String × Json)) (arg : String) :
    Option (List (String × Json)) :=
  (Json.get args arg).bind Json.asObject

def requiredObjectArg (args : List (String × Json)) (arg : String) :
    Except String (List (String × Json)) :=
  okOr s!"argument `{arg}` must be an object" (optionalObjectArg args arg)

def parseScheduleConfig (scheduleType : String) (schedule : List (String × Json)) :
    Except String ScheduleConfig :=
  match scheduleType with
  | "once" => do
      let runAt ← okOr "schedule.once requires integer `runAt`"
        ((Json.get schedule "runAt").bind asI64)
      return .once runAt
  | "interval" => do
      let everySeconds ← okOr "schedule.interval requires integer `everySeconds`"
        ((Json.get schedule "everySeconds").bind asU64)
      return .interval everySeconds ((Json.get schedule "anchorAt").bind asI64)
  | "cron" => do
      let expression ← okOr "schedule.cron requires string `expression`"
        ((Json.get schedule "expression").bind Json.asStr)
      let timezone ← okOr "schedule.cron requires string `timezone`"
        ((Json.get schedule "timezone").bind Json.asStr)
      return .cron expression timezone
  | other => .error s!"scheduleType must be one of: once, interval, cron (got `{other}`)"

def parseTargetActionConfig (action : List (String × Json)) : Except String TargetAction := do
  let actionType ← okOr "targetAction.type is required" ((Json.get action "type").bind Json.asStr)
  match actionType with
  | "workflow_start" =>
    let workflowId ← okOr "targetAction.workflow_start requires `workflowId`"
      ((Json.get action "workflowId").bind Json.asStr)
    return .workflowStart workflowId ((optionalObjectArg action "inputs").getD [])
  | "command_invoke" =>
    let functionId ← okOr "targetAction.command_invoke requires `functionId`"
      ((Json.get action "functionId").bind Json.asStr)
    return .commandInvoke functionId ((optionalObjectArg action "functionArgs").getD [])
  | other =>
    throw s!"targetAction.type must be workflow_start|command_invoke (got `{other}`)"

def parseMisfirePolicyArg : Option String → Except String MisfirePolicy
  | none | some "fire_once_on_recovery" => .ok .fireOnceOnRecovery
  | some "skip_missed" => .ok .skipMissed
  | some other =>
    .error s!"misfirePolicy must be fire_once_on_recovery|skip_missed (got `{other}`)"

/-- A part of a patch that may be absent. -/
def patchPart {α β : Type} (parse : α → Except String β) : Option α → Except String (Option β)
  | none => .ok none
  | some value => (parse value).map some

def parseSchedulePatch (schedule : List (String × Json)) : Except String ScheduleConfig := do
  let scheduleType ← okOr "patch.schedule.type is required"
    ((Json.get schedule "type").bind Json.asStr)
  parseScheduleConfig scheduleType schedule

def parseJobPatch (patch : List (String × Json)) : Except String JobPatch := do
  let schedule ← patchPart parseSchedulePatch (optionalObjectArg patch "schedule")
  let targetAction ← patchPart parseTargetActionConfig (optionalObjectArg patch "targetAction")
  let targetRef := (Json.get patch "targetRef").map some
  let _ ← patchPart (parseSlackTargetRef · "patch.targetRef") (Json.get patch "targetRef")
  let misfirePolicy ← patchPart (fun raw => parseMisfirePolicyArg (some raw))
    ((Json.get patch "misfirePolicy").bind Json.asStr)
  let allowOverlap := (Json.get patch "allowOverlap").bind asBool
  return { schedule, targetAction, targetRef, misfirePolicy, allowOverlap }

/-! ## Functions -/

/-- `InternalFunction`, for the functions of `schedule.*`. -/
inductive ScheduleFunction : Type where
  | scheduleCreate (input : NewJob)
  | scheduleList (orchestratorId : String)
  | scheduleShow (jobId : String)
  | scheduleUpdate (jobId : String) (patch : JobPatch)
  | schedulePause (jobId : String)
  | scheduleResume (jobId : String)
  | scheduleDelete (jobId : String)
  | scheduleRunNow (jobId : String)

def planScheduleCreate (args : List (String × Json)) : Except String ScheduleFunction := do
  let orchestratorId ← requiredStringArg args "orchestratorId"
  let scheduleType ← requiredStringArg args "scheduleType"
  let scheduleObj ← requiredObjectArg args "schedule"
  let targetActionObj ← requiredObjectArg args "targetAction"
  let schedule ← parseScheduleConfig scheduleType scheduleObj
  let targetAction ← parseTargetActionConfig targetActionObj
  let targetRef := (optionalObjectArg args "targetRef").map Json.object
  let misfirePolicy ← parseMisfirePolicyArg (← optionalStringArg args "misfirePolicy")
  let allowOverlap := (← optionalBoolArg args "allowOverlap").getD false
  let createdBy := (optionalObjectArg args "createdBy").getD []
  return .scheduleCreate
    { orchestratorId, createdBy, schedule, targetAction, targetRef, misfirePolicy, allowOverlap }

/-- `plan_function_invocation`, for the functions of `schedule.*`. -/
def planScheduleFunction (functionId : String) (args : List (String × Json)) :
    Except String ScheduleFunction :=
  match functionId with
  | "schedule.create" => planScheduleCreate args
  | "schedule.list" => (requiredStringArg args "orchestratorId").map .scheduleList
  | "schedule.show" => (requiredStringArg args "jobId").map .scheduleShow
  | "schedule.update" => do
      let jobId ← requiredStringArg args "jobId"
      let patch ← parseJobPatch (← requiredObjectArg args "patch")
      return .scheduleUpdate jobId patch
  | "schedule.pause" => (requiredStringArg args "jobId").map .schedulePause
  | "schedule.resume" => (requiredStringArg args "jobId").map .scheduleResume
  | "schedule.delete" => (requiredStringArg args "jobId").map .scheduleDelete
  | "schedule.run_now" => (requiredStringArg args "jobId").map .scheduleRunNow
  | _ => .error s!"unknown function id `{functionId}`"

def normalizeSlackTargetRefValue (targetRef : Option Json) (fieldPath : String) :
    Except String (Option Json × Option SlackTargetRef) :=
  match targetRef with
  | none => .ok (none, none)
  | some value =>
    (parseSlackTargetRef value fieldPath).map fun parsed =>
      match parsed with
      | some target => (some (slackTargetRefToValue target), some target)
      | none => (some value, none)

/-- `normalize_patch_slack_target_ref`, with the patch it leaves. -/
def normalizePatchSlackTargetRef (patch : JobPatch) (fieldPath : String) :
    Except String (JobPatch × Option SlackTargetRef) :=
  match patch.targetRef with
  | none | some none => .ok (patch, none)
  | some (some value) =>
    (parseSlackTargetRef value fieldPath).map fun parsed =>
      match parsed with
      | some target =>
        ({ patch with targetRef := some (some (slackTargetRefToValue target)) }, some target)
      | none => (patch, none)

/-! ## Job files -/

/-- The file system around the calls, and the printer and reader of job files. Directories
stay as they are during a call, so that a path leads to one place of `P`. -/
structure JobSystem (P : Type) where
  zones : TimeZones
  place : String → P
  /-- The tree below a directory. -/
  below : String → P → Prop
  /-- The name of a place in a directory. -/
  nameIn : String → P → Option String
  order : DirectoryOrder String
  writeError : P → Option String
  encode : ScheduledJob → String
  decode : String → Except String ScheduledJob
  toValue : ScheduledJob → Except String Json

abbrev FileTexts (P : Type) := List (P × String)

def jobsDir (runtimeRoot : String) : String := joinPath runtimeRoot "automation/jobs"

/-- `Path::extension` of a file name is `json`. -/
def hasJsonExtension (name : String) : Bool :=
  Text.extension name.toList == some "json".toList

section Store

variable {P : Type} [DecidableEq P] (sys : JobSystem P)

def readJob (files : FileTexts P) (path : String) : Except String ScheduledJob :=
  match files.lookup (sys.place path) with
  | none => .error s!"failed to read {path}: No such file or directory (os error 2)"
  | some body => (sys.decode body).mapError fun err => s!"failed to parse {path}: {err}"

/-- `JobStore::load`. -/
def loadJob (files : FileTexts P) (runtimeRoot jobId : String) : Except String ScheduledJob :=
  readJob sys files (SchedulerFiles.jobPath runtimeRoot jobId)

def namesIn (files : FileTexts P) (dir : String) : Finset String :=
  (files.filterMap fun file => sys.nameIn dir file.1).toFinset

/-- `JobStore::list_all`. -/
def listAllJobs (files : FileTexts P) (runtimeRoot : String) :
    Except String (List ScheduledJob) := do
  let dir := jobsDir runtimeRoot
  let names := (sys.order.list (namesIn sys files dir)).filter hasJsonExtension
  let jobs ← names.mapM fun name => readJob sys files (joinPath dir name)
  return jobs.insertionSort fun a b => a.jobId ≤ b.jobId

def listForOrchestrator (files : FileTexts P) (runtimeRoot orchestratorId : String) :
    Except String (List ScheduledJob) := do
  let jobs ← listAllJobs sys files runtimeRoot
  return jobs.filter (·.orchestratorId == orchestratorId)

end Store

/-! ## Calls -/

structure FunctionExecutionContext where
  settings : Option Settings
  orchestratorId : Option String

/-- A line of the log of a runtime root. -/
structure SchedulerAuditEvent where
  runtimeRoot : String
  event : String
  jobId : String
  timestamp : Int
deriving DecidableEq, Repr

/-- What a call returns, and what it writes to files and logs. -/
structure CallOutcome (P : Type) where
  value : Except OrchestratorError Json
  writes : FileTexts P := []
  audits : List SchedulerAuditEvent := []

section Calls

variable {P : Type} [DecidableEq P] (sys : JobSystem P) (context : FunctionExecutionContext)
  (now : Int) (nanos : ℕ) (files : FileTexts P)

def runtimeRootOf (settings : Settings) (orchestratorId : String) : Except String String :=
  (settings.resolveOrchestratorRuntimeRoot orchestratorId).mapError ConfigError.display

def withSettings (function : String) : Except String Settings :=
  okOr s!"{function} requires settings context" context.settings

/-- The first orchestrator that has the job. -/
def findJobStore (settings : Settings) (jobId : String) : List String → Except String String
  | [] => .error s!"unknown scheduler job `{jobId}`"
  | orchestratorId :: rest => do
      let runtimeRoot ← runtimeRootOf settings orchestratorId
      if (loadJob sys files runtimeRoot jobId).toBool then return orchestratorId
      findJobStore settings jobId rest

/-- The orchestrator in whose store the job is looked for. -/
def jobStoreForJobId (settings : Settings) (jobId : String) (orchestratorScope : Option String) :
    Except String String :=
  match orchestratorScope with
  | some orchestratorId => findJobStore sys files settings jobId [orchestratorId]
  | none => findJobStore sys files settings jobId (settings.orchestrators.map (·.1))

def failed (reason : String) : CallOutcome P := { value := .error (.selectorValidation reason) }

def jobToValue (job : ScheduledJob) : Except OrchestratorError Json :=
  (sys.toValue job).mapError .selectorJson

def auditEvent (runtimeRoot event : String) (job : ScheduledJob) : SchedulerAuditEvent :=
  { runtimeRoot, event, jobId := job.jobId, timestamp := now }

/-- `persist_job`, and what follows it in a call. -/
def persisted (event runtimeRoot : String) (job : ScheduledJob) : CallOutcome P :=
  let path := SchedulerFiles.jobPath runtimeRoot job.jobId
  match sys.writeError (sys.place path) with
  | some err => failed s!"failed to write {path}: {err}"
  | none =>
    { value := jobToValue sys job
      writes := [(sys.place path, sys.encode job)]
      audits := [auditEvent now runtimeRoot event job] }

/-- The runtime root and the job that is written there. -/
def preparedCreate (input : NewJob) : Except String (String × ScheduledJob) := do
  let settings ← withSettings context "schedule.create"
  let (targetRef, slackTargetRef) ← normalizeSlackTargetRefValue input.targetRef "targetRef"
  validateProfileMapping settings input.orchestratorId slackTargetRef
  let runtimeRoot ← runtimeRootOf settings input.orchestratorId
  let created ← newJob sys.zones { input with targetRef } now nanos
  return (runtimeRoot, created)

/-- What a call makes of the patch before the job is changed. -/
def normalizedEdit (settings : Settings) (orchestratorId : String) : JobEdit →
    Except String JobEdit
  | .update patch => do
      let (patch, slackTargetRef) ← normalizePatchSlackTargetRef patch "patch.targetRef"
      validateProfileMapping settings orchestratorId slackTargetRef
      return .update patch
  | change => .ok change

def preparedEdit (function jobId : String) (change : JobEdit) :
    Except String (String × ScheduledJob) := do
  let settings ← withSettings context function
  let orchestratorId ← jobStoreForJobId sys files settings jobId context.orchestratorId
  let change ← normalizedEdit settings orchestratorId change
  let runtimeRoot ← runtimeRootOf settings orchestratorId
  let job ← loadJob sys files runtimeRoot jobId
  let job ← change.apply sys.zones jobId now job
  return (runtimeRoot, job)

/-- The functions that load a job and write it back. -/
def executeEdit (function event jobId : String) (change : JobEdit) : CallOutcome P :=
  match preparedEdit sys context now files function jobId change with
  | .error reason => failed reason
  | .ok (runtimeRoot, job) => persisted sys now event runtimeRoot job

def preparedShow (jobId : String) : Except String (String × ScheduledJob) := do
  let settings ← withSettings context "schedule.show"
  let orchestratorId ← jobStoreForJobId sys files settings jobId context.orchestratorId
  let runtimeRoot ← runtimeRootOf settings orchestratorId
  let job ← loadJob sys files runtimeRoot jobId
  return (runtimeRoot, job)

def preparedList (orchestratorId : String) : Except String (List ScheduledJob) := do
  let settings ← withSettings context "schedule.list"
  let runtimeRoot ← runtimeRootOf settings orchestratorId
  listForOrchestrator sys files runtimeRoot orchestratorId

/-- `execute_internal_function`. -/
def executeScheduleFunction : ScheduleFunction → CallOutcome P
  | .scheduleCreate input =>
    match preparedCreate sys context now nanos input with
    | .error reason => failed reason
    | .ok (runtimeRoot, created) => persisted sys now "scheduler.job.created" runtimeRoot created
  | .scheduleList orchestratorId =>
    match preparedList sys context files orchestratorId with
    | .error reason => failed reason
    | .ok jobs =>
      { value := do
          let values ← jobs.mapM (jobToValue sys)
          return .object [("jobs", .array values), ("orchestratorId", .str orchestratorId)] }
  | .scheduleShow jobId =>
    match preparedShow sys context files jobId with
    | .error reason => failed reason
    | .ok (runtimeRoot, job) =>
      { value := jobToValue sys job
        audits := [auditEvent now runtimeRoot "scheduler.job.shown" job] }
  | .scheduleUpdate jobId patch =>
    executeEdit sys context now files "schedule.update" "scheduler.job.updated" jobId (.update patch)
  | .schedulePause jobId =>
    executeEdit sys context now files "schedule.pause" "scheduler.job.paused" jobId .pause
  | .scheduleResume jobId =>
    executeEdit sys context now files "schedule.resume" "scheduler.job.resumed" jobId .resume
  | .scheduleDelete jobId =>
    executeEdit sys context now files "schedule.delete" "scheduler.job.deleted" jobId .delete
  | .scheduleRunNow jobId =>
    executeEdit sys context now files "schedule.run_now" "scheduler.job.run_now" jobId .runNow

/-- `execute_function_invocation_with_executor`, for the functions of `schedule.*`. -/
def executeScheduleInvocation (functionId : String) (args : List (String × Json)) :
    CallOutcome P :=
  match planScheduleFunction functionId args with
  | .error reason => failed reason
  | .ok function => executeScheduleFunction sys context now nanos files function

end Calls

end Direclaw.Automation
