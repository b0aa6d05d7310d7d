import Direclaw.App.CommandDispatch
import Direclaw.Orchestration.RunStore

/-!
# Two ways to a workflow run

`workflow status`, `workflow progress` and `workflow cancel` look for the run in the runtime
root of every orchestrator. The functions of the catalog that are given on the command line
(`workflow.status <run id>` and so on) are carried out on the store of the state root. Either
way ends at the files of a run: its record and its snapshot.
-/

namespace Direclaw.App

open Direclaw.Lib Direclaw.Orchestration Direclaw.Automation

/-! ## Files of runs -/

def runsDir (stateRoot : String) : String := joinPath stateRoot "workflows/runs"

def runMetadataPath (stateRoot runId : String) : String :=
  joinPath (runsDir stateRoot) s!"{runId}.json"

def progressPath (stateRoot runId : String) : String :=
  joinPath (joinPath (runsDir stateRoot) runId) "progress.json"

def attemptPath (stateRoot : String) (attempt : StepAttemptRecord) : String :=
  joinPath (joinPath (runsDir stateRoot) attempt.runId)
    s!"steps/{attempt.stepId}/attempts/{attempt.attempt}/result.json"

/-- What stands at a location. -/
inductive DiskEntry (Bytes : Type) : Type where
  | missing
  | file (bytes : Bytes)
  /-- It cannot be read, and is a regular file or not. -/
  | denied (regular : Bool) (message : String)

/-- The file system under the runs: where a path leads to, and what `serde_json` makes of the
files there. -/
structure RunSite (Loc Bytes : Type) where
  locate : String → Loc
  encodeRun : WorkflowRunRecord → Bytes
  decodeRun : Bytes → Except String WorkflowRunRecord
  encodeProgress : ProgressSnapshot → Bytes
  decodeProgress : Bytes → Except String ProgressSnapshot
  encodeAttempt : StepAttemptRecord → Bytes
  decodeRun_encodeRun : ∀ run, decodeRun (encodeRun run) = .ok run

structure RunDisk (Loc Bytes : Type) where
  entry : Loc → DiskEntry Bytes
  /-- Why nothing can be written to a location. -/
  locked : Loc → Option OrchestratorError

namespace RunDisk

variable {Loc Bytes : Type} [DecidableEq Loc] (disk : RunDisk Loc Bytes) {loc other : Loc}
  {bytes : Bytes}

def put (loc : Loc) (bytes : Bytes) : RunDisk Loc Bytes :=
  { disk with entry := Function.update disk.entry loc (.file bytes) }

@[simp] theorem put_locked : (disk.put loc bytes).locked = disk.locked := rfl

@[simp] theorem put_entry_self : (disk.put loc bytes).entry loc = .file bytes :=
  Function.update_self _ _ _

theorem put_entry_of_ne (h : loc ≠ other) : (disk.put other bytes).entry loc = disk.entry loc :=
  Function.update_of_ne h _ _

end RunDisk

section Store

variable {Loc Bytes : Type} [DecidableEq Loc] (site : RunSite Loc Bytes)
  (disk : RunDisk Loc Bytes)

def runRecordExists (runtimeRoot runId : String) : Bool :=
  match disk.entry (site.locate (runMetadataPath runtimeRoot runId)) with
  | .missing => false
  | .file _ => true
  | .denied regular _ => regular

/-- `fs::read_to_string`, then the decoder. -/
def loadFile {α : Type} (decode : Bytes → Except String α) (path : String) :
    Except OrchestratorError α :=
  match disk.entry (site.locate path) with
  | .missing => .error (.io path .notFound)
  | .denied _ message => .error (.io path (.other message))
  | .file bytes => (decode bytes).mapError (.json path)

def loadRun (stateRoot runId : String) : Except OrchestratorError WorkflowRunRecord :=
  loadFile site disk site.decodeRun (runMetadataPath stateRoot runId)

def loadProgress (stateRoot runId : String) : Except OrchestratorError ProgressSnapshot :=
  loadFile site disk site.decodeProgress (progressPath stateRoot runId)

def writeFile (path : String) (bytes : Bytes) :
    RunDisk Loc Bytes × Except OrchestratorError Unit :=
  match disk.locked (site.locate path) with
  | some err => (disk, .error err)
  | none => (disk.put (site.locate path) bytes, .ok ())

def persist (stateRoot : String) : StoreWrite → RunDisk Loc Bytes × Except OrchestratorError Unit
  | .run _ record => writeFile site disk (runMetadataPath stateRoot record.runId)
      (site.encodeRun record)
  | .progress snapshot => writeFile site disk (progressPath stateRoot snapshot.runId)
      (site.encodeProgress snapshot)
  | .result attempt => writeFile site disk (attemptPath stateRoot attempt)
      (site.encodeAttempt attempt)

/-- Writes in order, up to the first that fails. -/
def persistAll (stateRoot : String) (disk : RunDisk Loc Bytes) :
    List StoreWrite → RunDisk Loc Bytes × Except OrchestratorError Unit
  | [] => (disk, .ok ())
  | write :: writes =>
    match persist site disk stateRoot write with
    | (disk, .error err) => (disk, .error err)
    | (disk, .ok ()) => persistAll stateRoot disk writes

/-- What both commands do with the record they have loaded: a run that has ended is left as
it is. -/
def cancelLoaded (stateRoot : String) (run : WorkflowRunRecord) (now : Int) :
    RunDisk Loc Bytes × Except OrchestratorError RunState :=
  if run.state.isTerminal then (disk, .ok run.state)
  else
    match transitionState run .canceled now "canceled by command" false "none" with
    | .error err => (disk, .error err)
    | .ok (run, writes) =>
      let (disk, result) := persistAll site stateRoot disk writes
      (disk, result.map fun _ => run.state)

end Store

/-! ## The commands -/

inductive RunCommand : Type where
  | status
  | progress
  | cancel
deriving DecidableEq, Repr

/-- What a command prints or returns. -/
inductive RunReport : Type where
  | status (progress : ProgressSnapshot) (inputCount : ℕ) (inputKeys : List String)
  | progress (progress : ProgressSnapshot)
  | canceled (runId : String) (state : RunState)

def RunReport.state : RunReport → RunState
  | .status snapshot _ _ => snapshot.state
  | .progress snapshot => snapshot.state
  | .canceled _ state => state

structure RouteOutcome (Loc Bytes : Type) where
  /-- The files that the command is about, the record and the snapshot. -/
  address : Option (Loc × Loc) := none
  disk : RunDisk Loc Bytes
  result : Except String RunReport

section Commands

variable {Loc Bytes : Type} [DecidableEq Loc] (site : RunSite Loc Bytes)
  (disk : RunDisk Loc Bytes)

def runFiles (stateRoot runId : String) : Loc × Loc :=
  (site.locate (runMetadataPath stateRoot runId), site.locate (progressPath stateRoot runId))

/-- The loop of `run_store_for_run_id` over the orchestrators: the root of the store. -/
def runStoreForRunId (settings : Settings) (runId : String) : List String → Except String String
  | [] => .error s!"unknown workflow run `{runId}`"
  | orchestratorId :: rest =>
    match runtimeRootOf settings orchestratorId with
    | .error err => .error err
    | .ok runtimeRoot =>
      if runRecordExists site disk runtimeRoot runId then .ok runtimeRoot
      else runStoreForRunId settings runId rest

/-- `cmd_workflow status`. -/
def cmdWorkflowStatus (stateRoot runId : String) : Except OrchestratorError RunReport := do
  let run ← loadRun site disk stateRoot runId
  let progress ← loadProgress site disk stateRoot runId
  return .status progress run.inputs.length (sortedInputKeys run.inputs)

/-- `cmd_workflow progress`. -/
def cmdWorkflowProgress (stateRoot runId : String) : Except OrchestratorError RunReport :=
  (loadProgress site disk stateRoot runId).map .progress

/-- `cmd_workflow cancel`. -/
def cmdWorkflowCancel (now : Int) (stateRoot runId : String) :
    RunDisk Loc Bytes × Except OrchestratorError RunReport :=
  match loadRun site disk stateRoot runId with
  | .error err => (disk, .error err)
  | .ok run =>
    let (disk, result) := cancelLoaded site disk stateRoot run now
    (disk, result.map (.canceled run.runId))

/-- `cmd_workflow` with the arguments of a command on a run, the settings being loaded. -/
def nativeCommand (settings : Settings) (now : Int) (command : RunCommand) (runId : String) :
    RouteOutcome Loc Bytes :=
  match runStoreForRunId site disk settings runId (settings.orchestrators.map Prod.fst) with
  | .error err => { disk := disk, result := .error err }
  | .ok stateRoot =>
    let (disk, result) :=
      match command with
      | .status => (disk, cmdWorkflowStatus site disk stateRoot runId)
      | .progress => (disk, cmdWorkflowProgress site disk stateRoot runId)
      | .cancel => cmdWorkflowCancel site disk now stateRoot runId
    { address := some (runFiles site stateRoot runId)
      disk := disk
      result := result.mapError OrchestratorError.display }

/-! ## Functions of the catalog on the command line -/

def functionDef (functionId : String) : Option FunctionDef :=
  v1Functions.find? fun fn => fn.functionId == functionId

/-- `parse::<i64>()`: an optional sign, then at least one digit, in range. -/
def parseI64 (s : List Char) : Option Int :=
  let negative := s.head? == some '-'
  let digits := if negative then s.tail else (Text.stripPrefix ['+'] s).getD s
  if digits ≠ [] ∧ digits.all Char.isDigit then
    let magnitude : Int := Nat.ofDigitChars 10 digits 0
    let n := if negative then -magnitude else magnitude
    if i64Min ≤ n ∧ n ≤ i64Max then some n else none
  else none

def parseTypedCliValue (text : JsonText) (argType : FunctionArgType) (raw : String) :
    Except String Json :=
  match argType with
  | .string => .ok (.str raw)
  | .boolean =>
    if raw = "true" then .ok (.bool true)
    else if raw = "false" then .ok (.bool false)
    else .error "expected `true` or `false`"
  | .integer => okOr "expected signed integer" ((parseI64 raw.toList).map .int)
  | .object =>
    match text.fromStr raw with
    | some (.object fields) => .ok (.object fields)
    | _ => .error "expected JSON object"

/-- The loop over the declared arguments; a last argument that is a text takes all the words
that are left. -/
def readPositional (text : JsonText) (functionId : String) :
    List FunctionArgDef → List String → Except String (List (String × Json))
  | arg :: args, word :: words =>
    let joined := args.isEmpty && arg.argType == .string
    let raw := if joined then " ".intercalate (word :: words) else word
    match parseTypedCliValue text arg.argType raw with
    | .error err => .error s!"invalid argument `{arg.name}` for `{functionId}`: {err}"
    | .ok value =>
      (readPositional text functionId args words).map fun rest => (arg.name, value) :: rest
  | _, _ => .ok []

def parseCatalogFunctionArgs (text : JsonText) (fn : FunctionDef) (positional : List String) :
    Except String (List (String × Json)) :=
  let requiredCount := fn.args.countP (·.required)
  let allowsJoinedTail := fn.args.getLast?.map (·.argType) == some .string
  if positional.length < requiredCount then
    .error (s!"invalid arguments for `{fn.functionId}`: " ++
      s!"expected at least {requiredCount} positional argument(s)")
  else if fn.args.length < positional.length ∧ !allowsJoinedTail then
    .error (s!"invalid arguments for `{fn.functionId}`: " ++
      s!"expected at most {fn.args.length} positional argument(s)")
  else readPositional text fn.functionId fn.args positional

/-- `WorkflowStatus` and `WorkflowProgress` of `execute_internal_function`. -/
def internalProgress (runStore : Option String) (runId : String) : RouteOutcome Loc Bytes :=
  match runStore with
  | none =>
    { disk := disk
      result := .error (OrchestratorError.selectorValidation
        "workflow.status/progress requires workflow run store").display }
  | some stateRoot =>
    { address := some (runFiles site stateRoot runId)
      disk := disk
      result :=
        ((loadProgress site disk stateRoot runId).map .progress).mapError fun err =>
          (missingRunForIo runId err).display }

/-- `WorkflowCancel` of it. -/
def internalCancel (runStore : Option String) (runId : String) : RouteOutcome Loc Bytes :=
  match runStore with
  | none =>
    { disk := disk
      result := .error (OrchestratorError.selectorValidation
        "workflow.cancel requires workflow run store").display }
  | some stateRoot =>
    match loadRun site disk stateRoot runId with
    | .error err =>
      { address := some (runFiles site stateRoot runId)
        disk := disk
        result := .error (missingRunForIo runId err).display }
    | .ok run =>
      -- `updated_at.saturating_add(1)`
      let (disk, result) :=
        cancelLoaded site disk stateRoot run (min (run.updatedAt + 1) i64Max)
      { address := some (runFiles site stateRoot runId)
        disk := disk
        result := (result.map (.canceled runId)).mapError OrchestratorError.display }

/-- A plan that is not about a run is carried out by `others`. -/
def executePlan (others : FunctionExecutionPlan → RouteOutcome Loc Bytes)
    (runStore : Option String) : FunctionExecutionPlan → RouteOutcome Loc Bytes
  | .internal (.workflowStatus runId) => internalProgress site disk runStore runId
  | .internal (.workflowProgress runId) => internalProgress site disk runStore runId
  | .internal (.workflowCancel runId) => internalCancel site disk runStore runId
  | plan => others plan

/-- `try_execute_selector_cli_alias`; `none` where the first word is no function. -/
def tryExecuteSelectorCliAlias (text : JsonText)
    (others : FunctionExecutionPlan → RouteOutcome Loc Bytes) (runStore : Option String) :
    List String → Option (RouteOutcome Loc Bytes)
  | [] => none
  | head :: positional =>
    (functionDef head).map fun fn =>
      match parseCatalogFunctionArgs text fn positional with
      | .error err => { disk := disk, result := .error err }
      | .ok args =>
        match planFunctionInvocation text head args with
        | .error err =>
          { disk := disk
            result := .error (OrchestratorError.selectorValidation err).display }
        | .ok plan => executePlan site disk others runStore plan

end Commands

/-! ## The routes to one run -/

namespace RunCommand

def functionId : RunCommand → String
  | .status => "workflow.status"
  | .progress => "workflow.progress"
  | .cancel => "workflow.cancel"

def function (runId : String) : RunCommand → InternalFunction
  | .status => .workflowStatus runId
  | .progress => .workflowProgress runId
  | .cancel => .workflowCancel runId

end RunCommand

section Routes

variable {Loc Bytes : Type} {site : RunSite Loc Bytes}
  {disk : RunDisk Loc Bytes} {settings : Settings} {runId orchestratorId stateRoot : String}
  {run : WorkflowRunRecord}

/-- The record of the run is stored under the runtime root of one orchestrator. -/
structure StoredUnder (site : RunSite Loc Bytes) (disk : RunDisk Loc Bytes) (settings : Settings)
    (runId orchestratorId stateRoot : String) (run : WorkflowRunRecord) : Prop where
  configured : orchestratorId ∈ settings.orchestrators.map Prod.fst
  root : runtimeRootOf settings orchestratorId = .ok stateRoot
  record : loadRun site disk stateRoot runId = .ok run
  named : run.runId = runId
  /-- The record and the snapshot are two files. -/
  apart : (runFiles site stateRoot runId).1 ≠ (runFiles site stateRoot runId).2
  alone : ∀ other ∈ settings.orchestrators.map Prod.fst, other ≠ orchestratorId →
    ∀ otherRoot, runtimeRootOf settings other = .ok otherRoot →
      runRecordExists site disk otherRoot runId = false

def RunSite.runIn (site : RunSite Loc Bytes) : DiskEntry Bytes → Option WorkflowRunRecord
  | .file bytes => (site.decodeRun bytes).toOption
  | _ => none

/-- The same state of a run, whenever it was written. -/
def SameRun (run other : WorkflowRunRecord) : Prop :=
  other = { run with updatedAt := other.updatedAt }

/-- Two commands about the same files, which succeed or fail alike, report the same state and
leave the record in the same state. -/
structure Agree (site : RunSite Loc Bytes) (files : Loc × Loc)
    (native catalog : RouteOutcome Loc Bytes) : Prop where
  native_address : native.address = some files
  catalog_address : catalog.address = some files
  alike : (∃ report report', native.result = .ok report ∧ catalog.result = .ok report' ∧
      report.state = report'.state) ∨
    (∃ err, native.result = .error err) ∧ ∃ err, catalog.result = .error err
  persisted : ∃ run run', site.runIn (native.disk.entry files.1) = some run ∧
    site.runIn (catalog.disk.entry files.1) = some run' ∧ SameRun run run'

theorem SameRun.refl (run : WorkflowRunRecord) : SameRun run run := rfl

theorem entry_of_loadRun (h : loadRun site disk stateRoot runId = .ok run) :
    ∃ bytes, disk.entry (runFiles site stateRoot runId).1 = .file bytes ∧
      site.decodeRun bytes = .ok run := by
  unfold loadRun loadFile at h
  rw [runFiles]
  cases hentry : disk.entry (site.locate (runMetadataPath stateRoot runId)) with
  | missing =>
    rw [hentry] at h
    cases h
  | denied regular message =>
    rw [hentry] at h
    cases h
  | file bytes =>
    rw [hentry] at h
    exact ⟨bytes, rfl, mapError_eq_ok h⟩

theorem runIn_of_loadRun (h : loadRun site disk stateRoot runId = .ok run) :
    site.runIn (disk.entry (runFiles site stateRoot runId).1) = some run := by
  obtain ⟨bytes, hentry, hdecode⟩ := entry_of_loadRun h
  rw [hentry, RunSite.runIn, hdecode]
  rfl

theorem runRecordExists_of_loadRun (h : loadRun site disk stateRoot runId = .ok run) :
    runRecordExists site disk stateRoot runId = true := by
  obtain ⟨bytes, hentry, -⟩ := entry_of_loadRun h
  rw [runFiles] at hentry
  rw [runRecordExists, hentry]

theorem runIn_encodeRun (site : RunSite Loc Bytes) (run : WorkflowRunRecord) :
    site.runIn (.file (site.encodeRun run)) = some run := by
  rw [RunSite.runIn, site.decodeRun_encodeRun]
  rfl

theorem loadFile_congr {α : Type} (disk : RunDisk Loc Bytes) (decode : Bytes → Except String α)
    {path path' : String} (h : site.locate path = site.locate path') :
    (∃ value, loadFile site disk decode path = .ok value ∧
      loadFile site disk decode path' = .ok value) ∨
    (∃ err, loadFile site disk decode path = .error err) ∧
      ∃ err, loadFile site disk decode path' = .error err := by
  unfold loadFile
  rw [h]
  cases disk.entry (site.locate path') with
  | missing => exact .inr ⟨⟨_, rfl⟩, ⟨_, rfl⟩⟩
  | denied regular message => exact .inr ⟨⟨_, rfl⟩, ⟨_, rfl⟩⟩
  | file bytes =>
    cases hdecode : decode bytes with
    | error err =>
      simp only [hdecode]
      exact .inr ⟨⟨_, rfl⟩, ⟨_, rfl⟩⟩
    | ok value =>
      simp only [hdecode]
      exact .inl ⟨value, rfl, rfl⟩

/-! ### The store of a native command -/

/-- The orchestrators that are looked at before this one. -/
def earlierOrchestrators (settings : Settings) (orchestratorId : String) : List String :=
  (settings.orchestrators.map Prod.fst).takeWhile (· ≠ orchestratorId)

def Resolves (settings : Settings) (orchestratorId : String) : Prop :=
  ∃ root, runtimeRootOf settings orchestratorId = .ok root

section Lookup

variable (h : StoredUnder site disk settings runId orchestratorId stateRoot run)
include h

theorem runStoreForRunId_ok {ids : List String} {root : String}
    (hids : ids ⊆ settings.orchestrators.map Prod.fst)
    (hstore : runStoreForRunId site disk settings runId ids = .ok root) :
    root = stateRoot ∧ ∀ other ∈ ids.takeWhile (· ≠ orchestratorId), Resolves settings other := by
  induction ids with
  | nil => cases hstore
  | cons id rest ih =>
    obtain ⟨hid, hrest⟩ := List.cons_subset.mp hids
    rw [runStoreForRunId] at hstore
    cases hroot : runtimeRootOf settings id with
    | error err =>
      rw [hroot] at hstore
      cases hstore
    | ok idRoot =>
      rw [hroot] at hstore
      by_cases hsame : id = orchestratorId
      · -- the record is here, and the loop ends
        subst hsame
        rw [h.root] at hroot
        cases hroot
        simp only [runRecordExists_of_loadRun h.record, if_pos] at hstore
        cases hstore
        refine ⟨rfl, ?_⟩
        simp
      · -- no other root has it
        simp only [h.alone id hid hsame idRoot hroot, Bool.false_eq_true, if_false] at hstore
        obtain ⟨hfound, hearlier⟩ := ih hrest hstore
        refine ⟨hfound, ?_⟩
        rw [List.takeWhile_cons_of_pos (by simpa using hsame)]
        exact List.forall_mem_cons.mpr ⟨⟨idRoot, hroot⟩, hearlier⟩

/-- The store is found where every root that is looked at before it resolves. -/
theorem runStoreForRunId_of_resolves {ids : List String}
    (hids : ids ⊆ settings.orchestrators.map Prod.fst) (hmem : orchestratorId ∈ ids)
    (hearlier : ∀ other ∈ ids.takeWhile (· ≠ orchestratorId), Resolves settings other) :
    runStoreForRunId site disk settings runId ids = .ok stateRoot := by
  induction ids with
  | nil => cases hmem
  | cons id rest ih =>
    obtain ⟨hid, hrest⟩ := List.cons_subset.mp hids
    rw [runStoreForRunId]
    by_cases hsame : id = orchestratorId
    · subst hsame
      simp only [h.root, runRecordExists_of_loadRun h.record, if_pos]
    · rw [List.takeWhile_cons_of_pos (by simpa using hsame)] at hearlier
      obtain ⟨⟨idRoot, hroot⟩, hothers⟩ := List.forall_mem_cons.mp hearlier
      have hmem' : orchestratorId ∈ rest :=
        (List.mem_cons.mp hmem).resolve_left fun heq => hsame heq.symm
      simp only [hroot, h.alone id hid hsame idRoot hroot, Bool.false_eq_true, if_false]
      exact ih hrest hmem' hothers

end Lookup

/-! ### Cancelling -/

/-- The record that a command writes. -/
def canceledRun (run : WorkflowRunRecord) (now : Int) : WorkflowRunRecord :=
  { run with
    state := .canceled
    updatedAt := now
    terminalReason := some "canceled by command" }

theorem transitionState_canceled (hlive : run.state.isTerminal = false) (now : Int) :
    transitionState run .canceled now "canceled by command" false "none" =
      .ok (canceledRun run now, [.run .transitionState (canceledRun run now),
        .progress ((canceledRun run now).snapshot run.currentStepId run.currentAttempt now
          "canceled by command" false "none")]) := by
  rw [transitionState, if_pos (RunState.canTransitionTo_failed_canceled hlive).2]
  rfl

/-- What a command leaves and whether it succeeds depends on which of the two files can be
written. -/
inductive Canceling (site : RunSite Loc Bytes) (disk : RunDisk Loc Bytes) (files : Loc × Loc)
    (canceled : WorkflowRunRecord) :
    RunDisk Loc Bytes × Except OrchestratorError RunState → Prop where
  | refused (err : OrchestratorError) (h : disk.locked files.1 = some err) :
      Canceling site disk files canceled (disk, .error err)
  | half (after : RunDisk Loc Bytes) (err : OrchestratorError) (hrun : disk.locked files.1 = none)
      (h : disk.locked files.2 = some err)
      (hstored : site.runIn (after.entry files.1) = some canceled) :
      Canceling site disk files canceled (after, .error err)
  | done (after : RunDisk Loc Bytes) (hrun : disk.locked files.1 = none)
      (h : disk.locked files.2 = none)
      (hstored : site.runIn (after.entry files.1) = some canceled) :
      Canceling site disk files canceled (after, .ok .canceled)

/-- Two commands that cancel the same live run leave it alike, whatever their times. -/
theorem Canceling.agree {files : Loc × Loc} {run : WorkflowRunRecord} {now now' : Int}
    {outcome outcome' : RunDisk Loc Bytes × Except OrchestratorError RunState}
    (hrun : site.runIn (disk.entry files.1) = some run)
    (h : Canceling site disk files (canceledRun run now) outcome)
    (h' : Canceling site disk files (canceledRun run now') outcome') :
    ((outcome.2 = .ok .canceled ∧ outcome'.2 = .ok .canceled) ∨
      (∃ err, outcome.2 = .error err) ∧ ∃ err, outcome'.2 = .error err) ∧
    ∃ left left', site.runIn (outcome.1.entry files.1) = some left ∧
      site.runIn (outcome'.1.entry files.1) = some left' ∧ SameRun left left' := by
  -- which of the files can be written is the same for both, so only equal cases meet
  cases h with
  | refused err hlocked =>
    cases h' with
    | refused err' hlocked' =>
      exact ⟨.inr ⟨⟨err, rfl⟩, ⟨err', rfl⟩⟩, run, run, hrun, hrun, SameRun.refl run⟩
    | half after' err' hfree' hlocked' hstored' =>
      rw [hlocked] at hfree'
      cases hfree'
    | done after' hfree' hprogress' hstored' =>
      rw [hlocked] at hfree'
      cases hfree'
  | half after err hfree hlocked hstored =>
    cases h' with
    | refused err' hlocked' =>
      rw [hfree] at hlocked'
      cases hlocked'
    | half after' err' hfree' hlocked' hstored' =>
      exact ⟨.inr ⟨⟨err, rfl⟩, ⟨err', rfl⟩⟩, _, _, hstored, hstored', rfl⟩
    | done after' hfree' hprogress' hstored' =>
      rw [hlocked] at hprogress'
      cases hprogress'
  | done after hfree hprogress hstored =>
    cases h' with
    | refused err' hlocked' =>
      rw [hfree] at hlocked'
      cases hlocked'
    | half after' err' hfree' hlocked' hstored' =>
      rw [hprogress] at hlocked'
      cases hlocked'
    | done after' hfree' hprogress' hstored' =>
      exact ⟨.inl ⟨rfl, rfl⟩, _, _, hstored, hstored', rfl⟩

/-! ### Reading -/

variable {globalRoot : String}

/-- A command that reports of the snapshot, and the function that reports the snapshot. -/
theorem agree_reading (h : StoredUnder site disk settings runId orchestratorId stateRoot run)
    (hglobal : runFiles site globalRoot runId = runFiles site stateRoot runId)
    {native : Except OrchestratorError RunReport} {report : ProgressSnapshot → RunReport}
    (hnative : native = (loadProgress site disk stateRoot runId).map report)
    (hstate : ∀ progress, (report progress).state = (RunReport.progress progress).state) :
    Agree site (runFiles site stateRoot runId)
      { address := some (runFiles site stateRoot runId)
        disk := disk
        result := native.mapError OrchestratorError.display }
      (internalProgress site disk (some globalRoot) runId) where
  native_address := rfl
  catalog_address := congrArg some hglobal
  alike := by
    have hpath := (Prod.mk.inj hglobal).2.symm
    rw [hnative]
    unfold internalProgress loadProgress
    rcases loadFile_congr disk site.decodeProgress hpath with
      ⟨progress, hread, hcatalog⟩ | ⟨⟨err, hread⟩, err', hcatalog⟩
    · simp only [hread, hcatalog]
      exact .inl ⟨_, _, rfl, rfl, hstate progress⟩
    · simp only [hread, hcatalog]
      exact .inr ⟨⟨_, rfl⟩, ⟨_, rfl⟩⟩
  persisted := ⟨run, run, runIn_of_loadRun h.record, runIn_of_loadRun h.record, SameRun.refl run⟩

theorem cmdWorkflowStatus_eq (h : loadRun site disk stateRoot runId = .ok run) :
    cmdWorkflowStatus site disk stateRoot runId = (loadProgress site disk stateRoot runId).map
      fun progress => .status progress run.inputs.length (sortedInputKeys run.inputs) := by
  rw [cmdWorkflowStatus, h]
  rfl

/-! ### Both ways of cancelling -/

variable [DecidableEq Loc]

theorem cancelLoaded_canceling (disk : RunDisk Loc Bytes) {files : Loc × Loc}
    (hfiles : runFiles site stateRoot run.runId = files) (hapart : files.1 ≠ files.2)
    (hlive : run.state.isTerminal = false) (now : Int) :
    Canceling site disk files (canceledRun run now)
      (cancelLoaded site disk stateRoot run now) := by
  subst hfiles
  rw [cancelLoaded, if_neg (by rw [hlive]; exact Bool.false_ne_true),
    transitionState_canceled hlive]
  simp only [persistAll, persist]
  cases hrun : disk.locked (site.locate (runMetadataPath stateRoot run.runId)) with
  | some err =>
    -- the record cannot be written, and the snapshot is not tried
    have hfirst : writeFile site disk (runMetadataPath stateRoot (canceledRun run now).runId)
        (site.encodeRun (canceledRun run now)) = (disk, .error err) := by
      simp only [writeFile, canceledRun, hrun]
    rw [hfirst]
    exact .refused err hrun
  | none =>
    have hfirst : writeFile site disk (runMetadataPath stateRoot (canceledRun run now).runId)
        (site.encodeRun (canceledRun run now)) =
        (disk.put (runFiles site stateRoot run.runId).1
          (site.encodeRun (canceledRun run now)), .ok ()) := by
      simp only [writeFile, canceledRun, hrun, runFiles]
    have hstored : ∀ entry, entry = DiskEntry.file (site.encodeRun (canceledRun run now)) →
        site.runIn entry = some (canceledRun run now) := by
      rintro _ rfl
      exact runIn_encodeRun site _
    rw [hfirst]
    cases hprogress : disk.locked (site.locate (progressPath stateRoot run.runId)) with
    | some err =>
      simp only [writeFile, WorkflowRunRecord.snapshot, canceledRun, RunDisk.put_locked,
        hprogress]
      exact .half _ err hrun hprogress (hstored _ (RunDisk.put_entry_self _))
    | none =>
      simp only [writeFile, WorkflowRunRecord.snapshot, canceledRun, RunDisk.put_locked,
        hprogress]
      refine .done _ hrun hprogress (hstored _ ?_)
      exact (RunDisk.put_entry_of_ne _ hapart).trans (RunDisk.put_entry_self _)

theorem cmdWorkflowCancel_eq (h : loadRun site disk stateRoot runId = .ok run) (now : Int) :
    cmdWorkflowCancel site disk now stateRoot runId =
      ((cancelLoaded site disk stateRoot run now).1,
        (cancelLoaded site disk stateRoot run now).2.map (.canceled run.runId)) := by
  rw [cmdWorkflowCancel, h]

theorem internalCancel_eq (h : loadRun site disk stateRoot runId = .ok run) :
    internalCancel site disk (some stateRoot) runId =
      { address := some (runFiles site stateRoot runId)
        disk := (cancelLoaded site disk stateRoot run (min (run.updatedAt + 1) i64Max)).1
        result :=
          ((cancelLoaded site disk stateRoot run (min (run.updatedAt + 1) i64Max)).2.map
            (.canceled runId)).mapError OrchestratorError.display } := by
  simp only [internalCancel, h]

/-- Both ways of cancelling a stored run, each with its own time, end alike. -/
theorem cancelLoaded_alike
    (h : StoredUnder site disk settings runId orchestratorId stateRoot run)
    (hglobal : runFiles site globalRoot runId = runFiles site stateRoot runId) (now now' : Int) :
    let native := cancelLoaded site disk stateRoot run now
    let catalog := cancelLoaded site disk globalRoot run now'
    ((∃ state, native.2 = .ok state ∧ catalog.2 = .ok state) ∨
      (∃ err, native.2 = .error err) ∧ ∃ err, catalog.2 = .error err) ∧
    ∃ left left', site.runIn (native.1.entry (runFiles site stateRoot runId).1) = some left ∧
      site.runIn (catalog.1.entry (runFiles site stateRoot runId).1) = some left' ∧
      SameRun left left' := by
  have hstored := runIn_of_loadRun h.record
  cases hstate : run.state.isTerminal with
  | true =>
    -- a run that has ended is left as it is, by both
    have hdone : ∀ root at_, cancelLoaded site disk root run at_ = (disk, .ok run.state) := by
      intro root at_
      rw [cancelLoaded, if_pos hstate]
    simp only [hdone]
    exact ⟨.inl ⟨run.state, rfl, rfl⟩, run, run, hstored, hstored, SameRun.refl run⟩
  | false =>
    have hnative := cancelLoaded_canceling disk
      (congrArg (runFiles site stateRoot) h.named) h.apart hstate now
    have hcatalog := cancelLoaded_canceling disk
      ((congrArg (runFiles site globalRoot) h.named).trans hglobal) h.apart hstate now'
    obtain ⟨hresult, hleft⟩ := hnative.agree hstored hcatalog
    exact ⟨hresult.imp_left fun hok => ⟨.canceled, hok⟩, hleft⟩

theorem agree_cancel (h : StoredUnder site disk settings runId orchestratorId stateRoot run)
    (hglobal : runFiles site globalRoot runId = runFiles site stateRoot runId) (now : Int) :
    Agree site (runFiles site stateRoot runId)
      { address := some (runFiles site stateRoot runId)
        disk := (cmdWorkflowCancel site disk now stateRoot runId).1
        result := (cmdWorkflowCancel site disk now stateRoot runId).2.mapError
          OrchestratorError.display }
      (internalCancel site disk (some globalRoot) runId) := by
  have hrecord : loadRun site disk globalRoot runId = .ok run := by
    rcases loadFile_congr disk site.decodeRun
      (Prod.mk.inj hglobal).1.symm with ⟨value, hnative, hcatalog⟩ | ⟨⟨err, hnative⟩, -⟩
    · cases h.record.symm.trans hnative
      exact hcatalog
    · cases h.record.symm.trans hnative
  obtain ⟨hresult, hleft⟩ :=
    cancelLoaded_alike h hglobal now (min (run.updatedAt + 1) i64Max)
  rw [cmdWorkflowCancel_eq h.record, internalCancel_eq hrecord]
  refine ⟨rfl, congrArg some hglobal, ?_, hleft⟩
  rcases hresult with ⟨state, hnative, hcatalog⟩ | ⟨⟨err, hnative⟩, err', hcatalog⟩
  · simp only [hnative, hcatalog]
    exact .inl ⟨_, _, rfl, rfl, rfl⟩
  · simp only [hnative, hcatalog]
    exact .inr ⟨⟨_, rfl⟩, ⟨_, rfl⟩⟩

/-! ### The plan of a function -/

theorem parseCatalogFunctionArgs_runId (text : JsonText) (command : RunCommand) (runId : String) :
    ∃ fn, functionDef command.functionId = some fn ∧
      parseCatalogFunctionArgs text fn [runId] = .ok [("runId", .str runId)] := by
  have hdef : ∃ description readOnly, functionDef command.functionId = some
      { functionId := command.functionId, description := description, args := [runIdArg],
        readOnly := readOnly } := by
    cases command with
    | status => exact ⟨_, _, rfl⟩
    | progress => exact ⟨_, _, rfl⟩
    | cancel => exact ⟨_, _, rfl⟩
  obtain ⟨description, readOnly, hfn⟩ := hdef
  exact ⟨_, hfn, rfl⟩

theorem plan_runCommand (text : JsonText) (command : RunCommand) (runId : String) :
    planFunctionInvocation text command.functionId [("runId", .str runId)] =
      (stringArg "runId" runId).map fun value => .internal (command.function value) := by
  have hlookup : planners.lookup command.functionId =
      some (.one "runId" fun value => command.function value) := by
    cases command <;> rfl
  rw [planFunctionInvocation, hlookup]
  show (stringArg "runId" runId >>= fun value => _) = _
  cases stringArg "runId" runId <;> rfl

section Alias

variable (site disk) (text : JsonText) (others : FunctionExecutionPlan → RouteOutcome Loc Bytes)
  (runStore : Option String) (command : RunCommand)

/-- A function of a run id is carried out on the store of the state root. -/
theorem alias_of_not_blank (h : Text.isBlank runId.toList = false) :
    tryExecuteSelectorCliAlias site disk text others runStore [command.functionId, runId] =
      some (executePlan site disk others runStore (.internal (command.function runId))) := by
  obtain ⟨fn, hfn, hargs⟩ := parseCatalogFunctionArgs_runId text command runId
  have hvalue : stringArg "runId" runId = .ok runId := by
    rw [stringArg, h]
    rfl
  rw [tryExecuteSelectorCliAlias, hfn]
  simp only [Option.map_some, hargs, plan_runCommand, hvalue]
  rfl

/-- A blank id is taken for a missing argument. -/
theorem alias_of_blank (h : Text.isBlank runId.toList = true) :
    ∃ err, tryExecuteSelectorCliAlias site disk text others runStore
      [command.functionId, runId] = some { disk := disk, result := .error err } := by
  obtain ⟨fn, hfn, hargs⟩ := parseCatalogFunctionArgs_runId text command runId
  have hvalue : ∃ err, stringArg "runId" runId = .error err := by
    rw [stringArg, if_pos h]
    exact ⟨_, rfl⟩
  obtain ⟨err, hvalue⟩ := hvalue
  refine ⟨(OrchestratorError.selectorValidation err).display, ?_⟩
  rw [tryExecuteSelectorCliAlias, hfn]
  simp only [Option.map_some, hargs, plan_runCommand, hvalue]
  rfl

end Alias

/-! ### Agreement -/

section Agreement

variable (text : JsonText) (others : FunctionExecutionPlan → RouteOutcome Loc Bytes)
  (runStore : Option String) (now : Int)

/-- A command and its function agree. -/
def RoutesAgree (site : RunSite Loc Bytes) (disk : RunDisk Loc Bytes) (text : JsonText)
    (others : FunctionExecutionPlan → RouteOutcome Loc Bytes) (settings : Settings)
    (runStore : Option String) (now : Int) (runId : String) (files : Loc × Loc)
    (command : RunCommand) : Prop :=
  ∃ catalog, tryExecuteSelectorCliAlias site disk text others runStore
      [command.functionId, runId] = some catalog ∧
    Agree site files (nativeCommand site disk settings now command runId) catalog

/-- The store of the state root is the one the run is in, and every root that is looked at
before it resolves. -/
structure SharedStore (site : RunSite Loc Bytes) (settings : Settings) (runStore : Option String)
    (runId orchestratorId stateRoot : String) : Prop where
  resolves : ∀ other ∈ earlierOrchestrators settings orchestratorId, Resolves settings other
  named : Text.isBlank runId.toList = false
  shared : ∃ globalRoot, runStore = some globalRoot ∧
    runFiles site globalRoot runId = runFiles site stateRoot runId

variable (h : StoredUnder site disk settings runId orchestratorId stateRoot run)
include h

theorem sharedStore_of_agree {command : RunCommand}
    (hagree : RoutesAgree site disk text others settings runStore now runId
      (runFiles site stateRoot runId) command) :
    SharedStore site settings runStore runId orchestratorId stateRoot := by
  obtain ⟨catalog, halias, hagree⟩ := hagree
  -- a command that comes to no files is not about those of the run
  have hnamed : Text.isBlank runId.toList = false := by
    by_contra hblank
    obtain ⟨err, hrefused⟩ := alias_of_blank site disk text others runStore command
      (Bool.eq_true_of_not_eq_false hblank)
    rw [hrefused] at halias
    cases halias
    cases hagree.catalog_address
  rw [alias_of_not_blank site disk text others runStore command hnamed] at halias
  cases halias
  refine ⟨?_, hnamed, ?_⟩
  · have haddress := hagree.native_address
    unfold nativeCommand at haddress
    cases hstore : runStoreForRunId site disk settings runId
        (settings.orchestrators.map Prod.fst) with
    | error err =>
      rw [hstore] at haddress
      cases haddress
    | ok root => exact (runStoreForRunId_ok h (List.Subset.refl _) hstore).2
  · have haddress := hagree.catalog_address
    cases runStore with
    | none =>
      cases command <;> cases haddress
    | some globalRoot =>
      refine ⟨globalRoot, rfl, ?_⟩
      cases command with
      | status => exact Option.some.inj haddress
      | progress => exact Option.some.inj haddress
      | cancel =>
        simp only [executePlan, RunCommand.function, internalCancel] at haddress
        split at haddress <;> exact Option.some.inj haddress

/-- Every command and its function agree on a stored run exactly where they share the store. -/
theorem routes_agree_iff_sharedStore :
    (∀ command, RoutesAgree site disk text others settings runStore now runId
      (runFiles site stateRoot runId) command) ↔
      SharedStore site settings runStore runId orchestratorId stateRoot := by
  refine ⟨fun hagree => sharedStore_of_agree text others runStore now h (hagree .status), ?_⟩
  rintro ⟨hresolves, hnamed, globalRoot, rfl, hglobal⟩ command
  have hstore := runStoreForRunId_of_resolves h (List.Subset.refl _) h.configured hresolves
  refine ⟨_, alias_of_not_blank site disk text others _ command hnamed, ?_⟩
  rw [nativeCommand, hstore]
  cases command with
  | status => exact agree_reading h hglobal (cmdWorkflowStatus_eq h.record) fun _ => rfl
  | progress => exact agree_reading h hglobal rfl fun _ => rfl
  | cancel => exact agree_cancel h hglobal now

end Agreement

/-- A run that the state root has no files of is not found by any function. -/
theorem alias_of_missing (text : JsonText)
    (others : FunctionExecutionPlan → RouteOutcome Loc Bytes) (command : RunCommand)
    (hnamed : Text.isBlank runId.toList = false)
    (hrun : disk.entry (runFiles site globalRoot runId).1 = .missing)
    (hprogress : disk.entry (runFiles site globalRoot runId).2 = .missing) :
    tryExecuteSelectorCliAlias site disk text others (some globalRoot)
      [command.functionId, runId] =
        some { address := some (runFiles site globalRoot runId)
               disk := disk
               result := .error (OrchestratorError.unknownRunId runId).display } := by
  have hload : loadRun site disk globalRoot runId =
      .error (.io (runMetadataPath globalRoot runId) .notFound) := by
    unfold runFiles at hrun
    simp only [loadRun, loadFile, hrun]
  have hsnapshot : loadProgress site disk globalRoot runId =
      .error (.io (progressPath globalRoot runId) .notFound) := by
    unfold runFiles at hprogress
    simp only [loadProgress, loadFile, hprogress]
  rw [alias_of_not_blank site disk text others _ command hnamed]
  cases command with
  | status =>
    simp only [executePlan, RunCommand.function, internalProgress, hsnapshot]
    rfl
  | progress =>
    simp only [executePlan, RunCommand.function, internalProgress, hsnapshot]
    rfl
  | cancel =>
    simp only [executePlan, RunCommand.function, internalCancel, hload]
    rfl

end Routes

/-! ## One run -/

/-- Files that are kept as what they say, each at its path. -/
def plainSite : RunSite String (WorkflowRunRecord ⊕ ProgressSnapshot ⊕ StepAttemptRecord) where
  locate := id
  encodeRun := .inl
  decodeRun
    | .inl run => .ok run
    | .inr _ => .error "missing field"
  encodeProgress progress := .inr (.inl progress)
  decodeProgress
    | .inr (.inl progress) => .ok progress
    | _ => .error "missing field"
  encodeAttempt attempt := .inr (.inr attempt)
  decodeRun_encodeRun _ := rfl

/-- The files of a new run, under the runtime root of the only orchestrator. -/
def oneRunDisk : RunDisk String (WorkflowRunRecord ⊕ ProgressSnapshot ⊕ StepAttemptRecord) where
  entry path :=
    if path = "/ws/main/workflows/runs/run-1.json" then
      .file (.inl (createRun "run-1" "triage" 1).run)
    else if path = "/ws/main/workflows/runs/run-1/progress.json" then
      .file (.inr (.inl (createRun "run-1" "triage" 1).progress))
    else .missing
  locked _ := none

def oneOrchestrator : Settings where
  workspacesPath := "/ws"
  orchestrators := [("main", {})]

theorem oneRun_stored : StoredUnder plainSite oneRunDisk oneOrchestrator "run-1" "main" "/ws/main"
    (createRun "run-1" "triage" 1).run where
  configured := List.mem_singleton.mpr rfl
  root := rfl
  record := rfl
  named := rfl
  apart := by decide
  alone other hother hne := absurd (List.mem_singleton.mp hother) hne

def noJson : JsonText where
  fromStr _ := none
  complaint := id
  toStringPretty _ := ""

/-- With the workspace of the orchestrator for the state root, the routes agree. -/
theorem routes_agree_in_shared_store :
    RoutesAgree plainSite oneRunDisk noJson
      (fun _ => { disk := oneRunDisk, result := .error "" }) oneOrchestrator (some "/ws/main") 7
      "run-1" (runFiles plainSite "/ws/main" "run-1") .cancel :=
  (routes_agree_iff_sharedStore noJson _ (some "/ws/main") 7 oneRun_stored).mpr
    { resolves := List.forall_mem_nil _
      named := rfl
      shared := ⟨"/ws/main", rfl, rfl⟩ } .cancel

/-- With a state root of its own, `workflow cancel` cancels the run and `workflow.cancel` does
not find it. -/
theorem routes_disagree_on_stored_run :
    StoredUnder plainSite oneRunDisk oneOrchestrator "run-1" "main" "/ws/main"
        (createRun "run-1" "triage" 1).run ∧
      ¬ RoutesAgree plainSite oneRunDisk noJson
        (fun _ => { disk := oneRunDisk, result := .error "" }) oneOrchestrator
        (some "/home/.direclaw") 7 "run-1" (runFiles plainSite "/ws/main" "run-1") .cancel := by
  refine ⟨oneRun_stored, ?_⟩
  rintro ⟨catalog, halias, hagree⟩
  have hnative : (nativeCommand plainSite oneRunDisk oneOrchestrator 7 .cancel "run-1").result =
      .ok (.canceled "run-1" .canceled) := rfl
  rw [alias_of_missing noJson _ .cancel rfl rfl rfl] at halias
  cases halias
  rcases hagree.alike with ⟨_, report, -, hcatalog, -⟩ | ⟨⟨err, herr⟩, -⟩
  · cases hcatalog
  · rw [hnative] at herr
    cases herr

end Direclaw.App
