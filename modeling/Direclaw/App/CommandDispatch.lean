import Direclaw.App.CommandCatalog
import Direclaw.Automation.ScheduleCalls

/-!
# Planning a function call

`plan_function_invocation` of `app/command_dispatch.rs`: a call becomes the arguments of a
command or an internal function. Most plans are fixed words and the arguments as they are
named; the table of planners has an entry for every arm of the match.
-/

namespace Direclaw.App

open Direclaw.Lib Direclaw.Orchestration Direclaw.Automation

/-! ## Plans -/

inductive InternalFunction : Type where
  | workflowList (orchestratorId : String)
  | workflowShow (orchestratorId workflowId : String)
  | workflowStatus (runId : String)
  | workflowProgress (runId : String)
  | workflowCancel (runId : String)
  | orchestratorList
  | orchestratorShow (orchestratorId : String)
  | channelProfileList
  | channelProfileShow (channelProfileId : String)
  | schedule (function : ScheduleFunction)

inductive FunctionExecutionPlan : Type where
  | cliArgs (args : List String)
  | internal (function : InternalFunction)

def requiredU32Arg (args : List (String × Json)) (arg : String) : Except String ℕ :=
  match Json.get args arg with
  | some value =>
    match asU64 value with
    | some n => if n < 2 ^ 32 then .ok n else .error s!"argument `{arg}` is too large"
    | none =>
      match asI64 value with
      | some n =>
        if 0 ≤ n ∧ n < 2 ^ 32 then .ok n.toNat else .error s!"argument `{arg}` must be >= 0"
      | none => .error s!"argument `{arg}` must be an integer"
  | none => .error s!"missing required function argument `{arg}`"

/-- How an argument gets into the words of a command. -/
inductive Piece : Type where
  | string (name : String)
  | optionalString (flag name : String)
  | optionalBool (flag name : String)
  | u32 (name : String)
  | inputs (name : String)
deriving DecidableEq, Repr

def Piece.name : Piece → String
  | .string name | .optionalString _ name | .optionalBool _ name | .u32 name | .inputs name => name

inductive Planner : Type where
  | cli (words : List String) (pieces : List Piece)
  | constant (function : InternalFunction)
  | one (name : String) (make : String → InternalFunction)
  | two (first second : String) (make : String → String → InternalFunction)
  | scheduleCreate
  | scheduleUpdate

section Planning

variable (text : JsonText) (args : List (String × Json))

/-- An input that is a text stands for itself. -/
def encodedInput : Json → String
  | .str s => s
  | value => text.toString value

def inputWords (object : List (String × Json)) : List String :=
  (Json.mapKeys object).flatMap fun key =>
    match Json.get object key with
    | some value => ["--input", s!"{key}={encodedInput text value}"]
    | none => []

def Piece.words : Piece → Except String (List String)
  | .string name => (requiredStringArg args name).map fun value => [value]
  | .optionalString flag name =>
    (optionalStringArg args name).map fun value =>
      match value with
      | some value => [flag, value]
      | none => []
  | .optionalBool flag name =>
    (optionalBoolArg args name).map fun value =>
      match value with
      | some value => [flag, toString value]
      | none => []
  | .u32 name => (requiredU32Arg args name).map fun n => [toString n]
  | .inputs name =>
    .ok (match optionalObjectArg args name with
      | some object => inputWords text object
      | none => [])

def Planner.plan : Planner → Except String FunctionExecutionPlan
  | .cli words pieces => do
      let parts ← pieces.mapM (Piece.words text args)
      return .cliArgs (words ++ parts.flatten)
  | .constant function => .ok (.internal function)
  | .one name make => do
      let value ← requiredStringArg args name
      return .internal (make value)
  | .two first second make => do
      let a ← requiredStringArg args first
      let b ← requiredStringArg args second
      return .internal (make a b)
  | .scheduleCreate => do
      let function ← planScheduleCreate args
      return .internal (.schedule function)
  | .scheduleUpdate => do
      let jobId ← requiredStringArg args "jobId"
      let patch ← parseJobPatch (← requiredObjectArg args "patch")
      return .internal (.schedule (.scheduleUpdate jobId patch))

end Planning

/-! ## The arms -/

/-- The two words of a command on an agent, and its arguments. -/
def agentPlanner (action : String) : Planner :=
  .cli ["agent", action] [.string "orchestratorId", .string "agentId"]

/-- A command of an orchestrator with one more argument. -/
def orchestratorPlanner (action name : String) : Planner :=
  .cli ["orchestrator", action] [.string "orchestratorId", .string name]

def jobPlanner (make : String → ScheduleFunction) : Planner :=
  .one "jobId" fun jobId => .schedule (make jobId)

def planners : List (String × Planner) :=
  [("daemon.start", .cli ["start", "--detach"] []),
    ("daemon.stop", .cli ["stop"] []),
    ("daemon.restart", .cli ["restart", "--detach"] []),
    ("daemon.status", .cli ["status"] []),
    ("daemon.logs", .cli ["logs"] []),
    ("daemon.setup", .cli ["setup"] []),
    ("daemon.send", .cli ["send"] [.string "channelProfileId", .string "message"]),
    ("channels.reset", .cli ["channels", "reset"] []),
    ("channels.slack_sync", .cli ["channels", "slack", "sync"] []),
    ("provider.show", .cli ["provider"] []),
    ("provider.set", .cli ["provider"] [.string "provider", .optionalString "--model" "model"]),
    ("model.show", .cli ["model"] []),
    ("model.set", .cli ["model"] [.string "model"]),
    ("agent.list", .cli ["agent", "list"] [.string "orchestratorId"]),
    ("agent.add", agentPlanner "add"),
    ("agent.show", agentPlanner "show"),
    ("agent.remove", agentPlanner "remove"),
    ("agent.reset", agentPlanner "reset"),
    ("orchestrator.add", .cli ["orchestrator", "add"] [.string "orchestratorId"]),
    ("workflow.list", .one "orchestratorId" .workflowList),
    ("workflow.show", .two "orchestratorId" "workflowId" .workflowShow),
    ("workflow.add", .cli ["workflow", "add"] [.string "orchestratorId", .string "workflowId"]),
    ("workflow.remove",
      .cli ["workflow", "remove"] [.string "orchestratorId", .string "workflowId"]),
    ("workflow.run",
      .cli ["workflow", "run"] [.string "orchestratorId", .string "workflowId", .inputs "inputs"]),
    ("workflow.status", .one "runId" .workflowStatus),
    ("workflow.progress", .one "runId" .workflowProgress),
    ("workflow.cancel", .one "runId" .workflowCancel),
    ("orchestrator.list", .constant .orchestratorList),
    ("orchestrator.show", .one "orchestratorId" .orchestratorShow),
    ("orchestrator.remove", .cli ["orchestrator", "remove"] [.string "orchestratorId"]),
    ("orchestrator.set_private_workspace", orchestratorPlanner "set-private-workspace" "path"),
    ("orchestrator.grant_shared_access", orchestratorPlanner "grant-shared-access" "sharedKey"),
    ("orchestrator.revoke_shared_access", orchestratorPlanner "revoke-shared-access" "sharedKey"),
    ("orchestrator.set_selector_agent", orchestratorPlanner "set-selector-agent" "agentId"),
    ("orchestrator.set_default_workflow", orchestratorPlanner "set-default-workflow" "workflowId"),
    ("orchestrator.set_selection_max_retries",
      .cli ["orchestrator", "set-selection-max-retries"] [.string "orchestratorId", .u32 "count"]),
    ("channel_profile.list", .constant .channelProfileList),
    ("channel_profile.show", .one "channelProfileId" .channelProfileShow),
    ("channel_profile.add",
      .cli ["channel-profile", "add"]
        [.string "channelProfileId", .string "channel", .string "orchestratorId",
          .optionalString "--slack-app-user-id" "slackAppUserId",
          .optionalBool "--require-mention-in-channels" "requireMentionInChannels",
          .optionalString "--thread-response-mode" "threadResponseMode"]),
    ("channel_profile.remove", .cli ["channel-profile", "remove"] [.string "channelProfileId"]),
    ("channel_profile.set_orchestrator",
      .cli ["channel-profile", "set-orchestrator"]
        [.string "channelProfileId", .string "orchestratorId"]),
    ("schedule.create", .scheduleCreate),
    ("schedule.list",
      .one "orchestratorId" fun orchestratorId => .schedule (.scheduleList orchestratorId)),
    ("schedule.show", jobPlanner .scheduleShow),
    ("schedule.update", .scheduleUpdate),
    ("schedule.pause", jobPlanner .schedulePause),
    ("schedule.resume", jobPlanner .scheduleResume),
    ("schedule.delete", jobPlanner .scheduleDelete),
    ("schedule.run_now", jobPlanner .scheduleRunNow),
    ("update.check", .cli ["update", "check"] []),
    ("update.apply", .cli ["update", "apply"] []),
    ("daemon.attach", .cli ["attach"] []),
    ("daemon.doctor", .cli ["doctor"] []),
    ("auth.sync", .cli ["auth", "sync"] [])]

def planFunctionInvocation (text : JsonText) (functionId : String) (args : List (String × Json)) :
    Except String FunctionExecutionPlan :=
  match planners.lookup functionId with
  | some planner => planner.plan text args
  | none => .error s!"unknown function id `{functionId}`"

theorem plan_one_schedule (text : JsonText) (args : List (String × Json)) (name : String)
    (make : String → ScheduleFunction) :
    Planner.plan text args (.one name fun value => .schedule (make value)) =
      ((requiredStringArg args name).map make).map fun function =>
        .internal (.schedule function) := by
  show (requiredStringArg args name >>= fun value => pure _) = _
  cases requiredStringArg args name <;> rfl

theorem planFunctionInvocation_schedule (text : JsonText) (args : List (String × Json))
    {functionId : String} (h : functionId ∈ ["schedule.create", "schedule.list", "schedule.show",
      "schedule.update", "schedule.pause", "schedule.resume", "schedule.delete",
      "schedule.run_now"]) :
    planFunctionInvocation text functionId args =
      (planScheduleFunction functionId args).map fun function =>
        .internal (.schedule function) := by
  simp only [List.mem_cons, List.not_mem_nil, or_false] at h
  rcases h with rfl | rfl | rfl | rfl | rfl | rfl | rfl | rfl
  · show (planScheduleCreate args >>= fun function => pure _) =
      Except.map _ (planScheduleCreate args)
    cases planScheduleCreate args <;> rfl
  · exact plan_one_schedule text args "orchestratorId" .scheduleList
  · exact plan_one_schedule text args "jobId" .scheduleShow
  · show _ = (fun function => _) <$> (requiredStringArg args "jobId" >>= fun _ => _)
    simp only [map_bind, map_pure]
    rfl
  · exact plan_one_schedule text args "jobId" .schedulePause
  · exact plan_one_schedule text args "jobId" .scheduleResume
  · exact plan_one_schedule text args "jobId" .scheduleDelete
  · exact plan_one_schedule text args "jobId" .scheduleRunNow

/-! ## The commands -/

/-- The arms of `run_cli_native`. -/
def nativeCommands : List String :=
  ["setup", "start", "stop", "restart", "status", "logs", "send", "update", "doctor", "attach",
    "chat", "channels", "provider", "model", "agent", "orchestrator", "orchestrator-agent",
    "workflow", "channel-profile", "auth", "schedule", "__supervisor"]

end Direclaw.App
