import Direclaw.Orchestration.Config

/-!
# Templates

The contract of a new step (`templates/workflow_step_defaults.rs`) and the configuration of
a new orchestrator (`templates/orchestrator_templates.rs`).
-/

namespace Direclaw.Config

open Direclaw.Lib Direclaw.Orchestration

def parseProvider (raw : String) : Except String ConfigProviderKind :=
  match String.ofList (Text.toAsciiLowercase (Text.trim raw.toList)) with
  | "anthropic" => .ok .anthropic
  | "openai" => .ok .openAi
  | _ => .error "provider must be one of: anthropic, openai"

def providerText : ConfigProviderKind → String
  | .anthropic => "anthropic"
  | .openAi => "openai"

theorem parseProvider_providerText (provider : ConfigProviderKind) :
    parseProvider (providerText provider) = .ok provider := by
  cases provider <;> decide

/-- A key without the optional mark. -/
def outputKey (name : String) : OutputKey := { name, required := true }

def defaultStepOutputContract : WorkflowStepType → List OutputKey
  | .agentReview => [outputKey "decision", outputKey "summary", outputKey "feedback"]
  | .agentTask => [outputKey "summary", outputKey "artifact"]

def stepArtifact (suffix : String) : String :=
  "artifacts/\x7b\x7bworkflow.run_id\x7d\x7d/" ++
    "\x7b\x7bworkflow.step_id\x7d\x7d-\x7b\x7bworkflow.attempt\x7d\x7d" ++ suffix

def defaultStepOutputFiles : WorkflowStepType → List (String × String)
  | .agentReview =>
    [("decision", stepArtifact "-decision.txt"), ("feedback", stepArtifact "-feedback.txt"),
      ("summary", stepArtifact "-summary.txt")]
  | .agentTask => [("artifact", stepArtifact ".txt"), ("summary", stepArtifact "-summary.txt")]

def defaultStepOutputPriority : WorkflowStepType → List OutputKey
  | .agentReview => [outputKey "summary"]
  | .agentTask => [outputKey "artifact", outputKey "summary"]

def defaultPromptRelPath (workflowId stepId : String) : String :=
  s!"workflows/{workflowId}/{stepId}.prompt.md"

def workflowStep (workflowId id : String) (stepType : WorkflowStepType) (agent : String) :
    WorkflowStepConfig where
  id := id
  stepType := stepType
  agent := agent
  prompt := defaultPromptRelPath workflowId id
  outputs := defaultStepOutputContract stepType
  outputFiles := defaultStepOutputFiles stepType
  finalOutputPriority := defaultStepOutputPriority stepType
  promptType := .fileOutput

inductive WorkflowTemplate : Type where
  | minimal
  | engineering
  | product
deriving DecidableEq, Repr

def templateAgents (provider : ConfigProviderKind) (model : String) :
    WorkflowTemplate → List (String × AgentConfig)
  | .minimal => [("default", ⟨model, true, provider⟩)]
  | .engineering =>
    [("builder", ⟨model, false, provider⟩), ("default", ⟨model, true, provider⟩),
      ("planner", ⟨model, false, provider⟩), ("reviewer", ⟨model, false, provider⟩)]
  | .product =>
    [("default", ⟨model, true, provider⟩), ("researcher", ⟨model, false, provider⟩),
      ("writer", ⟨model, false, provider⟩)]

def taskListFile (name extension : String) : String :=
  s!"tasks/{name}__" ++ "\x7b\x7bworkflow.run_id\x7d\x7d__\x7b\x7bworkflow.step_id\x7d\x7d__" ++
    "a\x7b\x7bworkflow.attempt\x7d\x7d." ++ extension

def featureDelivery : WorkflowConfig where
  id := "feature_delivery"
  description := "Plan, implement, and review engineering work before final summary"
  tags := ["engineering", "implementation", "review"]
  steps :=
    [{ workflowStep "feature_delivery" "plan" .agentTask "planner" with
        next := some "plan_review" },
      { workflowStep "feature_delivery" "plan_review" .agentReview "reviewer" with
        onApprove := some "task_decompose", onReject := some "plan" },
      { workflowStep "feature_delivery" "task_decompose" .agentTask "planner" with
        outputs := [outputKey "summary", outputKey "task_list"]
        outputFiles := [("summary", taskListFile "summary" "txt"),
          ("task_list", taskListFile "task_list" "json")]
        finalOutputPriority := [outputKey "task_list", outputKey "summary"]
        next := some "implement" },
      { workflowStep "feature_delivery" "implement" .agentTask "builder" with
        next := some "review" },
      { workflowStep "feature_delivery" "review" .agentReview "reviewer" with
        onApprove := some "task_loop_gate", onReject := some "implement" },
      { workflowStep "feature_delivery" "task_loop_gate" .agentReview "reviewer" with
        onApprove := some "implement", onReject := some "done" },
      workflowStep "feature_delivery" "done" .agentTask "planner"]

def templateWorkflows : WorkflowTemplate → List WorkflowConfig
  | .minimal =>
    [{ id := "default", description := "General purpose workflow for direct requests",
       tags := ["default"], steps := [workflowStep "default" "step_1" .agentTask "default"] }]
  | .engineering =>
    [featureDelivery,
      { id := "quick_answer",
        description := "Short direct engineering responses without multi-step review",
        tags := ["engineering", "quick", "answer"],
        steps := [workflowStep "quick_answer" "answer" .agentTask "planner"] }]
  | .product =>
    [{ id := "prd_draft", description := "Research and draft a product requirements document",
       tags := ["product", "prd", "research"],
       steps :=
        [{ workflowStep "prd_draft" "research" .agentTask "researcher" with
            next := some "draft" },
          workflowStep "prd_draft" "draft" .agentTask "writer"] },
      { id := "release_notes",
        description := "Compose customer-facing release notes grouped by impact",
        tags := ["product", "release", "notes"],
        steps := [workflowStep "release_notes" "compose" .agentTask "writer"] }]

def templateDefaultWorkflow : WorkflowTemplate → String
  | .minimal => "default"
  | .engineering => "feature_delivery"
  | .product => "prd_draft"

/-- `initial_orchestrator_config`, for a provider that is known. -/
def initialConfig (id : String) (provider : ConfigProviderKind) (model : String)
    (template : WorkflowTemplate) : OrchestratorConfig where
  id := id
  selectorAgent := "default"
  defaultWorkflow := templateDefaultWorkflow template
  agents := templateAgents provider model template
  workflows := templateWorkflows template

end Direclaw.Config
