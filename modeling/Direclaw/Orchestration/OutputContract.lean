import Direclaw.Orchestration.RunStore

/-!
# Evaluating a step's result

`orchestration/output_contract.rs`, from the parsed outputs of a step to the
step that follows it. How the outputs were obtained (the result envelope in
the provider's text, or the declared output files) is the provider's side; a
failure there reaches the engine as an error of the attempt.
-/

namespace Direclaw.Orchestration

open Direclaw.Lib

/-- A `serde_json` map of step outputs. -/
abbrev Outputs := List (String × Json)

structure StepEvaluation where
  outputs : Outputs
  nextStepId : Option String

/-! ## Review decisions -/

inductive ReviewDecision : Type where
  | approve
  | reject
deriving DecidableEq, Repr

/-- `normalize_review_decision`. The recursive call is on the text after a
delimiter, which is shorter, so a bound on the length is enough fuel. -/
def normalizeReviewDecisionAux : ℕ → List Char → Option ReviewDecision
  | 0, _ => none
  | fuel + 1, raw =>
    let trimmed := Text.trimMatches (· == '\'') (Text.trimMatches (· == '"') (Text.trim raw))
    let lowered := Text.toAsciiLowercase trimmed
    if lowered = "approve".toList then some .approve
    else if lowered = "reject".toList then some .reject
    else
      let after (delimiter : Char) : Option (List Char) :=
        match Text.splitOnce delimiter trimmed with
        | some (key, value) =>
          if Text.eqIgnoreAsciiCase (Text.trim key) "decision".toList then some value else none
        | none => none
      match after ':' with
      | some value => normalizeReviewDecisionAux fuel value
      | none =>
        match after '=' with
        | some value => normalizeReviewDecisionAux fuel value
        | none => none

def normalizeReviewDecision (raw : List Char) : Option ReviewDecision :=
  normalizeReviewDecisionAux (raw.length + 1) raw

def parseReviewDecision (outputs : Outputs) : Except OrchestratorError ReviewDecision :=
  let decision := Text.trim (((Json.field outputs "decision").bind Json.asStr).getD "").toList
  match normalizeReviewDecision decision with
  | some d => .ok d
  | none => .error (.invalidReviewDecision (String.ofList decision))

/-! ## The output contract -/

/-- What is wrong with one required key, if anything. -/
def requiredIssue (outputs : Outputs) (key : OutputKey) : Option String :=
  match Json.field outputs key.name with
  | none => some s!"{key.name}=missing"
  | some (.str text) => if Text.isBlank text.toList then some s!"{key.name}=empty" else none
  | some _ => none

def validateOutputsContract (step : WorkflowStepConfig) (outputs : Outputs) :
    Except OrchestratorError Unit :=
  let issues := (step.outputs.filter (·.required)).filterMap (requiredIssue outputs)
  if issues.isEmpty then .ok ()
  else
    let issues := issues.insertionSort (· ≤ ·)
    let reasonPrefix :=
      if issues.all (·.endsWith "=missing") then "missing required output keys"
      else "invalid required output keys"
    let listed := String.intercalate ", " issues
    .error (.outputContractValidation step.id s!"{reasonPrefix}: {listed}")

/-! ## Transitions -/

def validateTransitionTarget (workflow : WorkflowConfig) (step : WorkflowStepConfig)
    (target : Option String) (reason : String) : Except OrchestratorError (Option String) :=
  match target with
  | none => .ok none
  | some target =>
    if workflow.steps.any (·.id == target) then .ok (some target)
    else .error (.transitionValidation step.id s!"{reason} targets unknown step `{target}`")

/-- `position` of the step, then the step after it. -/
def nextStepInWorkflow (workflow : WorkflowConfig) (stepId : String) : Option String :=
  match workflow.steps.findIdx? (·.id == stepId) with
  | some idx => (workflow.steps[idx + 1]?).map (·.id)
  | none => none

def evaluateStepResult (workflow : WorkflowConfig) (step : WorkflowStepConfig)
    (parsed : Outputs) : Except OrchestratorError StepEvaluation := do
  validateOutputsContract step parsed
  match step.stepType with
  | .agentReview =>
    let decision ← parseReviewDecision parsed
    let next := match decision with
      | .approve => step.onApprove
      | .reject => step.onReject
    if next.isNone then
      throw (.transitionValidation step.id
        (match decision with
        | .approve => "decision `approve` requires `on_approve` transition target"
        | .reject => "decision `reject` requires `on_reject` transition target"))
    let next ← validateTransitionTarget workflow step next "review transition"
    return { outputs := parsed, nextStepId := next }
  | .agentTask =>
    let next := step.next.or (nextStepInWorkflow workflow step.id)
    let next ← validateTransitionTarget workflow step next "step transition"
    return { outputs := parsed, nextStepId := next }

end Direclaw.Orchestration
