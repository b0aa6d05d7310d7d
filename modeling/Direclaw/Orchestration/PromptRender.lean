import Direclaw.Lib.OrderedMap
import Direclaw.Orchestration.OutputContract
import Direclaw.Orchestration.WorkspaceAccess
import Direclaw.Prompts.Placeholders

/-!
# Rendering the prompt of a step

`orchestration/prompt_render.rs`: the values that the placeholders of the prompt and the
context of a step stand for. The JSON writers are parameters; objects keep their keys in
order, as `serde_json` maps do.
-/

namespace Direclaw.Orchestration

open Direclaw.Lib Direclaw.Prompts

/-! ## What a step is rendered from -/

structure RunMemoryContext where
  bulletin : String := ""
  citations : List String := []

structure StepSharedWorkspaceContext where
  name : String
  path : String
  description : String

/-- The arguments of `render_step_prompt` without the templates; the memory context is a
part of the run. -/
structure StepPromptContext where
  run : WorkflowRunRecord
  memoryContext : RunMemoryContext := {}
  workflow : WorkflowConfig
  step : WorkflowStepConfig
  attempt : ℕ
  runWorkspace : FilePath
  outputPaths : List (String × Location)
  stepOutputs : List (String × Outputs)
  sharedWorkspaces : List StepSharedWorkspaceContext := []

structure StepPromptRender where
  prompt : List Char
  context : List Char

/-! ## Memory -/

def memoryContextMaxBulletinChars : ℕ := 4000
def memoryContextMaxCitations : ℕ := 32

structure MemoryContextBundle where
  bulletin : List Char
  citations : List String
  truncated : Bool

def stripCarriageReturn (line : List Char) : List Char :=
  if line.getLast? = some '\r' then line.dropLast else line

/-- `str::lines`. -/
def textLines (text : List Char) : List (List Char) :=
  let pieces := text.splitOn '\n'
  pieces.dropLast.map stripCarriageReturn ++ pieces.getLast?.toList.filter (· ≠ [])

/-- The lines that fit behind `out`, how many characters they take, and whether one did
not fit. -/
def takeLines (maxChars : ℕ) : List (List Char) → List Char → ℕ → List Char × ℕ × Bool
  | [], out, used => (out, used, false)
  | line :: lines, out, used =>
    let separator := if out.isEmpty then 0 else 1
    if maxChars < used + separator + line.length then
      if out.isEmpty then (line.take maxChars, used, true) else (out, used, true)
    else
      takeLines maxChars lines ((if separator = 1 then out ++ ['\n'] else out) ++ line)
        (used + separator + line.length)

def truncateMemoryBulletinByLines (input : List Char) (maxChars : ℕ) : List Char × Bool :=
  if input.length ≤ maxChars then (input, false)
  else
    let (out, used, truncated) := takeLines maxChars (textLines input) [] 0
    (out, truncated || used < input.length)

def buildMemoryContextBundle (memoryContext : RunMemoryContext) : MemoryContextBundle :=
  let (bulletin, truncated) :=
    if memoryContextMaxBulletinChars < memoryContext.bulletin.toList.length then
      truncateMemoryBulletinByLines memoryContext.bulletin.toList memoryContextMaxBulletinChars
    else (memoryContext.bulletin.toList, false)
  { bulletin := bulletin.take memoryContextMaxBulletinChars
    citations := memoryContext.citations.take memoryContextMaxCitations
    truncated := truncated || memoryContextMaxBulletinChars < bulletin.length ||
      memoryContextMaxCitations < memoryContext.citations.length }

/-! ## State -/

/-- The engine's own entries. -/
def engineEntries (run : WorkflowRunRecord) : List (String × Json) :=
  [("run_state", .str run.state.display), ("total_iterations", .int run.totalIterations),
    ("started_at", .int run.startedAt), ("updated_at", .int run.updatedAt)] ++
  (run.currentStepId.map fun stepId => ("current_step_id", Json.str stepId)).toList ++
  (run.currentAttempt.map fun attempt => ("current_attempt", Json.int attempt)).toList

def stateKey (stepId key : String) : String := stepId ++ "_" ++ key

def outputEntries (stepOutputs : List (String × Outputs)) : List (String × Json) :=
  stepOutputs.flatMap fun held =>
    held.2.map fun output => (stateKey held.1 output.1, output.2)

/-- The map of the `state.` placeholders: the engine's entries, then those of the outputs. -/
def stateMap (run : WorkflowRunRecord) (stepOutputs : List (String × Outputs)) :
    List (String × Json) :=
  OrderedMap.ofEntries (engineEntries run ++ outputEntries stepOutputs)

/-! ## Paths -/

/-- The longest beginning of `root` that the parent lies under. -/
def popTo (parent root : Location) : Location :=
  (root.inits.reverse.find? (·.isPrefixOf parent)).getD []

def sharedRootFrom (root : Option Location) : List Location → Option Location
  | [] => root
  | path :: paths =>
    if path.isEmpty then none
    else
      match root with
      | none => sharedRootFrom (some path.dropLast) paths
      | some root => sharedRootFrom (some (popTo path.dropLast root)) paths

def displayAbsolute (path : Location) : String := FilePath.display (.ofLocation path)

def relativeTo (root : Option Location) (path : Location) : String :=
  match root with
  | some root =>
    if root.isPrefixOf path then "/".intercalate (path.drop root.length) else displayAbsolute path
  | none => displayAbsolute path

def sharedOutputRootAndPaths (outputPaths : List (String × Location)) :
    Option Location × List (String × String) :=
  let root := sharedRootFrom none (outputPaths.map (·.2))
  (root, outputPaths.map fun entry => (entry.1, relativeTo root entry.2))

/-! ## The texts that are made first -/

def object (fields : List (String × Json)) : Json := .object (OrderedMap.ofEntries fields)

namespace StepPromptContext

variable (ctx : StepPromptContext)

def memory : MemoryContextBundle := buildMemoryContextBundle ctx.memoryContext

def citationsValue : Json := .array (ctx.memory.citations.map .str)

def outputSchemaValue : Json :=
  .array (ctx.step.outputs.map fun key => .str (if key.required then key.name else key.name ++ "?"))

def outputPathsValue : Json :=
  object (ctx.outputPaths.map fun entry => (entry.1, .str (displayAbsolute entry.2)))

def runtimeContextValue : Json :=
  let (outputPathRoot, contextOutputPaths) := sharedOutputRootAndPaths ctx.outputPaths
  object [
    ("runId", .str ctx.run.runId),
    ("workflowId", .str ctx.workflow.id),
    ("stepId", .str ctx.step.id),
    ("attempt", .int ctx.attempt),
    ("runWorkspace", .str (FilePath.display ctx.runWorkspace)),
    ("inputs", .object ctx.run.inputs),
    ("state", .object (stateMap ctx.run ctx.stepOutputs)),
    ("availableStepOutputs",
      object (ctx.stepOutputs.map fun held => (held.1, .object held.2))),
    ("outputPaths", object (contextOutputPaths.map fun entry => (entry.1, .str entry.2))),
    ("outputPathRoot", (outputPathRoot.map fun root => .str (displayAbsolute root)).getD .null),
    ("memoryContext", object [
      ("bulletin", .str (String.ofList ctx.memory.bulletin)),
      ("citations", ctx.citationsValue),
      ("truncated", .bool ctx.memory.truncated),
      ("maxBulletinChars", .int memoryContextMaxBulletinChars)]),
    ("sharedWorkspaces", .array (ctx.sharedWorkspaces.map fun shared => object [
      ("name", .str shared.name), ("path", .str shared.path),
      ("description", .str shared.description)]))]

def memoryContextValue : Json :=
  object [("bulletin", .str (String.ofList ctx.memory.bulletin)), ("citations", ctx.citationsValue),
    ("truncated", .bool ctx.memory.truncated)]

def renderError (reason : String) : OrchestratorError := .stepPromptRender ctx.step.id reason

end StepPromptContext

/-- The texts that are made before a template is looked at. -/
structure ContextTexts where
  outputSchemaJson : String
  outputPathsJson : String
  runtimeContextJson : String

/-! ## The placeholders -/

/-- The segments of a dotted path that are not blank. -/
def pathSegments (path : List Char) : List (List Char) :=
  (path.splitOn '.').filter fun segment => !(Text.trim segment).isEmpty

def resolveJsonPath (value : Json) : List (List Char) → Option Json
  | [] => some value
  | segment :: segments =>
    match value.asObject with
    | none => none
    | some fields =>
      match Json.field fields (String.ofList segment) with
      | none => none
      | some next => resolveJsonPath next segments

section Resolve

variable (compact pretty : Json → Except String String)

/-- `compact` is `serde_json::to_string`. -/
def valueToRenderedText (value : Json) : Except OrchestratorError (List Char) :=
  match value with
  | .str text => .ok text.toList
  | value =>
    match compact value with
    | .ok text => .ok text.toList
    | .error err => .error (.selectorJson s!"failed to render placeholder value: {err}")

/-- The fields of the inputs that tokens stand for. -/
def inputFields : List (String × String) :=
  [("workflow.channel", "channel"), ("workflow.channel_profile_id", "channel_profile_id"),
    ("workflow.conversation_id", "conversation_id"), ("workflow.sender_id", "sender_id"),
    ("workflow.selector_id", "selector_id")]

namespace StepPromptContext

variable (ctx : StepPromptContext)

def missingRequired (token : List Char) : OrchestratorError :=
  ctx.renderError ("missing required placeholder " ++ marked token)

def unsupported (token : List Char) : OrchestratorError :=
  ctx.renderError ("unsupported placeholder " ++ marked token)

/-- `inputs.` -/
def resolveInputs (token path : List Char) : Except OrchestratorError (List Char) :=
  match resolveJsonPath (.object ctx.run.inputs) (pathSegments path) with
  | none => .error (ctx.missingRequired token)
  | some value => valueToRenderedText compact value

/-- `steps.` -/
def resolveSteps (token path : List Char) : Except OrchestratorError (List Char) :=
  match path.splitOn '.' with
  | stepId :: outputs :: segment :: segments =>
    if outputs ≠ "outputs".toList then .error (ctx.unsupported token)
    else
      match ctx.stepOutputs.lookup (String.ofList stepId) with
      | none => .error (ctx.renderError ("missing outputs for placeholder " ++ marked token))
      | some held =>
        match resolveJsonPath (.object held) (segment :: segments) with
        | none =>
          .error (ctx.renderError ("missing output key for placeholder " ++ marked token))
        | some value => valueToRenderedText compact value
  | _ => .error (ctx.unsupported token)

/-- `state.`: what is not there is empty. -/
def resolveState (path : List Char) : Except OrchestratorError (List Char) :=
  match resolveJsonPath (.object (stateMap ctx.run ctx.stepOutputs)) (pathSegments path) with
  | none => .ok []
  | some value => valueToRenderedText compact value

def writeJson (encode : Json → Except String String) (what : String) (value : Json) :
    Except OrchestratorError String :=
  (encode value).mapError fun err => ctx.renderError s!"failed to render {what}: {err}"

/-- The tokens without a path, but for those of the inputs. -/
def workflowValues (texts : ContextTexts) :
    List (String × Except OrchestratorError (List Char)) :=
  [("workflow.run_id", .ok ctx.run.runId.toList), ("workflow.step_id", .ok ctx.step.id.toList),
    ("workflow.attempt", .ok (Text.decimal ctx.attempt)),
    ("workflow.run_workspace", .ok (FilePath.display ctx.runWorkspace).toList),
    ("workflow.output_schema_json", .ok texts.outputSchemaJson.toList),
    ("workflow.output_paths_json", .ok texts.outputPathsJson.toList),
    ("workflow.runtime_context_json", .ok texts.runtimeContextJson.toList),
    ("workflow.memory_context_bulletin", .ok ctx.memory.bulletin),
    ("workflow.memory_context_citations",
      (ctx.writeJson compact "memory context citations" ctx.citationsValue).map String.toList),
    ("workflow.memory_context_json",
      (ctx.writeJson compact "memory context json" ctx.memoryContextValue).map String.toList)]

def resolveToken (texts : ContextTexts) (token : List Char) :
    Except OrchestratorError (List Char) :=
  match Text.stripPrefix "inputs.".toList token with
  | some path => ctx.resolveInputs compact token path
  | none =>
    match Text.stripPrefix "steps.".toList token with
    | some path => ctx.resolveSteps compact token path
    | none =>
      match Text.stripPrefix "state.".toList token with
      | some path => ctx.resolveState compact path
      | none =>
        match (ctx.workflowValues compact texts).lookup (String.ofList token) with
        | some result => result
        | none =>
          match Text.stripPrefix "workflow.output_paths.".toList token with
          | some key =>
            match ctx.outputPaths.lookup (String.ofList key) with
            | some path => .ok (displayAbsolute path).toList
            | none => .error
                (ctx.renderError ("missing output path for placeholder " ++ marked token))
          | none =>
            match inputFields.lookup (String.ofList token) with
            | some field =>
              match Json.field ctx.run.inputs field with
              | some value => valueToRenderedText compact value
              | none => .error (ctx.missingRequired token)
            | none => .error (ctx.unsupported token)

def contextTexts : Except OrchestratorError ContextTexts := do
  let outputSchemaJson ← ctx.writeJson compact "output schema json" ctx.outputSchemaValue
  let outputPathsJson ← ctx.writeJson pretty "output paths json" ctx.outputPathsValue
  let runtimeContextJson ← ctx.writeJson pretty "runtime context json" ctx.runtimeContextValue
  return { outputSchemaJson, outputPathsJson, runtimeContextJson }

def renderTemplate (texts : ContextTexts) (template : List Char) :
    Except OrchestratorError (List Char) :=
  (renderTemplateWithPlaceholders
    (fun token => (ctx.resolveToken compact texts token).mapError OrchestratorError.display)
    template).mapError ctx.renderError

def renderStepPrompt (promptTemplate contextTemplate : List Char) :
    Except OrchestratorError StepPromptRender := do
  let texts ← ctx.contextTexts compact pretty
  let prompt ← ctx.renderTemplate compact texts promptTemplate
  let context ← ctx.renderTemplate compact texts contextTemplate
  return { prompt, context }

end StepPromptContext

end Resolve

/-! ## Accepted templates -/

section Accepted

variable {compact pretty : Json → Except String String} {ctx : StepPromptContext}
variable {texts : ContextTexts} {token : List Char} {err : OrchestratorError}

/-- An error about the values of a token, not about the token: its reason begins with
`missing` or `failed`. -/
inductive ValueError (ctx : StepPromptContext) : OrchestratorError → Prop where
  | json (reason : String) : ValueError ctx (.selectorJson reason)
  | missing (reason : String) (h : reason.toList.head? = some 'm') :
      ValueError ctx (ctx.renderError reason)
  | failed (reason : String) (h : reason.toList.head? = some 'f') :
      ValueError ctx (ctx.renderError reason)

theorem head?_append {s t : String} {c : Char} (h : s.toList.head? = some c) :
    (s ++ t).toList.head? = some c := by
  rw [String.toList_append, List.head?_append, h]
  rfl

theorem valueError_of_rendered {value : Json}
    (h : valueToRenderedText compact value = .error err) : ValueError ctx err := by
  unfold valueToRenderedText at h
  split at h
  · cases h
  · split at h
    · cases h
    · cases h
      exact .json _

variable {value : Json}

theorem valueError_of_written {encode : Json → Except String String} {what : String}
    (h : ctx.writeJson encode what value = .error err) : ValueError ctx err := by
  unfold StepPromptContext.writeJson at h
  cases hencode : encode value with
  | ok text =>
    rw [hencode] at h
    cases h
  | error reason =>
    rw [hencode] at h
    cases h
    exact .failed _ (head?_append (head?_append (head?_append (by decide))))

theorem valueError_of_inputs {path : List Char}
    (h : ctx.resolveInputs compact token path = .error err) : ValueError ctx err := by
  unfold StepPromptContext.resolveInputs at h
  split at h
  · cases h
    exact .missing _ (head?_append (by decide))
  · exact valueError_of_rendered h

theorem valueError_of_state {path : List Char}
    (h : ctx.resolveState compact path = .error err) : ValueError ctx err := by
  unfold StepPromptContext.resolveState at h
  split at h
  · cases h
  · exact valueError_of_rendered h

/-- The check has looked at the shape of a path into outputs. -/
theorem valueError_of_steps {path stepId segment : List Char} {segments : List (List Char)}
    (hpath : path.splitOn '.' = stepId :: "outputs".toList :: segment :: segments)
    (h : ctx.resolveSteps compact token path = .error err) : ValueError ctx err := by
  rw [StepPromptContext.resolveSteps, hpath] at h
  dsimp only at h
  rw [if_neg (not_not_intro rfl)] at h
  split at h
  · cases h
    exact .missing _ (head?_append (by decide))
  · split at h
    · cases h
      exact .missing _ (head?_append (by decide))
    · exact valueError_of_rendered h

theorem valueError_of_workflowValues {name : String}
    (h : (name, .error err) ∈ ctx.workflowValues compact texts) : ValueError ctx err := by
  have hwritten : ∀ {what value}, Except.error err =
      (ctx.writeJson compact what value).map String.toList → ValueError ctx err := by
    intro what value heq
    cases hwrite : ctx.writeJson compact what value with
    | ok text =>
      rw [hwrite] at heq
      cases heq
    | error held =>
      rw [hwrite] at heq
      cases heq
      exact valueError_of_written hwrite
  simp only [StepPromptContext.workflowValues, List.mem_cons, Prod.mk.injEq, List.not_mem_nil,
    or_false, reduceCtorEq, and_false, false_or] at h
  rcases h with ⟨-, heq⟩ | ⟨-, heq⟩
  · exact hwritten heq
  · exact hwritten heq

theorem lookup_of_mem_workflowTokens {name : String} (h : name ∈ workflowTokens) :
    (ctx.workflowValues compact texts).lookup name ≠ none ∨ inputFields.lookup name ≠ none := by
  have hkeys : workflowTokens =
      (ctx.workflowValues compact texts).map (·.1) ++ inputFields.map (·.1) := rfl
  have hlookup : ∀ {α : Type} {entries : List (String × α)}, name ∈ entries.map (·.1) →
      entries.lookup name ≠ none := by
    intro α entries hmem hnone
    obtain ⟨entry, hentry, rfl⟩ := List.mem_map.mp hmem
    simpa using List.lookup_eq_none_iff.mp hnone entry hentry
  rw [hkeys] at h
  exact (List.mem_append.mp h).imp hlookup hlookup

theorem stripPrefix_eq_some {pat s rest : List Char} (h : Text.stripPrefix pat s = some rest) :
    s = pat ++ rest := by
  unfold Text.stripPrefix at h
  split at h
  · next hprefix =>
      cases h
      exact (Text.isPrefixOf_append hprefix).symm
  · cases h

theorem outputs_path_of_supported (hsupported : isSupportedStepPlaceholder token = true)
    (hinputs : Text.stripPrefix "inputs.".toList token = none)
    (hsteps : Text.stripPrefix "steps.".toList token = some path) :
    ∃ stepId segment segments,
      path.splitOn '.' = stepId :: "outputs".toList :: segment :: segments := by
  have hstate : Text.stripPrefix "state.".toList token = none := by
    rw [stripPrefix_eq_some hsteps]
    rfl
  unfold isSupportedStepPlaceholder at hsupported
  rw [hinputs, hstate, hsteps] at hsupported
  dsimp only at hsupported
  split at hsupported
  · next stepId outputs segment segments hsegments =>
      simp only [Bool.and_eq_true, decide_eq_true_eq] at hsupported
      exact ⟨stepId, segment, segments, hsupported.1.1 ▸ hsegments⟩
  · cases hsupported

theorem mem_workflowTokens_of_supported (hsupported : isSupportedStepPlaceholder token = true)
    (hinputs : Text.stripPrefix "inputs.".toList token = none)
    (hsteps : Text.stripPrefix "steps.".toList token = none)
    (hstate : Text.stripPrefix "state.".toList token = none)
    (hpaths : Text.stripPrefix "workflow.output_paths.".toList token = none) :
    String.ofList token ∈ workflowTokens := by
  unfold isSupportedStepPlaceholder at hsupported
  rw [hinputs, hstate, hsteps, hpaths] at hsupported
  dsimp only at hsupported
  split at hsupported
  · next hmem => exact hmem
  · cases hsupported

theorem valueError_of_resolveToken (hsupported : isSupportedStepPlaceholder token = true)
    (h : ctx.resolveToken compact texts token = .error err) : ValueError ctx err := by
  unfold StepPromptContext.resolveToken at h
  split at h
  · exact valueError_of_inputs h
  · next hinputs =>
      split at h
      · next path hsteps =>
          obtain ⟨_, _, _, hpath⟩ := outputs_path_of_supported hsupported hinputs hsteps
          exact valueError_of_steps hpath h
      · next hsteps =>
          split at h
          · exact valueError_of_state h
          · next hstate =>
              split at h
              · next result hresult =>
                  rw [h] at hresult
                  exact valueError_of_workflowValues (OrderedMap.mem_of_lookup hresult)
              · next hvalues =>
                  split at h
                  · -- the path of an output, which the step may not have
                    split at h
                    · cases h
                    · cases h
                      exact .missing _ (head?_append (by decide))
                  · next hpaths =>
                      split at h
                      · -- a field of the run's inputs, which the run may not have
                        split at h
                        · exact valueError_of_rendered h
                        · cases h
                          exact .missing _ (head?_append (by decide))
                      · next hfields =>
                          -- no case is left for a supported token
                          have hmem := mem_workflowTokens_of_supported hsupported hinputs hsteps
                            hstate hpaths
                          rcases lookup_of_mem_workflowTokens hmem with hvalue | hfield
                          · exact absurd hvalues hvalue
                          · exact absurd hfields hfield

/-- A fault of the template: a placeholder that is not closed, empty, or not supported. -/
def PlaceholderFault (ctx : StepPromptContext) (err : OrchestratorError) : Prop :=
  err = ctx.renderError unclosedPlaceholder ∨ err = ctx.renderError emptyPlaceholder ∨
    ∃ token, err = ctx.renderError (ctx.unsupported token).display

theorem renderError_inj {reason reason' : String}
    (h : ctx.renderError reason = ctx.renderError reason') : reason = reason' := by
  cases h
  rfl

theorem head?_display_renderError (reason : String) :
    (ctx.renderError reason).display.toList.head? = some 's' :=
  head?_append (head?_append (head?_append (by decide)))

theorem display_renderError (reason : String) : (ctx.renderError reason).display =
    ("step prompt render failed for step `" ++ ctx.step.id ++ "`: ") ++ reason := rfl

theorem display_renderError_inj {reason reason' : String}
    (h : (ctx.renderError reason).display = (ctx.renderError reason').display) :
    reason = reason' := by
  rw [display_renderError, display_renderError] at h
  have hlist := congrArg String.toList h
  simp only [String.toList_append] at hlist
  exact String.toList_inj.mp (List.append_cancel_left hlist)

theorem take_append {s t : String} {n : ℕ} {start : List Char} (hlength : start.length = n)
    (h : s.toList.take n = start) : (s ++ t).toList.take n = start := by
  rw [String.toList_append, List.take_append_of_le_length, h]
  rw [← hlength, ← h, List.length_take]
  omega

theorem display_selectorJson_ne (reason reason' : String) :
    (OrchestratorError.selectorJson reason).display ≠ (ctx.renderError reason').display := by
  intro h
  have hjson : ("selector result is not valid json: " ++ reason).toList.take 2 = ['s', 'e'] :=
    take_append rfl (by decide)
  have hrender : ("step prompt render failed for step `" ++ ctx.step.id ++ "`: " ++
      reason').toList.take 2 = ['s', 't'] :=
    take_append rfl (take_append rfl (take_append rfl (by decide)))
  have hsame : "selector result is not valid json: " ++ reason =
      "step prompt render failed for step `" ++ ctx.step.id ++ "`: " ++ reason' := h
  rw [hsame, hrender] at hjson
  cases hjson

/-- The JSON texts fail with a reason of their own. -/
theorem not_placeholderFault_of_failed {reason : String} (h : reason.toList.head? = some 'f') :
    ¬ PlaceholderFault ctx (ctx.renderError reason) := by
  have hdiffers : ∀ {other : String} {c : Char}, other.toList.head? = some c → c ≠ 'f' →
      ctx.renderError reason ≠ ctx.renderError other := by
    intro other c hother hc heq
    rw [renderError_inj heq, hother] at h
    exact hc (Option.some.inj h)
  -- the faults of a template begin with other letters
  rintro (heq | heq | ⟨token, heq⟩)
  · exact hdiffers (c := 'u') (by decide) (by decide) heq
  · exact hdiffers (c := 'e') (by decide) (by decide) heq
  · exact hdiffers (head?_display_renderError _) (by decide) heq

/-- An error about values does not read as a fault of the template. -/
theorem not_placeholderFault_of_valueError (h : ValueError ctx err) :
    ¬ PlaceholderFault ctx (ctx.renderError err.display) := by
  have hs : err.display.toList.head? = some 's' := by
    cases h with
    | json reason => exact head?_append (by decide)
    | missing reason => exact head?_display_renderError reason
    | failed reason => exact head?_display_renderError reason
  rintro (heq | heq | ⟨token, heq⟩)
  · rw [renderError_inj heq] at hs
    cases hs
  · rw [renderError_inj heq] at hs
    cases hs
  · -- an unsupported placeholder is reported with an `s` too, so the reasons are compared
    have hsame := renderError_inj heq
    have hu : ("unsupported placeholder " ++ marked token).toList.head? = some 'u' :=
      head?_append (by decide)
    cases h with
    | json reason => exact display_selectorJson_ne reason _ hsame
    | missing reason hm =>
      rw [display_renderError_inj hsame, hu] at hm
      cases hm
    | failed reason hf =>
      rw [display_renderError_inj hsame, hu] at hf
      cases hf

/-- What the check of a template accepts, renders or lacks a value. -/
theorem not_placeholderFault_of_renderTemplate {template : List Char}
    (haccepted : validateTemplatePlaceholders template "step" = .ok ())
    (h : ctx.renderTemplate compact texts template = .error err) : ¬ PlaceholderFault ctx err := by
  obtain ⟨checked, hchecked, -⟩ := bind_eq_ok haccepted
  unfold StepPromptContext.renderTemplate at h
  cases hrender : renderTemplateWithPlaceholders
      (fun token => (ctx.resolveToken compact texts token).mapError OrchestratorError.display)
      template with
  | ok rendered =>
    rw [hrender] at h
    cases h
  | error reason =>
    rw [hrender] at h
    cases h
    obtain ⟨token, value, htoken, hreason⟩ := render_error_of_render_ok hchecked hrender
    have hsupported : isSupportedStepPlaceholder token = true := by
      unfold checkToken at htoken
      by_contra hnot
      simp [hnot] at htoken
    cases hresolve : ctx.resolveToken compact texts token with
    | ok value =>
      rw [hresolve] at hreason
      cases hreason
    | error held =>
      rw [hresolve] at hreason
      cases hreason
      exact not_placeholderFault_of_valueError (valueError_of_resolveToken hsupported hresolve)

theorem not_placeholderFault_of_writeJson {encode : Json → Except String String} {what : String}
    (h : ctx.writeJson encode what value = .error err) : ¬ PlaceholderFault ctx err := by
  unfold StepPromptContext.writeJson at h
  cases hencode : encode value with
  | ok text =>
    rw [hencode] at h
    cases h
  | error reason =>
    rw [hencode] at h
    cases h
    exact not_placeholderFault_of_failed (head?_append (head?_append (head?_append (by decide))))

theorem not_placeholderFault_of_contextTexts (h : ctx.contextTexts compact pretty = .error err) :
    ¬ PlaceholderFault ctx err := by
  unfold StepPromptContext.contextTexts at h
  rcases bind_eq_error h with h | ⟨schema, -, h⟩
  · exact not_placeholderFault_of_writeJson h
  · rcases bind_eq_error h with h | ⟨paths, -, h⟩
    · exact not_placeholderFault_of_writeJson h
    · rcases bind_eq_error h with h | ⟨runtime, -, h⟩
      · exact not_placeholderFault_of_writeJson h
      · cases h

end Accepted

/-- **Placeholders.** Accepted templates never fail to render for a placeholder that is not
supported, empty or not closed, whatever the run; and what a scan renders is the template's
literal segments with the resolver's values between them, in order and as they are. -/
theorem validation_and_rendering_agree :
    (∀ compact pretty ctx promptTemplate contextTemplate err,
      validateTemplatePlaceholders promptTemplate "step" = .ok () →
      validateTemplatePlaceholders contextTemplate "step" = .ok () →
      StepPromptContext.renderStepPrompt compact pretty ctx promptTemplate contextTemplate =
        .error err → ¬ PlaceholderFault ctx err) ∧
    ∀ resolve template out, renderTemplateWithPlaceholders resolve template = .ok out ↔
      ∃ parts tail values, Text.Delimited openMark closeMark template parts tail ∧
        ¬ openMark <:+: tail ∧ List.Forall₂ (Fills resolve) parts values ∧
          out = filled parts values ++ tail := by
  refine ⟨?_, fun resolve template out => render_ok_iff⟩
  intro compact pretty ctx promptTemplate contextTemplate err hprompt hcontext h
  unfold StepPromptContext.renderStepPrompt at h
  rcases bind_eq_error h with h | ⟨texts, -, h⟩
  · exact not_placeholderFault_of_contextTexts h
  · rcases bind_eq_error h with h | ⟨prompt, -, h⟩
    · exact not_placeholderFault_of_renderTemplate hprompt h
    · rcases bind_eq_error h with h | ⟨context, -, h⟩
      · exact not_placeholderFault_of_renderTemplate hcontext h
      · cases h

/-- A value that looks like a placeholder is copied. -/
example : renderTemplateWithPlaceholders (fun _ => .ok "\x7b\x7bstate.x\x7d\x7d".toList)
    "a \x7b\x7b inputs.b \x7d\x7d c".toList = .ok "a \x7b\x7bstate.x\x7d\x7d c".toList := rfl

/-- A run without inputs. -/
def greetingContext : StepPromptContext where
  run := { runId := "run-1", workflowId := "flow", state := .running, startedAt := 0, updatedAt := 0 }
  workflow := { id := "flow", steps := [] }
  step := {
    id := "greet"
    agent := "router"
    outputs := [⟨"summary", true⟩]
    outputFiles := []
    finalOutputPriority := [] }
  attempt := 1
  runWorkspace := .ofLocation ["state", "work", "runs", "run-1"]
  outputPaths := []
  stepOutputs := []

def greetingTemplate : List Char := "Greet \x7b\x7binputs.name\x7d\x7d.".toList

/-- The name is missing, which is no fault of the template. -/
theorem greeting_without_name :
    ∃ err, StepPromptContext.renderStepPrompt (fun _ => .ok "") (fun _ => .ok "") greetingContext
      greetingTemplate greetingTemplate = .error err ∧ ¬ PlaceholderFault greetingContext err :=
  ⟨_, rfl, validation_and_rendering_agree.1 (fun _ => .ok "") (fun _ => .ok "") greetingContext
    greetingTemplate greetingTemplate _ rfl rfl rfl⟩

end Direclaw.Orchestration
