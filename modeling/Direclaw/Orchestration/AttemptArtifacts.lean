import Direclaw.Lib.FileTree
import Direclaw.Config.SetupInvariants
import Direclaw.Orchestration.AttemptPaths
import Direclaw.Orchestration.ConfigValidation
import Direclaw.Orchestration.OutputReports
import Direclaw.Orchestration.Transitions

/-!
# The files of an attempt

The prompt files, the log of the invocation, the declared outputs and the record of an
attempt share one directory. `step_execution.rs`, `output_contract.rs` and `run_store.rs`
each write theirs; only the first three names are kept from the templates of a step. The
directory holds no links, and its path is in normal form.
-/

namespace Direclaw.Orchestration

open Direclaw.Lib

/-! ## Writing -/

def treeErrorText : FileTreeError → String
  | .notFound => "No such file or directory (os error 2)"
  | .alreadyExists => "File exists (os error 17)"
  | .notADirectory => "Not a directory (os error 20)"
  | .isADirectory => "Is a directory (os error 21)"

def treeErrorKind : FileTreeError → IoErrorKind
  | .notFound => .notFound
  | err => .other (treeErrorText err)

def displayLocation (loc : Location) : String := FilePath.display (.ofLocation loc)

/-- A call on the tree, with the path that its error names. -/
def onTree (path : Location) (result : Except FileTreeError FileTree) :
    Except OrchestratorError FileTree :=
  result.mapError fun err => .io (displayLocation path) (treeErrorKind err)

/-- One file of `write_file_backed_prompt`, whose errors are errors of the step. -/
def writePromptFile (stepId : String) (path : Location) (text : String) (tree : FileTree) :
    Except OrchestratorError FileTree :=
  (tree.write path text).mapError fun err =>
    .stepExecution stepId s!"io error at {displayLocation path}: {treeErrorText err}"

section Attempt

variable (fromStr : String → Option Json) (pretty : Json → String)

/-- The text of an output; `pretty` is `serde_json::to_vec_pretty`. -/
def outputText : Json → String
  | .str text => text
  | value => pretty value

def writeOutput (step : WorkflowStepConfig) (path : Location) (value : Json) (tree : FileTree) :
    Except OrchestratorError FileTree :=
  if step.promptType = .workflowResultEnvelope then do
    let tree ← onTree path.dropLast (tree.createDirAll path.dropLast)
    onTree path (tree.write path (outputText pretty value))
  else .ok tree

/-- One key of the contract; the tree so far and the paths that are recorded. -/
def materializeOutputKey (step : WorkflowStepConfig) (outputs : Outputs)
    (paths : List (String × Location)) (state : FileTree × List (String × String))
    (key : OutputKey) : Except OrchestratorError (FileTree × List (String × String)) :=
  match Json.field outputs key.name with
  | none => .ok state
  | some value =>
    match paths.lookup key.name with
    | none => .error (.outputContractValidation step.id (unmappedReason key.name))
    | some path => do
        let tree ← writeOutput pretty step path value state.1
        return (tree, OrderedMap.insert key.name (displayLocation path) state.2)

def materializeOutputFiles (step : WorkflowStepConfig) (outputs : Outputs)
    (paths : List (String × Location)) (tree : FileTree) :
    Except OrchestratorError (FileTree × List (String × String)) :=
  if paths.isEmpty then .ok (tree, [])
  else step.outputs.foldlM (materializeOutputKey pretty step outputs paths) (tree, [])

/-- What an attempt gets from elsewhere: the rendered prompt and context, the log of the
invocation, what the provider does in the directory, and its answer. -/
structure AttemptCall where
  prompt : String
  context : String
  log : String
  provider : FileTree → FileTree
  answer : ProviderOutcome

/-- What `evaluate_step_result` evaluates. -/
def parsedOutputs (step : WorkflowStepConfig) (paths : List (String × Location))
    (tree : FileTree) : ProviderOutcome → Except OrchestratorError Outputs
  | .failure err => .error err
  | .outputs parsed =>
    match step.promptType with
    | .workflowResultEnvelope => .ok parsed
    | .fileOutput =>
      loadOutputsFromFiles fromStr step paths fun path => (tree.text path).map .text

structure PersistedAttempt where
  tree : FileTree
  evaluation : StepEvaluation
  outputFiles : List (String × String)

variable (recordText : StepEvaluation → List (String × String) → String)

/-- `execute_step_attempt` and, where it succeeds, `persist_step_attempt`, as far as they
touch the directory; `recordText` is the text of the attempt's record. -/
def runAttempt (stateRoot : FilePath) (runId : String) (workflow : WorkflowConfig)
    (step : WorkflowStepConfig) (attempt : ℕ) (tree : FileTree) (call : AttemptCall) :
    Except OrchestratorError PersistedAttempt := do
  let paths ← resolveStepOutputPaths stateRoot runId step attempt
  let root ← attemptRoot stateRoot runId step.id attempt
  let tree ← onTree root (tree.createDirAll root)
  let tree ← writePromptFile step.id (root ++ ["prompt.md"]) call.prompt tree
  let tree ← writePromptFile step.id (root ++ ["context.md"]) call.context tree
  let tree := call.provider tree
  let tree ← onTree root (tree.write (root ++ ["provider_invocation.json"]) call.log)
  let parsed ← parsedOutputs fromStr step paths tree call.answer
  let evaluation ← evaluateStepResult workflow step parsed
  let (tree, outputFiles) ← materializeOutputFiles pretty step evaluation.outputs paths tree
  let tree ← onTree root (tree.createDirAll root)
  let tree ← onTree (root ++ ["result.json"])
    (tree.write (root ++ ["result.json"]) (recordText evaluation outputFiles))
  return { tree, evaluation, outputFiles }

/-! ## What is asked -/

/-- The files that the engine writes for itself. -/
def engineFiles : List String :=
  ["prompt.md", "context.md", "provider_invocation.json", "result.json"]

/-- The provider leaves alone what it was given to read. -/
def AttemptCall.KeepsPrompt (call : AttemptCall) (root : Location) : Prop :=
  ∀ tree, ∀ name ∈ ["prompt.md", "context.md"],
    call.provider tree (root ++ [name]) = tree (root ++ [name])

/-- The text of a file is the value of its key, written or read. -/
def HoldsValue (step : WorkflowStepConfig) (text : String) (value : Json) : Prop :=
  match step.promptType with
  | .workflowResultEnvelope => text = outputText pretty value
  | .fileOutput => outputFileValue fromStr text = value

/-- Every file of a persisted attempt is its writer's. -/
structure FilesKept (root : Location) (step : WorkflowStepConfig)
    (paths : List (String × Location)) (call : AttemptCall) (result : PersistedAttempt) :
    Prop where
  outputs : ∀ key ∈ step.outputs, ∀ value,
    Json.field result.evaluation.outputs key.name = some value →
      ∃ path text, paths.lookup key.name = some path ∧
        result.outputFiles.lookup key.name = some (displayLocation path) ∧
          result.tree path = some (.file text) ∧ HoldsValue fromStr pretty step text value
  prompt : result.tree (root ++ ["prompt.md"]) = some (.file call.prompt)
  context : result.tree (root ++ ["context.md"]) = some (.file call.context)
  invocation : result.tree (root ++ ["provider_invocation.json"]) = some (.file call.log)
  record : result.tree (root ++ ["result.json"]) =
    some (.file (recordText result.evaluation result.outputFiles))

/-- No output path names a file of the engine or lies under one. -/
def ClearOfEngine (root : Location) (paths : List (String × Location)) : Prop :=
  ∀ key path, paths.lookup key = some path → ∀ name ∈ engineFiles, ¬ root ++ [name] <+: path

def OwnFileEach (paths : List (String × Location)) : Prop :=
  ∀ key key' path, paths.lookup key = some path → paths.lookup key' = some path → key = key'

/-- Outputs and engine files never clobber each other in the attempt. -/
structure NeverClobbered (stateRoot : FilePath) (runId : String) (workflow : WorkflowConfig)
    (step : WorkflowStepConfig) (attempt : ℕ) (root : Location) (paths : List (String × Location)) :
    Prop where
  clear : ClearOfEngine root paths
  own : OwnFileEach paths
  kept : ∀ tree call result, AttemptCall.KeepsPrompt call root →
    runAttempt fromStr pretty recordText stateRoot runId workflow step attempt tree call =
      .ok result → FilesKept fromStr pretty recordText root step paths call result

end Attempt

/-! ## Which templates -/

/-- The components that an entry of `output_files` comes to. -/
def entryComponents (runId stepId : String) (attempt : ℕ) (entry : String × String) :
    List TemplateComponent :=
  templateComponents (interpolateOutputTemplate entry.2.toList runId stepId attempt)

/-- No template starts with the name of an engine file, and no two come to the same
components. -/
structure TemplatesApart (runId : String) (step : WorkflowStepConfig) (attempt : ℕ) : Prop where
  clear : ∀ entry ∈ step.outputFiles, ∀ name ∈ engineFiles,
    (entryComponents runId step.id attempt entry).head? ≠ some (.normal name)
  distinct : ∀ entry ∈ step.outputFiles, ∀ entry' ∈ step.outputFiles,
    entryComponents runId step.id attempt entry = entryComponents runId step.id attempt entry' →
      entry.1 = entry'.1

/-! ## The outputs -/

section Outputs

variable {fromStr : String → Option Json} {pretty : Json → String} {step : WorkflowStepConfig}
variable {outputs : Outputs} {paths : List (String × Location)}

theorem onTree_eq_ok {path : Location} {result : Except FileTreeError FileTree} {tree : FileTree}
    (h : onTree path result = .ok tree) : result = .ok tree := mapError_eq_ok h

/-- What one key of the contract does to the tree. -/
structure Materialized (pretty : Json → String) (step : WorkflowStepConfig) (path : Location)
    (value : Json) (tree tree' : FileTree) : Prop where
  held : step.promptType = .workflowResultEnvelope →
    tree' path = some (.file (outputText pretty value))
  untouched : step.promptType = .fileOutput → tree' = tree
  kept : ∀ loc text, loc ≠ path → tree loc = some (.file text) → tree' loc = some (.file text)

theorem materialized_writeOutput {path : Location} {value : Json} {tree tree' : FileTree}
    (h : writeOutput pretty step path value tree = .ok tree') :
    Materialized pretty step path value tree tree' := by
  unfold writeOutput at h
  split at h
  · next henvelope =>
      obtain ⟨mid, hmid, hwrite⟩ := bind_eq_ok h
      have hdirs := FileTree.growsByDirs_createDirAll (onTree_eq_ok hmid)
      have hwritten := onTree_eq_ok hwrite
      refine ⟨fun _ => FileTree.write_self hwritten, fun hfile => ?_, ?_⟩
      · rw [henvelope] at hfile
        cases hfile
      · intro loc text hne hloc
        rw [FileTree.write_of_ne hwritten hne]
        exact hdirs.kept loc _ hloc
  · next hother =>
      cases h
      exact ⟨fun henvelope => absurd henvelope hother, fun _ => rfl, fun _ _ _ h => h⟩

theorem materializeOutputKey_ok {state state' : FileTree × List (String × String)}
    {key : OutputKey} (h : materializeOutputKey pretty step outputs paths state key = .ok state') :
    (Json.field outputs key.name = none ∧ state' = state) ∨
      ∃ value path, Json.field outputs key.name = some value ∧
        paths.lookup key.name = some path ∧
          state'.2 = OrderedMap.insert key.name (displayLocation path) state.2 ∧
            Materialized pretty step path value state.1 state'.1 := by
  unfold materializeOutputKey at h
  split at h
  · next hnone =>
      cases h
      exact .inl ⟨hnone, rfl⟩
  · next value hvalue =>
      split at h
      · cases h
      · next path hpath =>
          obtain ⟨tree, htree, h⟩ := bind_eq_ok h
          cases h
          exact .inr ⟨value, path, hvalue, hpath, rfl, materialized_writeOutput htree⟩

section Fold

variable {keys : List OutputKey} {state final : FileTree × List (String × String)}

theorem materialize_kept
    (h : keys.foldlM (materializeOutputKey pretty step outputs paths) state = .ok final)
    {loc : Location} (hloc : ∀ key, paths.lookup key ≠ some loc) {text : String}
    (htext : state.1 loc = some (.file text)) : final.1 loc = some (.file text) := by
  refine foldlM_invariant (P := fun state : FileTree × List (String × String) =>
    state.1 loc = some (.file text)) ?_ htext h
  intro state key state' hstate hstep
  rcases materializeOutputKey_ok hstep with ⟨-, rfl⟩ | ⟨value, path, -, hpath, -, hdone⟩
  · exact hstate
  · refine hdone.kept loc text ?_ hstate
    rintro rfl
    exact hloc key.name hpath

theorem materialize_untouched (hfile : step.promptType = .fileOutput)
    (h : keys.foldlM (materializeOutputKey pretty step outputs paths) state = .ok final) :
    final.1 = state.1 := by
  refine foldlM_invariant (P := fun held : FileTree × List (String × String) =>
    held.1 = state.1) ?_ rfl h
  intro held key held' hheld hstep
  rcases materializeOutputKey_ok hstep with ⟨-, rfl⟩ | ⟨value, path, -, -, -, hdone⟩
  · exact hheld
  · exact (hdone.untouched hfile).trans hheld

/-- The output of a key is where its path says, whatever is written behind it. -/
theorem materialize_held (hown : OwnFileEach paths)
    (h : keys.foldlM (materializeOutputKey pretty step outputs paths) state = .ok final)
    {name : String} {value : Json} {path : Location}
    (hvalue : Json.field outputs name = some value) (hpath : paths.lookup name = some path)
    (hname : name ∈ keys.map (·.name) ∨
      state.2.lookup name = some (displayLocation path) ∧
        (step.promptType = .workflowResultEnvelope →
          state.1 path = some (.file (outputText pretty value)))) :
    final.2.lookup name = some (displayLocation path) ∧
      (step.promptType = .workflowResultEnvelope →
        final.1 path = some (.file (outputText pretty value))) := by
  induction keys generalizing state with
  | nil =>
    cases h
    exact hname.resolve_left nofun
  | cons key keys ih =>
    rw [List.foldlM_cons] at h
    obtain ⟨next, hnext, hrest⟩ := bind_eq_ok h
    refine ih hrest ?_
    rcases materializeOutputKey_ok hnext with
      ⟨hnone, rfl⟩ | ⟨value', path', hvalue', hpath', hrecorded, hdone⟩
    · -- a key without a value is not the one asked for
      refine hname.imp_left fun hmem => (List.mem_cons.mp hmem).resolve_left ?_
      rintro rfl
      rw [hnone] at hvalue
      cases hvalue
    · by_cases hsame : name = key.name
      · subst hsame
        rw [hvalue] at hvalue'
        rw [hpath] at hpath'
        cases hvalue'
        cases hpath'
        refine .inr ⟨?_, hdone.held⟩
        rw [hrecorded, OrderedMap.lookup_insert_self]
      · -- another key writes a file of its own
        have hne : path ≠ path' := by
          rintro rfl
          exact hsame (hown _ _ _ hpath hpath')
        refine hname.imp (fun hmem => (List.mem_cons.mp hmem).resolve_left hsame) ?_
        rintro ⟨hheld, htext⟩
        refine ⟨?_, fun henvelope => hdone.kept path _ hne (htext henvelope)⟩
        rw [hrecorded, OrderedMap.lookup_insert_of_ne hsame, hheld]

end Fold

theorem outputs_of_evaluateStepResult {workflow : WorkflowConfig} {evaluation : StepEvaluation}
    (h : evaluateStepResult workflow step outputs = .ok evaluation) :
    evaluation.outputs = outputs := by
  unfold evaluateStepResult at h
  obtain ⟨_, -, h⟩ := bind_eq_ok h
  split at h
  · obtain ⟨decision, -, h⟩ := bind_eq_ok h
    rw [throw_if_ok_iff] at h
    obtain ⟨next, -, h⟩ := bind_eq_ok h.2
    cases h
    rfl
  · obtain ⟨next, -, h⟩ := bind_eq_ok h
    cases h
    rfl

theorem read_of_loadOutputsFromFiles {disk : OutputDisk}
    (h : loadOutputsFromFiles fromStr step paths disk = .ok outputs) {name : String} {value : Json}
    (hvalue : Json.field outputs name = some value) :
    ∃ path text, paths.lookup name = some path ∧ disk path = some (.text text) ∧
      outputFileValue fromStr text = value := by
  unfold loadOutputsFromFiles at h
  split at h
  · cases h
    cases hvalue
  · split at h
    · cases h
    · next loaded missing hload =>
        have hread : ∀ name value, Json.field loaded name = some value →
            ∃ path text, paths.lookup name = some path ∧ disk path = some (.text text) ∧
              outputFileValue fromStr text = value := by
          refine foldlM_invariant (P := fun held : Outputs × List String =>
            ∀ name value, Json.field held.1 name = some value →
              ∃ path text, paths.lookup name = some path ∧ disk path = some (.text text) ∧
                outputFileValue fromStr text = value) ?_ ?_ hload
          · intro held key held' hheld hstep name value hvalue
            unfold loadOutputKey at hstep
            split at hstep
            · cases hstep
            · next path hpath =>
                split at hstep
                · cases hstep
                  exact hheld name value hvalue
                · cases hstep
                · next raw hraw =>
                    cases hstep
                    by_cases hname : name = key.name
                    · subst hname
                      rw [Json.field, OrderedMap.lookup_insert_self] at hvalue
                      cases hvalue
                      exact ⟨path, raw, hpath, hraw, rfl⟩
                    · rw [Json.field, OrderedMap.lookup_insert_of_ne hname] at hvalue
                      exact hheld name value hvalue
          · intro name value hnone
            cases hnone
        split at h
        · cases h
          exact hread name value hvalue
        · cases h

end Outputs

/-! ## The whole attempt -/

section Whole

variable {fromStr : String → Option Json} {pretty : Json → String}
variable {recordText : StepEvaluation → List (String × String) → String}
variable {stateRoot : FilePath} {runId : String} {workflow : WorkflowConfig}
variable {step : WorkflowStepConfig} {attempt : ℕ} {root : Location}
variable {paths : List (String × Location)} {tree : FileTree} {call : AttemptCall}
variable {result : PersistedAttempt}

theorem append_singleton_ne {name other : String} (h : name ≠ other) (root : Location) :
    root ++ [name] ≠ root ++ [other] := fun heq =>
  h (List.singleton_inj.mp (List.append_cancel_left heq))

/-- What an attempt that goes through leaves one after the other: what the provider is given,
the tree with the log, the one with the outputs, and the last one. -/
structure AttemptTrees (fromStr : String → Option Json) (pretty : Json → String)
    (recordText : StepEvaluation → List (String × String) → String) (workflow : WorkflowConfig)
    (step : WorkflowStepConfig) (root : Location) (paths : List (String × Location))
    (call : AttemptCall) (result : PersistedAttempt) (given logged written : FileTree)
    (answered : Outputs) : Prop where
  prompt : given (root ++ ["prompt.md"]) = some (.file call.prompt)
  context : given (root ++ ["context.md"]) = some (.file call.context)
  invocation : (call.provider given).write (root ++ ["provider_invocation.json"]) call.log =
    .ok logged
  parsed : parsedOutputs fromStr step paths logged call.answer = .ok answered
  evaluated : evaluateStepResult workflow step answered = .ok result.evaluation
  outputs : materializeOutputFiles pretty step result.evaluation.outputs paths logged =
    .ok (written, result.outputFiles)
  kept : ∀ loc text, loc ≠ root ++ ["result.json"] → written loc = some (.file text) →
    result.tree loc = some (.file text)
  record : result.tree (root ++ ["result.json"]) =
    some (.file (recordText result.evaluation result.outputFiles))

theorem attemptTrees_of_runAttempt
    (hpaths : resolveStepOutputPaths stateRoot runId step attempt = .ok paths)
    (hroot : attemptRoot stateRoot runId step.id attempt = .ok root)
    (h : runAttempt fromStr pretty recordText stateRoot runId workflow step attempt tree call =
      .ok result) : ∃ given logged written answered, AttemptTrees fromStr pretty recordText workflow
        step root paths call result given logged written answered := by
  unfold runAttempt at h
  rw [hpaths] at h
  obtain ⟨_, hpaths', h⟩ := bind_eq_ok h
  cases hpaths'
  rw [hroot] at h
  obtain ⟨_, hroot', h⟩ := bind_eq_ok h
  cases hroot'
  obtain ⟨made, -, h⟩ := bind_eq_ok h
  obtain ⟨prompted, hprompt, h⟩ := bind_eq_ok h
  obtain ⟨given, hcontext, h⟩ := bind_eq_ok h
  obtain ⟨logged, hlog, h⟩ := bind_eq_ok h
  obtain ⟨answered, hparsed, h⟩ := bind_eq_ok h
  obtain ⟨evaluation, hevaluation, h⟩ := bind_eq_ok h
  obtain ⟨⟨written, outputFiles⟩, houtputs, h⟩ := bind_eq_ok h
  obtain ⟨dirs, hdirs, h⟩ := bind_eq_ok h
  obtain ⟨recorded, hrecord, h⟩ := bind_eq_ok h
  cases h
  have hprompt := mapError_eq_ok hprompt
  have hcontext := mapError_eq_ok hcontext
  have hrecord := onTree_eq_ok hrecord
  have hgrown := FileTree.growsByDirs_createDirAll (onTree_eq_ok hdirs)
  refine ⟨given, logged, written, answered, ?_, FileTree.write_self hcontext, onTree_eq_ok hlog,
    hparsed, hevaluation, houtputs, ?_, FileTree.write_self hrecord⟩
  · rw [FileTree.write_of_ne hcontext (append_singleton_ne (by decide) root),
      FileTree.write_self hprompt]
  · -- between the outputs and the record only directories are made
    intro loc text hne hloc
    exact (FileTree.write_of_ne hrecord hne).trans (hgrown.kept loc _ hloc)

namespace AttemptTrees

variable {given logged written : FileTree} {answered : Outputs}

/-- What the directory holds once the outputs are written are the files that were there before,
where no output path names them. -/
theorem engine_file (h : AttemptTrees fromStr pretty recordText workflow step root paths call
      result given logged written answered) (hclear : ClearOfEngine root paths) {name text : String}
    (hname : name ∈ engineFiles) (hne : name ≠ "result.json")
    (htext : logged (root ++ [name]) = some (.file text)) :
    result.tree (root ++ [name]) = some (.file text) := by
  apply h.kept _ _ (append_singleton_ne hne root)
  have houtputs := h.outputs
  unfold materializeOutputFiles at houtputs
  split at houtputs
  · have hsame : logged = written := congrArg Prod.fst (Except.ok.inj houtputs)
    rwa [← hsame]
  · refine materialize_kept houtputs (fun key hkey => ?_) htext
    exact hclear key _ hkey name hname List.prefix_rfl

/-- What the provider was given is there when it is done. -/
theorem given_file (h : AttemptTrees fromStr pretty recordText workflow step root paths call
      result given logged written answered) (hcall : call.KeepsPrompt root) {name text : String}
    (hname : name ∈ ["prompt.md", "context.md"])
    (htext : given (root ++ [name]) = some (.file text)) :
    logged (root ++ [name]) = some (.file text) := by
  have hne : name ≠ "provider_invocation.json" := by
    rintro rfl
    exact absurd hname (by decide)
  rw [FileTree.write_of_ne h.invocation (append_singleton_ne hne root), hcall _ name hname, htext]

/-- The value of a key is in its file: written there from the answer, or read from there. -/
theorem output_file (h : AttemptTrees fromStr pretty recordText workflow step root paths call
      result given logged written answered) (hclear : ClearOfEngine root paths)
    (hown : OwnFileEach paths) {key : OutputKey} (hkey : key ∈ step.outputs) {value : Json}
    {path : Location} (hvalue : Json.field result.evaluation.outputs key.name = some value)
    (hpath : paths.lookup key.name = some path) :
    result.outputFiles.lookup key.name = some (displayLocation path) ∧
      ∃ text, result.tree path = some (.file text) ∧ HoldsValue fromStr pretty step text value := by
  have hne : path ≠ root ++ ["result.json"] := by
    rintro rfl
    exact hclear key.name _ hpath "result.json" (by decide) List.prefix_rfl
  have hsome : ¬ paths.isEmpty = true := by
    rw [List.isEmpty_iff]
    rintro rfl
    cases hpath
  have houtputs := h.outputs
  rw [materializeOutputFiles, if_neg hsome] at houtputs
  obtain ⟨hrecorded, hwritten⟩ := materialize_held hown houtputs hvalue hpath
    (.inl (List.mem_map_of_mem hkey))
  refine ⟨hrecorded, ?_⟩
  cases htype : step.promptType with
  | workflowResultEnvelope =>
    refine ⟨outputText pretty value, h.kept _ _ hne (hwritten htype), ?_⟩
    rw [HoldsValue, htype]
  | fileOutput =>
    rw [outputs_of_evaluateStepResult h.evaluated] at hvalue
    have hparsed := h.parsed
    unfold parsedOutputs at hparsed
    rw [htype] at hparsed
    split at hparsed
    · cases hparsed
    · obtain ⟨path', text, hpath', htext, hread⟩ := read_of_loadOutputsFromFiles hparsed hvalue
      rw [hpath] at hpath'
      cases hpath'
      refine ⟨text, h.kept _ _ hne ?_, ?_⟩
      · -- nothing is written for the outputs of such a step
        have huntouched : written = logged := materialize_untouched htype houtputs
        rw [huntouched]
        obtain ⟨raw, hraw, heq⟩ := Option.map_eq_some_iff.mp htext
        cases heq
        exact FileTree.text_eq_some_iff.mp hraw
      · rw [HoldsValue, htype]
        exact hread

end AttemptTrees

/-- With output paths of their own, away from the engine's files, all files are kept. -/
theorem filesKept_of_runAttempt
    (hpaths : resolveStepOutputPaths stateRoot runId step attempt = .ok paths)
    (hroot : attemptRoot stateRoot runId step.id attempt = .ok root)
    (hmapped : PathsMapped paths step.outputs) (hclear : ClearOfEngine root paths) (hown : OwnFileEach paths)
    (hcall : call.KeepsPrompt root)
    (h : runAttempt fromStr pretty recordText stateRoot runId workflow step attempt tree call =
      .ok result) : FilesKept fromStr pretty recordText root step paths call result := by
  obtain ⟨given, logged, written, answered, htrees⟩ := attemptTrees_of_runAttempt hpaths hroot h
  refine ⟨?_, ?_, ?_, ?_, htrees.record⟩
  · intro key hkey value hvalue
    obtain ⟨path, hpath⟩ := Option.isSome_iff_exists.mp (hmapped key hkey)
    obtain ⟨hrecorded, text, htext, hholds⟩ := htrees.output_file hclear hown hkey hvalue hpath
    exact ⟨path, text, hpath, hrecorded, htext, hholds⟩
  · apply htrees.engine_file hclear (by decide) (by decide)
    exact htrees.given_file hcall (by decide) htrees.prompt
  · apply htrees.engine_file hclear (by decide) (by decide)
    exact htrees.given_file hcall (by decide) htrees.context
  · apply htrees.engine_file hclear (by decide) (by decide)
    exact FileTree.write_self htrees.invocation

/-! ## The paths and their templates -/

theorem lookup_addOutputPaths {stepId : String} {entries : List (String × String)}
    {before after : List (String × Location)} (hkeys : (entries.map (·.1)).Nodup)
    (h : entries.foldlM (addOutputPath root runId stepId attempt) before = .ok after) :
    (∀ key ∉ entries.map (·.1), after.lookup key = before.lookup key) ∧
      ∀ entry ∈ entries, ∃ names, entryComponents runId stepId attempt entry = names.map .normal ∧
        after.lookup entry.1 = some (root ++ names) := by
  induction entries generalizing before with
  | nil =>
    cases h
    exact ⟨fun _ _ => rfl, List.forall_mem_nil _⟩
  | cons entry entries ih =>
    rw [List.foldlM_cons] at h
    obtain ⟨next, hnext, hrest⟩ := bind_eq_ok h
    obtain ⟨path, hpath, hnext⟩ := bind_eq_ok hnext
    cases hnext
    obtain ⟨names, hnames, -, rfl⟩ := resolveOutputPath_ok_iff.mp hpath
    rw [List.map_cons, List.nodup_cons] at hkeys
    obtain ⟨hothers, hentries⟩ := ih hkeys.2 hrest
    refine ⟨fun key hkey => ?_, fun held hheld => ?_⟩
    · rw [List.map_cons, List.mem_cons, not_or] at hkey
      rw [hothers key hkey.2, OrderedMap.lookup_insert_of_ne hkey.1]
    · rcases List.mem_cons.mp hheld with rfl | hheld
      · refine ⟨names, hnames.components, ?_⟩
        rw [hothers _ hkeys.1, OrderedMap.lookup_insert_self]
      · exact hentries held hheld

/-- The entries of `output_files` have their paths, and there are no other paths. -/
structure EntryPaths (root : Location) (runId : String) (step : WorkflowStepConfig) (attempt : ℕ)
    (paths : List (String × Location)) : Prop where
  path : ∀ entry ∈ step.outputFiles, ∃ names,
    entryComponents runId step.id attempt entry = names.map .normal ∧
      paths.lookup entry.1 = some (root ++ names)
  entry : ∀ key path, paths.lookup key = some path → ∃ entry ∈ step.outputFiles, entry.1 = key ∧
    ∃ names, entryComponents runId step.id attempt entry = names.map .normal ∧ path = root ++ names

theorem entryPaths_of_resolve (hkeys : (step.outputFiles.map (·.1)).Nodup)
    (hroot : attemptRoot stateRoot runId step.id attempt = .ok root)
    (hpaths : resolveStepOutputPaths stateRoot runId step attempt = .ok paths) :
    EntryPaths root runId step attempt paths := by
  unfold resolveStepOutputPaths at hpaths
  rw [hroot] at hpaths
  obtain ⟨hothers, hentries⟩ := lookup_addOutputPaths hkeys hpaths
  refine ⟨hentries, fun key path hpath => ?_⟩
  by_cases hkey : key ∈ step.outputFiles.map (·.1)
  · obtain ⟨entry, hentry, rfl⟩ := List.mem_map.mp hkey
    obtain ⟨names, hnames, hlookup⟩ := hentries entry hentry
    rw [hpath] at hlookup
    exact ⟨entry, hentry, rfl, names, hnames, Option.some.inj hlookup⟩
  · rw [hothers key hkey] at hpath
    cases hpath

/-- A path lies under a name if and only if the template begins with it. -/
theorem below_iff {names : Location} {comps : List TemplateComponent} {name : String}
    (h : comps = names.map .normal) :
    root ++ [name] <+: root ++ names ↔ comps.head? = some (.normal name) := by
  rw [List.prefix_append_right_inj, h]
  cases names with
  | nil => simp
  | cons first rest => simp [List.cons_prefix_cons, eq_comm]

theorem clearOfEngine_iff (h : EntryPaths root runId step attempt paths) :
    ClearOfEngine root paths ↔ ∀ entry ∈ step.outputFiles, ∀ name ∈ engineFiles,
      (entryComponents runId step.id attempt entry).head? ≠ some (.normal name) := by
  constructor
  · intro hclear entry hentry name hname hhead
    obtain ⟨names, hnames, hlookup⟩ := h.path entry hentry
    exact hclear entry.1 _ hlookup name hname ((below_iff hnames).mpr hhead)
  · intro hheads key path hpath name hname hbelow
    obtain ⟨entry, hentry, -, names, hnames, rfl⟩ := h.entry key path hpath
    exact hheads entry hentry name hname ((below_iff hnames).mp hbelow)

theorem ownFileEach_iff (h : EntryPaths root runId step attempt paths) :
    OwnFileEach paths ↔ ∀ entry ∈ step.outputFiles, ∀ entry' ∈ step.outputFiles,
      entryComponents runId step.id attempt entry = entryComponents runId step.id attempt entry' →
        entry.1 = entry'.1 := by
  constructor
  · intro hown entry hentry entry' hentry' hsame
    obtain ⟨names, hnames, hlookup⟩ := h.path entry hentry
    obtain ⟨names', hnames', hlookup'⟩ := h.path entry' hentry'
    rw [hnames, hnames'] at hsame
    have hinj : Function.Injective TemplateComponent.normal := fun _ _ => TemplateComponent.normal.inj
    rw [List.map_injective_iff.mpr hinj hsame] at hlookup
    exact hown _ _ _ hlookup hlookup'
  · intro hdistinct key key' path hpath hpath'
    obtain ⟨entry, hentry, rfl, names, hnames, rfl⟩ := h.entry key path hpath
    obtain ⟨entry', hentry', rfl, names', hnames', hsame⟩ := h.entry key' _ hpath'
    refine hdistinct entry hentry entry' hentry' ?_
    rw [hnames, hnames', List.append_cancel_left hsame]

theorem allMapped_of_resolve (h : EntryPaths root runId step attempt paths)
    (hmapped : ∀ key ∈ step.outputs, (step.outputFiles.lookup key.name).isSome = true) :
    PathsMapped paths step.outputs := by
  intro key hkey
  obtain ⟨template, htemplate⟩ := Option.isSome_iff_exists.mp (hmapped key hkey)
  obtain ⟨names, -, hlookup⟩ := h.path _ (OrderedMap.mem_of_lookup htemplate)
  rw [hlookup]
  rfl

/-- **Outputs and engine files.** For a validated step whose paths are resolved, outputs and
engine files never clobber each other if and only if no template begins with the name of an
engine file and no two templates come to the same components. -/
theorem never_clobbered_iff {config : OrchestratorConfig} {settings : Settings}
    {orchestratorId : String} (hvalid : config.validate settings orchestratorId = .ok ())
    (hworkflow : workflow ∈ config.workflows) (hstep : step ∈ workflow.steps)
    (hkeys : (step.outputFiles.map (·.1)).Nodup)
    (hpaths : resolveStepOutputPaths stateRoot runId step attempt = .ok paths)
    (hroot : attemptRoot stateRoot runId step.id attempt = .ok root) :
    NeverClobbered fromStr pretty recordText stateRoot runId workflow step attempt root paths ↔
      TemplatesApart runId step attempt := by
  have hentries := entryPaths_of_resolve hkeys hroot hpaths
  have hsetup := Config.validateSetupInvariants_ok_iff.mp (OrchestratorConfig.setup_of_validate hvalid)
  have hmapped := allMapped_of_resolve hentries
    ((hsetup.workflows workflow hworkflow).steps step hstep).mapped
  constructor
  · intro h
    exact ⟨(clearOfEngine_iff hentries).mp h.clear, (ownFileEach_iff hentries).mp h.own⟩
  · intro h
    have hclear := (clearOfEngine_iff hentries).mpr h.clear
    have hown := (ownFileEach_iff hentries).mpr h.distinct
    exact ⟨hclear, hown, fun tree call result hcall hrun =>
      filesKept_of_runAttempt hpaths hroot hmapped hclear hown hcall hrun⟩

end Whole

/-! ## A record over an output -/

def summaryStep (template : String) : WorkflowStepConfig where
  id := "plan"
  agent := "router"
  prompt := "Plan."
  outputs := [⟨"summary", true⟩]
  outputFiles := [("summary", template)]
  finalOutputPriority := [⟨"summary", true⟩]

def summaryFlow (template : String) : WorkflowConfig where
  id := "flow"
  description := "one step"
  tags := ["flow"]
  steps := [summaryStep template]

def summaryOrchestrator (template : String) : OrchestratorConfig where
  id := "main"
  selectorAgent := "router"
  defaultWorkflow := "flow"
  agents := [("router", { model := "default", canOrchestrateWorkflows := true })]
  workflows := [summaryFlow template]

def mainSettings : Settings where
  workspacesPath := "/ws"
  orchestrators := [("main", {})]

theorem validate_summaryOrchestrator (template : String) :
    (summaryOrchestrator template).validate mainSettings "main" = .ok () := by
  -- no check looks into the template
  have hsame : (summaryOrchestrator template).validate mainSettings "main" =
      (summaryOrchestrator "").validate mainSettings "main" := rfl
  rw [hsame]
  decide

def planRoot : Location :=
  ["state", "workflows", "runs", "run-1", "steps", "plan", "attempts", "1"]

/-- The provider answers and touches no file. -/
def planCall : AttemptCall where
  prompt := "Plan."
  context := "run-1"
  log := "\x7b\x7d"
  provider := id
  answer := .outputs [("summary", .str "done")]

def planRecord : String :=
  "\x7b\n  \"runId\": \"run-1\",\n  \"stepId\": \"plan\",\n  \"attempt\": 1,\n  " ++
  "\"startedAt\": 0,\n  \"endedAt\": 0,\n  \"state\": \"succeeded\",\n  \"outputs\": \x7b\n    " ++
  "\"summary\": \"done\"\n  \x7d,\n  \"outputFiles\": \x7b\n    \"summary\": " ++
  "\"/state/workflows/runs/run-1/steps/plan/attempts/1/result.json\"\n  \x7d,\n  " ++
  "\"finalOutputPriority\": [\n    \"summary\"\n  ],\n  \"nextStepId\": null,\n  " ++
  "\"error\": null,\n  \"outputValidationErrors\": \x7b\x7d\n\x7d"

/-- The attempt succeeds, and its record replaces its summary. -/
theorem record_replaces_summary :
    (summaryOrchestrator "result.json").validate mainSettings "main" = .ok () ∧
    resolveStepOutputPaths (.ofLocation ["state"]) "run-1" (summaryStep "result.json") 1 =
      .ok [("summary", planRoot ++ ["result.json"])] ∧
    ∃ result, runAttempt (fun _ => none) (fun _ => "null") (fun _ _ => planRecord)
      (.ofLocation ["state"]) "run-1" (summaryFlow "result.json") (summaryStep "result.json") 1
      (fun _ => none) planCall = .ok result ∧
    result.tree (planRoot ++ ["result.json"]) = some (.file planRecord) ∧
    planRecord ≠ "done" ∧
    ¬ FilesKept (fun _ => none) (fun _ => "null") (fun _ _ => planRecord) planRoot
      (summaryStep "result.json") [("summary", planRoot ++ ["result.json"])] planCall result ∧
    ¬ NeverClobbered (fun _ => none) (fun _ => "null") (fun _ _ => planRecord)
      (.ofLocation ["state"]) "run-1" (summaryFlow "result.json") (summaryStep "result.json") 1
      planRoot [("summary", planRoot ++ ["result.json"])] := by
  obtain ⟨result, hrun, hrecord, houtput⟩ : ∃ result,
      runAttempt (fun _ => none) (fun _ => "null") (fun _ _ => planRecord) (.ofLocation ["state"])
        "run-1" (summaryFlow "result.json") (summaryStep "result.json") 1 (fun _ => none) planCall =
          .ok result ∧
      result.tree (planRoot ++ ["result.json"]) = some (.file planRecord) ∧
      Json.field result.evaluation.outputs "summary" = some (.str "done") := ⟨_, rfl, rfl, rfl⟩
  have hrecordText : planRecord ≠ "done" := by decide
  have hlost : ¬ FilesKept (fun _ => none) (fun _ => "null") (fun _ _ => planRecord) planRoot
      (summaryStep "result.json") [("summary", planRoot ++ ["result.json"])] planCall result := by
    intro h
    obtain ⟨path, text, hpath, -, htext, hvalue⟩ :=
      h.outputs ⟨"summary", true⟩ (List.mem_singleton_self _) _ houtput
    cases hpath
    rw [hrecord] at htext
    cases htext
    exact hrecordText hvalue
  have hcall : planCall.KeepsPrompt planRoot := fun _ _ _ => rfl
  exact ⟨validate_summaryOrchestrator _, rfl, result, hrun, hrecord, hrecordText, hlost,
    fun h => hlost (h.kept _ planCall result hcall hrun)⟩

theorem summary_txt_never_clobbered :
    NeverClobbered (fun _ => none) (fun _ => "null") (fun _ _ => planRecord)
      (.ofLocation ["state"]) "run-1" (summaryFlow "summary.txt") (summaryStep "summary.txt") 1
      planRoot [("summary", planRoot ++ ["summary.txt"])] := by
  refine (never_clobbered_iff (validate_summaryOrchestrator "summary.txt")
    (List.mem_singleton_self _) (List.mem_singleton_self _) (by decide) rfl rfl).mpr ⟨?_, ?_⟩
  · decide
  · decide

end Direclaw.Orchestration
