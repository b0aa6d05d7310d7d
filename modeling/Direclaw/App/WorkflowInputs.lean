import Direclaw.App.CommandDispatch
import Direclaw.App.WorkflowRunIds
import Direclaw.Orchestration.OutputKeys

/-!
# Workflow inputs on the command line

A call of `workflow.run` becomes the words of a command, `--input key=value` for each
input, and `cmd_workflow run` reads the words again: each is cut at its first `=`, the
key is trimmed and has to be an identifier. What is checked before the inputs, where the
run is stored, and what starting it does are the command's environment.
-/

namespace Direclaw.App

open Direclaw.Lib Direclaw.Orchestration Direclaw.Automation

/-! ## The command -/

def normalizeWorkflowInputKey (raw : String) : Except String String :=
  let normalized := Text.trimmed raw
  (validateIdentifierValue "workflow input key" normalized).map fun _ => normalized

/-- One `key=value` word. -/
def readInput (raw : String) : Except String (String × Json) :=
  match Text.splitOnce '=' raw.toList with
  | none => .error "--input requires key=value"
  | some (key, value) =>
    (normalizeWorkflowInputKey (String.ofList key)).map fun normalized =>
      (normalized, .str (String.ofList value))

/-- The loop of `parse_key_value_inputs`. -/
def readInputs (map : List (String × Json)) : List String → Except String (List (String × Json))
  | [] => .ok map
  | [flag] =>
    if flag ≠ "--input" then .error s!"unexpected argument `{flag}`"
    else .error "--input requires key=value"
  | flag :: raw :: rest =>
    if flag ≠ "--input" then .error s!"unexpected argument `{flag}`"
    else
      match readInput raw with
      | .error err => .error err
      | .ok entry => readInputs (OrderedMap.insert entry.1 entry.2 map) rest

def parseKeyValueInputs (args : List String) : Except String (List (String × Json)) :=
  readInputs [] args

/-- What `workflow run` meets apart from its words. -/
structure RunCommandEnv where
  /-- The settings load, the orchestrator has its workspace, the workflow and a selector. -/
  admitted : String → String → Except String Unit
  /-- The runtime root is there, and a free run id is found. -/
  allocate : String → Except String String
  now : Int
  /-- The files of the new run are written. -/
  persist : String → Except String Unit
  /-- `engine.start`. -/
  start : String → Except String Unit

structure RunOutcome where
  /-- The files of the run, where one is created. -/
  created : Option RunFiles := none
  result : Except String String

/-- `cmd_workflow` with the arguments behind `run`. -/
def cmdWorkflowRun (env : RunCommandEnv) : List String → RunOutcome
  | orchestratorId :: workflowId :: words =>
    match env.admitted orchestratorId workflowId with
    | .error err => { result := .error err }
    | .ok () =>
      match parseKeyValueInputs words with
      | .error err => { result := .error err }
      | .ok inputs =>
        match env.allocate orchestratorId with
        | .error err => { result := .error err }
        | .ok runId =>
          let files := createRunWithMetadata runId workflowId none inputs env.now
          match env.persist runId with
          | .error err => { result := .error err }
          | .ok () =>
            { created := some files
              result := (env.start runId).map fun _ =>
                s!"workflow started\nrun_id={runId}" }
  | _ =>
    { result :=
        .error "usage: workflow run <orchestrator_id> <workflow_id> [--input key=value ...]" }

/-- `execute_function_invocation` for `workflow.run`, through `run_cli_native`. -/
def invokeWorkflowRun (text : JsonText) (env : RunCommandEnv) (args : List (String × Json)) :
    RunOutcome :=
  match planFunctionInvocation text "workflow.run" args with
  | .error err => { result := .error err }
  | .ok (.cliArgs ("workflow" :: "run" :: words)) => cmdWorkflowRun env words
  | .ok _ => { result := .error "unknown workflow subcommand" }

/-! ## What the words are read as -/

section Reading

variable {key raw : String}

/-- The text of a key that is taken for the key of its word. -/
def keyPart (key : String) : String :=
  match Text.splitOnce '=' key.toList with
  | none => key
  | some (before, _) => String.ofList before

theorem normalizeWorkflowInputKey_ok (h : normalizeWorkflowInputKey raw = .ok key) :
    key = Text.trimmed raw ∧ IsIdentifier key := by
  obtain ⟨⟨⟩, hvalid, rfl⟩ := map_eq_ok h
  exact ⟨rfl, validateIdentifierValue_eq_ok_iff.mp hvalid⟩

theorem normalizeWorkflowInputKey_of_isIdentifier (h : IsIdentifier (Text.trimmed raw)) :
    normalizeWorkflowInputKey raw = .ok (Text.trimmed raw) := by
  unfold normalizeWorkflowInputKey
  simp only [validateIdentifierValue_eq_ok_iff.mpr h]
  rfl

theorem keyPart_of_not_mem (h : '=' ∉ key.toList) : keyPart key = key := by
  rw [keyPart, Text.splitOnce_eq_none_iff.mpr h]

/-- The value a word is read with is known where its key has no `=`. -/
theorem readInput_word (key value : String) :
    ∃ behind, readInput s!"{key}={value}" =
        (normalizeWorkflowInputKey (keyPart key)).map (fun normalized =>
          (normalized, .str behind)) ∧
      (Text.splitOnce '=' key.toList = none → behind = value) := by
  have hword : (s!"{key}={value}").toList = key.toList ++ '=' :: value.toList := by
    simp [toString]
  cases hsplit : Text.splitOnce '=' key.toList with
  | none =>
    -- the first `=` is the one that was put behind the key
    refine ⟨value, ?_, fun _ => rfl⟩
    have hcut : Text.splitOnce '=' (key.toList ++ '=' :: value.toList) =
        some (key.toList, value.toList) :=
      Text.splitOnce_append (Text.splitOnce_eq_none_iff.mp hsplit) _
    rw [readInput, hword, hcut, keyPart, hsplit]
    simp only [String.ofList_toList]
  | some parts =>
    -- the key has one of its own, and what follows it goes to the value
    obtain ⟨before, after⟩ := parts
    refine ⟨String.ofList (after ++ '=' :: value.toList), ?_, fun hnone => by cases hnone⟩
    obtain ⟨hkey, hbefore⟩ := Text.splitOnce_eq_some_iff.mp hsplit
    have hcut : Text.splitOnce '=' (key.toList ++ '=' :: value.toList) =
        some (before, after ++ '=' :: value.toList) := by
      refine Text.splitOnce_eq_some_iff.mpr ⟨?_, hbefore⟩
      rw [hkey, List.append_assoc, List.cons_append]
    rw [readInput, hword, hcut, keyPart, hsplit]

/-- A word is read where its key is one that is let through: the text before its first `=`,
trimmed. -/
theorem readInput_word_iff (key value : String) :
    (∃ entry, readInput s!"{key}={value}" = .ok entry) ↔
      IsIdentifier (Text.trimmed (keyPart key)) := by
  obtain ⟨behind, hread, -⟩ := readInput_word key value
  rw [hread]
  constructor
  · rintro ⟨entry, hentry⟩
    obtain ⟨normalized, hkey, -⟩ := map_eq_ok hentry
    obtain ⟨rfl, hidentifier⟩ := normalizeWorkflowInputKey_ok hkey
    exact hidentifier
  · intro h
    rw [normalizeWorkflowInputKey_of_isIdentifier h]
    exact ⟨_, rfl⟩

/-- Behind a key without `=` stands its value. -/
theorem readInput_of_not_mem (hkey : '=' ∉ key.toList)
    (h : IsIdentifier (Text.trimmed key)) (value : String) :
    readInput s!"{key}={value}" = .ok (Text.trimmed key, .str value) := by
  obtain ⟨behind, hread, hbehind⟩ := readInput_word key value
  rw [hread, keyPart_of_not_mem hkey, normalizeWorkflowInputKey_of_isIdentifier h,
    hbehind (Text.splitOnce_eq_none_iff.mpr hkey)]
  rfl

theorem readInputs_words (raws : List String) (map : List (String × Json)) :
    readInputs map (raws.flatMap fun raw => ["--input", raw]) =
      (raws.mapM readInput).map fun entries =>
        entries.foldl (fun map entry => OrderedMap.insert entry.1 entry.2 map) map := by
  induction raws generalizing map with
  | nil => rfl
  | cons raw rest ih =>
    have hstep : (raw :: rest).flatMap (fun raw => ["--input", raw]) =
        "--input" :: raw :: rest.flatMap fun raw => ["--input", raw] := rfl
    rw [hstep, readInputs, if_neg (fun h => h rfl), List.mapM_cons]
    cases readInput raw with
    | error err => rfl
    | ok entry =>
      simp only [ih]
      cases rest.mapM readInput <;> rfl

end Reading

/-! ## What the run holds -/

section Survival

variable (text : JsonText) (env : RunCommandEnv) {args given : List (String × Json)}

/-- The given keys and no others, each with its text. -/
def HoldsExactly (text : JsonText) (given stored : List (String × Json)) : Prop :=
  ∀ key held, (key, held) ∈ stored ↔
    ∃ value, Json.get given key = some value ∧ held = .str (encodedInput text value)

/-- The same of the trimmed keys: where some are equal, the text of the last of them. -/
def HoldsTrimmed (text : JsonText) (given stored : List (String × Json)) : Prop :=
  ∀ name held, (name, held) ∈ stored ↔
    ∃ key value, Json.get given key = some value ∧ Text.trimmed key = name ∧
      held = .str (encodedInput text value) ∧
      ∀ other ∈ Json.mapKeys given, Text.trimmed other = name → other ≤ key

/-- No run is created, or one whose record holds inputs as they have to be. -/
def RejectedOr (holds : List (String × Json) → Prop) (outcome : RunOutcome) : Prop :=
  (outcome.created = none ∧ ∃ err, outcome.result = .error err) ∨
    ∃ files, outcome.created = some files ∧ holds files.run.inputs

/-- But for its inputs the command creates a run: it admits the workflow, and the run gets an
id and its files. -/
def Admitted (env : RunCommandEnv) (orchestratorId workflowId : String) : Prop :=
  env.admitted orchestratorId workflowId = .ok () ∧
    ∃ runId, env.allocate orchestratorId = .ok runId ∧ env.persist runId = .ok ()

/-- The same of a call, which has to name its orchestrator and workflow. -/
def Startable (env : RunCommandEnv) (args : List (String × Json)) : Prop :=
  ∃ orchestratorId workflowId, requiredStringArg args "orchestratorId" = .ok orchestratorId ∧
    requiredStringArg args "workflowId" = .ok workflowId ∧
    Admitted env orchestratorId workflowId

def givenText (text : JsonText) (given : List (String × Json)) (key : String) : String :=
  ((Json.get given key).map (encodedInput text)).getD ""

/-- The word of a key. -/
def inputText (text : JsonText) (given : List (String × Json)) (key : String) : String :=
  s!"{key}={givenText text given key}"

theorem inputWords_eq :
    inputWords text given =
      ((Json.mapKeys given).map (inputText text given)).flatMap fun raw => ["--input", raw] := by
  rw [inputWords, List.flatMap_map]
  refine List.flatMap_congr fun key hkey => ?_
  obtain ⟨value, hvalue⟩ := Json.mem_mapKeys_iff_get.mp hkey
  simp only [inputText, givenText, hvalue, Option.map_some, Option.getD_some]

theorem parseKeyValueInputs_words :
    parseKeyValueInputs (inputWords text given) =
      (((Json.mapKeys given).map (inputText text given)).mapM readInput).map
        OrderedMap.ofEntries := by
  rw [inputWords_eq, parseKeyValueInputs, readInputs_words]
  rfl

theorem plan_workflowRun (h : Json.get args "inputs" = some (.object given)) :
    planFunctionInvocation text "workflow.run" args =
      (requiredStringArg args "orchestratorId").bind fun orchestratorId =>
        (requiredStringArg args "workflowId").map fun workflowId =>
          .cliArgs ("workflow" :: "run" :: orchestratorId :: workflowId ::
            inputWords text given) := by
  have hlookup : planners.lookup "workflow.run" = some (.cli ["workflow", "run"]
      [.string "orchestratorId", .string "workflowId", .inputs "inputs"]) := rfl
  have hinputs : optionalObjectArg args "inputs" = some given := by
    rw [optionalObjectArg, h]
    rfl
  rw [planFunctionInvocation, hlookup]
  simp only [Planner.plan, List.mapM_cons, List.mapM_nil, Piece.words, hinputs]
  cases requiredStringArg args "orchestratorId" with
  | error err => rfl
  | ok orchestratorId =>
    cases requiredStringArg args "workflowId" with
    | error err => rfl
    | ok workflowId =>
      show Except.ok (FunctionExecutionPlan.cliArgs ("workflow" :: "run" :: orchestratorId ::
        workflowId :: (inputWords text given ++ []))) = _
      rw [List.append_nil]
      rfl

/-- Some key of the inputs is not let through. -/
def KeyRefused (given : List (String × Json)) : Prop :=
  ∃ key ∈ Json.mapKeys given, ¬ IsIdentifier (Text.trimmed (keyPart key))

theorem parse_error_iff :
    (∃ err, parseKeyValueInputs (inputWords text given) = .error err) ↔ KeyRefused given := by
  rw [parseKeyValueInputs_words, List.mapM_map]
  constructor
  · rintro ⟨err, herr⟩
    obtain ⟨key, hkey, hread⟩ := exists_of_mapM_error (map_eq_error herr)
    refine ⟨key, hkey, fun hidentifier => ?_⟩
    obtain ⟨entry, hentry⟩ := (readInput_word_iff key _).mpr hidentifier
    rw [Function.comp_apply, inputText, hentry] at hread
    cases hread
  · rintro ⟨key, hkey, hrefused⟩
    cases hread : (Json.mapKeys given).mapM (readInput ∘ inputText text given) with
    | error err => exact ⟨err, rfl⟩
    | ok entries =>
      obtain ⟨entry, -, hentry⟩ := exists_of_mapM_ok hread key hkey
      exact absurd ((readInput_word_iff key _).mp ⟨entry, hentry⟩) hrefused

/-- Keys without `=` are read trimmed, each with the text of its value. -/
theorem parse_of_not_mem (hplain : ∀ key ∈ Json.mapKeys given, '=' ∉ key.toList)
    (h : ∀ key ∈ Json.mapKeys given, IsIdentifier (Text.trimmed key)) :
    parseKeyValueInputs (inputWords text given) =
      .ok (OrderedMap.ofEntries ((Json.mapKeys given).map fun key =>
        (Text.trimmed key, .str (givenText text given key)))) := by
  have hread : ∀ key ∈ Json.mapKeys given, (readInput ∘ inputText text given) key =
      pure (Text.trimmed key, .str (givenText text given key)) :=
    fun key hkey => readInput_of_not_mem (hplain key hkey) (h key hkey) _
  rw [parseKeyValueInputs_words, List.mapM_map, mapM_congr hread, List.mapM_pure]
  rfl

/-- The run holds the trimmed keys, each with the text of the last of its values. -/
theorem holdsTrimmed_of_parse (hplain : ∀ key ∈ Json.mapKeys given, '=' ∉ key.toList)
    {stored : List (String × Json)}
    (hparse : parseKeyValueInputs (inputWords text given) = .ok stored) :
    HoldsTrimmed text given stored := by
  have hkeys : ∀ key ∈ Json.mapKeys given, IsIdentifier (Text.trimmed key) := by
    intro key hkey
    by_contra hrefused
    rw [← keyPart_of_not_mem (hplain key hkey)] at hrefused
    obtain ⟨err, herr⟩ := (parse_error_iff text).mpr ⟨key, hkey, hrefused⟩
    rw [hparse] at herr
    cases herr
  rw [parse_of_not_mem text hplain hkeys] at hparse
  cases hparse
  intro name held
  rw [OrderedMap.mem_ofEntries_map_last_iff (Json.sorted_mapKeys given)]
  constructor
  · -- every key that is held is the last of the given keys that are trimmed to it
    rintro ⟨key, hkey, ⟨⟩, hothers⟩
    obtain ⟨value, hvalue⟩ := Json.mem_mapKeys_iff_get.mp hkey
    refine ⟨key, value, hvalue, rfl, ?_, hothers⟩
    rw [givenText, hvalue]
    rfl
  · rintro ⟨key, value, hvalue, rfl, rfl, hothers⟩
    refine ⟨key, Json.mem_mapKeys_iff_get.mpr ⟨value, hvalue⟩, ?_, hothers⟩
    rw [givenText, hvalue]
    rfl

/-- A command that creates no run is rejected; a run that is created holds what the words
are read as. -/
theorem cmdWorkflowRun_cases (orchestratorId workflowId : String) (words : List String) :
    ((cmdWorkflowRun env (orchestratorId :: workflowId :: words)).created = none ∧
        (∃ err, (cmdWorkflowRun env (orchestratorId :: workflowId :: words)).result = .error err) ∧
        (Admitted env orchestratorId workflowId → ∃ err, parseKeyValueInputs words = .error err)) ∨
      ∃ files, (cmdWorkflowRun env (orchestratorId :: workflowId :: words)).created = some files ∧
        Admitted env orchestratorId workflowId ∧
        parseKeyValueInputs words = .ok files.run.inputs := by
  unfold Admitted
  rw [cmdWorkflowRun]
  cases hadmit : env.admitted orchestratorId workflowId with
  | error err =>
    refine .inl ⟨rfl, ⟨err, rfl⟩, fun hadmitted => ?_⟩
    cases hadmitted.1
  | ok _ =>
    cases hparse : parseKeyValueInputs words with
    | error err => exact .inl ⟨rfl, ⟨err, rfl⟩, fun _ => ⟨err, rfl⟩⟩
    | ok inputs =>
      cases hallocate : env.allocate orchestratorId with
      | error err =>
        refine .inl ⟨rfl, ⟨err, rfl⟩, fun hadmitted => ?_⟩
        obtain ⟨runId, hfree, -⟩ := hadmitted.2
        cases hfree
      | ok runId =>
        cases hpersist : env.persist runId with
        | error err =>
          refine .inl ⟨?_, ⟨err, ?_⟩, fun hadmitted => ?_⟩
          · simp only [hpersist]
          · simp only [hpersist]
          · obtain ⟨other, hfree, hother⟩ := hadmitted.2
            cases hfree
            rw [hpersist] at hother
            cases hother
        | ok _ =>
          refine .inr ⟨createRunWithMetadata runId workflowId none inputs env.now, ?_,
            ⟨rfl, runId, rfl, hpersist⟩, rfl⟩
          simp only [hpersist]

theorem invokeWorkflowRun_cases (h : Json.get args "inputs" = some (.object given)) :
    ((invokeWorkflowRun text env args).created = none ∧
        (∃ err, (invokeWorkflowRun text env args).result = .error err) ∧
        (Startable env args → ∃ err, parseKeyValueInputs (inputWords text given) = .error err)) ∨
      ∃ files, (invokeWorkflowRun text env args).created = some files ∧ Startable env args ∧
        parseKeyValueInputs (inputWords text given) = .ok files.run.inputs := by
  unfold Startable
  rw [invokeWorkflowRun, plan_workflowRun text h]
  cases requiredStringArg args "orchestratorId" with
  | error err =>
    refine .inl ⟨rfl, ⟨err, rfl⟩, ?_⟩
    rintro ⟨orchestratorId, workflowId, hstring, -⟩
    cases hstring
  | ok orchestratorId =>
    cases requiredStringArg args "workflowId" with
    | error err =>
      refine .inl ⟨rfl, ⟨err, rfl⟩, ?_⟩
      rintro ⟨_, workflowId, -, hstring, -⟩
      cases hstring
    | ok workflowId =>
      rcases cmdWorkflowRun_cases env orchestratorId workflowId (inputWords text given) with
        ⟨hnone, herror, hrefused⟩ | ⟨files, hfiles, hadmitted, hparse⟩
      · refine .inl ⟨hnone, herror, ?_⟩
        rintro ⟨_, _, ⟨⟩, ⟨⟩, hadmitted⟩
        exact hrefused hadmitted
      · exact .inr ⟨files, hfiles, ⟨orchestratorId, workflowId, rfl, rfl, hadmitted⟩, hparse⟩

/-- Inputs whose keys have no `=` survive the command line but for the blanks around a key. -/
theorem workflow_inputs_survive_trimmed (text : JsonText) (env : RunCommandEnv)
    {args given : List (String × Json)} (h : Json.get args "inputs" = some (.object given))
    (hplain : ∀ key ∈ Json.mapKeys given, '=' ∉ key.toList) :
    RejectedOr (HoldsTrimmed text given) (invokeWorkflowRun text env args) := by
  rcases invokeWorkflowRun_cases text env h with
    ⟨hnone, herror, -⟩ | ⟨files, hfiles, -, hparse⟩
  · exact .inl ⟨hnone, herror⟩
  · exact .inr ⟨files, hfiles, holdsTrimmed_of_parse text hplain hparse⟩

end Survival

/-! ## On the command line -/

/-- A command nothing stands in the way of. -/
def readyCommand : RunCommandEnv where
  admitted _ _ := .ok ()
  allocate _ := .ok "run-1-0000"
  now := 1
  persist _ := .ok ()
  start _ := .ok ()

def runCall (inputs : List (String × Json)) : List (String × Json) :=
  [("orchestratorId", .str "main"), ("workflowId", .str "triage"), ("inputs", .object inputs)]

/-- Every value but a text is written as `3`. -/
def threeText : JsonText where
  fromStr _ := none
  complaint := id
  toStringPretty _ := "3"

/-- Values that look like flags or pairs are kept, and keys are trimmed. -/
theorem workflow_inputs_survive_separators :
    RejectedOr (HoldsTrimmed threeText [(" note ", .str " a=b --input "), ("tries", .int 3)])
      (invokeWorkflowRun threeText readyCommand
        (runCall [(" note ", .str " a=b --input "), ("tries", .int 3)])) :=
  workflow_inputs_survive_trimmed threeText readyCommand rfl (by decide)

/-- Keys that differ only in the blanks around them meet. -/
theorem workflow_inputs_merged :
    ¬ RejectedOr (HoldsExactly threeText [("a", .str "b"), (" a", .str "c")])
        (invokeWorkflowRun threeText readyCommand
          (runCall [("a", .str "b"), (" a", .str "c")])) := by
  have hcreated : (invokeWorkflowRun threeText readyCommand
      (runCall [("a", .str "b"), (" a", .str "c")])).created =
      some (createRunWithMetadata "run-1-0000" "triage" none [("a", .str "b")] 1) := rfl
  rintro (⟨hnone, -⟩ | ⟨files, hfiles, hexact⟩)
  · rw [hcreated] at hnone
    cases hnone
  · rw [hcreated] at hfiles
    cases hfiles
    have hheld := (hexact " a" (.str "c")).mpr ⟨.str "c", rfl, rfl⟩
    exact absurd (congrArg Prod.fst (List.mem_singleton.mp hheld)) (by decide)

end Direclaw.App
