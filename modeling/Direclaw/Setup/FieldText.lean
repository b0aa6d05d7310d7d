import Direclaw.Config.RefusedEdits
import Direclaw.Lib.Alike
import Direclaw.Lib.Trimming
import Direclaw.Orchestration.OutputKeys

/-!
# Fields as text

The prompts of the setup screens for the inputs of a workflow and for the outputs and the
files of a step: a prompt starts with the text of the field, and what is confirmed is
parsed. To confirm a prompt as it opens leaves the draft as it is, unless a path holds a
comma.
-/

namespace Direclaw.Setup

open Direclaw.Lib Direclaw.Orchestration Direclaw.Config

/-! ## Fields to texts -/

/-- `join(",")`. -/
def csv (parts : List String) : String := ",".intercalate parts

def workflowInputsAsCsv (inputs : List String) : String :=
  if inputs.isEmpty then "<none>" else csv inputs

def outputsAsCsv (outputs : List OutputKey) : String :=
  csv (outputs.map SetupDraft.OutputKey.display)

/-- An entry of the files. -/
def fileEntry (entry : String × String) : String := entry.1 ++ "=" ++ entry.2

def outputFilesAsCsv (outputFiles : List (String × String)) : String :=
  if outputFiles.isEmpty then "<none>" else csv (outputFiles.map fileEntry)

/-- What a prompt starts with. -/
def initialText (current : String) : String := if current = "<none>" then "" else current

/-! ## Texts to fields -/

def parseCsvValues (raw : String) : List String :=
  (((raw.toList.splitOn ',').map Text.trim).filter (· ≠ [])).map String.ofList

def parsePathTemplate (raw : String) : Except String String :=
  let normalized := Text.trim raw.toList
  if normalized.isEmpty then .error "path template must be non-empty"
  else .ok (String.ofList normalized)

def parseOutputFileKey (raw : String) : Except String OutputKey := do
  let parsed ← OutputKey.parse raw
  if !parsed.required then
    .error "output_files keys must not include optional marker `?`; declare optionality only in `outputs`"
  else return parsed

/-- One turn of the loop over the entries. -/
def insertOutputFile (outputFiles : List (String × String)) (entry : String) :
    Except String (List (String × String)) :=
  match Text.splitOnce '=' entry.toList with
  | none => .error "output_files must use key=path entries"
  | some (key, value) =>
    let key := Text.trim key
    let value := Text.trim value
    if key.isEmpty || value.isEmpty then
      .error "output_files entries require non-empty key and path"
    else do
      let key ← parseOutputFileKey (String.ofList key)
      let value ← parsePathTemplate (String.ofList value)
      return OrderedMap.insert key.name value outputFiles

def parseOutputFiles (raw : String) : Except String (List (String × String)) :=
  (parseCsvValues raw).foldlM insertOutputFile []

/-! ## What is done with a confirmed text -/

def submitWorkflowInputs (orchestratorId workflowId value : String) : Edit :=
  SetupDraft.setWorkflowInputs orchestratorId workflowId (parseCsvValues value)

def submitStepOutputs (orchestratorId workflowId stepId value : String) : Edit := do
  let parsed ← ofResult (((parseCsvValues value).mapM OutputKey.parse).mapError .message)
  SetupDraft.setStepOutputs orchestratorId workflowId stepId parsed

def submitStepOutputFiles (orchestratorId workflowId stepId value : String) : Edit :=
  if Text.isBlank value.toList then
    SetupDraft.setStepOutputFiles orchestratorId workflowId stepId []
  else do
    let parsed ← ofResult ((parseOutputFiles value).mapError .message)
    SetupDraft.setStepOutputFiles orchestratorId workflowId stepId parsed

/-! ## Comma-separated texts -/

/-- A value that is found again between commas. -/
structure CsvValue (part : String) : Prop where
  trimmed : Text.TrimmedText part
  noComma : ',' ∉ part.toList

theorem parseCsvValues_csv {parts : List String} (h : ∀ part ∈ parts, CsvValue part) :
    parseCsvValues (csv parts) = parts := by
  by_cases hnil : parts = []
  · rw [hnil]
    decide
  have hsplit : (csv parts).toList.splitOn ',' = parts.map String.toList := by
    rw [csv, String.toList_intercalate]
    refine List.splitOn_intercalate ',' (fun piece hpiece => ?_) (by simpa using hnil)
    obtain ⟨part, hpart, rfl⟩ := List.mem_map.mp hpiece
    exact (h part hpart).noComma
  have htrim : (parts.map String.toList).map Text.trim = parts.map String.toList := by
    rw [List.map_map]
    exact List.map_congr_left fun part hpart => (h part hpart).trimmed.trim_eq
  have hfilter : (parts.map String.toList).filter (· ≠ []) = parts.map String.toList := by
    refine List.filter_eq_self.mpr fun piece hpiece => ?_
    obtain ⟨part, hpart, rfl⟩ := List.mem_map.mp hpiece
    exact decide_eq_true (h part hpart).trimmed.toList_ne_nil
  rw [parseCsvValues, hsplit, htrim, hfilter, List.map_map]
  conv_rhs => rw [← List.map_id parts]
  exact List.map_congr_left fun part _ => String.ofList_toList

/-- No value of a text holds a comma. -/
theorem csvValue_of_mem {raw part : String} (h : part ∈ parseCsvValues raw) : CsvValue part := by
  obtain ⟨piece, hpiece, rfl⟩ := List.mem_map.mp h
  obtain ⟨hpiece, hne⟩ := List.mem_filter.mp hpiece
  obtain ⟨piece, hsplit, rfl⟩ := List.mem_map.mp hpiece
  refine ⟨Text.trimmedText_ofList ?_, ?_⟩
  · have hne : Text.trim piece ≠ [] := by simpa using hne
    rw [Ne, Text.trim_eq_nil_iff, Bool.not_eq_true] at hne
    exact hne
  · rw [String.toList_ofList]
    exact fun hcomma => not_mem_of_mem_splitOn hsplit (Text.mem_of_mem_trim hcomma)

/-! ## Keys and paths -/

theorem csvValue_of_chars {part : String} (hne : part.toList ≠ [])
    (hblank : ∀ c ∈ part.toList, Text.isWhitespace c = false) (hcomma : ',' ∉ part.toList) :
    CsvValue part := by
  obtain ⟨c, hc⟩ := List.exists_mem_of_ne_nil _ hne
  exact ⟨⟨Text.isBlank_eq_false_iff.mpr ⟨c, hc, hblank c hc⟩, Text.trim_of_no_blank hblank⟩, hcomma⟩

theorem csvValue_of_isIdentifier {value : String} (h : IsIdentifier value) : CsvValue value :=
  csvValue_of_chars h.nonempty (fun c hc => not_isWhitespace_of_identifierChar (h.chars c hc))
    (h.not_mem rfl)

variable {outputFiles : List (String × String)} {missing : String} {key : OutputKey}

theorem csvValue_display (h : IsIdentifier key.name) :
    CsvValue (SetupDraft.OutputKey.display key) := by
  have hname := csvValue_of_isIdentifier h
  unfold SetupDraft.OutputKey.display
  split
  · exact hname
  · refine csvValue_of_chars (by simp) (fun c hc => ?_) ?_
    · rw [String.toList_append, List.mem_append] at hc
      rcases hc with hc | hc
      · exact not_isWhitespace_of_identifierChar (h.chars c hc)
      · rw [List.mem_singleton.mp hc]
        rfl
    · exact Text.not_mem_toList_append hname.noComma (by decide)

theorem splitOptionalMark_display (h : IsIdentifier key.name) :
    splitOptionalMark (SetupDraft.OutputKey.display key).toList =
      (key.name.toList, key.required) := by
  have hmark : '?' ∉ key.name.toList := h.not_mem rfl
  unfold SetupDraft.OutputKey.display splitOptionalMark
  cases hrequired : key.required with
  | true =>
    rw [if_pos rfl, if_neg fun hlast => hmark (List.mem_of_getLast? hlast)]
  | false =>
    have htext : (key.name ++ "?").toList = key.name.toList ++ ['?'] := String.toList_append
    rw [if_neg Bool.false_ne_true, htext, if_pos (List.getLast?_concat ..),
      List.dropLast_concat, h.trim]

/-- Keys are written as they are read. -/
theorem parse_display (h : IsIdentifier key.name) :
    OutputKey.parse (SetupDraft.OutputKey.display key) = .ok key := by
  have hdisplay := (csvValue_display h).trimmed
  have hvalid : validateIdentifierValue "output key" key.name = .ok () :=
    validateIdentifierValue_eq_ok_iff.mpr h
  simp only [OutputKey.parse, hdisplay.trim_eq, splitOptionalMark_display h,
    List.isEmpty_eq_false_iff.mpr hdisplay.toList_ne_nil,
    List.isEmpty_eq_false_iff.mpr h.nonempty, if_neg (h.not_mem (c := '?') rfl),
    String.ofList_toList, hvalid, Bool.false_eq_true, if_false]
  rfl

theorem parse_displays {outputs : List OutputKey} (h : ∀ key ∈ outputs, IsIdentifier key.name) :
    (outputs.map SetupDraft.OutputKey.display).mapM OutputKey.parse = .ok outputs := by
  induction outputs with
  | nil => rfl
  | cons key rest ih =>
    obtain ⟨hkey, hrest⟩ := List.forall_mem_cons.mp h
    rw [List.map_cons, List.mapM_cons, parse_display hkey, ih hrest]
    rfl

theorem parseOutputFileKey_of_isIdentifier {name : String} (h : IsIdentifier name) :
    parseOutputFileKey name = .ok ⟨name, true⟩ := by
  have hparse : OutputKey.parse name = .ok ⟨name, true⟩ :=
    @parse_display ⟨name, true⟩ h
  rw [parseOutputFileKey, hparse]
  rfl

theorem parsePathTemplate_of_trimmed {path : String} (h : Text.TrimmedText path) :
    parsePathTemplate path = .ok path := by
  rw [parsePathTemplate, h.trim_eq]
  simp only [List.isEmpty_eq_false_iff.mpr h.toList_ne_nil, String.ofList_toList]
  rfl

/-! ## Files -/

/-- What the types of an entry say. -/
structure TypedFile (entry : String × String) : Prop where
  key : IsIdentifier entry.1
  path : Text.TrimmedText entry.2

theorem csvValue_fileEntry {entry : String × String} (h : TypedFile entry)
    (hcomma : ',' ∉ entry.2.toList) : CsvValue (fileEntry entry) := by
  have hkey := csvValue_of_isIdentifier h.key
  have htext : (fileEntry entry).toList = (entry.1.toList ++ ['=']) ++ entry.2.toList := by
    simp [fileEntry]
  have hbare : Text.Bare Text.isWhitespace (fileEntry entry).toList := by
    rw [htext]
    exact hkey.trimmed.bare.append h.path.bare h.key.nonempty h.path.toList_ne_nil
  refine ⟨⟨?_, Text.trimMatches_of_bare hbare⟩, ?_⟩
  · refine Text.isBlank_eq_false_iff.mpr ⟨'=', ?_, rfl⟩
    simp [htext]
  · rw [htext]
    simpa using ⟨hkey.noComma, hcomma⟩

theorem insertOutputFile_fileEntry {entry : String × String} (h : TypedFile entry)
    (outputFiles : List (String × String)) :
    insertOutputFile outputFiles (fileEntry entry) =
      .ok (OrderedMap.insert entry.1 entry.2 outputFiles) := by
  have hsplit : Text.splitOnce '=' (fileEntry entry).toList =
      some (entry.1.toList, entry.2.toList) := by
    have htext : (fileEntry entry).toList = entry.1.toList ++ '=' :: entry.2.toList := by
      simp [fileEntry]
    rw [htext, Text.splitOnce_append (h.key.not_mem rfl)]
  simp only [insertOutputFile, hsplit, h.key.trim, h.path.trim_eq,
    List.isEmpty_eq_false_iff.mpr h.key.nonempty,
    List.isEmpty_eq_false_iff.mpr h.path.toList_ne_nil, Bool.or_self, String.ofList_toList,
    parseOutputFileKey_of_isIdentifier h.key, parsePathTemplate_of_trimmed h.path]
  rfl

theorem foldlM_insertOutputFile {entries : List (String × String)}
    (h : ∀ entry ∈ entries, TypedFile entry) (outputFiles : List (String × String)) :
    (entries.map fileEntry).foldlM insertOutputFile outputFiles =
      .ok (entries.foldl (fun map entry => OrderedMap.insert entry.1 entry.2 map) outputFiles) := by
  induction entries generalizing outputFiles with
  | nil => rfl
  | cons entry rest ih =>
    obtain ⟨hentry, hrest⟩ := List.forall_mem_cons.mp h
    rw [List.map_cons, List.foldlM_cons, insertOutputFile_fileEntry hentry]
    exact ih hrest _

theorem mem_csv_fileEntry (h : outputFiles ≠ []) :
    '=' ∈ (csv (outputFiles.map fileEntry)).toList := by
  cases outputFiles with
  | nil => exact absurd rfl h
  | cons entry rest =>
    cases rest with
    | nil => simp [csv, fileEntry]
    | cons next rest => simp [csv, String.intercalate_cons_cons, fileEntry]

theorem toList_of_parsePathTemplate {raw path : String} (h : parsePathTemplate raw = .ok path) :
    path.toList = Text.trim raw.toList := by
  unfold parsePathTemplate at h
  simp only at h
  split at h
  · cases h
  · rw [← Except.ok.inj h, String.toList_ofList]

/-- No comma comes into a path. -/
theorem noComma_insertOutputFile {outputFiles outputFiles' : List (String × String)}
    {entry : String} (hfiles : ∀ file ∈ outputFiles, ',' ∉ file.2.toList)
    (hentry : ',' ∉ entry.toList) (h : insertOutputFile outputFiles entry = .ok outputFiles') :
    ∀ file ∈ outputFiles', ',' ∉ file.2.toList := by
  unfold insertOutputFile at h
  cases hsplit : Text.splitOnce '=' entry.toList with
  | none => simp [hsplit] at h
  | some parts =>
    obtain ⟨key, value⟩ := parts
    obtain ⟨htext, -⟩ := Text.splitOnce_eq_some_iff.mp hsplit
    simp only [hsplit] at h
    split at h
    · cases h
    · obtain ⟨parsed, -, h⟩ := bind_eq_ok h
      obtain ⟨path, hpath, h⟩ := bind_eq_ok h
      cases h
      intro file hfile
      rcases OrderedMap.mem_insert hfile with rfl | hfile
      · intro hcomma
        rw [toList_of_parsePathTemplate hpath, String.toList_ofList, Text.trim_trim] at hcomma
        refine hentry ?_
        rw [htext]
        exact List.mem_append_right _ (List.mem_cons_of_mem _ (Text.mem_of_mem_trim hcomma))
      · exact hfiles file hfile

theorem noComma_foldlM {entries : List String} (hentries : ∀ entry ∈ entries, ',' ∉ entry.toList)
    {outputFiles outputFiles' : List (String × String)}
    (hfiles : ∀ file ∈ outputFiles, ',' ∉ file.2.toList)
    (h : entries.foldlM insertOutputFile outputFiles = .ok outputFiles') :
    ∀ file ∈ outputFiles', ',' ∉ file.2.toList := by
  induction entries generalizing outputFiles with
  | nil =>
    cases h
    exact hfiles
  | cons entry rest ih =>
    obtain ⟨hentry, hrest⟩ := List.forall_mem_cons.mp hentries
    rw [List.foldlM_cons] at h
    obtain ⟨next, hnext, h⟩ := bind_eq_ok h
    exact ih hrest (noComma_insertOutputFile hfiles hentry hnext) h

/-- **Files and their text.** They are read back exactly if no path holds a comma. -/
theorem parseOutputFiles_csv_iff (hsorted : OrderedMap.Sorted outputFiles)
    (htyped : ∀ entry ∈ outputFiles, TypedFile entry) :
    parseOutputFiles (csv (outputFiles.map fileEntry)) = .ok outputFiles ↔
      ∀ entry ∈ outputFiles, ',' ∉ entry.2.toList := by
  constructor
  · exact noComma_foldlM (fun entry hentry => (csvValue_of_mem hentry).noComma)
      (List.forall_mem_nil _)
  · intro hcomma
    have hvalues : ∀ part ∈ outputFiles.map fileEntry, CsvValue part := by
      intro part hpart
      obtain ⟨entry, hentry, rfl⟩ := List.mem_map.mp hpart
      exact csvValue_fileEntry (htyped entry hentry) (hcomma entry hentry)
    rw [parseOutputFiles, parseCsvValues_csv hvalues, foldlM_insertOutputFile htyped]
    exact congrArg Except.ok (OrderedMap.ofEntries_of_sorted hsorted)

/-! ## Inputs -/

theorem parseWorkflowInputs_of_nodup {inputs : List String}
    (hids : ∀ key ∈ inputs, IsIdentifier key) {values : List String}
    (hnodup : (values ++ inputs).Nodup) :
    SetupDraft.parseWorkflowInputs values inputs = .ok (values ++ inputs) := by
  induction inputs generalizing values with
  | nil => rw [List.append_nil]; rfl
  | cons key rest ih =>
    obtain ⟨hkey, hrest⟩ := List.forall_mem_cons.mp hids
    have htrim : Text.trimmed key = key := (csvValue_of_isIdentifier hkey).trimmed.trimmed_eq
    have hvalid : validateIdentifier "workflow input key" key = .ok () := by
      rw [validateIdentifier, validateIdentifierValue_eq_ok_iff.mpr hkey]
      rfl
    have hnew : key ∉ values := fun hmem =>
      (List.nodup_append.mp hnodup).2.2 key hmem key List.mem_cons_self rfl
    have hnodup' : ((values ++ [key]) ++ rest).Nodup := by simpa using hnodup
    have hnext := ih hrest hnodup'
    rw [List.append_assoc, List.singleton_append] at hnext
    rw [SetupDraft.parseWorkflowInputs, htrim, hvalid]
    exact (congrArg (SetupDraft.parseWorkflowInputs · rest) (if_neg hnew)).trans hnext

/-! ## Confirming a prompt as it opens -/

variable {draft : SetupDraft} {orchestratorId workflowId stepId : String}
  {config : OrchestratorConfig} {workflow : WorkflowConfig} {step : WorkflowStepConfig}

theorem editConfig_eq_self_iff (hkeys : (draft.orchestratorConfigs.map (·.1)).Nodup)
    (hconfig : draft.orchestratorConfigs.lookup orchestratorId = some config)
    {f : OrchestratorConfig → Except DraftError OrchestratorConfig} :
    editConfig missing orchestratorId f draft = .ok () draft ↔ f config = .ok config := by
  constructor
  · intro h
    obtain ⟨held, config', hheld, hf, hdraft⟩ := SetupDraft.editConfig_eq_ok h
    cases hconfig.symm.trans hheld
    rwa [(withConfig_eq_self_iff hkeys hconfig).mp hdraft.symm] at hf
  · intro h
    rw [editConfig_of_ok hconfig h, (withConfig_eq_self_iff hkeys hconfig).mpr rfl]

theorem editWorkflowIn_eq_self_iff
    (hworkflow : config.workflows.find? (·.id == workflowId) = some workflow)
    {f : WorkflowConfig → Except DraftError WorkflowConfig} :
    editWorkflowIn missing workflowId f config = .ok config ↔ f workflow = .ok workflow := by
  have hself : ∀ workflow', withWorkflow config workflowId workflow' = config ↔
      workflow' = workflow := fun workflow' => by
    obtain ⟨⟩ := config
    simpa [withWorkflow] using replaceFirst_eq_self_iff hworkflow
  constructor
  · intro h
    obtain ⟨held, workflow', hheld, hf, hconfig⟩ := editWorkflowIn_eq_ok h
    cases hworkflow.symm.trans hheld
    rwa [(hself workflow').mp hconfig.symm] at hf
  · intro h
    rw [editWorkflowIn, hworkflow]
    exact (congrArg (· >>= _) h).trans (congrArg Except.ok ((hself workflow).mpr rfl))

theorem editStepIn_eq_self_iff (hstep : workflow.steps.find? (·.id == stepId) = some step)
    {f : WorkflowStepConfig → Except DraftError WorkflowStepConfig} :
    editStepIn missing stepId f workflow = .ok workflow ↔ f step = .ok step := by
  have hself : ∀ step', withStep workflow stepId step' = workflow ↔ step' = step := fun step' => by
    obtain ⟨⟩ := workflow
    simpa [withStep] using replaceFirst_eq_self_iff hstep
  constructor
  · intro h
    obtain ⟨held, step', hheld, hf, hworkflow⟩ := editStepIn_eq_ok h
    cases hstep.symm.trans hheld
    rwa [(hself step').mp hworkflow.symm] at hf
  · intro h
    rw [editStepIn, hstep]
    exact (congrArg (· >>= _) h).trans (congrArg Except.ok ((hself step).mpr rfl))

theorem editStep_eq_self_iff (hkeys : (draft.orchestratorConfigs.map (·.1)).Nodup)
    (hconfig : draft.orchestratorConfigs.lookup orchestratorId = some config)
    (hworkflow : config.workflows.find? (·.id == workflowId) = some workflow)
    (hstep : workflow.steps.find? (·.id == stepId) = some step)
    {f : WorkflowStepConfig → Except DraftError WorkflowStepConfig} :
    editStep orchestratorId workflowId stepId f draft = .ok () draft ↔ f step = .ok step :=
  (editConfig_eq_self_iff hkeys hconfig).trans
    ((editWorkflowIn_eq_self_iff hworkflow).trans (editStepIn_eq_self_iff hstep))

theorem ensureMapped_of_mapped {outputs : List OutputKey}
    (h : ∀ key ∈ outputs, (outputFiles.lookup key.name).isSome = true) :
    SetupDraft.ensureMapped outputs outputFiles = .ok () := by
  have hnone : outputs.find? (fun key => (outputFiles.lookup key.name).isNone) = none := by
    refine List.find?_eq_none.mpr fun key hkey => ?_
    simpa using h key hkey
  rw [SetupDraft.ensureMapped, hnone]

/-- What the types of a step's fields say. -/
structure TypedStep (step : WorkflowStepConfig) : Prop where
  outputs : ∀ key ∈ step.outputs, IsIdentifier key.name
  sorted : OrderedMap.Sorted step.outputFiles
  files : ∀ entry ∈ step.outputFiles, TypedFile entry

theorem submitWorkflowInputs_initial (hkeys : (draft.orchestratorConfigs.map (·.1)).Nodup)
    (hconfig : draft.orchestratorConfigs.lookup orchestratorId = some config)
    (hworkflow : config.workflows.find? (·.id == workflowId) = some workflow)
    (hids : ∀ key ∈ workflow.inputs, IsIdentifier key) (hnodup : workflow.inputs.Nodup) :
    submitWorkflowInputs orchestratorId workflowId
      (initialText (workflowInputsAsCsv workflow.inputs)) draft = .ok () draft := by
  have hvalues : parseCsvValues (initialText (workflowInputsAsCsv workflow.inputs)) =
      workflow.inputs := by
    unfold workflowInputsAsCsv
    split
    · next hempty =>
        rw [List.isEmpty_iff.mp hempty]
        decide
    · have hcsv : parseCsvValues (csv workflow.inputs) = workflow.inputs :=
        parseCsvValues_csv fun key hkey => csvValue_of_isIdentifier (hids key hkey)
      have hsome : csv workflow.inputs ≠ "<none>" := by
        intro hnone
        have hids := hids "<none>" (by
          rw [← hcsv, hnone]
          decide)
        revert hids
        decide
      rw [initialText, if_neg hsome, hcsv]
  have hparsed : SetupDraft.parseWorkflowInputs [] workflow.inputs = .ok workflow.inputs :=
    parseWorkflowInputs_of_nodup hids hnodup
  rw [submitWorkflowInputs, hvalues, SetupDraft.setWorkflowInputs, hparsed]
  exact (editConfig_eq_self_iff hkeys hconfig).mpr
    ((editWorkflowIn_eq_self_iff hworkflow).mpr rfl)

theorem submitStepOutputs_initial (hkeys : (draft.orchestratorConfigs.map (·.1)).Nodup)
    (hconfig : draft.orchestratorConfigs.lookup orchestratorId = some config)
    (hworkflow : config.workflows.find? (·.id == workflowId) = some workflow)
    (hstep : workflow.steps.find? (·.id == stepId) = some step)
    {agents : List (String × AgentConfig)} (hinv : StepInvariants agents step)
    (htyped : TypedStep step) :
    submitStepOutputs orchestratorId workflowId stepId (outputsAsCsv step.outputs) draft =
      .ok () draft := by
  have hvalues : parseCsvValues (outputsAsCsv step.outputs) =
      step.outputs.map SetupDraft.OutputKey.display := by
    refine parseCsvValues_csv fun part hpart => ?_
    obtain ⟨key, hkey, rfl⟩ := List.mem_map.mp hpart
    exact csvValue_display (htyped.outputs key hkey)
  have hne : step.outputs.isEmpty = false := by
    obtain ⟨key, hkey, -⟩ := List.mem_map.mp hinv.summary
    exact List.isEmpty_eq_false_iff.mpr (List.ne_nil_of_mem hkey)
  rw [submitStepOutputs, hvalues, parse_displays htyped.outputs]
  have hset : SetupDraft.setStepOutputs orchestratorId workflowId stepId step.outputs draft =
      .ok () draft := by
    rw [SetupDraft.setStepOutputs, hne]
    refine (editStep_eq_self_iff hkeys hconfig hworkflow hstep).mpr ?_
    rw [ensureMapped_of_mapped hinv.mapped]
    rfl
  exact hset

theorem submitStepOutputFiles_initial_iff (hkeys : (draft.orchestratorConfigs.map (·.1)).Nodup)
    (hconfig : draft.orchestratorConfigs.lookup orchestratorId = some config)
    (hworkflow : config.workflows.find? (·.id == workflowId) = some workflow)
    (hstep : workflow.steps.find? (·.id == stepId) = some step)
    {agents : List (String × AgentConfig)} (hinv : StepInvariants agents step)
    (htyped : TypedStep step) :
    submitStepOutputFiles orchestratorId workflowId stepId
        (initialText (outputFilesAsCsv step.outputFiles)) draft = .ok () draft ↔
      ∀ entry ∈ step.outputFiles, ',' ∉ entry.2.toList := by
  have hne : step.outputFiles ≠ [] := by
    obtain ⟨key, hkey, -⟩ := List.mem_map.mp hinv.summary
    intro hnil
    have hmapped := hinv.mapped key hkey
    rw [hnil] at hmapped
    cases hmapped
  have hsign := mem_csv_fileEntry hne
  have hcsv : initialText (outputFilesAsCsv step.outputFiles) =
      csv (step.outputFiles.map fileEntry) := by
    rw [outputFilesAsCsv, List.isEmpty_eq_false_iff.mpr hne]
    refine if_neg fun hnone => ?_
    rw [if_neg Bool.false_ne_true] at hnone
    rw [hnone] at hsign
    revert hsign
    decide
  have hblank : Text.isBlank (csv (step.outputFiles.map fileEntry)).toList = false :=
    Text.isBlank_eq_false_iff.mpr ⟨'=', hsign, rfl⟩
  have hset : ∀ parsed, SetupDraft.setStepOutputFiles orchestratorId workflowId stepId parsed draft
      = .ok () draft ↔ parsed = step.outputFiles := by
    intro parsed
    constructor
    · intro h
      obtain ⟨_, -, h⟩ := edit_of_check h
      obtain ⟨_, -, h⟩ := bind_eq_ok ((editStep_eq_self_iff hkeys hconfig hworkflow hstep).mp h)
      exact congrArg WorkflowStepConfig.outputFiles (Except.ok.inj h)
    · rintro rfl
      rw [SetupDraft.setStepOutputFiles, List.isEmpty_eq_false_iff.mpr hne]
      refine (editStep_eq_self_iff hkeys hconfig hworkflow hstep).mpr ?_
      rw [ensureMapped_of_mapped hinv.mapped]
      rfl
  rw [hcsv, submitStepOutputFiles, hblank, if_neg Bool.false_ne_true,
    ← parseOutputFiles_csv_iff htyped.sorted htyped.files]
  constructor
  · intro h
    obtain ⟨parsed, hparsed, h⟩ := edit_of_check h
    have hfiles := mapError_eq_ok hparsed
    rwa [(hset parsed).mp h] at hfiles
  · intro h
    rw [h]
    exact (hset _).mpr rfl

/-- A path with a comma becomes two entries. -/
example : parseOutputFiles (csv [fileEntry ("summary", "a.md,plan=b.md")]) =
    .ok [("plan", "b.md"), ("summary", "a.md")] := by decide

theorem typedStep_workflowStep (workflowId stepId agentId : String) (stepType : WorkflowStepType) :
    TypedStep (workflowStep workflowId stepId stepType agentId) := by
  have hfile : ∀ entry ∈ defaultStepOutputFiles stepType, IsIdentifier entry.1 ∧
      Text.isBlank entry.2.toList = false ∧ Text.trim entry.2.toList = entry.2.toList := by
    cases stepType <;> decide +kernel
  refine ⟨?_, ?_, fun entry hentry => ?_⟩
  · show ∀ key ∈ defaultStepOutputContract stepType, IsIdentifier key.name
    cases stepType <;> decide
  · show ((defaultStepOutputFiles stepType).map (·.1)).Pairwise (· < ·)
    cases stepType <;> decide
  · obtain ⟨hkey, hfilled, htrim⟩ := hfile entry hentry
    exact ⟨hkey, ⟨hfilled, htrim⟩⟩

/-- The new draft with two inputs for its workflow. -/
def ticketDraft : SetupDraft :=
  leaves (SetupDraft.edit (.setWorkflowInputs "main" "default" ["ticket", "priority"]))
    SetupDraft.mainDraft

end Direclaw.Setup
