import Direclaw.Orchestration.WorkspaceAccess
import Direclaw.Orchestration.OutputContract
import Direclaw.Lib.OrderedMap

/-!
# Output files

The file side of `orchestration/output_contract.rs`: where the output keys of an
attempt are kept, and how the outputs of a `file_output` step are read from there.
-/

namespace Direclaw.Orchestration

open Direclaw.Lib

/-! ## Templates -/

/-- `str::replace`. What is left of a match is skipped. -/
def replaceFrom (pat rep : List Char) : ℕ → List Char → List Char
  | _, [] => []
  | skip + 1, _ :: s => replaceFrom pat rep skip s
  | 0, c :: s =>
    if pat.isPrefixOf (c :: s) then rep ++ replaceFrom pat rep (pat.length - 1) s
    else c :: replaceFrom pat rep 0 s

def interpolateOutputTemplate (template : List Char) (runId stepId : String) (attempt : ℕ) :
    List Char :=
  replaceFrom "\x7b\x7bworkflow.attempt\x7d\x7d".toList (Text.decimal attempt) 0
    (replaceFrom "\x7b\x7bworkflow.step_id\x7d\x7d".toList stepId.toList 0
      (replaceFrom "\x7b\x7bworkflow.run_id\x7d\x7d".toList runId.toList 0 template))

/-- A component of a relative path. -/
inductive TemplateComponent : Type where
  | normal (name : String)
  | curDir
  | parentDir
deriving DecidableEq, Repr

def templateComponent : List Char → Option TemplateComponent
  | [] => none
  | ['.'] => none
  | ['.', '.'] => some .parentDir
  | name => some (.normal (String.ofList name))

/-- `Path::components` of a relative path: a dot counts at the front only. -/
def templateComponents (path : List Char) : List TemplateComponent :=
  match path.splitOn '/' with
  | ['.'] :: rest => .curDir :: rest.filterMap templateComponent
  | segments => segments.filterMap templateComponent

def TemplateComponent.name? : TemplateComponent → Option String
  | .normal name => some name
  | _ => none

/-- The names of the relative path. -/
def validateRelativeOutputTemplate (interpolated : List Char) (stepId template : String) :
    Except OrchestratorError Location := do
  if interpolated.head? = some '/' then
    throw (.outputPathValidation stepId template "output path template must be relative")
  let components := templateComponents interpolated
  if components.any (·.name?.isNone) then
    throw (.outputPathValidation stepId template
      "non-canonical relative segments (`.` or `..`) are not allowed")
  let names := components.filterMap TemplateComponent.name?
  if names.isEmpty then
    throw (.outputPathValidation stepId template "output template must resolve to a file path")
  return names

def reservedAttemptRootOutputTargets : List String :=
  ["prompt.md", "context.md", "provider_invocation.json"]

def isReservedAttemptRootOutputTarget : Location → Bool
  | [name] => reservedAttemptRootOutputTargets.contains name
  | _ => false

/-! ## Paths -/

/-- The names below the state root of the directory of an attempt. A run id and a step
id are one name each. -/
def attemptNames (runId stepId : String) (attempt : ℕ) : Location :=
  ["workflows", "runs", runId, "steps", stepId, "attempts", String.ofList (Text.decimal attempt)]

def FilePath.join (path : FilePath) (names : Location) : FilePath :=
  { path with components := path.components ++ names.map .normal }

/-- One entry of `output_files`. -/
def resolveOutputPath (outputRoot : Location) (runId stepId : String) (attempt : ℕ)
    (template : String) : Except OrchestratorError Location := do
  let interpolated := interpolateOutputTemplate template.toList runId stepId attempt
  let relative ← validateRelativeOutputTemplate interpolated stepId template
  if isReservedAttemptRootOutputTarget relative then
    throw (.outputPathValidation stepId template
      (s!"output template targets reserved attempt artifact " ++
        s!"`{String.ofList interpolated}`"))
  let resolved ← normalizeAbsolutePath (FilePath.join (.ofLocation outputRoot) relative)
  if !outputRoot.isPrefixOf resolved then
    throw (.outputPathValidation stepId template
      (s!"resolved path `{FilePath.display (.ofLocation resolved)}` escapes output root " ++
        s!"`{FilePath.display (.ofLocation outputRoot)}`"))
  return resolved

def addOutputPath (outputRoot : Location) (runId stepId : String) (attempt : ℕ)
    (paths : List (String × Location)) (entry : String × String) :
    Except OrchestratorError (List (String × Location)) := do
  let resolved ← resolveOutputPath outputRoot runId stepId attempt entry.2
  return OrderedMap.insert entry.1 resolved paths

/-- The directory of an attempt. -/
def attemptRoot (stateRoot : FilePath) (runId stepId : String) (attempt : ℕ) :
    Except OrchestratorError Location :=
  normalizeAbsolutePath (FilePath.join stateRoot (attemptNames runId stepId attempt))

def resolveStepOutputPaths (stateRoot : FilePath) (runId : String) (step : WorkflowStepConfig)
    (attempt : ℕ) : Except OrchestratorError (List (String × Location)) := do
  let outputRoot ← attemptRoot stateRoot runId step.id attempt
  step.outputFiles.foldlM (addOutputPath outputRoot runId step.id attempt) []

/-! ## Reading the outputs -/

/-- A file as `read_to_string` finds it. -/
inductive OutputFile : Type where
  | text (raw : String)
  /-- One that is there and cannot be read, or is no UTF-8. -/
  | unreadable (kind : IoErrorKind)
deriving DecidableEq, Repr

/-- Every file that is there. -/
abbrev OutputDisk := Location → Option OutputFile

/-- Digits with an optional dot; `Number` of the documented grammar without its exponent. -/
def isDecimalText (s : List Char) : Bool :=
  match Text.splitOnce '.' s with
  | none => !s.isEmpty && s.all Char.isDigit
  | some (whole, fraction) =>
    whole.all Char.isDigit && fraction.all Char.isDigit && !(whole ++ fraction).isEmpty

def dropSign : List Char → List Char
  | '+' :: s => s
  | '-' :: s => s
  | s => s

/-- `parse::<f64>().is_ok()`. -/
def isFloatText (s : List Char) : Bool :=
  let s := Text.toAsciiLowercase (dropSign s)
  if s = "inf".toList ∨ s = "infinity".toList ∨ s = "nan".toList then true
  else
    match Text.splitOnce 'e' s with
    | none => isDecimalText s
    | some (mantissa, exponent) =>
      isDecimalText mantissa && !(dropSign exponent).isEmpty &&
        (dropSign exponent).all Char.isDigit

section Load

variable (fromStr : String → Option Json)

/-- The value of an output file with the text `raw`; `fromStr` is `serde_json::from_str`. -/
def outputFileValue (raw : String) : Json :=
  let trimmed := Text.trim raw.toList
  if trimmed.head? = some '\x7b' ∨ trimmed.head? = some '[' ∨ trimmed.head? = some '"' ∨
      trimmed = "true".toList ∨ trimmed = "false".toList ∨ trimmed = "null".toList ∨
      isFloatText trimmed = true then
    (fromStr (String.ofList trimmed)).getD (.str raw)
  else .str raw

variable (step : WorkflowStepConfig) (paths : List (String × Location)) (disk : OutputDisk)

def fileNotFound (name : String) : String := name ++ "=file_not_found"

/-- One key of the contract; the outputs read so far and the required keys that were
missing. -/
def loadOutputKey (loaded : Outputs × List String) (key : OutputKey) :
    Except OrchestratorError (Outputs × List String) :=
  match paths.lookup key.name with
  | none =>
    .error (.outputContractValidation step.id
      s!"missing output_files mapping for key `{key.name}`")
  | some path =>
    match disk path with
    | none =>
      .ok (loaded.1,
        if key.required then loaded.2 ++ [fileNotFound key.name] else loaded.2)
    | some (.unreadable kind) => .error (.io (FilePath.display (.ofLocation path)) kind)
    | some (.text raw) =>
      .ok (OrderedMap.insert key.name (outputFileValue fromStr raw) loaded.1, loaded.2)

/-- The error that names the missing keys. -/
def missingOutputs (missing : List String) : OrchestratorError :=
  .outputContractValidation step.id
    ("missing required output keys: " ++ ", ".intercalate (missing.insertionSort (· ≤ ·)))

def loadOutputsFromFiles : Except OrchestratorError Outputs :=
  if step.outputs.isEmpty then .ok []
  else
    match step.outputs.foldlM (loadOutputKey fromStr step paths disk) ([], []) with
    | .error err => .error err
    | .ok (outputs, missing) =>
      if missing.isEmpty then .ok outputs else .error (missingOutputs step missing)

/-- The required keys of `keys` without a file, as the error lists them. -/
def missingRequired (keys : List OutputKey) : List String :=
  (keys.filter fun key => key.required && ((paths.lookup key.name).bind disk).isNone).map
    fun key => fileNotFound key.name

/-- The reason of an error about a key without a path. -/
def unmappedReason (name : String) : String := s!"missing output_files mapping for key `{name}`"

def PathsMapped (keys : List OutputKey) : Prop :=
  ∀ key ∈ keys, (paths.lookup key.name).isSome = true

/-- No key has a file that cannot be read. -/
def FilesReadable (keys : List OutputKey) : Prop :=
  ∀ key ∈ keys, ∀ path, paths.lookup key.name = some path →
    ∀ kind, disk path ≠ some (.unreadable kind)

/-- The error that a key ends the scan with. -/
def ScanError (key : OutputKey) (err : OrchestratorError) : Prop :=
  (paths.lookup key.name = none ∧
    err = .outputContractValidation step.id (unmappedReason key.name)) ∨
  ∃ path kind, paths.lookup key.name = some path ∧ disk path = some (.unreadable kind) ∧
    err = .io (FilePath.display (.ofLocation path)) kind

variable {fromStr step paths disk}

variable {keys : List OutputKey}

theorem mem_missingRequired {key : OutputKey} {path : Location} (hkey : key ∈ keys)
    (hrequired : key.required = true) (hpath : paths.lookup key.name = some path)
    (hdisk : disk path = none) : fileNotFound key.name ∈ missingRequired paths disk keys := by
  refine List.mem_map.mpr ⟨key, List.mem_filter.mpr ⟨hkey, ?_⟩, rfl⟩
  rw [hrequired, hpath, Option.bind_some, hdisk]
  rfl

theorem none_of_mem_missingRequired {name : String} {path : Location}
    (h : fileNotFound name ∈ missingRequired paths disk keys)
    (hpath : paths.lookup name = some path) : disk path = none := by
  obtain ⟨key, hkey, heq⟩ := List.mem_map.mp h
  have hname : key.name = name := by
    have hlist := congrArg String.toList heq
    simp only [fileNotFound, String.toList_append] at hlist
    exact String.toList_inj.mp (List.append_cancel_right hlist)
  have hnone := (Bool.and_eq_true_iff.mp (List.mem_filter.mp hkey).2).2
  rw [hname, hpath, Option.bind_some] at hnone
  exact Option.isNone_iff_eq_none.mp hnone

theorem loadOutputKey_cases (loaded : Outputs × List String) (key : OutputKey) :
    (∃ err, ScanError step paths disk key err ∧
      loadOutputKey fromStr step paths disk loaded key = .error err) ∨
    (∃ path, paths.lookup key.name = some path ∧ disk path = none ∧
      loadOutputKey fromStr step paths disk loaded key = .ok (loaded.1,
        if key.required then loaded.2 ++ [fileNotFound key.name] else loaded.2)) ∨
    ∃ path raw, paths.lookup key.name = some path ∧ disk path = some (.text raw) ∧
      loadOutputKey fromStr step paths disk loaded key =
        .ok (OrderedMap.insert key.name (outputFileValue fromStr raw) loaded.1, loaded.2) := by
  unfold loadOutputKey
  cases hpath : paths.lookup key.name with
  | none => exact .inl ⟨_, .inl ⟨hpath, rfl⟩, rfl⟩
  | some path =>
    cases hdisk : disk path with
    | none => exact .inr (.inl ⟨path, rfl, hdisk, by simp only [hdisk]⟩)
    | some file =>
      cases file with
      | unreadable kind => exact .inl ⟨_, .inr ⟨path, kind, hpath, hdisk, rfl⟩, by simp only [hdisk]⟩
      | text raw => exact .inr (.inr ⟨path, raw, rfl, hdisk, by simp only [hdisk]⟩)

/-- Over keys that all have a path, and no file that cannot be read, the scan collects the
missing ones. -/
theorem foldlM_loadOutputKey (hmapped : PathsMapped paths keys)
    (hreadable : FilesReadable paths disk keys) (loaded : Outputs × List String) :
    ∃ outputs, keys.foldlM (loadOutputKey fromStr step paths disk) loaded =
      .ok (outputs, loaded.2 ++ missingRequired paths disk keys) := by
  induction keys generalizing loaded with
  | nil => exact ⟨loaded.1, by simp [missingRequired]; rfl⟩
  | cons key keys ih =>
    have hrest : ∀ loaded, ∃ outputs, keys.foldlM (loadOutputKey fromStr step paths disk) loaded =
        .ok (outputs, loaded.2 ++ missingRequired paths disk keys) :=
      ih (fun other hother => hmapped other (List.mem_cons_of_mem _ hother))
        fun other hother => hreadable other (List.mem_cons_of_mem _ hother)
    rw [List.foldlM_cons]
    rcases @loadOutputKey_cases fromStr step paths disk loaded key with ⟨err, hstop, -⟩ | ⟨path, hpath, hdisk, hnext⟩ |
        ⟨path, raw, hpath, hdisk, hnext⟩
    · rcases hstop with ⟨hnone, -⟩ | ⟨path, kind, hpath, hdisk, -⟩
      · have hsome := hmapped key List.mem_cons_self
        rw [hnone] at hsome
        cases hsome
      · exact absurd hdisk (hreadable key List.mem_cons_self path hpath kind)
    · obtain ⟨outputs, houtputs⟩ := hrest (loaded.1,
        if key.required then loaded.2 ++ [fileNotFound key.name] else loaded.2)
      rw [hnext]
      refine ⟨outputs, houtputs.trans ?_⟩
      cases hrequired : key.required with
      | true => simp [missingRequired, hrequired, hpath, hdisk]
      | false => simp [missingRequired, hrequired]
    · have hlist : missingRequired paths disk (key :: keys) =
          missingRequired paths disk keys := by
        simp [missingRequired, hpath, hdisk]
      obtain ⟨outputs, houtputs⟩ := hrest (OrderedMap.insert key.name
        (outputFileValue fromStr raw) loaded.1, loaded.2)
      rw [hnext, hlist]
      exact ⟨outputs, houtputs⟩

/-- The first key without a path, or with a file that cannot be read, ends the scan. -/
theorem foldlM_loadOutputKey_error (h : ¬ (PathsMapped paths keys ∧ FilesReadable paths disk keys))
    (loaded : Outputs × List String) :
    ∃ first ∈ keys, ∃ err, ScanError step paths disk first err ∧
      keys.foldlM (loadOutputKey fromStr step paths disk) loaded = .error err := by
  induction keys generalizing loaded with
  | nil => exact absurd ⟨nofun, nofun⟩ h
  | cons key keys ih =>
    rw [List.foldlM_cons]
    rcases @loadOutputKey_cases fromStr step paths disk loaded key with ⟨err, hstop, hnext⟩ | hgoes
    · rw [hnext]
      exact ⟨key, List.mem_cons_self, err, hstop, rfl⟩
    · obtain ⟨path, next, hpath, hdisk, hnext⟩ : ∃ path next, paths.lookup key.name = some path ∧
          (∀ kind, disk path ≠ some (.unreadable kind)) ∧
            loadOutputKey fromStr step paths disk loaded key = .ok next := by
        rcases hgoes with ⟨path, hpath, hdisk, hnext⟩ | ⟨path, raw, hpath, hdisk, hnext⟩
        · exact ⟨path, _, hpath, fun kind => by simp [hdisk], hnext⟩
        · exact ⟨path, _, hpath, fun kind => by simp [hdisk], hnext⟩
      have hrest : ¬ (PathsMapped paths keys ∧ FilesReadable paths disk keys) := by
        rintro ⟨hmapped, hreadable⟩
        refine h ⟨List.forall_mem_cons.mpr ⟨by rw [hpath]; rfl, hmapped⟩,
          List.forall_mem_cons.mpr ⟨fun other hother => ?_, hreadable⟩⟩
        rw [hpath] at hother
        cases hother
        exact hdisk
      obtain ⟨first, hfirst, herr⟩ := ih hrest next
      rw [hnext]
      exact ⟨first, List.mem_cons_of_mem _ hfirst, herr⟩

theorem loadOutputsFromFiles_error
    (h : ¬ (PathsMapped paths step.outputs ∧ FilesReadable paths disk step.outputs)) :
    ∃ first ∈ step.outputs, ∃ err, ScanError step paths disk first err ∧
      loadOutputsFromFiles fromStr step paths disk = .error err := by
  obtain ⟨first, hfirst, err, hstop, hload⟩ :=
    @foldlM_loadOutputKey_error fromStr step paths disk step.outputs h ([], [])
  have hkeys : step.outputs.isEmpty = false :=
    List.isEmpty_eq_false_iff.mpr (List.ne_nil_of_mem hfirst)
  refine ⟨first, hfirst, err, hstop, ?_⟩
  rw [loadOutputsFromFiles, hkeys, hload]
  rfl

theorem loadOutputsFromFiles_missing (hmapped : PathsMapped paths step.outputs)
    (hreadable : FilesReadable paths disk step.outputs)
    (h : missingRequired paths disk step.outputs ≠ []) :
    loadOutputsFromFiles fromStr step paths disk =
      .error (missingOutputs step (missingRequired paths disk step.outputs)) := by
  have hkeys : step.outputs.isEmpty = false := by
    cases hkeys : step.outputs with
    | nil =>
      rw [hkeys] at h
      exact absurd rfl h
    | cons _ _ => rfl
  have hlist : (missingRequired paths disk step.outputs).isEmpty = false :=
    List.isEmpty_eq_false_iff.mpr h
  have hload : ∃ outputs, step.outputs.foldlM (loadOutputKey fromStr step paths disk) ([], []) =
      .ok (outputs, missingRequired paths disk step.outputs) :=
    foldlM_loadOutputKey hmapped hreadable ([], [])
  obtain ⟨outputs, houtputs⟩ := hload
  rw [loadOutputsFromFiles, hkeys, houtputs]
  show (if (missingRequired paths disk step.outputs).isEmpty = true then Except.ok outputs
    else .error (missingOutputs step (missingRequired paths disk step.outputs))) = _
  rw [hlist]
  rfl

end Load

/-! ## Where the files of an attempt lie -/

section Paths

variable {stateRoot path : FilePath} {runId : String} {step : WorkflowStepConfig} {attempt : ℕ}

/-- The path that is normalized shows in the error only. -/
theorem foldlM_pushComponent {comps : List PathComponent} {before loc : Location}
    (h : comps.foldlM (pushComponent path) before = .ok loc) (other : FilePath) :
    comps.foldlM (pushComponent other) before = .ok loc := by
  induction comps generalizing before with
  | nil => exact h
  | cons comp comps ih =>
    rw [List.foldlM_cons] at h ⊢
    obtain ⟨next, hnext, hrest⟩ := bind_eq_ok h
    have hother : pushComponent other before comp = .ok next := by
      cases comp with
      | normal name => exact hnext
      | parentDir =>
        simp only [pushComponent] at hnext ⊢
        split at hnext
        · cases hnext
        · next hne => rw [if_neg hne]; exact hnext
    rw [hother]
    exact ih hrest

theorem foldlM_pushNames (names before : Location) :
    (names.map PathComponent.normal).foldlM (pushComponent path) before =
      .ok (before ++ names) := by
  induction names generalizing before with
  | nil => simp; rfl
  | cons name names ih =>
    rw [List.map_cons, List.foldlM_cons]
    refine (ih (before ++ [name])).trans ?_
    rw [List.append_assoc, List.singleton_append]

theorem normalize_join {names loc : Location}
    (h : normalizeAbsolutePath (FilePath.join path names) = .ok loc) :
    ∃ base, normalizeAbsolutePath path = .ok base ∧ loc = base ++ names := by
  unfold normalizeAbsolutePath FilePath.join at h
  dsimp only at h
  split at h
  · next habsolute =>
      rw [List.foldlM_append] at h
      obtain ⟨base, hbase, hnames⟩ := bind_eq_ok h
      refine ⟨base, ?_, ?_⟩
      · rw [normalizeAbsolutePath, if_pos habsolute]
        exact foldlM_pushComponent hbase path
      · rw [foldlM_pushNames] at hnames
        cases hnames
        rfl
  · cases h

theorem attemptRoot_names {stepId : String} {root : Location}
    (h : attemptRoot stateRoot runId stepId attempt = .ok root) :
    ∃ base, normalizeAbsolutePath stateRoot = .ok base ∧
      root = base ++ attemptNames runId stepId attempt := normalize_join h

theorem resolveOutputPath_prefix {outputRoot resolved : Location} {stepId template : String}
    (h : resolveOutputPath outputRoot runId stepId attempt template = .ok resolved) :
    outputRoot <+: resolved := by
  unfold resolveOutputPath at h
  dsimp only at h
  obtain ⟨relative, -, h⟩ := bind_eq_ok h
  rw [throw_if_ok_iff] at h
  obtain ⟨normalized, -, h⟩ := bind_eq_ok h.2
  rw [throw_if_ok_iff] at h
  obtain ⟨hbelow, h⟩ := h
  cases h
  exact List.isPrefixOf_iff_prefix.mp (by simpa using hbelow)

theorem isSome_of_addOutputPaths {outputRoot : Location} {stepId key : String}
    {entries : List (String × String)} {paths paths' : List (String × Location)}
    (h : entries.foldlM (addOutputPath outputRoot runId stepId attempt) paths = .ok paths')
    (hkey : (paths.lookup key).isSome = true ∨ (entries.lookup key).isSome = true) :
    (paths'.lookup key).isSome = true := by
  induction entries generalizing paths with
  | nil =>
    cases h
    exact hkey.resolve_right nofun
  | cons entry entries ih =>
    rw [List.foldlM_cons] at h
    obtain ⟨next, hnext, hrest⟩ := bind_eq_ok h
    refine ih hrest ?_
    obtain ⟨resolved, -, hnext⟩ := bind_eq_ok hnext
    cases hnext
    by_cases hentry : key = entry.1
    · rw [hentry, OrderedMap.lookup_insert_self]
      exact .inl rfl
    · rw [OrderedMap.lookup_insert_of_ne hentry]
      refine hkey.imp_right fun hmem => ?_
      have hne : (key == entry.1) = false := by simpa using hentry
      rwa [List.lookup_cons, hne] at hmem

/-- Every key of `output_files` has a path, below the directory of the attempt. -/
theorem resolveStepOutputPaths_ok {paths : List (String × Location)}
    (h : resolveStepOutputPaths stateRoot runId step attempt = .ok paths) :
    ∃ root, attemptRoot stateRoot runId step.id attempt = .ok root ∧
      (∀ key resolved, paths.lookup key = some resolved → root <+: resolved) ∧
        ∀ key, (step.outputFiles.lookup key).isSome = true → (paths.lookup key).isSome = true := by
  obtain ⟨root, hroot, h⟩ := bind_eq_ok h
  refine ⟨root, hroot, ?_, fun key hkey => isSome_of_addOutputPaths h (.inr hkey)⟩
  refine foldlM_invariant (P := fun paths : List (String × Location) =>
    ∀ key resolved, paths.lookup key = some resolved → root <+: resolved) ?_ ?_ h
  · intro paths entry paths' hpaths hentry key resolved hresolved
    obtain ⟨path, hpath, hentry⟩ := bind_eq_ok hentry
    cases hentry
    by_cases hkey : key = entry.1
    · rw [hkey, OrderedMap.lookup_insert_self] at hresolved
      cases hresolved
      exact resolveOutputPath_prefix hpath
    · rw [OrderedMap.lookup_insert_of_ne hkey] at hresolved
      exact hpaths key resolved hresolved
  · intro key resolved hresolved
    cases hresolved

end Paths

end Direclaw.Orchestration
