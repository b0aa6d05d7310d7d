import Direclaw.Config.GlobalSettings
import Direclaw.Lib.SelfDelimiting
import Direclaw.Lib.Run
import Direclaw.Lib.Sha256

/-!
# The model store

`ensure_model_available_with_downloader` of `local_llm/model_store.rs`. The file of a model is
judged by the one manifest of the store, which names the model that was fetched last and is
written after the file is in its place. A call is taken apart into its file operations; it may
end before any of them, refused by the system or with the process.
-/

namespace Direclaw.LocalLlm

open Direclaw.Lib Direclaw.Config Direclaw.Orchestration

/-! ## Paths and names -/

structure LocalLlmModelConfig where
  repo : String := "unsloth/Qwen3.5-0.8B-GGUF"
  file : String := "Qwen3.5-0.8B-UD-IQ2_M.gguf"
  revision : Option String := none
  sha256 : Option String := none
deriving DecidableEq, Repr

def LocalLlmModelConfig.revisionOrMain (model : LocalLlmModelConfig) : String :=
  model.revision.getD "main"

structure ModelManifest where
  repo : String
  file : String
  revision : String
  downloadedAt : Int
  sizeBytes : ℕ
  sha256 : String
deriving DecidableEq, Repr

def modelsDir (stateRoot : String) : String := joinPath stateRoot "models"

def modelPath (stateRoot file : String) : String :=
  joinPath (modelsDir stateRoot) (Text.trimmed file)

def manifestPath (stateRoot : String) : String := joinPath (modelsDir stateRoot) "manifest.json"

/-- A path from its end, without separators and `.` parts behind the last name. -/
def dropTrailing : List Char → List Char
  | '/' :: rest => dropTrailing rest
  | '.' :: '/' :: rest => dropTrailing rest
  | path => path

def withExtension (path ext : String) : String :=
  let reversed := dropTrailing path.toList.reverse
  let name := (reversed.takeWhile (· ≠ '/')).reverse
  if name = [] ∨ name = ['.'] ∨ name = ['.', '.'] then path
  else
    String.ofList ((reversed.drop name.length).reverse ++ Text.fileStem name ++ '.' :: ext.toList)

def tempPath (stateRoot file : String) (processId : ℕ) : String :=
  withExtension (modelPath stateRoot file) s!"downloading-{processId}"

def trimSlashes (text : String) : String :=
  String.ofList (Text.trimMatches (· == '/') text.toList)

def trimLeadingSlashes (text : String) : String := String.ofList (text.toList.dropWhile (· == '/'))

def trimTrailingSlashes (text : String) : String :=
  String.ofList (text.toList.reverse.dropWhile (· == '/')).reverse

/-- `base` is the value of `DIRECLAW_LOCAL_LLM_HF_BASE_URL`. -/
def modelDownloadUrl (base : Option String) (repo revision file : String) : String :=
  let base := (base.filter notBlank).getD "https://huggingface.co"
  s!"{trimTrailingSlashes base}/{trimSlashes repo}/resolve/{Text.trimmed revision}/" ++
    s!"{trimLeadingSlashes file}?download=true"

def hexDigits (byte : UInt8) : List Char :=
  [Nat.digitChar (byte.toNat / 16), Nat.digitChar (byte.toNat % 16)]

/-- `sha256_file`, of the bytes of the file. -/
def sha256Hex (bytes : List UInt8) : String :=
  String.ofList ((Sha256.digest bytes).flatMap hexDigits)

/-! ## The store -/

/-- The printer and the reader of a manifest. -/
structure ManifestText where
  encode : ModelManifest → List UInt8
  decode : List UInt8 → Option ModelManifest
  decode_encode : ∀ manifest, decode (encode manifest) = some manifest
  decode_take : ∀ manifest {n}, n < (encode manifest).length →
    decode ((encode manifest).take n) = none

/-- What stays the same from call to call: where a path leads, and what a URL yields. -/
structure ModelStore (P : Type) where
  stateRoot : String
  place : String → P
  text : ManifestText
  base : Option String
  yields : String → List UInt8

abbrev StoreFiles (P : Type) := P → Option (List UInt8)

/-- The operations of a call, in their order; opening the manifest empties it. -/
inductive Stage : Type where
  | createDir
  | remove
  | download
  | inspect
  | rename
  | digest
  | openManifest
  | manifest
  | returning
deriving DecidableEq, Repr

inductive Halt : Type where
  | refused (err : String)
  | killed
deriving DecidableEq, Repr

/-- Where a call ends early, with what a download leaves in the temporary file and how much
of the manifest is written. -/
structure Stop where
  stage : Stage
  how : Halt
  left : Option (List UInt8) := none
  written : ℕ := 0
deriving DecidableEq, Repr

inductive CallResult : Type where
  | returned (path : String)
  | failed (reason : String)
  | died
deriving DecidableEq, Repr

def Stop.result (stop : Stop) (describe : String → String) : CallResult :=
  match stop.how with
  | .refused err => .failed (describe err)
  | .killed => .died

structure ModelCall where
  model : LocalLlmModelConfig
  processId : ℕ := 1
  nowSecs : Int := 0
  stop : Option Stop := none
deriving DecidableEq, Repr

def ModelCall.stopsAt (call : ModelCall) (stage : Stage) : Option Stop :=
  call.stop.filter (·.stage = stage)

/-- The digest that is asked for; a blank one asks for nothing. -/
def expectedSha256 (model : LocalLlmModelConfig) : Option String := model.sha256.filter notBlank

def validateModelFile (path : String) (bytes : List UInt8) (model : LocalLlmModelConfig) :
    Except String Unit :=
  if bytes.isEmpty then .error s!"model file is empty: {path}"
  else
    match expectedSha256 model with
    | none => .ok ()
    | some expected =>
      let actual := sha256Hex bytes
      if actual.toList ≠ Text.toAsciiLowercase expected.toList then
        .error s!"model sha256 mismatch for {path}: expected {expected}, got {actual}"
      else .ok ()

section Store

variable {P : Type} (store : ModelStore P)

def ModelStore.modelPlace (file : String) : P := store.place (modelPath store.stateRoot file)

def ModelStore.manifestPlace : P := store.place (manifestPath store.stateRoot)

def ModelStore.tempPlace (call : ModelCall) : P :=
  store.place (tempPath store.stateRoot call.model.file call.processId)

def ModelStore.modelBytes (repo revision file : String) : List UInt8 :=
  store.yields (modelDownloadUrl store.base repo revision file)

def ModelStore.requested (model : LocalLlmModelConfig) : List UInt8 :=
  store.modelBytes model.repo model.revisionOrMain model.file

def ModelStore.readManifest (files : StoreFiles P) : Option ModelManifest :=
  (files store.manifestPlace).bind store.text.decode

def ModelStore.cachedModelMatches (files : StoreFiles P) (model : LocalLlmModelConfig) : Bool :=
  match store.readManifest files with
  | none => false
  | some manifest =>
    manifest.repo = model.repo ∧ manifest.file = model.file ∧
      manifest.revision = model.revisionOrMain

def manifestOf (call : ModelCall) (bytes : List UInt8) : ModelManifest where
  repo := call.model.repo
  file := call.model.file
  revision := call.model.revisionOrMain
  downloadedAt := call.nowSecs
  sizeBytes := bytes.length
  sha256 := sha256Hex bytes

variable [DecidableEq P]

/-- `write_manifest`, of a model that is in its place. -/
def ModelStore.writeManifest (files : StoreFiles P) (call : ModelCall) (bytes : List UInt8) :
    CallResult × StoreFiles P :=
  let target := modelPath store.stateRoot call.model.file
  let unwritten (err : String) : String :=
    s!"failed to write model manifest {manifestPath store.stateRoot}: {err}"
  match call.stopsAt .digest with
  | some stop => (stop.result fun err => s!"failed reading model metadata {target}: {err}", files)
  | none =>
    match call.stopsAt .openManifest with
    | some stop => (stop.result unwritten, files)
    | none =>
      let body := store.text.encode (manifestOf call bytes)
      match call.stopsAt .manifest with
      | some stop =>
        (stop.result unwritten,
          Function.update files store.manifestPlace (some (body.take stop.written)))
      | none =>
        let files := Function.update files store.manifestPlace (some body)
        match call.stopsAt .returning with
        | some stop => (stop.result id, files)
        | none => (.returned target, files)

/-- The download, and the move into place. -/
def ModelStore.fetch (files : StoreFiles P) (call : ModelCall) : CallResult × StoreFiles P :=
  let temp := tempPath store.stateRoot call.model.file call.processId
  let target := modelPath store.stateRoot call.model.file
  match call.stopsAt .download with
  | some stop =>
    (stop.result id,
      match stop.left with
      | some bytes => Function.update files (store.tempPlace call) (some bytes)
      | none => files)
  | none =>
    let bytes := store.requested call.model
    let files := Function.update files (store.tempPlace call) (some bytes)
    match call.stopsAt .inspect with
    | some stop =>
      (stop.result fun err => s!"failed to read model file metadata {temp}: {err}", files)
    | none =>
      match validateModelFile temp bytes call.model with
      | .error reason => (.failed reason, files)
      | .ok () =>
        match call.stopsAt .rename with
        | some stop =>
          (stop.result fun err => s!"failed to move model from {temp} to {target}: {err}",
            files)
        | none =>
          let files := Function.update files (store.tempPlace call) none
          let files := Function.update files (store.modelPlace call.model.file) (some bytes)
          store.writeManifest files call bytes

/-- `ensure_model_available_with_downloader`. -/
def ModelStore.ensureModelAvailable (files : StoreFiles P) (call : ModelCall) :
    CallResult × StoreFiles P :=
  let dir := modelsDir store.stateRoot
  let path := modelPath store.stateRoot call.model.file
  match call.stopsAt .createDir with
  | some stop =>
    (stop.result fun err => s!"failed to create models directory {dir}: {err}", files)
  | none =>
    match files (store.modelPlace call.model.file) with
    | none => store.fetch files call
    | some bytes =>
      if store.cachedModelMatches files call.model then
        match call.stopsAt .inspect with
        | some stop =>
          (stop.result fun err => s!"failed to read model file metadata {path}: {err}", files)
        | none =>
          match validateModelFile path bytes call.model with
          | .error reason => (.failed reason, files)
          | .ok () =>
            match call.stopsAt .returning with
            | some stop => (stop.result id, files)
            | none => (.returned path, files)
      else
        match call.stopsAt .remove with
        | some stop =>
          (stop.result fun err => s!"failed to remove stale model file {path}: {err}", files)
        | none =>
          store.fetch (Function.update files (store.modelPlace call.model.file) none) call

/-- What a call leaves. -/
def ModelStore.step (files : StoreFiles P) (call : ModelCall) : StoreFiles P :=
  (store.ensureModelAvailable files call).2

end Store

/-! ## Manifest and file in step -/

section InStep

variable {P : Type} (store : ModelStore P)

def ModelStore.vouchedBytes (manifest : ModelManifest) : List UInt8 :=
  store.modelBytes manifest.repo manifest.revision manifest.file

/-- Where there is a file that the manifest names, it is the one that was asked for then. -/
def ModelStore.Vouched (files : StoreFiles P) : Prop :=
  ∀ manifest bytes, store.readManifest files = some manifest →
    files (store.modelPlace manifest.file) = some bytes → bytes = store.vouchedBytes manifest

/-- The manifest names another place, or these bytes. -/
def ModelStore.Fits (files : StoreFiles P) (place : P) (bytes : List UInt8) : Prop :=
  ∀ manifest, store.readManifest files = some manifest →
    store.modelPlace manifest.file = place → bytes = store.vouchedBytes manifest

/-- A call that gets to its download. -/
def ModelStore.Fetches (files : StoreFiles P) (call : ModelCall) : Prop :=
  call.stopsAt .createDir = none ∧
    (files (store.modelPlace call.model.file) ≠ none →
      store.cachedModelMatches files call.model = false ∧ call.stopsAt .remove = none)

/-- A call whose download gets into its place. -/
def ModelStore.Moves (call : ModelCall) : Prop :=
  call.stopsAt .download = none ∧ call.stopsAt .inspect = none ∧
    validateModelFile (tempPath store.stateRoot call.model.file call.processId)
      (store.requested call.model) call.model = .ok () ∧
    call.stopsAt .rename = none

/-- A call that fetches keeps off the manifest, and does not end with other bytes at the
place that the manifest names. -/
structure ModelStore.KeepsInStep (files : StoreFiles P) (call : ModelCall) : Prop where
  apart : store.Fetches files call → store.modelPlace call.model.file ≠ store.manifestPlace ∧
    store.tempPlace call ≠ store.manifestPlace
  download : store.Fetches files call → ∀ stop bytes, call.stopsAt .download = some stop →
    stop.left = some bytes → store.Fits files (store.tempPlace call) bytes
  temp : store.Fetches files call → call.stopsAt .download = none → ¬ store.Moves call →
    store.Fits files (store.tempPlace call) (store.requested call.model)
  moved : store.Fetches files call → store.Moves call →
    call.stopsAt .digest ≠ none ∨ call.stopsAt .openManifest ≠ none →
      store.Fits files (store.modelPlace call.model.file) (store.requested call.model)

/-- What a call that returns promises of its path. -/
structure ModelStore.Delivered (files : StoreFiles P) (model : LocalLlmModelConfig)
    (path : String) : Prop where
  bytes : files (store.place path) = some (store.requested model)
  digest : ∀ expected, expectedSha256 model = some expected →
    (sha256Hex (store.requested model)).toList = Text.toAsciiLowercase expected.toList

theorem digest_of_valid {path : String} {bytes : List UInt8} {model : LocalLlmModelConfig}
    (h : validateModelFile path bytes model = .ok ()) {expected : String}
    (hexpected : expectedSha256 model = some expected) :
    (sha256Hex bytes).toList = Text.toAsciiLowercase expected.toList := by
  unfold validateModelFile at h
  rw [hexpected] at h
  split at h
  · cases h
  · dsimp only at h
    split at h
    · cases h
    · next heq => exact not_not.mp heq

variable {store} {files : StoreFiles P} {call : ModelCall} {place : P} {bytes : List UInt8}

theorem vouched_of_no_manifest (h : store.readManifest files = none) : store.Vouched files := by
  intro manifest bytes hmanifest
  rw [h] at hmanifest
  cases hmanifest

theorem cachedModelMatches_manifestOf {model : LocalLlmModelConfig}
    (hread : store.readManifest files = some (manifestOf call bytes)) :
    store.cachedModelMatches files model = true ↔ call.model.repo = model.repo ∧
      call.model.file = model.file ∧ call.model.revisionOrMain = model.revisionOrMain := by
  simp [ModelStore.cachedModelMatches, hread, manifestOf]

theorem place_modelPath (store : ModelStore P) (file : String) :
    store.place (modelPath store.stateRoot file) = store.modelPlace file := rfl

theorem bytes_of_matches (hvouched : store.Vouched files)
    (hmatches : store.cachedModelMatches files call.model = true)
    (hfile : files (store.modelPlace call.model.file) = some bytes) :
    bytes = store.requested call.model := by
  unfold ModelStore.cachedModelMatches at hmatches
  cases hread : store.readManifest files with
  | none =>
    rw [hread] at hmatches
    cases hmatches
  | some manifest =>
    rw [hread] at hmatches
    obtain ⟨hrepo, hname, hrevision⟩ := of_decide_eq_true hmatches
    have hbytes := hvouched manifest bytes hread (by rw [hname, hfile])
    rw [hbytes, ModelStore.vouchedBytes, hrepo, hname, hrevision]
    rfl

variable [DecidableEq P]

theorem readManifest_update (h : place ≠ store.manifestPlace) (value : Option (List UInt8)) :
    store.readManifest (Function.update files place value) = store.readManifest files := by
  rw [ModelStore.readManifest, Function.update_of_ne (Ne.symm h)]
  rfl

theorem ModelStore.Vouched.put (h : store.Vouched files) (hplace : place ≠ store.manifestPlace)
    (hfits : store.Fits files place bytes) :
    store.Vouched (Function.update files place (some bytes)) := by
  intro manifest found hmanifest hfound
  rw [readManifest_update hplace] at hmanifest
  by_cases hsame : store.modelPlace manifest.file = place
  · rw [hsame, Function.update_self] at hfound
    cases hfound
    exact hfits manifest hmanifest hsame
  · rw [Function.update_of_ne hsame] at hfound
    exact h manifest found hmanifest hfound

theorem ModelStore.Vouched.erase (h : store.Vouched files) (place : P) :
    store.Vouched (Function.update files place none) := by
  by_cases hplace : place = store.manifestPlace
  · apply vouched_of_no_manifest
    rw [ModelStore.readManifest, hplace, Function.update_self]
    rfl
  · intro manifest found hmanifest hfound
    rw [readManifest_update hplace] at hmanifest
    by_cases hsame : store.modelPlace manifest.file = place
    · rw [hsame, Function.update_self] at hfound
      cases hfound
    · rw [Function.update_of_ne hsame] at hfound
      exact h manifest found hmanifest hfound

theorem vouched_written (hplace : store.modelPlace call.model.file ≠ store.manifestPlace)
    (hfile : files (store.modelPlace call.model.file) = some (store.requested call.model)) :
    store.Vouched (Function.update files store.manifestPlace
      (some (store.text.encode (manifestOf call bytes)))) := by
  intro manifest found hmanifest hfound
  rw [ModelStore.readManifest, Function.update_self] at hmanifest
  have hread : store.text.decode (store.text.encode (manifestOf call bytes)) = some manifest :=
    hmanifest
  rw [store.text.decode_encode] at hread
  cases hread
  have hkept : Function.update files store.manifestPlace
      (some (store.text.encode (manifestOf call bytes))) (store.modelPlace call.model.file) =
        some found := hfound
  rw [Function.update_of_ne hplace, hfile] at hkept
  exact (Option.some.inj hkept).symm

theorem vouched_torn (hplace : store.modelPlace call.model.file ≠ store.manifestPlace)
    (hfile : files (store.modelPlace call.model.file) = some (store.requested call.model)) (n : ℕ) :
    store.Vouched (Function.update files store.manifestPlace
      (some ((store.text.encode (manifestOf call bytes)).take n))) := by
  by_cases hn : n < (store.text.encode (manifestOf call bytes)).length
  · apply vouched_of_no_manifest
    rw [ModelStore.readManifest, Function.update_self]
    exact store.text.decode_take _ hn
  · rw [List.take_of_length_le (by omega)]
    exact vouched_written hplace hfile

theorem result_ne_returned (stop : Stop) (describe : String → String) (path : String) :
    stop.result describe ≠ .returned path := by
  unfold Stop.result
  split
  · nofun
  · nofun

/-- The manifest is not touched, is written in part, or is written. -/
theorem writeManifest_cases (store : ModelStore P) (files : StoreFiles P) (call : ModelCall)
    (bytes : List UInt8) : ∃ result after, store.writeManifest files call bytes = (result, after) ∧
      (((call.stopsAt .digest ≠ none ∨ call.stopsAt .openManifest ≠ none) ∧ after = files ∧
          ∀ path, result ≠ .returned path) ∨
        (∃ n, after = Function.update files store.manifestPlace
            (some ((store.text.encode (manifestOf call bytes)).take n)) ∧
          ∀ path, result ≠ .returned path) ∨
        (after = Function.update files store.manifestPlace
            (some (store.text.encode (manifestOf call bytes))) ∧
          ∀ path, result = .returned path → path = modelPath store.stateRoot call.model.file)) := by
  unfold ModelStore.writeManifest
  cases hdigest : call.stopsAt .digest with
  | some stop => exact ⟨_, _, rfl, .inl ⟨.inl nofun, rfl, result_ne_returned _ _⟩⟩
  | none =>
    cases hopen : call.stopsAt .openManifest with
    | some stop => exact ⟨_, _, rfl, .inl ⟨.inr nofun, rfl, result_ne_returned _ _⟩⟩
    | none =>
      cases call.stopsAt .manifest with
      | some stop =>
        exact ⟨_, _, rfl, .inr (.inl ⟨stop.written, rfl, result_ne_returned _ _⟩)⟩
      | none =>
        cases call.stopsAt .returning with
        | some stop =>
          exact ⟨_, _, rfl, .inr (.inr ⟨rfl, fun path h =>
            absurd h (result_ne_returned _ _ path)⟩)⟩
        | none =>
          exact ⟨_, _, rfl, .inr (.inr ⟨rfl, fun path h =>
            (CallResult.returned.inj h).symm⟩)⟩

theorem writeManifest_spec (hplace : store.modelPlace call.model.file ≠ store.manifestPlace)
    (hfile : files (store.modelPlace call.model.file) = some (store.requested call.model))
    (hearly : call.stopsAt .digest ≠ none ∨ call.stopsAt .openManifest ≠ none →
      store.Vouched files) :
    store.Vouched (store.writeManifest files call bytes).2 ∧
      ∀ path, (store.writeManifest files call bytes).1 = .returned path →
        (store.writeManifest files call bytes).2 (store.place path) =
          some (store.requested call.model) := by
  obtain ⟨result, after, hcall, hcases⟩ := writeManifest_cases store files call bytes
  rw [hcall]
  rcases hcases with ⟨hstop, rfl, hresult⟩ | ⟨n, rfl, hresult⟩ | ⟨rfl, hresult⟩
  · exact ⟨hearly hstop, fun path h => absurd h (hresult path)⟩
  · exact ⟨vouched_torn hplace hfile n, fun path h => absurd h (hresult path)⟩
  · refine ⟨vouched_written hplace hfile, fun path h => ?_⟩
    dsimp only
    rw [hresult path h, place_modelPath, Function.update_of_ne hplace, hfile]

theorem vouched_moved (hvouched : store.Vouched files)
    (hplace : store.modelPlace call.model.file ≠ store.manifestPlace)
    (htemp : store.tempPlace call ≠ store.manifestPlace)
    (hfits : store.Fits files (store.modelPlace call.model.file) bytes) :
    store.Vouched (Function.update
      (Function.update (Function.update files (store.tempPlace call) (some bytes))
        (store.tempPlace call) none)
      (store.modelPlace call.model.file) (some bytes)) := by
  rw [Function.update_idem]
  refine (hvouched.erase _).put hplace fun manifest hmanifest hsame => ?_
  rw [readManifest_update htemp] at hmanifest
  exact hfits manifest hmanifest hsame

/-- A fetch keeps file and manifest in step, and returns the path of what was asked for. -/
theorem fetch_spec (hvouched : store.Vouched files)
    (hplace : store.modelPlace call.model.file ≠ store.manifestPlace)
    (htemp : store.tempPlace call ≠ store.manifestPlace)
    (hdownload : ∀ stop bytes, call.stopsAt .download = some stop → stop.left = some bytes →
      store.Fits files (store.tempPlace call) bytes)
    (hstays : call.stopsAt .download = none → ¬ store.Moves call →
      store.Fits files (store.tempPlace call) (store.requested call.model))
    (hmoved : store.Moves call → call.stopsAt .digest ≠ none ∨ call.stopsAt .openManifest ≠ none →
      store.Fits files (store.modelPlace call.model.file) (store.requested call.model)) :
    store.Vouched (store.fetch files call).2 ∧
      ∀ path, (store.fetch files call).1 = .returned path →
        store.Delivered (store.fetch files call).2 call.model path := by
  unfold ModelStore.fetch
  cases hstop : call.stopsAt .download with
  | some stop =>
    refine ⟨?_, fun path h => absurd h (result_ne_returned _ _ path)⟩
    dsimp only
    cases hleft : stop.left with
    | none => exact hvouched
    | some left => exact hvouched.put htemp (hdownload stop left hstop hleft)
  | none =>
    have hput (hnot : ¬ store.Moves call) := hvouched.put htemp (hstays hstop hnot)
    dsimp only
    cases hinspect : call.stopsAt .inspect with
    | some stop =>
      refine ⟨hput fun hmoves => ?_, fun path h => absurd h (result_ne_returned _ _ path)⟩
      rw [hmoves.2.1] at hinspect
      cases hinspect
    | none =>
      dsimp only
      cases hvalid : validateModelFile (tempPath store.stateRoot call.model.file call.processId)
          (store.requested call.model) call.model with
      | error reason =>
        refine ⟨hput fun hmoves => ?_, nofun⟩
        rw [hmoves.2.2.1] at hvalid
        cases hvalid
      | ok valid =>
        dsimp only
        cases hrename : call.stopsAt .rename with
        | some stop =>
          refine ⟨hput fun hmoves => ?_,
            fun path h => absurd h (result_ne_returned _ _ path)⟩
          rw [hmoves.2.2.2] at hrename
          cases hrename
        | none =>
          have hmoves : store.Moves call := ⟨hstop, hinspect, hvalid, hrename⟩
          obtain ⟨hend, hreturned⟩ := @writeManifest_spec P store
            (Function.update (Function.update (Function.update files (store.tempPlace call)
              (some (store.requested call.model))) (store.tempPlace call) none)
              (store.modelPlace call.model.file) (some (store.requested call.model)))
            call (store.requested call.model) _ hplace (Function.update_self _ _ _)
            fun hearly => vouched_moved hvouched hplace htemp (hmoved hmoves hearly)
          exact ⟨hend, fun path h => ⟨hreturned path h, fun expected hexpected =>
            digest_of_valid hvalid hexpected⟩⟩

/-- **One call.** -/
theorem ensureModelAvailable_spec (hvouched : store.Vouched files)
    (hkeeps : store.KeepsInStep files call) :
    store.Vouched (store.ensureModelAvailable files call).2 ∧
      ∀ path, (store.ensureModelAvailable files call).1 = .returned path →
        store.Delivered (store.ensureModelAvailable files call).2 call.model path := by
  unfold ModelStore.ensureModelAvailable
  cases hdir : call.stopsAt .createDir with
  | some stop => exact ⟨hvouched, fun path h => absurd h (result_ne_returned _ _ path)⟩
  | none =>
    dsimp only
    cases hfile : files (store.modelPlace call.model.file) with
    | none =>
      have hfetches : store.Fetches files call := ⟨hdir, fun h => absurd hfile h⟩
      obtain ⟨hplace, htemp⟩ := hkeeps.apart hfetches
      exact fetch_spec hvouched hplace htemp (hkeeps.download hfetches) (hkeeps.temp hfetches)
        (hkeeps.moved hfetches)
    | some bytes =>
      dsimp only
      by_cases hmatches : store.cachedModelMatches files call.model = true
      · rw [if_pos hmatches]
        have hbytes := bytes_of_matches hvouched hmatches hfile
        cases call.stopsAt .inspect with
        | some stop => exact ⟨hvouched, fun path h => absurd h (result_ne_returned _ _ path)⟩
        | none =>
          dsimp only
          cases hvalid : validateModelFile (modelPath store.stateRoot call.model.file) bytes
              call.model with
          | error reason => exact ⟨hvouched, nofun⟩
          | ok valid =>
            dsimp only
            cases call.stopsAt .returning with
            | some stop =>
              exact ⟨hvouched, fun path h => absurd h (result_ne_returned _ _ path)⟩
            | none =>
              refine ⟨hvouched, fun path h => ?_⟩
              have hpath := CallResult.returned.inj h
              subst hpath
              rw [hbytes] at hfile hvalid
              exact ⟨hfile, fun expected hexpected => digest_of_valid hvalid hexpected⟩
      · rw [if_neg hmatches]
        cases hremove : call.stopsAt .remove with
        | some stop => exact ⟨hvouched, fun path h => absurd h (result_ne_returned _ _ path)⟩
        | none =>
          have hfetches : store.Fetches files call :=
            ⟨hdir, fun _ => ⟨Bool.eq_false_iff.mpr hmatches, hremove⟩⟩
          obtain ⟨hplace, htemp⟩ := hkeeps.apart hfetches
          have hfits {place : P} {found : List UInt8} (h : store.Fits files place found) :
              store.Fits (Function.update files (store.modelPlace call.model.file) none) place
                found := by
            intro manifest hmanifest hsame
            rw [readManifest_update hplace] at hmanifest
            exact h manifest hmanifest hsame
          exact fetch_spec (hvouched.erase _) hplace htemp
            (fun stop left hstop hleft =>
              hfits (hkeeps.download hfetches stop left hstop hleft))
            (fun hstop hnot => hfits (hkeeps.temp hfetches hstop hnot))
            fun hmoves hearly => hfits (hkeeps.moved hfetches hmoves hearly)

end InStep

/-! ## Histories -/

section Histories

variable {P : Type} [DecidableEq P]

/-- **A cached model is the requested one**, in every history whose calls keep file and
manifest in step. -/
theorem ensuredModel_requested (store : ModelStore P) {files : StoreFiles P}
    (hfresh : store.readManifest files = none) {calls before after : List ModelCall}
    {call : ModelCall} (hkeeps : Meets store.step store.KeepsInStep files calls)
    (hcalls : calls = before ++ call :: after) {path : String}
    (hreturned : (store.ensureModelAvailable (run store.step files before) call).1 =
      .returned path) :
    store.Delivered (store.ensureModelAvailable (run store.step files before) call).2 call.model
      path := by
  rw [hcalls, meets_append] at hkeeps
  have hvouched : store.Vouched (run store.step files before) :=
    run_invariant (I := store.Vouched)
      (fun held next hheld hnext => (ensureModelAvailable_spec hheld hnext).1)
      (vouched_of_no_manifest hfresh) hkeeps.1
  exact (ensureModelAvailable_spec hvouched hkeeps.2.1).2 path hreturned

end Histories

/-! ## Revisions that get mixed up -/

section Mixed

variable {P : Type} [DecidableEq P] {store : ModelStore P} {files : StoreFiles P} {call : ModelCall}
  {bytes : List UInt8}

theorem fetch_of_no_stop (hstop : call.stop = none)
    (hplace : store.modelPlace call.model.file ≠ store.manifestPlace)
    (hvalid : validateModelFile (tempPath store.stateRoot call.model.file call.processId)
      (store.requested call.model) call.model = .ok ()) :
    (store.fetch files call).2 (store.modelPlace call.model.file) =
        some (store.requested call.model) ∧
      store.readManifest (store.fetch files call).2 =
        some (manifestOf call (store.requested call.model)) := by
  simp only [ModelStore.fetch, ModelStore.writeManifest, ModelCall.stopsAt, hstop,
    Option.filter_none, hvalid]
  constructor
  · rw [Function.update_of_ne hplace, Function.update_self]
  · rw [ModelStore.readManifest, Function.update_self]
    exact store.text.decode_encode _

theorem fetch_returns (hstop : call.stop = none)
    (hvalid : validateModelFile (tempPath store.stateRoot call.model.file call.processId)
      (store.requested call.model) call.model = .ok ()) :
    (store.fetch files call).1 = .returned (modelPath store.stateRoot call.model.file) := by
  simp only [ModelStore.fetch, ModelStore.writeManifest, ModelCall.stopsAt, hstop,
    Option.filter_none, hvalid]

/-- A download that ends early, with something in its temporary file. -/
theorem fetch_of_stop_download {stop : Stop} (hstop : call.stopsAt .download = some stop)
    (hleft : stop.left = some bytes) :
    (store.fetch files call).2 = Function.update files (store.tempPlace call) (some bytes) := by
  simp only [ModelStore.fetch, hstop, hleft]

/-- A fetch that ends behind its move leaves the manifest of before. -/
theorem fetch_of_stop_digest (hstop : call.stop = some { stage := .digest, how := .killed })
    (hplace : store.modelPlace call.model.file ≠ store.manifestPlace)
    (htemp : store.tempPlace call ≠ store.manifestPlace)
    (hvalid : validateModelFile (tempPath store.stateRoot call.model.file call.processId)
      (store.requested call.model) call.model = .ok ()) :
    (store.fetch files call).2 (store.modelPlace call.model.file) =
        some (store.requested call.model) ∧
      store.readManifest (store.fetch files call).2 = store.readManifest files := by
  simp only [ModelStore.fetch, ModelStore.writeManifest, ModelCall.stopsAt, hstop,
    Option.filter_some, hvalid, reduceCtorEq, decide_false, decide_true, if_true,
    Bool.false_eq_true, if_false]
  constructor
  · rw [Function.update_self]
  · rw [readManifest_update hplace, readManifest_update htemp, readManifest_update htemp]

theorem ensure_of_stale (hdir : call.stopsAt .createDir = none)
    (hremove : call.stopsAt .remove = none)
    (hfile : files (store.modelPlace call.model.file) = some bytes)
    (hmatches : store.cachedModelMatches files call.model = false) :
    store.ensureModelAvailable files call =
      store.fetch (Function.update files (store.modelPlace call.model.file) none) call := by
  simp only [ModelStore.ensureModelAvailable, hdir, hremove, hfile, hmatches, Bool.false_eq_true,
    if_false]

theorem ensure_of_cached (hstop : call.stop = none)
    (hfile : files (store.modelPlace call.model.file) = some bytes)
    (hmatches : store.cachedModelMatches files call.model = true)
    (hvalid : validateModelFile (modelPath store.stateRoot call.model.file) bytes call.model =
      .ok ()) :
    store.ensureModelAvailable files call =
      (.returned (modelPath store.stateRoot call.model.file), files) := by
  simp only [ModelStore.ensureModelAvailable, ModelCall.stopsAt, hstop, Option.filter_none, hfile,
    hmatches, if_true, hvalid]

theorem ensure_of_absent (hdir : call.stopsAt .createDir = none)
    (hfile : files (store.modelPlace call.model.file) = none) :
    store.ensureModelAvailable files call = store.fetch files call := by
  simp only [ModelStore.ensureModelAvailable, hdir, hfile]

/-- A call for another revision of the same file, killed behind its move, leaves its bytes to
the next call for the revision of before. -/
theorem mixed_up {first second : ModelCall}
    (hfree : files (store.modelPlace first.model.file) = none)
    (hsame : second.model.file = first.model.file)
    (hother : first.model.revisionOrMain ≠ second.model.revisionOrMain)
    (hplace : store.modelPlace first.model.file ≠ store.manifestPlace)
    (htemp : store.tempPlace second ≠ store.manifestPlace) (hfirst : first.stop = none)
    (hsecond : second.stop = some { stage := .digest, how := .killed })
    (hvalid : ∀ path, validateModelFile path (store.requested first.model) first.model = .ok ())
    (hvalid' : ∀ path, validateModelFile path (store.requested second.model) second.model = .ok ())
    (hpasses : ∀ path, validateModelFile path (store.requested second.model) first.model = .ok ()) :
    (store.ensureModelAvailable (run store.step files [first, second]) first).1 =
        .returned (modelPath store.stateRoot first.model.file) ∧
      (store.ensureModelAvailable (run store.step files [first, second]) first).2
        (store.modelPlace first.model.file) = some (store.requested second.model) := by
  have hdir : ∀ stage, first.stopsAt stage = none := fun stage => by
    rw [ModelCall.stopsAt, hfirst, Option.filter_none]
  have hdir' : second.stopsAt .createDir = none ∧ second.stopsAt .remove = none := by
    simp [ModelCall.stopsAt, hsecond]
  -- the first revision is fetched
  obtain ⟨hfile₁, hread₁⟩ := @fetch_of_no_stop _ _ store files _ hfirst hplace (hvalid _)
  rw [← ensure_of_absent (hdir _) hfree] at hfile₁ hread₁
  change store.step files first _ = _ at hfile₁
  change store.readManifest (store.step files first) = _ at hread₁
  -- the second one gets into its place
  have hstale : store.cachedModelMatches (store.step files first) second.model = false := by
    rw [Bool.eq_false_iff, ne_eq, cachedModelMatches_manifestOf hread₁]
    exact fun h => hother h.2.2
  rw [← hsame] at hfile₁ hplace
  obtain ⟨hfile₂, hread₂⟩ := @fetch_of_stop_digest _ _ store
    (Function.update (store.step files first) (store.modelPlace second.model.file) none) _
    hsecond hplace htemp (hvalid' _)
  rw [readManifest_update hplace, hread₁] at hread₂
  rw [← ensure_of_stale hdir'.1 hdir'.2 hfile₁ hstale] at hfile₂ hread₂
  change run store.step files [first, second] _ = _ at hfile₂
  change store.readManifest (run store.step files [first, second]) = _ at hread₂
  -- and is returned for the first
  rw [hsame] at hfile₂
  have hcached : store.cachedModelMatches (run store.step files [first, second]) first.model =
      true := (cachedModelMatches_manifestOf hread₂).mpr ⟨rfl, rfl, rfl⟩
  rw [ensure_of_cached hfirst hfile₂ hcached (hpasses _)]
  exact ⟨rfl, hfile₂⟩

/-! ### The manifest as JSON -/

/-- The line of a field, up to its value. -/
def fieldStart (name : String) : List UInt8 := [0x20, 0x20] ++ quoted name ++ [0x3a, 0x20]

/-- `to_vec_pretty`. -/
def manifestJson (manifest : ModelManifest) : List UInt8 :=
  [0x7b, 0x0a] ++ (fieldStart "repo" ++ (quoted manifest.repo ++ ([0x2c, 0x0a] ++
    (fieldStart "file" ++ (quoted manifest.file ++ ([0x2c, 0x0a] ++
      (fieldStart "revision" ++ (quoted manifest.revision ++ ([0x2c, 0x0a] ++
        (fieldStart "downloadedAt" ++ ((signed manifest.downloadedAt ++ [0x2c]) ++ ([0x0a] ++
          (fieldStart "sizeBytes" ++ ((digits manifest.sizeBytes ++ [0x2c]) ++ ([0x0a] ++
            (fieldStart "sha256" ++ (quoted manifest.sha256 ++ [0x0a, 0x7d])))))))))))))))))

theorem selfDelimiting_manifestJson : SelfDelimiting manifestJson := by
  have hsigned : SelfDelimiting fun n => signed n ++ [0x2c] :=
    selfDelimiting_ended signed_injective fun n => not_mem_signed (by decide) n
  have hdigits : SelfDelimiting fun n => digits n ++ [0x2c] :=
    selfDelimiting_ended digits_injective fun n => not_mem_digits (by decide) n
  rintro ⟨repo, file, revision, downloadedAt, sizeBytes, sha256⟩ ⟨⟩ rest rest' h
  simp only [manifestJson, List.append_assoc _ _ rest, List.append_assoc _ _ rest'] at h
  -- each field is read in its turn
  obtain ⟨rfl, hfile⟩ := selfDelimiting_quoted (List.append_cancel_left (List.append_cancel_left h))
  obtain ⟨rfl, hrevision⟩ :=
    selfDelimiting_quoted (List.append_cancel_left (List.append_cancel_left hfile))
  obtain ⟨rfl, hdownloaded⟩ :=
    selfDelimiting_quoted (List.append_cancel_left (List.append_cancel_left hrevision))
  obtain ⟨rfl, hsize⟩ := hsigned (List.append_cancel_left (List.append_cancel_left hdownloaded))
  obtain ⟨rfl, hsha⟩ := hdigits (List.append_cancel_left (List.append_cancel_left hsize))
  obtain ⟨rfl, hend⟩ :=
    selfDelimiting_quoted (List.append_cancel_left (List.append_cancel_left hsha))
  exact ⟨rfl, List.append_cancel_left hend⟩

/-- The printer of `serde_json`, and a reader of what it prints. -/
noncomputable def serdeManifest : ManifestText where
  encode := manifestJson
  decode := Function.partialInv manifestJson
  decode_encode := Function.partialInv_left selfDelimiting_manifestJson.injective
  decode_take manifest n hn := by
    rw [← Option.not_isSome_iff_eq_none]
    intro hsome
    obtain ⟨other, hother⟩ := Option.isSome_iff_exists.mp hsome
    have htext := (selfDelimiting_manifestJson.injective.isPartialInv _ _).mp hother
    have hsame : other = manifest := selfDelimiting_manifestJson.eq_of_prefix
      (htext ▸ List.take_prefix n _)
    rw [hsame] at htext
    have hlength := congrArg List.length htext
    rw [List.length_take] at hlength
    omega

/-- A store whose URLs yield their own characters. -/
noncomputable def echoStore : ModelStore String where
  stateRoot := "/srv"
  place := id
  text := serdeManifest
  base := none
  yields url := url.toList.map fun c => c.val.toUInt8

def tinyModel (revision : String) : LocalLlmModelConfig where
  repo := "acme/tiny"
  file := "tiny.gguf"
  revision := some revision

/-- The second revision is in its place when its call is killed, and then passes for the
first. -/
theorem other_revision_returned :
    ¬ ∀ (store : ModelStore String) (files : StoreFiles String),
      store.readManifest files = none → ∀ (before : List ModelCall) (call : ModelCall)
        (path : String),
        (store.ensureModelAvailable (run store.step files before) call).1 = .returned path →
          store.Delivered (store.ensureModelAvailable (run store.step files before) call).2
            call.model path := by
  intro h
  have hvalid : ∀ (revision revision' path : String), revision = "v1" ∨ revision = "v2" →
      validateModelFile path (echoStore.requested (tinyModel revision)) (tinyModel revision') =
        .ok () := by
    rintro revision revision' path (rfl | rfl)
    · rw [validateModelFile, if_neg (by decide)]
      rfl
    · rw [validateModelFile, if_neg (by decide)]
      rfl
  have hmixed := @mixed_up String _ echoStore (fun _ => none) { model := tinyModel "v1" }
    { model := tinyModel "v2", stop := some { stage := .digest, how := .killed } } rfl rfl
    (by decide) (by decide) (by decide) rfl rfl
    (fun path => hvalid "v1" "v1" path (.inl rfl)) (fun path => hvalid "v2" "v2" path (.inr rfl))
    fun path => hvalid "v2" "v1" path (.inr rfl)
  have hbytes := (h echoStore (fun _ => none) rfl _ _ _ hmixed.1).bytes
  rw [place_modelPath, hmixed.2] at hbytes
  exact absurd (Option.some.inj hbytes) (by decide)

omit [DecidableEq P] in
theorem keepsInStep_of_no_stop (hstop : call.stop = none)
    (hplace : store.modelPlace call.model.file ≠ store.manifestPlace)
    (htemp : store.tempPlace call ≠ store.manifestPlace)
    (hvalid : validateModelFile (tempPath store.stateRoot call.model.file call.processId)
      (store.requested call.model) call.model = .ok ()) : store.KeepsInStep files call := by
  have hnone : ∀ stage, call.stopsAt stage = none := fun stage => by
    rw [ModelCall.stopsAt, hstop, Option.filter_none]
  refine ⟨fun _ => ⟨hplace, htemp⟩, fun _ stop bytes hcut => ?_, fun _ _ hmoves => ?_,
    fun _ _ hends => ?_⟩
  · rw [hnone] at hcut
    cases hcut
  · exact absurd ⟨hnone _, hnone _, hvalid, hnone _⟩ hmoves
  · exact absurd (hnone _) (hends.resolve_right fun h => h (hnone _))

def firstCall : ModelCall := { model := tinyModel "v1" }

/-- A download that is cut off leaves part of the model beside its place. -/
def cutCall : ModelCall where
  model := tinyModel "v2"
  stop := some { stage := .download, how := .killed, left := some [0x47, 0x47] }

def secondCall : ModelCall := { model := tinyModel "v2" }

theorem validateModelFile_echo {call : ModelCall}
    (h : call.model = tinyModel "v1" ∨ call.model = tinyModel "v2") (path : String) :
    validateModelFile path (echoStore.requested call.model) call.model = .ok () := by
  rcases h with h | h
  · rw [h, validateModelFile, if_neg (by decide)]
    rfl
  · rw [h, validateModelFile, if_neg (by decide)]
    rfl

/-- The first revision is fetched, and the download that is cut off takes it away. -/
theorem echoStore_cut : echoStore.KeepsInStep (echoStore.step (fun _ => none) firstCall) cutCall ∧
    run echoStore.step (fun _ => none) [firstCall, cutCall] (echoStore.modelPlace "tiny.gguf") =
      none := by
  obtain ⟨hfile, hread⟩ := @fetch_of_no_stop _ _ echoStore (fun _ => none) firstCall rfl
    (by decide) (validateModelFile_echo (.inl rfl) _)
  change echoStore.step (fun _ => none) firstCall _ = _ at hfile
  change echoStore.readManifest (echoStore.step (fun _ => none) firstCall) = _ at hread
  have hstop : cutCall.stopsAt .download = cutCall.stop := by decide
  constructor
  · refine ⟨fun _ => ⟨by decide, by decide⟩, fun _ stop bytes _ _ manifest hmanifest hsame => ?_,
      fun _ hnone => ?_, fun _ hmoves => ?_⟩
    · rw [hread] at hmanifest
      cases hmanifest
      exact absurd hsame (by decide)
    · rw [hstop] at hnone
      cases hnone
    · have hnone := hmoves.1
      rw [hstop] at hnone
      cases hnone
  · have hstale : echoStore.cachedModelMatches (echoStore.step (fun _ => none) firstCall)
        cutCall.model = false := by
      rw [Bool.eq_false_iff, ne_eq, cachedModelMatches_manifestOf hread]
      exact fun h => absurd h.2.2 (by decide)
    have hcut := @ensure_of_stale _ _ echoStore _ cutCall _ (by decide) (by decide) hfile hstale
    refine (congrFun (congrArg Prod.snd hcut) _).trans ?_
    rw [fetch_of_stop_download hstop rfl, Function.update_of_ne (by decide)]
    exact Function.update_self ..

/-- The revision is switched, with a download that is cut off on the way. -/
theorem ensuredModel_requested_switched :
    echoStore.Delivered
      (echoStore.ensureModelAvailable (run echoStore.step (fun _ => none) [firstCall, cutCall])
        secondCall).2
      secondCall.model "/srv/models/tiny.gguf" := by
  obtain ⟨hcut, habsent⟩ := echoStore_cut
  have hsecond := @ensure_of_absent _ _ echoStore _ secondCall (by decide) habsent
  refine @ensuredModel_requested _ _ echoStore (fun _ => none) rfl
    [firstCall, cutCall, secondCall] [firstCall, cutCall] [] secondCall ⟨?_, hcut, ?_, trivial⟩ rfl
    _ ?_
  · exact keepsInStep_of_no_stop rfl (by decide) (by decide) (validateModelFile_echo (.inl rfl) _)
  · exact keepsInStep_of_no_stop rfl (by decide) (by decide) (validateModelFile_echo (.inr rfl) _)
  · rw [hsecond]
    exact fetch_returns rfl (validateModelFile_echo (.inr rfl) _)

end Mixed

end Direclaw.LocalLlm
