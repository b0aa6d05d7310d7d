import Direclaw.Config.SetupInvariants
import Direclaw.Orchestration.OpenAttempt
import Direclaw.Orchestration.OutputFiles

/-!
# Whose files a step is judged by

A `file_output` attempt is judged by the files under its output paths once the
provider has returned. Nothing is removed from there before the call, and the paths
are those of the step and the attempt number, which a later visit or a resume comes
back to. So a file that an earlier call has left counts as written by this one. And a
file that cannot be read ends the scan before what is missing is reported.
-/

namespace Direclaw.Orchestration

open Direclaw.Lib

/-! ## The engine with its output files -/

/-- What one call of the provider does: the files it writes (`some`) and removes
(`none`), in order, and what came of it: an error of the call, or its answer with what
an envelope in it says. -/
structure ProviderCall where
  changes : List (Location × Option OutputFile) := []
  answer : ProviderOutcome

def OutputDisk.change (disk : OutputDisk) (change : Location × Option OutputFile) : OutputDisk :=
  fun path => if path = change.1 then change.2 else disk path

/-- The files that are there when the call is over. -/
def ProviderCall.leaves (call : ProviderCall) (disk : OutputDisk) : OutputDisk :=
  call.changes.foldl OutputDisk.change disk

/-- The call writes a file under `path`. -/
def ProviderCall.Writes (call : ProviderCall) (path : Location) : Prop :=
  ∃ content, (path, some content) ∈ call.changes

def ProviderCall.Returns (call : ProviderCall) : Prop := ∃ parsed, call.answer = .outputs parsed

section Files

variable (fromStr : String → Option Json) (stateRoot : FilePath)

/-- The part of `execute_step_attempt` that touches the output files. -/
def executeStepAttempt (disk : OutputDisk) (a : Attempt) (call : ProviderCall) :
    OutputDisk × ProviderOutcome :=
  match resolveStepOutputPaths stateRoot a.run.runId a.step a.attempt with
  | .error err => (disk, .failure err)
  | .ok paths =>
    let disk := call.leaves disk
    match call.answer, a.step.promptType with
    | .failure err, _ => (disk, .failure err)
    | .outputs parsed, .workflowResultEnvelope => (disk, .outputs parsed)
    | .outputs _, .fileOutput =>
      match loadOutputsFromFiles fromStr a.step paths disk with
      | .error err => (disk, .failure err)
      | .ok outputs => (disk, .outputs outputs)

structure FileRun where
  engine : System
  disk : OutputDisk

/-- `engine` carries the call that is made if the provider is running; `change` is any
other program, and the provider of a process that dies. -/
inductive FileEvent : Type where
  | call (entry : Entry) (now : Int)
  | engine (now : Int) (call : ProviderCall)
  | crash
  | change (path : Location) (content : Option OutputFile)

variable (orchestrator : OrchestratorConfig)

def fileStep (s : FileRun) : FileEvent → FileRun
  | .call entry now => { s with engine := engineStep orchestrator s.engine (.call entry now) }
  | .crash => { s with engine := engineStep orchestrator s.engine .crash }
  | .change path content => { s with disk := s.disk.change (path, content) }
  | .engine now call =>
    match s.engine.process.todo, s.engine.process.control with
    | [], .running a =>
      let (disk, outcome) := executeStepAttempt fromStr stateRoot s.disk a call
      { engine := engineStep orchestrator s.engine (.engine { now := now, outcome := outcome })
        disk := disk }
    | _, _ => { s with engine := engineStep orchestrator s.engine (.engine { now := now }) }

/-- The engine makes the steps it makes without the files. -/
theorem fileStep_engine (s : FileRun) (e : FileEvent) :
    (fileStep fromStr stateRoot orchestrator s e).engine = s.engine ∨
      ∃ event, (fileStep fromStr stateRoot orchestrator s e).engine =
        engineStep orchestrator s.engine event := by
  cases e with
  | call entry now => exact .inr ⟨.call entry now, rfl⟩
  | crash => exact .inr ⟨.crash, rfl⟩
  | change path content => exact .inl rfl
  | engine now call =>
    simp only [fileStep]
    split
    · next a _ _ =>
        exact .inr ⟨.engine
          { now := now, outcome := (executeStepAttempt fromStr stateRoot s.disk a call).2 }, rfl⟩
    · exact .inr ⟨.engine { now := now }, rfl⟩

/-! ## What is asked of an attempt, and when it holds -/

/-- The attempt that a step ends: `a` is a `file_output` attempt with resolved `paths`,
its provider is running and makes `call`. -/
structure Ends (s : FileRun) (now : Int) (call : ProviderCall) (a : Attempt)
    (paths : List (String × Location)) : Prop where
  todo : s.engine.process.todo = []
  control : s.engine.process.control = .running a
  promptType : a.step.promptType = .fileOutput
  paths : resolveStepOutputPaths stateRoot a.run.runId a.step a.attempt = .ok paths

def endedRecord (s : FileRun) (now : Int) (call : ProviderCall) (a : Attempt) :
    StepAttemptRecord :=
  a.record now (a.evaluate (executeStepAttempt fromStr stateRoot s.disk a call).2)

def ReportsMissing (step : WorkflowStepConfig) (paths : List (String × Location))
    (disk : OutputDisk) (key : OutputKey) (record : StepAttemptRecord) : Prop :=
  fileNotFound key.name ∈ missingRequired paths disk step.outputs ∧
    record.error = some
      (missingOutputs step (missingRequired paths disk step.outputs)).display

/-- A required output that the call did not write: the attempt is not recorded as
succeeded, and if the provider returned the output is reported as missing. -/
def UsesOwnFiles (s : FileRun) : FileEvent → Prop
  | .engine now call => ∀ a paths, Ends stateRoot s now call a paths →
      ∀ key ∈ a.step.outputs, key.required = true →
        ∀ path, paths.lookup key.name = some path → ¬ call.Writes path →
          (endedRecord fromStr stateRoot s now call a).state ≠ .succeeded ∧
            (call.Returns → ReportsMissing a.step paths (call.leaves s.disk) key
              (endedRecord fromStr stateRoot s now call a))
  | _ => True

/-- What a required output that the call did not write needs to be found missing: no file was
there before, other than one that the call removes, and no file of the attempt ends the scan. -/
def FindsMissing (s : FileRun) : FileEvent → Prop
  | .engine now call => ∀ a paths, Ends stateRoot s now call a paths → call.Returns →
      ∀ key ∈ a.step.outputs, key.required = true →
        ∀ path, paths.lookup key.name = some path → ¬ call.Writes path →
          (path ∉ call.changes.map Prod.fst → s.disk path = none) ∧
            FilesReadable paths (call.leaves s.disk) a.step.outputs
  | _ => True

/-! ## One attempt -/

variable {fromStr stateRoot orchestrator} {s : FileRun} {now : Int} {call : ProviderCall}
  {a : Attempt} {paths : List (String × Location)} {disk : OutputDisk}

/-- A path that is not written is empty or as before. -/
theorem leaves_unwritten {path : Location} (h : ¬ call.Writes path) :
    call.leaves disk path = if path ∈ call.changes.map Prod.fst then none else disk path := by
  have hfold : ∀ {changes : List (Location × Option OutputFile)} {disk : OutputDisk},
      (∀ content, (path, some content) ∉ changes) →
        changes.foldl OutputDisk.change disk path =
          if path ∈ changes.map Prod.fst then none else disk path := by
    intro changes
    induction changes with
    | nil => exact fun _ => rfl
    | cons change changes ih =>
      intro disk h
      obtain ⟨changed, content⟩ := change
      rw [List.foldl_cons, ih fun content hmem => h content (List.mem_cons_of_mem _ hmem)]
      by_cases hpath : path = changed
      · subst hpath
        cases content with
        | some text => exact absurd List.mem_cons_self (h text)
        | none => simp [OutputDisk.change]
      · have hmem : path ∈ ((changed, content) :: changes).map Prod.fst ↔
            path ∈ changes.map Prod.fst := by
          rw [List.map_cons, List.mem_cons]
          exact or_iff_right hpath
        have hsame : disk.change (changed, content) path = disk path := if_neg hpath
        rw [hsame, if_congr hmem rfl rfl]
  exact hfold fun content hmem => h ⟨content, hmem⟩

theorem record_error (a : Attempt) (now : Int) (err : OrchestratorError) :
    (a.record now (.error err)).state ≠ .succeeded ∧
      (a.record now (.error err)).error = some err.display := by
  refine ⟨?_, rfl⟩
  simp only [Attempt.record]
  split
  · decide
  · decide

variable {err : OrchestratorError}

theorem executeStepAttempt_failure
    (hpaths : resolveStepOutputPaths stateRoot a.run.runId a.step a.attempt = .ok paths)
    (hanswer : call.answer = .failure err) :
    (executeStepAttempt fromStr stateRoot disk a call).2 = .failure err := by
  simp only [executeStepAttempt, hpaths, hanswer]

/-- The files a `file_output` attempt is judged by. -/
theorem executeStepAttempt_error
    (hpaths : resolveStepOutputPaths stateRoot a.run.runId a.step a.attempt = .ok paths)
    (hreturns : call.Returns) (htype : a.step.promptType = .fileOutput)
    (herr : loadOutputsFromFiles fromStr a.step paths (call.leaves disk) = .error err) :
    (executeStepAttempt fromStr stateRoot disk a call).2 = .failure err := by
  obtain ⟨parsed, hanswer⟩ := hreturns
  simp only [executeStepAttempt, hpaths, hanswer, htype, herr]

theorem endedRecord_error (hends : Ends stateRoot s now call a paths) (hreturns : call.Returns)
    (herr : loadOutputsFromFiles fromStr a.step paths (call.leaves s.disk) = .error err) :
    endedRecord fromStr stateRoot s now call a = a.record now (.error err) := by
  rw [endedRecord, executeStepAttempt_error hends.paths hreturns hends.promptType herr]
  rfl

theorem head?_toList_append {text : String} {c : Char} (h : text.toList.head? = some c)
    (rest : String) : (text ++ rest).toList.head? = some c := by
  rw [String.toList_append, List.head?_append, h]
  rfl

/-- The text of an error tells a file that cannot be read from missing keys. -/
theorem io_display_ne_missingOutputs (path : String) (kind : IoErrorKind)
    (step : WorkflowStepConfig) (missing : List String) :
    (OrchestratorError.io path kind).display ≠ (missingOutputs step missing).display := by
  intro heq
  have hio : (OrchestratorError.io path kind).display.toList.head? = some 'i' := by
    have hfirst : "io error at ".toList.head? = some 'i' := by decide
    cases kind with
    | notFound => exact head?_toList_append (head?_toList_append hfirst _) _
    | other message =>
      exact head?_toList_append (head?_toList_append (head?_toList_append hfirst _) _) _
  have hstep : (missingOutputs step missing).display.toList.head? = some 's' :=
    head?_toList_append (head?_toList_append (head?_toList_append (by decide) _) _) _
  rw [heq, hstep] at hio
  exact absurd hio (by decide)

/-- The attempt is judged by its own files exactly if it finds missing what it did not write. -/
theorem usesOwnFiles_iff (e : FileEvent)
    (hmapped : ∀ a, s.engine.process.todo = [] → s.engine.process.control = .running a →
      ∀ key ∈ a.step.outputs, (a.step.outputFiles.lookup key.name).isSome = true) :
    UsesOwnFiles fromStr stateRoot s e ↔ FindsMissing stateRoot s e := by
  cases e with
  | call entry now => exact Iff.rfl
  | crash => exact Iff.rfl
  | change path content => exact Iff.rfl
  | engine now call =>
    have hpaths : ∀ a paths, Ends stateRoot s now call a paths →
        PathsMapped paths a.step.outputs := by
      intro a paths hends key hkey
      obtain ⟨root, -, -, hkeys⟩ := resolveStepOutputPaths_ok hends.paths
      exact hkeys key.name (hmapped a hends.todo hends.control key hkey)
    constructor
    · intro h a paths hends hreturns key hkey hrequired path hpath hunwritten
      have hreported := (h a paths hends key hkey hrequired path hpath hunwritten).2 hreturns
      refine ⟨fun huntouched => ?_, ?_⟩
      · have hnone := none_of_mem_missingRequired hreported.1 hpath
        rwa [leaves_unwritten hunwritten, if_neg huntouched] at hnone
      · by_contra hunreadable
        obtain ⟨first, hfirst, err, hstop, hload⟩ :=
          @loadOutputsFromFiles_error fromStr a.step paths (call.leaves s.disk)
            fun hread => hunreadable hread.2
        have herror := hreported.2
        rw [endedRecord_error hends hreturns hload, (record_error a now err).2,
          Option.some.injEq] at herror
        rcases hstop with ⟨hnone, -⟩ | ⟨path, kind, -, -, rfl⟩
        · have hsome := hpaths a paths hends first hfirst
          rw [hnone] at hsome
          cases hsome
        · exact io_display_ne_missingOutputs _ kind a.step _ herror
    · intro h a paths hends key hkey hrequired path hpath hunwritten
      by_cases hreturns : call.Returns
      · obtain ⟨hempty, hreadable⟩ := h a paths hends hreturns key hkey hrequired path hpath
          hunwritten
        have hnone : call.leaves s.disk path = none := by
          rw [leaves_unwritten hunwritten]
          split
          · rfl
          · next huntouched => exact hempty huntouched
        have hmem := mem_missingRequired hkey hrequired hpath hnone
        have hload := @loadOutputsFromFiles_missing fromStr a.step paths (call.leaves s.disk)
          (hpaths a paths hends) hreadable (List.ne_nil_of_mem hmem)
        rw [endedRecord_error hends hreturns hload]
        exact ⟨(record_error a now _).1, fun _ => ⟨hmem, (record_error a now _).2⟩⟩
      · refine ⟨?_, fun hreturned => absurd hreturned hreturns⟩
        cases hanswer : call.answer with
        | outputs parsed => exact absurd ⟨parsed, hanswer⟩ hreturns
        | failure err =>
          rw [endedRecord, executeStepAttempt_failure hends.paths hanswer]
          exact (record_error a now err).1

/-- A check for one key: the attempt succeeds, and `call` leaves the path alone. -/
def succeedsUnwritten (fromStr : String → Option Json) (stateRoot : FilePath) (s : FileRun)
    (now : Int) (call : ProviderCall) (key : OutputKey) : Bool :=
  match s.engine.process.todo, s.engine.process.control with
  | [], .running a =>
    match resolveStepOutputPaths stateRoot a.run.runId a.step a.attempt with
    | .error _ => false
    | .ok paths =>
      match paths.lookup key.name with
      | none => false
      | some path =>
        decide (a.step.promptType = .fileOutput) && decide (key ∈ a.step.outputs) &&
          key.required && decide (path ∉ call.changes.map Prod.fst) &&
            decide ((endedRecord fromStr stateRoot s now call a).state = .succeeded)
  | _, _ => false

theorem not_usesOwnFiles {key : OutputKey}
    (h : succeedsUnwritten fromStr stateRoot s now call key = true) :
    ¬ UsesOwnFiles fromStr stateRoot s (.engine now call) := by
  unfold succeedsUnwritten at h
  split at h
  · next a htodo hcontrol =>
      split at h
      · cases h
      · next paths hpaths =>
          split at h
          · cases h
          · next path hpath =>
              simp only [Bool.and_eq_true, decide_eq_true_eq] at h
              obtain ⟨⟨⟨⟨htype, hkey⟩, hrequired⟩, huntouched⟩, hstate⟩ := h
              intro hown
              have hends : Ends stateRoot s now call a paths := ⟨htodo, hcontrol, htype, hpaths⟩
              refine (hown a paths hends key hkey hrequired path hpath ?_).1 hstate
              exact fun ⟨content, hmem⟩ => huntouched (List.mem_map_of_mem hmem)
  · cases h

/-! ## Whole runs -/

theorem mapped_of_running (hvalid : validateSetupInvariants orchestrator = .ok ())
    (h : SystemInv (OpenBase orchestrator) (OpenAt orchestrator) s.engine) (a : Attempt)
    (htodo : s.engine.process.todo = []) (hcontrol : s.engine.process.control = .running a) :
    ∀ key ∈ a.step.outputs, (a.step.outputFiles.lookup key.name).isSome = true := by
  unfold SystemInv ProcessInv at h
  rw [htodo, hcontrol] at h
  obtain ⟨-, -, -, hworkflow, hstep⟩ := h
  have hsetup := Config.validateSetupInvariants_ok_iff.mp hvalid
  have hworkflow := hsetup.workflows _ (workflowForRun_mem hworkflow)
  exact (hworkflow.steps _ (findStep_mem hstep)).mapped

/-- The engine of a run with files keeps what the engine keeps by itself. -/
theorem fileStep_open (s : FileRun) (e : FileEvent)
    (h : SystemInv (OpenBase orchestrator) (OpenAt orchestrator) s.engine) :
    SystemInv (OpenBase orchestrator) (OpenAt orchestrator)
      (fileStep fromStr stateRoot orchestrator s e).engine := by
  rcases fileStep_engine fromStr stateRoot orchestrator s e with hsame | ⟨event, hstep⟩
  · rw [hsame]
    exact h
  · rw [hstep]
    exact step_open s.engine event h

end Files

/-- A run that no engine has seen, with whatever files there are. -/
def FileRun.created (runId workflowId : String) (now : Int) (disk : OutputDisk) : FileRun :=
  { engine := System.created runId workflowId now, disk := disk }

/-- **File outputs.** In a run of a validated orchestrator every `file_output` attempt
is judged by the files its own call wrote exactly if no attempt that leaves a required output
unwritten finds a file of before there, or a file that cannot be read. -/
theorem file_outputs_own_iff (fromStr : String → Option Json) (stateRoot : FilePath)
    (orchestrator : OrchestratorConfig) (runId workflowId : String) (now : Int) (disk : OutputDisk)
    (events : List FileEvent) (hvalid : validateSetupInvariants orchestrator = .ok ()) :
    Meets (fileStep fromStr stateRoot orchestrator) (UsesOwnFiles fromStr stateRoot)
        (.created runId workflowId now disk) events ↔
      Meets (fileStep fromStr stateRoot orchestrator) (FindsMissing stateRoot)
        (.created runId workflowId now disk) events := by
  have hcreated : SystemInv (OpenBase orchestrator) (OpenAt orchestrator)
      (System.created runId workflowId now) := ⟨openBase_of_none rfl, trivial⟩
  refine meets_congr (I := fun s : FileRun =>
    SystemInv (OpenBase orchestrator) (OpenAt orchestrator) s.engine) fileStep_open ?_ events
    hcreated
  intro s e hs
  exact usesOwnFiles_iff e fun a htodo hcontrol => mapped_of_running hvalid hs a htodo hcontrol

/-! ### A second visit that writes nothing -/

/-- A step that answers with files. -/
def fileStepConfig (id : String) (next : Option String) : WorkflowStepConfig :=
  { sampleStep id next with promptType := .fileOutput }

/-- `plan` writes its plan to a file and is visited again. -/
def fileLoop : OrchestratorConfig := sampleOrchestrator [fileStepConfig "plan" (some "plan")]

def stateDir : FilePath := .ofLocation ["state"]

/-- Where the first attempt of `plan` has its summary. -/
def planSummary : Location :=
  ["state", "workflows", "runs", "run-1", "steps", "plan", "attempts", "1", "summary.txt"]

/-- The provider answers, without a file. -/
def answersOnly : ProviderCall := { answer := .outputs [("summary", .str "done")] }

def writesPlan : ProviderCall :=
  { changes := [(planSummary, some (.text "the first plan"))], answer := .outputs [] }

def fileSteps (n : ℕ) (call : ProviderCall) : List FileEvent := List.replicate n (.engine 1 call)

/-- `plan` writes its file and is visited again. -/
def untilSecondPlan : List FileEvent :=
  .call .start 0 :: (fileSteps 9 writesPlan ++ fileSteps 13 answersOnly)

/-- The second visit of `plan` succeeds with the file of the first. -/
theorem second_plan_uses_first_file :
    validateSetupInvariants fileLoop = .ok () ∧
    ¬ Meets (fileStep (fun _ => none) stateDir fileLoop) (UsesOwnFiles (fun _ => none) stateDir)
      (.created "run-1" "flow" 0 fun _ => none) (untilSecondPlan ++ [.engine 1 answersOnly]) := by
  refine ⟨rfl, fun h => ?_⟩
  have hlast := (meets_append.mp h).2.1
  have hcheck : succeedsUnwritten (fun _ => none) stateDir
      (run (fileStep (fun _ => none) stateDir fileLoop) (.created "run-1" "flow" 0 fun _ => none)
        untilSecondPlan) 1 answersOnly ⟨"summary", true⟩ = true := by decide +kernel
  exact not_usesOwnFiles hcheck hlast

/-- The equivalence for the loop, from an empty disk. -/
theorem file_outputs_own_iff_fileLoop :
    Meets (fileStep (fun _ => none) stateDir fileLoop) (UsesOwnFiles (fun _ => none) stateDir)
        (.created "run-1" "flow" 0 fun _ => none) (untilSecondPlan ++ [.engine 1 answersOnly]) ↔
      Meets (fileStep (fun _ => none) stateDir fileLoop) (FindsMissing stateDir)
        (.created "run-1" "flow" 0 fun _ => none) (untilSecondPlan ++ [.engine 1 answersOnly]) :=
  file_outputs_own_iff _ stateDir fileLoop "run-1" "flow" 0 _ _ rfl

end Direclaw.Orchestration
