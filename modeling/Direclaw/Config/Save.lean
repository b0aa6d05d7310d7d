import Direclaw.Config.Mounts
import Direclaw.Orchestration.ConfigValidation

/-!
# Saving configurations

`config/save.rs`: a configuration is checked, written and only then are the mounts of its
orchestrators set.
-/

namespace Direclaw.Config

open Direclaw.Lib Direclaw.Lib.Disk Direclaw.Orchestration

inductive SaveError : Type where
  | config (err : ConfigError)
  | createDir (path : FilePath) (err : IoError)
  | write (path : FilePath) (err : IoError)
  | encode (path : FilePath) (reason : String)
  | homeDirectoryUnavailable
deriving DecidableEq, Repr

/-- The texts of the prompt and skill files that a new workspace is given. -/
structure WorkspaceAssets where
  selectorPrompt : String
  selectorContext : String
  stepPrompt : WorkflowStepType → String
  stepContext : String
  /-- The prompt and the context of a step of a built-in workflow. -/
  builtin : String → String → Option (String × String)
  skill : String → String

/-- What the process has around it: its home, the encoder of configurations and the files it
was built with. -/
structure SaveSystem where
  home : Option String
  encodeSettings : GlobalSettings → Except String String
  encodeOrchestrator : OrchestratorConfig → Except String String
  assets : WorkspaceAssets

def makeDir (path : FilePath) : DiskM SaveError Unit :=
  adaptError (.createDir path) (createDirAll path)

def writeFile (path : FilePath) (body : String) : DiskM SaveError Unit :=
  adaptError (.write path) (write path body)

/-! ## Files of a new workspace -/

/-- `ensure_file` for a path by names below a directory. -/
def ensureFile (root : FilePath) (names : Location) (body : String) : DiskM SaveError Unit := fun d =>
  if d.pathExists (root.names names) then .ok () d
  else
    (do
      makeDir (root.names names.dropLast)
      writeFile (root.names names) body) d

def requiredDirectories : List Location :=
  [["memory"], ["memory", "ingest"], ["memory", "ingest", "processed"],
    ["memory", "ingest", "rejected"], ["memory", "bulletins"], ["memory", "logs"]]

def bootstrapMemoryPaths (runtimeRoot : FilePath) : DiskM SaveError Unit :=
  inOrder (fun names => makeDir (runtimeRoot.names names)) requiredDirectories

def isPromptTemplateReference (path : String) : Bool :=
  ".md".toList.isSuffixOf (Text.trim path.toList) && '\n' ∉ Text.trim path.toList

def contextPathForPromptReference (path : String) : String :=
  let suffix := ".prompt.md".toList
  if suffix.isSuffixOf path.toList then
    String.ofList (path.toList.take (path.toList.length - suffix.length)) ++ ".context.md"
  else path ++ ".context.md"

/-- A dot is a component of its own at the start of a path only. -/
def parseRelativePromptPath (path : String) : Except String Location :=
  let trimmed := Text.trimmed path
  let parsed := FilePath.parse trimmed
  if trimmed = "" then .error "prompt template path must be non-empty"
  else if parsed.absolute then .error "prompt template path must be relative"
  else if (trimmed.toList.splitOn '/').head? = some ['.'] then
    .error "prompt template path must not contain traversal or prefixes"
  else parsed.components.mapM fun
    | .normal name => .ok name
    | .parentDir => .error "prompt template path must not contain traversal or prefixes"

def resolvePromptTemplatePath (path : String) : DiskM SaveError Location :=
  ofResult ((parseRelativePromptPath path).mapError fun reason => .config (.orchestrator reason))

def ensureStepPrompt (assets : WorkspaceAssets) (promptRoot : FilePath)
    (entry : WorkflowConfig × WorkflowStepConfig) : DiskM SaveError Unit :=
  if isPromptTemplateReference entry.2.prompt then do
    let promptRel := Text.trimmed entry.2.prompt
    let promptPath ← resolvePromptTemplatePath promptRel
    let contextPath ← resolvePromptTemplatePath (contextPathForPromptReference promptRel)
    let bodies := (assets.builtin entry.1.id entry.2.id).getD
      (assets.stepPrompt entry.2.stepType, assets.stepContext)
    ensureFile promptRoot promptPath bodies.1
    ensureFile promptRoot contextPath bodies.2
  else pure ()

def ensureOrchestratorPromptTemplates (assets : WorkspaceAssets) (privateWorkspace : FilePath)
    (orchestrator : OrchestratorConfig) : DiskM SaveError Unit := do
  let promptRoot := privateWorkspace.names ["prompts"]
  makeDir promptRoot
  ensureFile promptRoot ["selector", "workflow_selector.prompt.md"] assets.selectorPrompt
  ensureFile promptRoot ["selector", "workflow_selector.context.md"] assets.selectorContext
  inOrder (ensureStepPrompt assets promptRoot)
    (orchestrator.workflows.flatMap fun workflow => workflow.steps.map fun step => (workflow, step))

def skillFiles : List String :=
  ["direclaw-routing-selector-forensics", "direclaw-workflow-run-forensics",
    "direclaw-scheduler-cron-management", "direclaw-log-investigation",
    "direclaw-agent-management", "direclaw-skill-management", "direclaw-workflow-authoring",
    "direclaw-prompt-contracts"]

def ensureOrchestratorSkillFiles (assets : WorkspaceAssets) (privateWorkspace : FilePath) :
    DiskM SaveError Unit := do
  let skillsRoot := privateWorkspace.names ["skills"]
  makeDir skillsRoot
  inOrder (fun skill => ensureFile skillsRoot [skill, "SKILL.md"] (assets.skill skill)) skillFiles

/-! ## The saves -/

/-- Both saves write what is prepared, and set the mounts afterwards. -/
def savedWith (prepare : DiskM SaveError (FilePath × String)) (reconcile : DiskM SaveError Unit) :
    DiskM SaveError FilePath := do
  let prepared ← prepare
  writeFile prepared.1 prepared.2
  reconcile
  return prepared.1

def mountError (what : String) (err : OrchestratorError) : SaveError :=
  .config (.settings s!"failed to reconcile {what}: {err.display}")

def globalConfigPath (home : String) : FilePath :=
  (FilePath.parse home).names [".direclaw", "config.yaml"]

def SaveSystem.configPath (sys : SaveSystem) : Except SaveError FilePath :=
  match sys.home with
  | some home => .ok (globalConfigPath home)
  | none => .error .homeDirectoryUnavailable

/-- Shared workspaces may be missing. -/
def checkSettings (settings : GlobalSettings) : DiskM SaveError Unit := fun d =>
  ofResult ((settings.validate ⟨false⟩ d.fs).mapError SaveError.config) d

def prepareSettings (sys : SaveSystem) (settings : GlobalSettings) :
    DiskM SaveError (FilePath × String) := do
  checkSettings settings
  let path ← ofResult sys.configPath
  makeDir { path with components := path.components.dropLast }
  let body ← ofResult ((sys.encodeSettings settings).mapError (.encode path))
  return (path, body)

def reconcileSettings (settings : GlobalSettings) : DiskM SaveError Unit := do
  adaptError (mountError "shared workspace mounts after saving settings")
    (reconcileAllOrchestratorSharedMounts settings)
  adaptError (mountError "orchestrator skill mounts after saving settings")
    (reconcileAllOrchestratorSkillMounts settings)

def saveSettings (sys : SaveSystem) (settings : GlobalSettings) : DiskM SaveError FilePath :=
  savedWith (prepareSettings sys settings) (reconcileSettings settings)

def prepareOrchestrator (sys : SaveSystem) (settings : GlobalSettings) (orchestratorId : String)
    (orchestrator : OrchestratorConfig) : DiskM SaveError (FilePath × String) := do
  ofResult ((orchestrator.validate settings.routing orchestratorId).mapError SaveError.config)
  let workspace ←
    ofResult ((settings.routing.resolvePrivateWorkspace orchestratorId).mapError SaveError.config)
  let privateWorkspace := FilePath.parse workspace
  makeDir privateWorkspace
  bootstrapMemoryPaths privateWorkspace
  ensureOrchestratorPromptTemplates sys.assets privateWorkspace orchestrator
  ensureOrchestratorSkillFiles sys.assets privateWorkspace
  let path := privateWorkspace.names ["orchestrator.yaml"]
  let body ← ofResult ((sys.encodeOrchestrator orchestrator).mapError (.encode path))
  return (path, body)

def reconcileOrchestrator (settings : GlobalSettings) (orchestratorId : String) :
    DiskM SaveError Unit := do
  adaptError (mountError s!"shared workspace mounts for orchestrator `{orchestratorId}`")
    (reconcileOrchestratorSharedMounts settings orchestratorId)
  adaptError (mountError s!"skill mounts for orchestrator `{orchestratorId}`")
    (reconcileOrchestratorSkillMounts settings orchestratorId)

def saveOrchestratorConfig (sys : SaveSystem) (settings : GlobalSettings)
    (orchestratorId : String) (orchestrator : OrchestratorConfig) : DiskM SaveError FilePath :=
  savedWith (prepareOrchestrator sys settings orchestratorId orchestrator)
    (reconcileOrchestrator settings orchestratorId)

end Direclaw.Config
