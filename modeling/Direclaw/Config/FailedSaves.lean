import Direclaw.Config.Save

/-!
# Failed saves

What comes before the write of a configuration only adds to the disk, and what comes
after it keeps every file's text. So a save that fails leaves the file as it was exactly
if the write itself goes through or changes nothing, and the mounts can be set.
-/

namespace Direclaw.Config

open Direclaw.Lib Direclaw.Lib.Disk Direclaw.Orchestration

/-! ## Before the write -/

theorem extends_makeDir (path : FilePath) : Preserves Extends (makeDir path) :=
  (preserves_createDirAll path).adaptError _

theorem isDir_makeDir {path : FilePath} {d d' : Disk} {u : Unit} (h : makeDir path d = .ok u d') :
    d'.isDir path = true := by
  rw [makeDir, adaptError_eq_ok] at h
  exact isDir_createDirAll h

theorem names_dropLast {root : FilePath} {names : Location} (h : names ≠ []) :
    below (root.names names.dropLast) (.normal (names.getLast h)) = root.names names := by
  simp only [below, FilePath.names, List.append_assoc]
  rw [← List.map_singleton, ← List.map_append, List.dropLast_append_getLast]

/-- A file is made only where there is none. -/
theorem extends_ensureFile {root : FilePath} {names : Location} (body : String) {d : Disk}
    (hroot : d.isDir root = true) : Extends d (leaves (ensureFile root names body) d) := by
  cases hexists : d.pathExists (root.names names) with
  | true => simpa [leaves, ensureFile, hexists] using refl_of Extends d
  | false =>
    have hrun : ensureFile root names body d =
        (do
          makeDir (root.names names.dropLast)
          writeFile (root.names names) body) d := by
      simp [ensureFile, hexists]
    rw [leaves, hrun]
    refine leaves_bind (extends_makeDir _ d) fun u d' hmake => ?_
    rw [writeFile, leaves_adaptError]
    refine extends_write ?_ body
    by_cases hnames : names = []
    · -- the root itself is there
      subst hnames
      obtain ⟨loc, hloc, -⟩ := isDir_iff.mp hroot
      simp [pathExists, FilePath.names, hloc, Except.toBool] at hexists
    · rw [makeDir, adaptError_eq_ok] at hmake
      rw [← names_dropLast hnames] at hexists ⊢
      exact missing_createDirAll hroot hexists hmake

theorem isDir_ensureFile {root : FilePath} {names : Location} {body : String} {d d' : Disk}
    {u : Unit} (hroot : d.isDir root = true) (h : ensureFile root names body d = .ok u d') :
    d'.isDir root = true := by
  have hextends := @extends_ensureFile root names body d hroot
  rw [leaves_of_ok h] at hextends
  exact hextends.isDir hroot

theorem extends_bootstrapMemoryPaths (runtimeRoot : FilePath) :
    Preserves Extends (bootstrapMemoryPaths runtimeRoot) :=
  preserves_inOrder (fun _ => extends_makeDir _) _

theorem extends_ensureStepPrompt (assets : WorkspaceAssets) {promptRoot : FilePath}
    (entry : WorkflowConfig × WorkflowStepConfig) {d : Disk} (hroot : d.isDir promptRoot = true) :
    Extends d (leaves (ensureStepPrompt assets promptRoot entry) d) := by
  unfold ensureStepPrompt
  split
  · refine leaves_bind (preserves_ofResult _ d) fun promptPath d₁ h₁ => ?_
    obtain ⟨-, rfl⟩ := ofResult_eq_ok.mp h₁
    refine leaves_bind (preserves_ofResult _ d) fun contextPath d₂ h₂ => ?_
    obtain ⟨-, rfl⟩ := ofResult_eq_ok.mp h₂
    refine leaves_bind (extends_ensureFile _ hroot) fun u d₃ h₃ => ?_
    exact extends_ensureFile _ (isDir_ensureFile hroot h₃)
  · exact preserves_pure () d

theorem extends_ensureOrchestratorPromptTemplates (assets : WorkspaceAssets)
    (privateWorkspace : FilePath) (orchestrator : OrchestratorConfig) :
    Preserves Extends
      (ensureOrchestratorPromptTemplates assets privateWorkspace orchestrator) := by
  intro d
  refine leaves_bind (extends_makeDir _ d) fun u d₁ h₁ => ?_
  have hroot := isDir_makeDir h₁
  refine leaves_bind (extends_ensureFile _ hroot) fun u d₂ h₂ => ?_
  have hprompt := isDir_ensureFile hroot h₂
  refine leaves_bind (extends_ensureFile _ hprompt) fun u d₃ h₃ => ?_
  exact leaves_inOrder (fun s t h hdir => h.isDir hdir)
    (fun entry s hdir => extends_ensureStepPrompt assets entry hdir) _
    (isDir_ensureFile hprompt h₃)

theorem extends_ensureOrchestratorSkillFiles (assets : WorkspaceAssets)
    (privateWorkspace : FilePath) :
    Preserves Extends (ensureOrchestratorSkillFiles assets privateWorkspace) := by
  intro d
  refine leaves_bind (extends_makeDir _ d) fun u d₁ h₁ => ?_
  exact leaves_inOrder (fun s t h hdir => h.isDir hdir)
    (fun skill s hdir => extends_ensureFile _ hdir) _ (isDir_makeDir h₁)

theorem extends_prepareSettings (sys : SaveSystem) (settings : GlobalSettings) :
    Preserves Extends (prepareSettings sys settings) := by
  have hcheck : Preserves Extends (checkSettings settings) := by
    intro d
    unfold leaves checkSettings ofResult
    cases (settings.validate ⟨false⟩ d.fs).mapError SaveError.config with
    | ok u => exact refl_of Extends d
    | error err => exact refl_of Extends d
  exact hcheck.bind fun _ => (preserves_ofResult _).bind fun _ =>
    (extends_makeDir _).bind fun _ => (preserves_ofResult _).bind fun _ => preserves_pure _

theorem extends_prepareOrchestrator (sys : SaveSystem) (settings : GlobalSettings)
    (orchestratorId : String) (orchestrator : OrchestratorConfig) :
    Preserves Extends (prepareOrchestrator sys settings orchestratorId orchestrator) :=
  (preserves_ofResult _).bind fun _ => (preserves_ofResult _).bind fun _ =>
    (extends_makeDir _).bind fun _ => (extends_bootstrapMemoryPaths _).bind fun _ =>
      (extends_ensureOrchestratorPromptTemplates _ _ _).bind fun _ =>
        (extends_ensureOrchestratorSkillFiles _ _).bind fun _ =>
          (preserves_ofResult _).bind fun _ => preserves_pure _

/-! ## After the write -/

theorem keepsTexts_reconcileSettings (settings : GlobalSettings) :
    Preserves KeepsTexts (reconcileSettings settings) :=
  ((preserves_inOrder (keepsTexts_reconcileOrchestratorSharedMounts settings) _).adaptError _).bind
    fun _ =>
      (preserves_inOrder (keepsTexts_reconcileOrchestratorSkillMounts settings) _).adaptError _

theorem keepsTexts_reconcileOrchestrator (settings : GlobalSettings) (orchestratorId : String) :
    Preserves KeepsTexts (reconcileOrchestrator settings orchestratorId) :=
  ((keepsTexts_reconcileOrchestratorSharedMounts settings orchestratorId).adaptError _).bind
    fun _ => (keepsTexts_reconcileOrchestratorSkillMounts settings orchestratorId).adaptError _

/-! ## A save -/

/-- A configuration as it is persisted: the file that its path leads to. -/
structure Persisted (d : Disk) (path : FilePath) (loc : Location) (text : String) : Prop where
  leads : d.fs.canonicalize path = .ok loc
  holds : d.entry loc = some (.file text)

/-- If the save fails, the file is as before. -/
def KeepsOnError (save : DiskM SaveError FilePath) (d : Disk) (loc : Location) (text : String) :
    Prop :=
  ∀ err d', save d = .error err d' → d'.entry loc = some (.file text)

/-- The write changes nothing, or goes through with the rest ready to succeed. -/
def WriteSettles (prepare : DiskM SaveError (FilePath × String)) (ready : Disk → Prop) (d : Disk)
    (loc : Location) (text : String) : Prop :=
  d.refuses loc = true ∨
    ∀ path body d', prepare d = .ok (path, body) d' →
      d.stored body = text ∨ (d.stored body = body ∧ ready (leaves (writeFile path body) d'))

/-- The write and what follows it. -/
def finishSave (reconcile : DiskM SaveError Unit) (path : FilePath) (body : String) :
    DiskM SaveError FilePath := do
  writeFile path body
  reconcile
  return path

theorem finishSave_keeps_iff {reconcile : DiskM SaveError Unit}
    (hkeeps : Preserves KeepsTexts reconcile) {d : Disk} {path : FilePath} {loc : Location}
    {text : String} (hpersisted : Persisted d path loc text) (body : String) :
    KeepsOnError (finishSave reconcile path body) d loc text ↔
      d.refuses loc = true ∨ d.stored body = text ∨
        (d.stored body = body ∧ Succeeds reconcile (leaves (writeFile path body) d)) := by
  have hwrite := write_existing hpersisted.leads hpersisted.holds body
  cases hrefuses : d.refuses loc with
  | true =>
    refine iff_of_true ?_ (.inl rfl)
    rw [hrefuses, if_pos rfl] at hwrite
    have hfile : writeFile path body d = .error (.write path .refused) d := by
      rw [writeFile, adaptError, hwrite]
    intro err d' h
    rw [finishSave, bind_of_error hfile] at h
    cases h
    exact hpersisted.holds
  | false =>
    rw [hrefuses, if_neg (by simp)] at hwrite
    have hchanges := changes_of_file hpersisted.holds
    by_cases hfits : d.stored body = body
    · rw [if_pos hfits] at hwrite
      have hfile : writeFile path body d =
          .ok () (d.changed loc (some (.file body)) hchanges) := by
        rw [writeFile, adaptError, hwrite]
      have hentry : (d.changed loc (some (.file body)) hchanges).entry loc =
          some (.file body) := entry_changed_self hchanges
      rw [leaves_of_ok hfile]
      have hrun : finishSave reconcile path body d = (do
          reconcile
          return path) (d.changed loc (some (.file body)) hchanges) := bind_of_ok hfile
      have hafter := hkeeps (d.changed loc (some (.file body)) hchanges) loc body hentry
      unfold KeepsOnError
      rw [hrun]
      cases hreconcile : reconcile (d.changed loc (some (.file body)) hchanges) with
      | ok u d' =>
        refine iff_of_true ?_ (.inr (.inr ⟨hfits, u, d', hreconcile⟩))
        intro err d'' h
        rw [bind_of_ok hreconcile] at h
        cases h
      | error err d' =>
        rw [leaves_of_error hreconcile] at hafter
        rw [bind_of_error hreconcile]
        constructor
        · intro h
          have hsame := h err d' rfl
          rw [hafter] at hsame
          cases hsame
          exact .inr (.inl hfits)
        · rintro (h | htext | ⟨-, hsucceeds⟩)
          · cases h
          · intro err' d'' h
            cases h
            rw [hafter, ← htext, hfits]
          · exact absurd hsucceeds (not_succeeds_of_error hreconcile)
    · rw [if_neg hfits] at hwrite
      have hfile : writeFile path body d = .error (.write path .full)
          (d.changed loc (some (.file (d.stored body))) hchanges) := by
        rw [writeFile, adaptError, hwrite]
      have hentry : (d.changed loc (some (.file (d.stored body))) hchanges).entry loc =
          some (.file (d.stored body)) := entry_changed_self hchanges
      have hrun : finishSave reconcile path body d = .error (.write path .full)
          (d.changed loc (some (.file (d.stored body))) hchanges) := bind_of_error hfile
      unfold KeepsOnError
      rw [hrun]
      constructor
      · intro h
        have hsame := h _ _ rfl
        rw [hentry] at hsame
        cases hsame
        exact .inr (.inl rfl)
      · rintro (h | htext | ⟨hfits', -⟩)
        · cases h
        · intro err d' h
          cases h
          rw [hentry, htext]
        · exact absurd hfits' hfits

theorem savedWith_keeps_iff {prepare : DiskM SaveError (FilePath × String)}
    {reconcile : DiskM SaveError Unit} {ready : Disk → Prop} {d : Disk} {path : FilePath}
    {loc : Location} {text : String} (hextends : Preserves Extends prepare)
    (hpath : ∀ path' body d', prepare d = .ok (path', body) d' → path' = path)
    (hkeeps : Preserves KeepsTexts reconcile)
    (hready : ∀ d, Succeeds reconcile d ↔ ready d) (hpersisted : Persisted d path loc text) :
    KeepsOnError (savedWith prepare reconcile) d loc text ↔
      WriteSettles prepare ready d loc text := by
  have hleaves := hextends d
  unfold KeepsOnError WriteSettles
  cases hprepare : prepare d with
  | error err d' =>
    have hrun : savedWith prepare reconcile d = .error err d' := bind_of_error hprepare
    rw [leaves_of_error hprepare] at hleaves
    rw [hrun]
    refine iff_of_true ?_ (.inr ?_)
    · intro err' d'' h
      cases h
      exact hleaves.entry _ _ hpersisted.holds
    · intro path' body d'' h
      cases h
  | ok prepared d' =>
    have hrun : savedWith prepare reconcile d = finishSave reconcile prepared.1 prepared.2 d' :=
      bind_of_ok hprepare
    rw [leaves_of_ok hprepare] at hleaves
    obtain rfl := hpath _ _ _ hprepare
    have hstored : d'.stored prepared.2 = d.stored prepared.2 := by
      rw [stored, stored, hleaves.room]
    have hfinish := finishSave_keeps_iff hkeeps
      ⟨hleaves.canonicalize hpersisted.leads, hleaves.entry _ _ hpersisted.holds⟩ prepared.2
    rw [hrun]
    refine hfinish.trans ?_
    rw [hleaves.refuses, hstored, hready]
    refine or_congr_right ⟨fun h path' body d'' hok => ?_, fun h => h _ _ _ rfl⟩
    cases hok
    exact h

/-! ## Both saves -/

inductive SaveCall : Type where
  | global (settings : GlobalSettings)
  | single (settings : GlobalSettings) (orchestratorId : String)
      (orchestrator : OrchestratorConfig)

namespace SaveCall

def save (sys : SaveSystem) : SaveCall → DiskM SaveError FilePath
  | .global settings => saveSettings sys settings
  | .single settings orchestratorId orchestrator =>
    saveOrchestratorConfig sys settings orchestratorId orchestrator

/-- Where the configuration is kept. -/
def path (sys : SaveSystem) : SaveCall → Except SaveError FilePath
  | .global _ => sys.configPath
  | .single settings orchestratorId _ =>
    ((settings.routing.resolvePrivateWorkspace orchestratorId).mapError .config).map
      fun workspace => (FilePath.parse workspace).names ["orchestrator.yaml"]

def prepare (sys : SaveSystem) : SaveCall → DiskM SaveError (FilePath × String)
  | .global settings => prepareSettings sys settings
  | .single settings orchestratorId orchestrator =>
    prepareOrchestrator sys settings orchestratorId orchestrator

/-- The mounts that the save sets can be set: of every orchestrator, or of the one. -/
def MountsReady : SaveCall → Disk → Prop
  | .global settings, d =>
    EachReady (SharedReady settings) (reconcileOrchestratorSharedMounts settings)
        (settings.orchestrators.map (·.1)) d ∧
      EachReady (SkillsReady settings) (reconcileOrchestratorSkillMounts settings)
        (settings.orchestrators.map (·.1))
        (leaves (reconcileAllOrchestratorSharedMounts settings) d)
  | .single settings orchestratorId _, d =>
    SharedReady settings orchestratorId d ∧
      SkillsReady settings orchestratorId
        (leaves (reconcileOrchestratorSharedMounts settings orchestratorId) d)

end SaveCall

theorem prepareSettings_path {sys : SaveSystem} {settings : GlobalSettings} {path path' : FilePath}
    {body : String} {d d' : Disk} (hpath : sys.configPath = .ok path)
    (h : prepareSettings sys settings d = .ok (path', body) d') : path' = path := by
  obtain ⟨_, d₁, -, h⟩ := of_bind_eq_ok h
  obtain ⟨path'', d₂, hpath'', h⟩ := of_bind_eq_ok h
  obtain ⟨_, d₃, -, h⟩ := of_bind_eq_ok h
  obtain ⟨_, d₄, -, h⟩ := of_bind_eq_ok h
  have hsame := (ofResult_eq_ok.mp hpath'').1
  rw [hpath] at hsame
  cases hsame
  cases h
  rfl

theorem prepareOrchestrator_path {sys : SaveSystem} {settings : GlobalSettings}
    {orchestratorId : String} {orchestrator : OrchestratorConfig} {path path' : FilePath}
    {body : String} {d d' : Disk}
    (hpath : (SaveCall.single settings orchestratorId orchestrator).path sys = .ok path)
    (h : prepareOrchestrator sys settings orchestratorId orchestrator d = .ok (path', body) d') :
    path' = path := by
  obtain ⟨_, d₁, -, h⟩ := of_bind_eq_ok h
  obtain ⟨workspace, d₂, hworkspace, h⟩ := of_bind_eq_ok h
  obtain ⟨_, d₃, -, h⟩ := of_bind_eq_ok h
  obtain ⟨_, d₄, -, h⟩ := of_bind_eq_ok h
  obtain ⟨_, d₅, -, h⟩ := of_bind_eq_ok h
  obtain ⟨_, d₆, -, h⟩ := of_bind_eq_ok h
  obtain ⟨_, d₇, -, h⟩ := of_bind_eq_ok h
  have hsame := (ofResult_eq_ok.mp hworkspace).1
  rw [SaveCall.path, hsame] at hpath
  cases hpath
  cases h
  rfl

/-- If a save fails, the configuration that was persisted is as before. -/
def FailedSaveKeeps (sys : SaveSystem) (call : SaveCall) (d : Disk) : Prop :=
  ∀ path loc text, call.path sys = .ok path → Persisted d path loc text →
    KeepsOnError (call.save sys) d loc text

/-- What is written is what was there, or it is written whole and the mounts are ready. -/
def SaveSettles (sys : SaveSystem) (call : SaveCall) (d : Disk) : Prop :=
  ∀ path loc text, call.path sys = .ok path → Persisted d path loc text →
    WriteSettles (call.prepare sys) call.MountsReady d loc text

theorem succeeds_reconcileSettings {settings : GlobalSettings} {d : Disk} :
    Succeeds (reconcileSettings settings) d ↔ (SaveCall.global settings).MountsReady d := by
  refine succeeds_unit_bind.trans ?_
  rw [succeeds_adaptError, succeeds_adaptError, leaves_adaptError]
  exact and_congr
    (succeeds_inOrder (fun _ _ => succeeds_reconcileOrchestratorSharedMounts) _)
    (succeeds_inOrder (fun _ _ => succeeds_reconcileOrchestratorSkillMounts) _)

theorem succeeds_reconcileOrchestrator {settings : GlobalSettings} {orchestratorId : String}
    {orchestrator : OrchestratorConfig} {d : Disk} :
    Succeeds (reconcileOrchestrator settings orchestratorId) d ↔
      (SaveCall.single settings orchestratorId orchestrator).MountsReady d := by
  refine succeeds_unit_bind.trans ?_
  rw [succeeds_adaptError, succeeds_adaptError, leaves_adaptError]
  exact and_congr succeeds_reconcileOrchestratorSharedMounts
    succeeds_reconcileOrchestratorSkillMounts

/-- A save that fails leaves what was persisted as it was, exactly if its write settles it. -/
theorem failed_save_keeps_iff (sys : SaveSystem) (call : SaveCall) (d : Disk) :
    FailedSaveKeeps sys call d ↔ SaveSettles sys call d := by
  refine forall_congr' fun path => forall_congr' fun loc => forall_congr' fun text =>
    forall_congr' fun hpath => forall_congr' fun hpersisted => ?_
  cases call with
  | global settings =>
    exact savedWith_keeps_iff (extends_prepareSettings sys settings)
      (fun _ _ _ h => prepareSettings_path hpath h) (keepsTexts_reconcileSettings settings)
      (fun _ => succeeds_reconcileSettings) hpersisted
  | single settings orchestratorId orchestrator =>
    exact savedWith_keeps_iff
      (extends_prepareOrchestrator sys settings orchestratorId orchestrator)
      (fun _ _ _ h => prepareOrchestrator_path hpath h)
      (keepsTexts_reconcileOrchestrator settings orchestratorId)
      (fun d => @succeeds_reconcileOrchestrator settings orchestratorId orchestrator d) hpersisted

/-! ## A shared workspace that is missing -/

/-- A home with a configuration, and no directory for the shared documents. -/
def homeDisk : Disk :=
  .ofEntries
    [(["home"], .dir), (["home", ".direclaw"], .dir),
      (["home", ".direclaw", "config.yaml"], .file "orchestrators: {}")]
    (by decide)

def grantingSettings : GlobalSettings where
  workspacesPath := "/work"
  sharedWorkspaces := [("docs", ⟨"/srv/docs", "the documents"⟩)]
  orchestrators := [("alpha", { sharedAccess := ["docs"] })]

def savingSystem : SaveSystem where
  home := some "/home"
  encodeSettings := fun _ => .ok "orchestrators: {alpha: {shared_access: [docs]}}"
  encodeOrchestrator := fun _ => .ok ""
  assets :=
    { selectorPrompt := "", selectorContext := "", stepPrompt := fun _ => "", stepContext := "",
      builtin := fun _ _ => none, skill := fun _ => "" }

/-- The settings are accepted and written, and then the mount of the documents fails. -/
theorem failed_save_written :
    ¬ FailedSaveKeeps savingSystem (.global grantingSettings) homeDisk := by
  intro h
  have hfile := h ((FilePath.parse "/home").names [".direclaw", "config.yaml"])
    ["home", ".direclaw", "config.yaml"] "orchestrators: {}" rfl ⟨by decide, by decide⟩
  cases hsave : SaveCall.save savingSystem (.global grantingSettings) homeDisk with
  | ok path d =>
    have hfails : (match SaveCall.save savingSystem (.global grantingSettings) homeDisk with
      | .ok _ _ => false
      | .error _ _ => true) = true := by decide +kernel
    rw [hsave] at hfails
    cases hfails
  | error err d =>
    have hentry : (leaves (SaveCall.save savingSystem (.global grantingSettings))
        homeDisk).entry ["home", ".direclaw", "config.yaml"] =
          some (.file "orchestrators: {alpha: {shared_access: [docs]}}") := by decide +kernel
    rw [leaves_of_error hsave, hfile err d hsave] at hentry
    exact absurd hentry (by decide)

end Direclaw.Config
