import Direclaw.Config.GlobalSettings
import Direclaw.Lib.DiskPaths
import Direclaw.Lib.OrderedMap
import Direclaw.Orchestration.WorkspaceAccess

/-!
# Mounts of an orchestrator

`orchestration/shared_mounts.rs` and `orchestration/skills_mounts.rs`: the links in a
private workspace that lead to the shared workspaces it is granted and to its skills.
Nothing but a link is ever replaced, and every granted workspace has to exist.
-/

namespace Direclaw.Config

open Direclaw.Lib Direclaw.Lib.Disk Direclaw.Orchestration

def IoError.message : IoError → String
  | .walk err => WalkError.message err
  | .alreadyExists => "File exists (os error 17)"
  | .isADirectory => "Is a directory (os error 21)"
  | .refused => "Permission denied (os error 13)"
  | .full => "No space left on device (os error 28)"

def ioError (path : FilePath) (err : IoError) : OrchestratorError :=
  .io (FilePath.display path) (.other (IoError.message err))

def ioCall (path : FilePath) (call : Disk → Except IoError Disk) : DiskM OrchestratorError Unit :=
  adaptError (ioError path) (updateWith call)

def createDir (path : FilePath) : DiskM OrchestratorError Unit :=
  adaptError (ioError path) (createDirAll path)

/-! ## One mount -/

def pointsTo (d : Disk) (mountPath : FilePath) (desiredTarget : Location) : Bool :=
  match d.fs.canonicalize mountPath with
  | .ok actual => (normalizeAbsolutePath (.ofLocation actual)).toOption == some desiredTarget
  | .error _ => false

/-- The two `reconcile_mount_path` differ in the reason they give. -/
def reconcileMountPath (notSymlink : String) (mountPath : FilePath) (desiredTarget : Location) :
    DiskM OrchestratorError Unit := fun d =>
  let create := ioCall mountPath (symlink (.ofLocation desiredTarget) mountPath)
  if d.pathExists mountPath then
    match symlinkMetadata mountPath d with
    | .error err => .error (ioError mountPath err) d
    | .ok (.link _) =>
      if pointsTo d mountPath desiredTarget then .ok () d
      else
        (do
          ioCall mountPath (removeFile mountPath)
          create) d
    | .ok _ => .error (.config notSymlink) d
  else create d

/-! ## Shared workspaces -/

def desiredMounts (settings : GlobalSettings) (orchestratorId : String) (d : Disk) :
    List (String × Location) → List String → Except OrchestratorError (List (String × Location))
  | desired, [] => .ok desired
  | desired, key :: keys => do
      match settings.sharedWorkspaces.lookup key with
      | none =>
        .error (.config
          s!"orchestrator `{orchestratorId}` references unknown shared workspace `{key}`")
      | some target =>
        match d.fs.canonicalize (.parse target.path) with
        | .error _ =>
          .error (.config s!"shared workspace `{key}` path `{target.path}` is missing or invalid")
        | .ok canonicalTarget => do
            let target ← normalizeAbsolutePath (.ofLocation canonicalTarget)
            desiredMounts settings orchestratorId d (OrderedMap.insert key target desired) keys

def removeStaleMount (mountRoot : FilePath) (desired : List (String × Location)) (name : String) :
    DiskM OrchestratorError Unit := fun d =>
  let path := below mountRoot (.normal name)
  if (desired.lookup name).isSome then .ok () d
  else
    match symlinkMetadata path d with
    | .error err => .error (ioError path err) d
    | .ok (.link _) => ioCall path (removeFile path) d
    | .ok _ => .ok () d

def removeStaleSymlinkMounts (mountRoot : FilePath) (desired : List (String × Location)) :
    DiskM OrchestratorError Unit := fun d =>
  match readDir mountRoot d with
  | .error err => .error (ioError mountRoot err) d
  | .ok names => inOrder (removeStaleMount mountRoot desired) names d

def privateWorkspaceRoot (settings : GlobalSettings) (orchestratorId : String) :
    Except OrchestratorError Location := do
  let privateWorkspace ←
    (settings.routing.resolvePrivateWorkspace orchestratorId).mapError fun err =>
      OrchestratorError.config err.display
  normalizeAbsolutePath (.parse privateWorkspace)

def grantsOf (settings : GlobalSettings) (orchestratorId : String) :
    Except OrchestratorError (List String) :=
  match settings.orchestrators.lookup orchestratorId with
  | some orchestrator => .ok orchestrator.sharedAccess
  | none => .error (.config s!"missing orchestrator `{orchestratorId}` in settings")

def reconcileSharedMount (orchestratorId : String) (mountRoot : FilePath)
    (mount : String × Location) : DiskM OrchestratorError Unit :=
  let mountPath := mountRoot.join (.parse mount.1)
  reconcileMountPath (s!"orchestrator `{orchestratorId}` shared mount " ++
    s!"`{FilePath.display mountPath}` exists but existing mount path is not a symlink")
    mountPath mount.2

def mountShared (settings : GlobalSettings) (orchestratorId : String) (mountRoot : FilePath)
    (grants : List String) : DiskM OrchestratorError Unit := fun d =>
  match desiredMounts settings orchestratorId d [] grants with
  | .error err => .error err d
  | .ok desired =>
    (do
      inOrder (reconcileSharedMount orchestratorId mountRoot) desired
      removeStaleSymlinkMounts mountRoot desired) d

def reconcileOrchestratorSharedMounts (settings : GlobalSettings) (orchestratorId : String) :
    DiskM OrchestratorError Unit := do
  let privateWorkspace ← ofResult (privateWorkspaceRoot settings orchestratorId)
  createDir (.ofLocation privateWorkspace)
  let grants ← ofResult (grantsOf settings orchestratorId)
  let mountRoot := .ofLocation (privateWorkspace ++ ["shared"])
  createDir mountRoot
  mountShared settings orchestratorId mountRoot grants

def reconcileAllOrchestratorSharedMounts (settings : GlobalSettings) :
    DiskM OrchestratorError Unit :=
  inOrder (reconcileOrchestratorSharedMounts settings) (settings.orchestrators.map (·.1))

/-! ## Skills -/

def reconcileSkillMount (orchestratorId mountKind : String) (mountPath skillsRoot : Location) :
    DiskM OrchestratorError Unit :=
  reconcileMountPath (s!"orchestrator `{orchestratorId}` {mountKind} skills mount " ++
    s!"`{FilePath.display (.ofLocation mountPath)}` exists but is not a symlink")
    (.ofLocation mountPath) skillsRoot

def reconcileOrchestratorSkillMounts (settings : GlobalSettings) (orchestratorId : String) :
    DiskM OrchestratorError Unit := do
  let privateWorkspace ← ofResult (privateWorkspaceRoot settings orchestratorId)
  createDir (.ofLocation privateWorkspace)
  let skillsRoot := privateWorkspace ++ ["skills"]
  createDir (.ofLocation skillsRoot)
  let agentsRoot := privateWorkspace ++ [".agents"]
  createDir (.ofLocation agentsRoot)
  reconcileSkillMount orchestratorId "agent" (agentsRoot ++ ["skills"]) skillsRoot
  let claudeRoot := privateWorkspace ++ [".claude"]
  createDir (.ofLocation claudeRoot)
  reconcileSkillMount orchestratorId "claude" (claudeRoot ++ ["skills"]) skillsRoot

def reconcileAllOrchestratorSkillMounts (settings : GlobalSettings) :
    DiskM OrchestratorError Unit :=
  inOrder (reconcileOrchestratorSkillMounts settings) (settings.orchestrators.map (·.1))

/-! ## When the mounts can be set -/

/-- A link to the target can be made. -/
def LinkFits (mountPath : FilePath) (target : Location) (d : Disk) : Prop :=
  ∃ d', symlink (.ofLocation target) mountPath d = .ok d'

/-- Where the mount path leads nowhere a link can be made; otherwise there is a link, and it
leads to the target or gives way to one that does. -/
def MountReady (mountPath : FilePath) (target : Location) (d : Disk) : Prop :=
  if d.pathExists mountPath then
    (∃ held, symlinkMetadata mountPath d = .ok (.link held)) ∧
      (pointsTo d mountPath target = true ∨
        ∃ d', removeFile mountPath d = .ok d' ∧ LinkFits mountPath target d')
  else LinkFits mountPath target d

variable {settings : GlobalSettings} {d : Disk} {orchestratorId : String} {mountRoot : FilePath}
  {path : FilePath}

theorem succeeds_ioCall {call : Disk → Except IoError Disk} :
    Succeeds (ioCall path call) d ↔ ∃ d', call d = .ok d' := by
  simp [ioCall]

theorem ioCall_eq_ok {call : Disk → Except IoError Disk} {d d' : Disk} {u : Unit} :
    ioCall path call d = .ok u d' ↔ call d = .ok d' := by
  rw [ioCall, adaptError_eq_ok, updateWith_eq_ok]

/-- A mount is made, left alone, replaced or refused. -/
inductive MountCase (notSymlink : String) (mountPath : FilePath) (target : Location) (d : Disk) :
    Prop where
  | absent (hmissing : d.pathExists mountPath = false)
      (hrun : reconcileMountPath notSymlink mountPath target d =
        ioCall mountPath (symlink (.ofLocation target) mountPath) d)
  | kept (held : FilePath) (hexists : d.pathExists mountPath = true)
      (hlink : symlinkMetadata mountPath d = .ok (.link held))
      (hpoints : pointsTo d mountPath target = true)
      (hrun : reconcileMountPath notSymlink mountPath target d = .ok () d)
  | replaced (held : FilePath) (hexists : d.pathExists mountPath = true)
      (hlink : symlinkMetadata mountPath d = .ok (.link held))
      (hpoints : pointsTo d mountPath target = false)
      (hrun : reconcileMountPath notSymlink mountPath target d =
        (do
          ioCall mountPath (removeFile mountPath)
          ioCall mountPath (symlink (.ofLocation target) mountPath)) d)
  | blocked (err : OrchestratorError) (hexists : d.pathExists mountPath = true)
      (hother : ¬ ∃ held, symlinkMetadata mountPath d = .ok (.link held))
      (hrun : reconcileMountPath notSymlink mountPath target d = .error err d)

theorem mountCase (notSymlink : String) (mountPath : FilePath) (target : Location) (d : Disk) :
    MountCase notSymlink mountPath target d := by
  cases hexists : d.pathExists mountPath with
  | false => exact .absent hexists (by simp [reconcileMountPath, hexists])
  | true =>
    cases hmeta : symlinkMetadata mountPath d with
    | error err =>
      refine .blocked (ioError mountPath err) hexists ?_ ?_
      · simp [hmeta]
      · simp [reconcileMountPath, hexists, hmeta]
    | ok found =>
      cases found with
      | link held =>
        cases hpoints : pointsTo d mountPath target with
        | true =>
          exact .kept held hexists hmeta hpoints
            (by simp [reconcileMountPath, hexists, hmeta, hpoints])
        | false =>
          exact .replaced held hexists hmeta hpoints
            (by simp [reconcileMountPath, hexists, hmeta, hpoints])
      | dir =>
        refine .blocked (.config notSymlink) hexists ?_ ?_
        · simp [hmeta]
        · simp [reconcileMountPath, hexists, hmeta]
      | file text =>
        refine .blocked (.config notSymlink) hexists ?_ ?_
        · simp [hmeta]
        · simp [reconcileMountPath, hexists, hmeta]

theorem succeeds_reconcileMountPath {notSymlink : String} {mountPath : FilePath} {target : Location}
    :
    Succeeds (reconcileMountPath notSymlink mountPath target) d ↔
      MountReady mountPath target d := by
  unfold MountReady
  cases mountCase notSymlink mountPath target d with
  | absent hmissing hrun =>
    rw [hmissing, if_neg (by simp), Succeeds, hrun]
    exact succeeds_ioCall
  | kept held hexists hlink hpoints hrun =>
    rw [if_pos hexists]
    exact iff_of_true ⟨(), d, hrun⟩ ⟨⟨held, hlink⟩, .inl hpoints⟩
  | replaced held hexists hlink hpoints hrun =>
    rw [if_pos hexists, Succeeds, hrun]
    refine succeeds_bind.trans ?_
    constructor
    · rintro ⟨u, d', hremove, hcreate⟩
      exact ⟨⟨held, hlink⟩, .inr ⟨d', ioCall_eq_ok.mp hremove, succeeds_ioCall.mp hcreate⟩⟩
    · rintro ⟨-, hpoints' | ⟨d', hremove, hcreate⟩⟩
      · rw [hpoints] at hpoints'
        cases hpoints'
      · exact ⟨(), d', ioCall_eq_ok.mpr hremove, succeeds_ioCall.mpr hcreate⟩
  | blocked err hexists hother hrun =>
    rw [if_pos hexists]
    exact iff_of_false (not_succeeds_of_error hrun) fun h => hother h.1

theorem keepsTexts_reconcileMountPath (notSymlink : String) (mountPath : FilePath)
    (target : Location) : Preserves KeepsTexts (reconcileMountPath notSymlink mountPath target) := by
  have hcreate : Preserves KeepsTexts
      (ioCall mountPath (symlink (.ofLocation target) mountPath)) := by
    refine Preserves.adaptError (Preserves.updateWith_of (refl_of KeepsTexts) ?_) _
    exact fun d d' h => (extends_make h).keepsTexts
  intro d
  cases mountCase notSymlink mountPath target d with
  | absent hmissing hrun =>
    have hleaves := hcreate d
    rwa [leaves, ← hrun] at hleaves
  | kept held hexists hlink hpoints hrun =>
    rw [leaves_of_ok hrun]
    exact refl_of KeepsTexts d
  | replaced held hexists hlink hpoints hrun =>
    have hremove : KeepsTexts d (leaves (ioCall mountPath (removeFile mountPath)) d) := by
      rw [ioCall, leaves_adaptError]
      exact leaves_updateWith (refl_of KeepsTexts d) fun d' h => keepsTexts_removeFile hlink h
    have hleaves := leaves_bind hremove fun _ d' _ => hcreate d'
    rwa [leaves, ← hrun] at hleaves
  | blocked err hexists hother hrun =>
    rw [leaves_of_error hrun]
    exact refl_of KeepsTexts d

/-- A stale name is still there, and if it is a link it can be removed. -/
def StaleReady (mountRoot : FilePath) (desired : List (String × Location)) (name : String)
    (d : Disk) : Prop :=
  (desired.lookup name).isSome = true ∨
    ∃ found, symlinkMetadata (below mountRoot (.normal name)) d = .ok found ∧
      ∀ held, found = .link held → ∃ d', removeFile (below mountRoot (.normal name)) d = .ok d'

theorem succeeds_removeStaleMount {desired : List (String × Location)} {name : String} :
    Succeeds (removeStaleMount mountRoot desired name) d ↔ StaleReady mountRoot desired name d := by
  unfold StaleReady
  cases hdesired : (desired.lookup name).isSome with
  | true =>
    refine iff_of_true ⟨(), d, ?_⟩ (.inl rfl)
    simp [removeStaleMount, hdesired]
  | false =>
    cases hmeta : symlinkMetadata (below mountRoot (.normal name)) d with
    | error err =>
      refine iff_of_false (not_succeeds_of_error
        (e := ioError (below mountRoot (.normal name)) err) (t := d) ?_) (by simp)
      simp [removeStaleMount, hdesired, hmeta]
    | ok found =>
      cases found with
      | link held =>
        have hrun : removeStaleMount mountRoot desired name d =
            ioCall (below mountRoot (.normal name))
              (removeFile (below mountRoot (.normal name))) d := by
          simp [removeStaleMount, hdesired, hmeta]
        rw [Succeeds, hrun]
        refine succeeds_ioCall.trans ?_
        simp
      | dir => exact iff_of_true ⟨(), d, by simp [removeStaleMount, hdesired, hmeta]⟩ (by simp)
      | file text =>
        exact iff_of_true ⟨(), d, by simp [removeStaleMount, hdesired, hmeta]⟩ (by simp)

theorem keepsTexts_removeStaleMount (mountRoot : FilePath) (desired : List (String × Location))
    (name : String) : Preserves KeepsTexts (removeStaleMount mountRoot desired name) := by
  intro d
  cases hdesired : (desired.lookup name).isSome with
  | true => simpa [leaves, removeStaleMount, hdesired] using refl_of KeepsTexts d
  | false =>
    cases hmeta : symlinkMetadata (below mountRoot (.normal name)) d with
    | error err => simpa [leaves, removeStaleMount, hdesired, hmeta] using refl_of KeepsTexts d
    | ok found =>
      cases found with
      | link held =>
        have hremove : KeepsTexts d (leaves (ioCall (below mountRoot (.normal name))
            (removeFile (below mountRoot (.normal name)))) d) := by
          rw [ioCall, leaves_adaptError]
          exact leaves_updateWith (refl_of KeepsTexts d) fun d' h => keepsTexts_removeFile hmeta h
        simpa [leaves, removeStaleMount, hdesired, hmeta] using hremove
      | dir => simpa [leaves, removeStaleMount, hdesired, hmeta] using refl_of KeepsTexts d
      | file text => simpa [leaves, removeStaleMount, hdesired, hmeta] using refl_of KeepsTexts d

/-- Every granted workspace is configured and its path exists. -/
def GrantsExist (settings : GlobalSettings) (grants : List String) (d : Disk) : Prop :=
  ∀ key ∈ grants, ∃ shared, settings.sharedWorkspaces.lookup key = some shared ∧
    d.pathExists (.parse shared.path) = true

theorem desiredMounts_ok_iff {settings : GlobalSettings} (orchestratorId : String) {d : Disk}
    (grants : List String) : ∀ (desired : List (String × Location)),
      (∃ mounts, desiredMounts settings orchestratorId d desired grants = .ok mounts) ↔
        GrantsExist settings grants d := by
  induction grants with
  | nil =>
    intro desired
    exact iff_of_true ⟨desired, rfl⟩ (by simp [GrantsExist])
  | cons key keys ih =>
    intro desired
    have hcons : GrantsExist settings (key :: keys) d ↔
        (∃ shared, settings.sharedWorkspaces.lookup key = some shared ∧
          d.pathExists (.parse shared.path) = true) ∧ GrantsExist settings keys d := by
      simp [GrantsExist]
    rw [hcons]
    cases hkey : settings.sharedWorkspaces.lookup key with
    | none => simp [desiredMounts, hkey]
    | some target =>
      cases hpath : d.fs.canonicalize (.parse target.path) with
      | error err => simp [desiredMounts, hkey, hpath, pathExists, Except.toBool]
      | ok canonicalTarget =>
        have hexists : d.pathExists (.parse target.path) = true := by
          simp [pathExists, hpath, Except.toBool]
        simp only [desiredMounts, hkey, hpath, normalize_ofLocation]
        refine (ih _).trans ?_
        simp [hexists]

/-- Every desired mount can be set, one after the other, and then every stale one removed. -/
def SharedMountsReady (orchestratorId : String) (mountRoot : FilePath)
    (desired : List (String × Location)) (d : Disk) : Prop :=
  EachReady (fun mount => MountReady (mountRoot.join (.parse mount.1)) mount.2)
      (reconcileSharedMount orchestratorId mountRoot) desired d ∧
    ∃ names, readDir mountRoot
        (leaves (inOrder (reconcileSharedMount orchestratorId mountRoot) desired) d) = .ok names ∧
      EachReady (StaleReady mountRoot desired) (removeStaleMount mountRoot desired) names
        (leaves (inOrder (reconcileSharedMount orchestratorId mountRoot) desired) d)

theorem succeeds_removeStaleSymlinkMounts {desired : List (String × Location)} :
    Succeeds (removeStaleSymlinkMounts mountRoot desired) d ↔
      ∃ names, readDir mountRoot d = .ok names ∧
        EachReady (StaleReady mountRoot desired) (removeStaleMount mountRoot desired) names d := by
  cases hnames : readDir mountRoot d with
  | error err =>
    refine iff_of_false (not_succeeds_of_error (e := ioError mountRoot err) (t := d) ?_) (by simp)
    simp [removeStaleSymlinkMounts, hnames]
  | ok names =>
    have hrun : removeStaleSymlinkMounts mountRoot desired d =
        inOrder (removeStaleMount mountRoot desired) names d := by
      simp [removeStaleSymlinkMounts, hnames]
    rw [Succeeds, hrun]
    refine (succeeds_inOrder (fun _ _ => succeeds_removeStaleMount) names).trans ?_
    simp

/-- An orchestrator's shared mounts can be set: its workspace and the mount root can be made,
what it is granted exists, and every mount is ready. -/
def SharedReady (settings : GlobalSettings) (orchestratorId : String) (d : Disk) : Prop :=
  ∃ workspace grants d₁ d₂,
    privateWorkspaceRoot settings orchestratorId = .ok workspace ∧
    createDirAll (.ofLocation workspace) d = .ok () d₁ ∧
    grantsOf settings orchestratorId = .ok grants ∧
    createDirAll (.ofLocation (workspace ++ ["shared"])) d₁ = .ok () d₂ ∧
    GrantsExist settings grants d₂ ∧
    ∀ desired, desiredMounts settings orchestratorId d₂ [] grants = .ok desired →
      SharedMountsReady orchestratorId (.ofLocation (workspace ++ ["shared"])) desired d₂

theorem createDir_eq_ok {d d' : Disk} {u : Unit} :
    createDir path d = .ok u d' ↔ createDirAll path d = .ok u d' := by
  rw [createDir, adaptError_eq_ok]

theorem succeeds_mountShared {grants : List String} :
    Succeeds (mountShared settings orchestratorId mountRoot grants) d ↔
      GrantsExist settings grants d ∧
        ∀ desired, desiredMounts settings orchestratorId d [] grants = .ok desired →
          SharedMountsReady orchestratorId mountRoot desired d := by
  rw [← desiredMounts_ok_iff orchestratorId grants []]
  cases hdesired : desiredMounts settings orchestratorId d [] grants with
  | error err =>
    refine iff_of_false (not_succeeds_of_error (e := err) (t := d) ?_) (by simp)
    simp [mountShared, hdesired]
  | ok desired =>
    have hrun : mountShared settings orchestratorId mountRoot grants d =
        (do
          inOrder (reconcileSharedMount orchestratorId mountRoot) desired
          removeStaleSymlinkMounts mountRoot desired) d := by
      simp [mountShared, hdesired]
    rw [Succeeds, hrun]
    refine succeeds_unit_bind.trans ?_
    have hmount : ∀ (mount : String × Location) (d : Disk),
        Succeeds (reconcileSharedMount orchestratorId mountRoot mount) d ↔
          MountReady (mountRoot.join (.parse mount.1)) mount.2 d :=
      fun _ _ => succeeds_reconcileMountPath
    rw [succeeds_inOrder hmount, succeeds_removeStaleSymlinkMounts]
    simp [SharedMountsReady]

theorem succeeds_reconcileOrchestratorSharedMounts :
    Succeeds (reconcileOrchestratorSharedMounts settings orchestratorId) d ↔
      SharedReady settings orchestratorId d := by
  unfold reconcileOrchestratorSharedMounts SharedReady
  simp only [succeeds_bind, succeeds_mountShared]
  constructor
  · rintro ⟨workspace, _, hws, _, d₁, h₁, grants, _, hgrants, _, d₂, h₂, hexist, hmounts⟩
    obtain ⟨hroot, rfl⟩ := ofResult_eq_ok.mp hws
    obtain ⟨hgranted, rfl⟩ := ofResult_eq_ok.mp hgrants
    exact ⟨workspace, grants, _, d₂, hroot, createDir_eq_ok.mp h₁, hgranted, createDir_eq_ok.mp h₂,
      hexist, hmounts⟩
  · rintro ⟨workspace, grants, d₁, d₂, hws, h₁, hgrants, h₂, hexist, hmounts⟩
    exact ⟨workspace, d, ofResult_eq_ok.mpr ⟨hws, rfl⟩, (), d₁, createDir_eq_ok.mpr h₁, grants, d₁,
      ofResult_eq_ok.mpr ⟨hgrants, rfl⟩, (), d₂, createDir_eq_ok.mpr h₂, hexist, hmounts⟩

theorem keepsTexts_createDir (path : FilePath) : Preserves KeepsTexts (createDir path) :=
  ((preserves_createDirAll path).mono fun _ _ h => h.keepsTexts).adaptError _

theorem keepsTexts_mountShared (settings : GlobalSettings) (orchestratorId : String)
    (mountRoot : FilePath) (grants : List String) :
    Preserves KeepsTexts (mountShared settings orchestratorId mountRoot grants) := by
  intro d
  cases hdesired : desiredMounts settings orchestratorId d [] grants with
  | error err => simpa [leaves, mountShared, hdesired] using refl_of KeepsTexts d
  | ok desired =>
    have hmounts : Preserves KeepsTexts
        (inOrder (reconcileSharedMount orchestratorId mountRoot) desired) :=
      preserves_inOrder (fun _ => keepsTexts_reconcileMountPath _ _ _) desired
    have hstale : Preserves KeepsTexts (removeStaleSymlinkMounts mountRoot desired) := by
      intro d'
      cases hnames : readDir mountRoot d' with
      | error err => simpa [leaves, removeStaleSymlinkMounts, hnames] using refl_of KeepsTexts d'
      | ok names =>
        have hremove := preserves_inOrder (keepsTexts_removeStaleMount mountRoot desired) names d'
        simpa [leaves, removeStaleSymlinkMounts, hnames] using hremove
    have hboth := (hmounts.bind fun _ => hstale) d
    simpa [leaves, mountShared, hdesired] using hboth

theorem keepsTexts_reconcileOrchestratorSharedMounts (settings : GlobalSettings)
    (orchestratorId : String) :
    Preserves KeepsTexts (reconcileOrchestratorSharedMounts settings orchestratorId) :=
  (preserves_ofResult _).bind fun _ => (keepsTexts_createDir _).bind fun _ =>
    (preserves_ofResult _).bind fun _ => (keepsTexts_createDir _).bind fun _ =>
      keepsTexts_mountShared settings orchestratorId _ _

/-- An orchestrator's skill mounts can be set. -/
def SkillsReady (settings : GlobalSettings) (orchestratorId : String) (d : Disk) : Prop :=
  ∃ workspace d₁ d₂ d₃ d₄ d₅,
    privateWorkspaceRoot settings orchestratorId = .ok workspace ∧
    createDirAll (.ofLocation workspace) d = .ok () d₁ ∧
    createDirAll (.ofLocation (workspace ++ ["skills"])) d₁ = .ok () d₂ ∧
    createDirAll (.ofLocation (workspace ++ [".agents"])) d₂ = .ok () d₃ ∧
    MountReady (.ofLocation (workspace ++ [".agents"] ++ ["skills"])) (workspace ++ ["skills"]) d₃ ∧
    reconcileSkillMount orchestratorId "agent" (workspace ++ [".agents"] ++ ["skills"])
      (workspace ++ ["skills"]) d₃ = .ok () d₄ ∧
    createDirAll (.ofLocation (workspace ++ [".claude"])) d₄ = .ok () d₅ ∧
    MountReady (.ofLocation (workspace ++ [".claude"] ++ ["skills"])) (workspace ++ ["skills"]) d₅

theorem succeeds_reconcileOrchestratorSkillMounts :
    Succeeds (reconcileOrchestratorSkillMounts settings orchestratorId) d ↔
      SkillsReady settings orchestratorId d := by
  have hmount : ∀ {kind : String} {mountPath skillsRoot : Location} {d : Disk},
      Succeeds (reconcileSkillMount orchestratorId kind mountPath skillsRoot) d ↔
        MountReady (.ofLocation mountPath) skillsRoot d := succeeds_reconcileMountPath
  unfold reconcileOrchestratorSkillMounts SkillsReady
  simp only [succeeds_bind, hmount]
  constructor
  · rintro ⟨workspace, _, hws, _, d₁, h₁, _, d₂, h₂, _, d₃, h₃, _, d₄, h₄, _, d₅, h₅, hclaude⟩
    obtain ⟨hroot, rfl⟩ := ofResult_eq_ok.mp hws
    exact ⟨workspace, d₁, d₂, d₃, d₄, d₅, hroot, createDir_eq_ok.mp h₁, createDir_eq_ok.mp h₂,
      createDir_eq_ok.mp h₃, hmount.mp ⟨_, d₄, h₄⟩, h₄, createDir_eq_ok.mp h₅, hclaude⟩
  · rintro ⟨workspace, d₁, d₂, d₃, d₄, d₅, hws, h₁, h₂, h₃, -, h₄, h₅, hclaude⟩
    exact ⟨workspace, d, ofResult_eq_ok.mpr ⟨hws, rfl⟩, (), d₁, createDir_eq_ok.mpr h₁, (), d₂,
      createDir_eq_ok.mpr h₂, (), d₃, createDir_eq_ok.mpr h₃, (), d₄, h₄, (), d₅,
      createDir_eq_ok.mpr h₅, hclaude⟩

theorem keepsTexts_reconcileOrchestratorSkillMounts (settings : GlobalSettings)
    (orchestratorId : String) :
    Preserves KeepsTexts (reconcileOrchestratorSkillMounts settings orchestratorId) :=
  (preserves_ofResult _).bind fun _ => (keepsTexts_createDir _).bind fun _ =>
    (keepsTexts_createDir _).bind fun _ => (keepsTexts_createDir _).bind fun _ =>
      (keepsTexts_reconcileMountPath _ _ _).bind fun _ => (keepsTexts_createDir _).bind fun _ =>
        keepsTexts_reconcileMountPath _ _ _

end Direclaw.Config
