import Direclaw.Lib.Fallible
import Direclaw.Lib.PathWalk
import Direclaw.Orchestration.RunStore

/-!
# Workspace access

`orchestration/workspace_access.rs`: a requested path is compared with the roots of a
context, in its canonical form if it exists and in its lexical normal form otherwise.
What is created through an admitted path lies in a root as long as the lexical form of a
missing path names, directory by directory, the place where the links lead.
-/

namespace Direclaw.Orchestration

open Direclaw.Lib

/-! ## The check -/

structure SharedWorkspaceAccess where
  root : Location
  description : String

/-- Roots are normalized when a context is built. -/
structure WorkspaceAccessContext where
  orchestratorId : String
  privateWorkspaceRoot : Location
  sharedWorkspaces : List (String × SharedWorkspaceAccess)

def FilePath.display (path : FilePath) : String :=
  let names := path.components.map fun
    | .normal name => name
    | .parentDir => ".."
  (if path.absolute then "/" else "") ++ String.intercalate "/" names

def WalkError.message : WalkError → String
  | .notFound => "No such file or directory (os error 2)"
  | .notADirectory => "Not a directory (os error 20)"
  | .tooManyLinks => "Too many levels of symbolic links (os error 40)"

def pushComponent (path : FilePath) (normalized : Location) :
    PathComponent → Except OrchestratorError Location
  | .normal name => .ok (normalized ++ [name])
  | .parentDir =>
    if normalized.isEmpty then
      .error (.workspacePathValidation (FilePath.display path) "path escapes filesystem root")
    else .ok normalized.dropLast

def normalizeAbsolutePath (path : FilePath) : Except OrchestratorError Location :=
  if path.absolute then path.components.foldlM (pushComponent path) []
  else .error (.workspacePathValidation (FilePath.display path) "path must be absolute")

def canonicalizeAbsolutePathIfExists (fs : FileSystem) (path : FilePath) :
    Except OrchestratorError Location :=
  match fs.canonicalize path with
  | .ok canonical => normalizeAbsolutePath (.ofLocation canonical)
  | .error .notFound => normalizeAbsolutePath path
  | .error err => .error (.io (FilePath.display path) (.other (WalkError.message err)))

/-- The comparison is by components, as `Path::starts_with` makes it. -/
def WorkspaceAccessContext.admits (context : WorkspaceAccessContext) (normalized : Location) :
    Bool :=
  context.privateWorkspaceRoot.isPrefixOf normalized ||
    context.sharedWorkspaces.any fun shared => shared.2.root.isPrefixOf normalized

def enforceWorkspaceAccess (fs : FileSystem) (context : WorkspaceAccessContext) :
    List FilePath → Except OrchestratorError Unit
  | [] => .ok ()
  | requested :: rest => do
      let normalized ← canonicalizeAbsolutePathIfExists fs requested
      if context.admits normalized then enforceWorkspaceAccess fs context rest
      else .error (.workspaceAccessDenied context.orchestratorId
        (FilePath.display (.ofLocation normalized)))

/-! ## What the check lets through -/

def WorkspaceAccessContext.roots (context : WorkspaceAccessContext) : List Location :=
  context.privateWorkspaceRoot :: context.sharedWorkspaces.map fun shared => shared.2.root

variable {context : WorkspaceAccessContext}

theorem WorkspaceAccessContext.admits_iff {normalized : Location} :
    context.admits normalized = true ↔ ∃ root ∈ context.roots, root <+: normalized := by
  simp [admits, roots]

theorem admits_of_enforce {fs : FileSystem} :
    ∀ {paths : List FilePath}, enforceWorkspaceAccess fs context paths = .ok () →
      ∀ requested ∈ paths, ∃ normalized,
        canonicalizeAbsolutePathIfExists fs requested = .ok normalized ∧
          context.admits normalized = true
  | [], _, requested, hmem => by cases hmem
  | path :: paths, h, requested, hmem => by
      obtain ⟨normalized, hnormalized, h⟩ := bind_eq_ok h
      split at h
      · next hadmits =>
          rcases List.mem_cons.mp hmem with rfl | hmem
          · exact ⟨normalized, hnormalized, hadmits⟩
          · exact admits_of_enforce h requested hmem
      · cases h

theorem normalize_ofLocation (loc : Location) :
    normalizeAbsolutePath (.ofLocation loc) = .ok loc := by
  have hpush : ∀ (names before : Location),
      (names.map PathComponent.normal).foldlM (pushComponent (.ofLocation loc)) before =
        .ok (before ++ names) := by
    intro names
    induction names with
    | nil =>
      intro before
      rw [List.append_nil]
      rfl
    | cons name names ih =>
      intro before
      rw [List.map_cons, List.foldlM_cons]
      refine (ih (before ++ [name])).trans ?_
      rw [List.append_assoc, List.singleton_append]
  exact hpush loc []

/-! ## Confinement -/

/-- The place lies in a root, wherever the root's own name leads. -/
def Inside (fs : FileSystem) (context : WorkspaceAccessContext) (loc : Location) : Prop :=
  ∃ root ∈ context.roots, ∃ resolved, fs.touches (.ofLocation root) = .ok resolved ∧
    resolved <+: loc

/-- If the path is missing, every directory that its lexical normal form names holds the
place where the path leads. -/
def StaysInPlace (fs : FileSystem) (requested : FilePath) : Prop :=
  fs.canonicalize requested = .error .notFound →
    ∀ normalized, normalizeAbsolutePath requested = .ok normalized →
      ∀ loc, fs.touches requested = .ok loc →
        ∀ dir, dir <+: normalized →
          ∃ resolved, fs.touches (.ofLocation dir) = .ok resolved ∧ resolved <+: loc

/-- An existing path is compared in its canonical form, which is the place itself. -/
theorem inside_of_canonicalize {fs : FileSystem} {requested : FilePath} {canonical : Location}
    (hcanonical : fs.canonicalize requested = .ok canonical)
    (hadmits : context.admits canonical = true) {loc : Location}
    (hloc : fs.touches requested = .ok loc) : Inside fs context loc := by
  rw [FileSystem.touches_of_canonicalize hcanonical] at hloc
  cases hloc
  obtain ⟨root, hroot, hprefix⟩ := WorkspaceAccessContext.admits_iff.mp hadmits
  have hplace := FileSystem.isPlace_canonicalize hcanonical
  exact ⟨root, hroot, root, FileSystem.touches_of_isPlace hplace hprefix, hprefix⟩

/-- In every context and among whatever other requests, what is created or written through
an admitted path lies in one of the roots, exactly if the path stays in place. -/
theorem workspace_confined_iff (fs : FileSystem) (requested : FilePath) :
    (∀ (context : WorkspaceAccessContext) (paths : List FilePath), requested ∈ paths →
      enforceWorkspaceAccess fs context paths = .ok () →
        ∀ loc, fs.touches requested = .ok loc → Inside fs context loc) ↔
      StaysInPlace fs requested := by
  constructor
  · intro h hmissing normalized hnormalized loc hloc dir hdir
    let context : WorkspaceAccessContext :=
      { orchestratorId := "", privateWorkspaceRoot := dir, sharedWorkspaces := [] }
    have hadmits : context.admits normalized = true :=
      WorkspaceAccessContext.admits_iff.mpr ⟨dir, by simp [context, WorkspaceAccessContext.roots],
        hdir⟩
    have henforce : enforceWorkspaceAccess fs context [requested] = .ok () := by
      have hcanonical : canonicalizeAbsolutePathIfExists fs requested = .ok normalized := by
        rw [canonicalizeAbsolutePathIfExists, hmissing, hnormalized]
      rw [enforceWorkspaceAccess, hcanonical]
      exact if_pos hadmits
    obtain ⟨root, hroot, hresolved⟩ := h context [requested] (by simp) henforce loc hloc
    obtain rfl : root = dir := by simpa [context, WorkspaceAccessContext.roots] using hroot
    exact hresolved
  · intro h context paths hmem henforce loc hloc
    obtain ⟨normalized, hnormalized, hadmits⟩ := admits_of_enforce henforce requested hmem
    unfold canonicalizeAbsolutePathIfExists at hnormalized
    split at hnormalized
    · next canonical hcanonical =>
        rw [normalize_ofLocation] at hnormalized
        cases hnormalized
        exact inside_of_canonicalize hcanonical hadmits hloc
    · next hmissing =>
        obtain ⟨root, hroot, hprefix⟩ := WorkspaceAccessContext.admits_iff.mp hadmits
        exact ⟨root, hroot, h hmissing normalized hnormalized loc hloc root hprefix⟩
    · cases hnormalized

/-! ## A link out of the workspace -/

def linkedEntry (loc : Location) : Option FileEntry :=
  if loc = ["ws"] ∨ loc = ["etc"] then some .dir
  else if loc = ["ws", "link"] then some (.link (.ofLocation ["etc"]))
  else none

def linkedWorkspace : FileSystem where
  entry := linkedEntry
  cwd := []
  parent := by
    intro loc name found h
    unfold linkedEntry at h
    split at h
    · next hdir =>
        left
        rcases hdir with heq | heq
        · exact (@List.append_inj' _ loc [name] [] ["ws"] heq rfl).1
        · exact (@List.append_inj' _ loc [name] [] ["etc"] heq rfl).1
    · split at h
      · next heq =>
          right
          obtain ⟨rfl, -⟩ := @List.append_inj' _ loc [name] ["ws"] ["link"] heq rfl
          rfl
      · cases h
  cwd_dir := .inl rfl

def wsContext : WorkspaceAccessContext :=
  { orchestratorId := "eng", privateWorkspaceRoot := ["ws"], sharedWorkspaces := [] }

/-- A missing file behind the link is admitted, and would be made outside the workspace. -/
theorem missing_path_escapes :
    enforceWorkspaceAccess linkedWorkspace wsContext [.ofLocation ["ws", "link", "new"]] = .ok () ∧
      linkedWorkspace.touches (.ofLocation ["ws", "link", "new"]) = .ok ["etc", "new"] ∧
      ¬ Inside linkedWorkspace wsContext ["etc", "new"] := by
  refine ⟨rfl, rfl, ?_⟩
  rintro ⟨root, hroot, resolved, hresolved, hprefix⟩
  obtain rfl : root = ["ws"] := by simpa [wsContext, WorkspaceAccessContext.roots] using hroot
  have hws : linkedWorkspace.touches (.ofLocation ["ws"]) = .ok ["ws"] := rfl
  rw [hws] at hresolved
  cases hresolved
  exact absurd hprefix (by decide)

end Direclaw.Orchestration
