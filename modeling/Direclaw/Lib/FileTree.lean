import Direclaw.Lib.Fallible
import Direclaw.Lib.PathWalk

/-!
# Trees of files

Directories and files without links, by the names that lead to them. The root is a
directory whatever the tree says of it.
-/

namespace Direclaw.Lib

inductive FileNode : Type where
  | dir
  | file (text : String)
deriving DecidableEq, Repr

abbrev FileTree := Location → Option FileNode

inductive FileTreeError : Type where
  | notFound
  | alreadyExists
  | notADirectory
  | isADirectory
deriving DecidableEq, Repr

namespace FileTree

def set (tree : FileTree) (loc : Location) (node : FileNode) : FileTree := fun other =>
  if other = loc then some node else tree other

/-- The texts of the files. -/
def text (tree : FileTree) (loc : Location) : Option String :=
  match tree loc with
  | some (.file text) => some text
  | _ => none

/-! ## The calls -/

/-- A directory that may be there already, on the way to `loc`. -/
def ensureDir (loc : Location) (tree : FileTree) (dir : Location) : Except FileTreeError FileTree :=
  match tree dir with
  | none => .ok (tree.set dir .dir)
  | some .dir => .ok tree
  | some (.file _) => .error (if dir = loc then .alreadyExists else .notADirectory)

def createDirAll (loc : Location) (tree : FileTree) : Except FileTreeError FileTree :=
  loc.inits.tail.foldlM (ensureDir loc) tree

def write (loc : Location) (text : String) (tree : FileTree) : Except FileTreeError FileTree :=
  if loc = [] ∨ tree loc = some .dir then .error .isADirectory
  else if loc.dropLast = [] ∨ tree loc.dropLast = some .dir then .ok (tree.set loc (.file text))
  else if (tree loc.dropLast).isNone then .error .notFound
  else .error .notADirectory

/-! ## What they keep -/

variable {tree tree' : FileTree} {loc other : Location}

@[simp] theorem set_self (tree : FileTree) (loc : Location) (node : FileNode) :
    tree.set loc node loc = some node := if_pos rfl

theorem set_of_ne (h : other ≠ loc) (tree : FileTree) (node : FileNode) :
    tree.set loc node other = tree other := if_neg h

variable {content : String}

theorem text_eq_some_iff : tree.text loc = some content ↔ tree loc = some (.file content) := by
  unfold text
  split
  · next held hheld => rw [hheld, Option.some_inj, Option.some_inj, FileNode.file.injEq]
  · next hother => exact iff_of_false nofun fun h => hother content h

/-- What is there is neither replaced nor removed, and no file is new. -/
structure GrowsByDirs (tree tree' : FileTree) : Prop where
  kept : ∀ loc node, tree loc = some node → tree' loc = some node
  files : ∀ loc content, tree' loc = some (.file content) → tree loc = some (.file content)

theorem GrowsByDirs.refl (tree : FileTree) : GrowsByDirs tree tree :=
  ⟨fun _ _ h => h, fun _ _ h => h⟩

theorem GrowsByDirs.trans {mid : FileTree} (h : GrowsByDirs tree mid)
    (h' : GrowsByDirs mid tree') : GrowsByDirs tree tree' :=
  ⟨fun loc node held => h'.kept loc node (h.kept loc node held),
    fun loc content held => h.files loc content (h'.files loc content held)⟩

theorem growsByDirs_ensureDir {dir : Location} (h : ensureDir loc tree dir = .ok tree') :
    GrowsByDirs tree tree' := by
  unfold ensureDir at h
  split at h
  · next hnone =>
      cases h
      have hne : ∀ {other node}, tree other = some node → other ≠ dir := by
        rintro other node hother rfl
        rw [hnone] at hother
        cases hother
      refine ⟨fun other node hother => ?_, fun other content hother => ?_⟩
      · rw [set_of_ne (hne hother), hother]
      · by_cases hdir : other = dir
        · rw [hdir, set_self] at hother
          cases hother
        · rwa [set_of_ne hdir] at hother
  · cases h
    exact GrowsByDirs.refl tree
  · cases h

theorem growsByDirs_createDirAll (h : createDirAll loc tree = .ok tree') :
    GrowsByDirs tree tree' :=
  foldlM_invariant (P := GrowsByDirs tree) (fun _ _ _ hmid hstep =>
    hmid.trans (growsByDirs_ensureDir hstep)) (GrowsByDirs.refl tree) h

theorem write_eq_ok (h : write loc content tree = .ok tree') :
    tree' = tree.set loc (.file content) := by
  unfold write at h
  split at h
  · cases h
  · split at h
    · cases h
      rfl
    · split at h
      · cases h
      · cases h

theorem write_self (h : write loc content tree = .ok tree') : tree' loc = some (.file content) := by
  rw [write_eq_ok h, set_self]

theorem write_of_ne {content : String} (h : write loc content tree = .ok tree')
    (hother : other ≠ loc) : tree' other = tree other := by
  rw [write_eq_ok h, set_of_ne hother]

end FileTree

end Direclaw.Lib
