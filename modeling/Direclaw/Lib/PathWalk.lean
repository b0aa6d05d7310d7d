import Mathlib.Data.List.Induction

/-!
# Walking paths

A file system with symbolic links, and where a path leads. A walk starts at a
directory and takes one component after the other; a link puts the components of its
target in front of those that are left, and only so many links are followed.
-/

namespace Direclaw.Lib

/-- A component of a path; repeated separators and dots are gone. -/
inductive PathComponent : Type where
  | normal (name : String)
  | parentDir
deriving DecidableEq, Repr

structure FilePath where
  absolute : Bool
  components : List PathComponent
deriving DecidableEq, Repr

/-- The place of an entry: the names from the root, with no link or dots left. -/
abbrev Location := List String

def FilePath.ofLocation (loc : Location) : FilePath :=
  { absolute := true, components := loc.map .normal }

inductive FileEntry : Type where
  | dir
  | file
  | link (target : FilePath)
deriving DecidableEq, Repr

/-- Entries other than the root directory are children of directories. -/
structure FileSystem where
  entry : Location → Option FileEntry
  cwd : Location
  parent : ∀ loc name found, entry (loc ++ [name]) = some found → loc = [] ∨ entry loc = some .dir
  cwd_dir : cwd = [] ∨ entry cwd = some .dir

inductive WalkError : Type where
  | notFound
  | notADirectory
  | tooManyLinks
deriving DecidableEq, Repr

namespace FileSystem

/-- Nothing but the root, where the program runs. -/
def bare : FileSystem where
  entry _ := none
  cwd := []
  parent := nofun
  cwd_dir := .inl rfl

variable (fs : FileSystem)

/-- Where a walk begins that has come to `loc`. -/
def base (loc : Location) (path : FilePath) : Location := if path.absolute then [] else loc

/-- A walk up to the first link. When `create` is set, a missing entry is taken for the
directory that would be made there. -/
def walkFrom (create : Bool)
    (follow : Location → List PathComponent → Except WalkError Location) :
    Location → List PathComponent → Except WalkError Location
  | loc, [] => .ok loc
  | loc, .parentDir :: rest => walkFrom create follow loc.dropLast rest
  | loc, .normal name :: rest =>
    match fs.entry (loc ++ [name]) with
    | none => if create then walkFrom create follow (loc ++ [name]) rest else .error .notFound
    | some .dir => walkFrom create follow (loc ++ [name]) rest
    | some .file => if rest.isEmpty then .ok (loc ++ [name]) else .error .notADirectory
    | some (.link target) => follow (base loc target) (target.components ++ rest)

/-- A walk that follows at most `links` links. -/
def walk (create : Bool) : ℕ → Location → List PathComponent → Except WalkError Location
  | 0 => fs.walkFrom create fun _ _ => .error .tooManyLinks
  | links + 1 => fs.walkFrom create (walk create links)

/-- Links followed in one walk. -/
def linkBudget : ℕ := 40

/-- `realpath`: the path must exist. -/
def canonicalize (path : FilePath) : Except WalkError Location :=
  fs.walk false linkBudget (base fs.cwd path) path.components

/-- The place that creating or writing through the path touches. -/
def touches (path : FilePath) : Except WalkError Location :=
  fs.walk true linkBudget (base fs.cwd path) path.components

variable {fs}

/-! ## Existing paths -/

variable {found : Location} {loc : Location}

variable {fs' : FileSystem} {create : Bool}

/-- A walk ends where it did when entries are added, and when missing ones are made. -/
theorem walkFrom_mono {follow follow' : Location → List PathComponent → Except WalkError Location}
    (hentry : ∀ loc found, fs.entry loc = some found → fs'.entry loc = some found)
    (hfollow : ∀ loc rest found, follow loc rest = .ok found → follow' loc rest = .ok found)
    (comps : List PathComponent) :
    ∀ {loc : Location}, fs.walkFrom false follow loc comps = .ok found →
      fs'.walkFrom create follow' loc comps = .ok found := by
  induction comps with
  | nil =>
    intro loc h
    exact h
  | cons comp rest ih =>
    intro loc h
    cases comp with
    | parentDir => exact ih h
    | normal name =>
      simp only [walkFrom] at h ⊢
      cases hheld : fs.entry (loc ++ [name]) with
      | none =>
        rw [hheld] at h
        cases h
      | some held =>
        rw [hheld] at h
        rw [hentry _ _ hheld]
        cases held with
        | dir => exact ih h
        | file => exact h
        | link target => exact hfollow _ _ _ h

theorem walk_mono (hentry : ∀ loc found, fs.entry loc = some found → fs'.entry loc = some found)
    (links : ℕ) : ∀ (loc : Location) (comps : List PathComponent) (found : Location),
      fs.walk false links loc comps = .ok found → fs'.walk create links loc comps = .ok found := by
  induction links with
  | zero => exact fun _ comps _ => walkFrom_mono hentry (fun _ _ _ h => by cases h) comps
  | succ links ih => exact fun _ comps _ => walkFrom_mono hentry ih comps

theorem touches_of_canonicalize {path : FilePath} {found : Location}
    (h : fs.canonicalize path = .ok found) : fs.touches path = .ok found :=
  walk_mono (fun _ _ hentry => hentry) _ _ _ _ h

/-- The directories, the root among them. -/
def IsDir (fs : FileSystem) (loc : Location) : Prop := loc = [] ∨ fs.entry loc = some .dir

theorem IsDir.dropLast (h : IsDir fs loc) : IsDir fs loc.dropLast := by
  rcases List.eq_nil_or_concat loc with rfl | ⟨before, name, rfl⟩
  · exact .inl rfl
  · rw [List.concat_eq_append] at h ⊢
    rw [List.dropLast_concat]
    rcases h with h | h
    · simp at h
    · exact fs.parent before name _ h

theorem IsDir.of_prefix (h : IsDir fs loc) :
    ∀ {before : Location}, before <+: loc → IsDir fs before := by
  induction loc using List.reverseRecOn with
  | nil =>
    intro before hprefix
    exact .inl (List.prefix_nil.mp hprefix)
  | append_singleton loc name ih =>
    intro before hprefix
    rcases List.prefix_concat_iff.mp hprefix with heq | hprefix
    · rwa [heq, ← List.concat_eq_append] at *
    · have hparent := h.dropLast
      rw [List.dropLast_concat] at hparent
      exact ih hparent hprefix

/-- A directory or a file, by its own name. -/
def IsPlace (fs : FileSystem) (loc : Location) : Prop := IsDir fs loc ∨ fs.entry loc = some .file

theorem IsDir.base (h : IsDir fs loc) (path : FilePath) : IsDir fs (base loc path) := by
  unfold FileSystem.base
  split
  · exact .inl rfl
  · exact h

theorem isPlace_walkFrom {follow : Location → List PathComponent → Except WalkError Location}
    (hfollow : ∀ loc rest found, IsDir fs loc → follow loc rest = .ok found → IsPlace fs found)
    (comps : List PathComponent) : ∀ {loc : Location}, IsDir fs loc →
      fs.walkFrom false follow loc comps = .ok found → IsPlace fs found := by
  induction comps with
  | nil =>
    intro loc hloc h
    cases h
    exact .inl hloc
  | cons comp rest ih =>
    intro loc hloc h
    cases comp with
    | parentDir => exact ih hloc.dropLast h
    | normal name =>
      simp only [walkFrom] at h
      split at h
      · cases h
      · next hentry => exact ih (.inr hentry) h
      · next hentry =>
          split at h
          · cases h
            exact .inr hentry
          · cases h
      · exact hfollow _ _ _ (hloc.base _) h

/-- The canonical form of a path names an entry that is no link. -/
theorem isPlace_canonicalize {path : FilePath} {found : Location}
    (h : fs.canonicalize path = .ok found) : IsPlace fs found := by
  have hwalk : ∀ (links : ℕ) (loc : Location) (comps : List PathComponent) (found : Location),
      IsDir fs loc → fs.walk false links loc comps = .ok found → IsPlace fs found := by
    intro links
    induction links with
    | zero =>
      intro loc comps found hloc h
      exact isPlace_walkFrom (fun _ _ _ _ h => by cases h) comps hloc h
    | succ links ih =>
      intro loc comps found hloc h
      exact isPlace_walkFrom ih comps hloc h
  exact hwalk _ _ _ _ (IsDir.base fs.cwd_dir path) h

/-! ## Paths without links -/

theorem walkFrom_names {create : Bool}
    {follow : Location → List PathComponent → Except WalkError Location} (names : Location) :
    ∀ {loc : Location}, (∀ before, before <+: names → before ≠ [] →
        (fs.entry (loc ++ before) = none ∧ create = true) ∨ fs.entry (loc ++ before) = some .dir ∨
          fs.entry (loc ++ before) = some .file ∧ before = names) →
      fs.walkFrom create follow loc (names.map .normal) = .ok (loc ++ names) := by
  induction names with
  | nil =>
    intro loc _
    simp [walkFrom]
  | cons name names ih =>
    intro loc h
    have hrest : fs.walkFrom create follow (loc ++ [name]) (names.map .normal) =
        .ok (loc ++ name :: names) := by
      rw [ih, List.append_assoc, List.singleton_append]
      intro before hprefix hne
      have hbefore := h (name :: before) (by simpa using hprefix) (by simp)
      simpa using hbefore
    rw [List.map_cons]
    rcases h [name] (by simp) (by simp) with ⟨hentry, hcreate⟩ | hentry | ⟨hentry, hnames⟩
    · simp only [walkFrom, hentry, hcreate, if_true]
      rw [hcreate] at hrest
      exact hrest
    · simp only [walkFrom, hentry]
      exact hrest
    · obtain rfl : names = [] := by simpa using hnames.symm
      simp only [walkFrom, hentry]
      rfl

/-- A place is reached by its own names, and so is every directory above it. -/
theorem touches_of_isPlace {loc before : Location} (hloc : IsPlace fs loc)
    (hbefore : before <+: loc) : fs.touches (.ofLocation before) = .ok before := by
  refine (walkFrom_names before ?_).trans (by simp [base, FilePath.ofLocation])
  intro names hnames hne
  simp only [base, FilePath.ofLocation, if_true, List.nil_append]
  rcases hloc with hdir | hfile
  · exact .inr (.inl ((hdir.of_prefix (hnames.trans hbefore)).resolve_left hne))
  · obtain ⟨parent, name, rfl⟩ : ∃ parent name, loc = parent ++ [name] := by
      rcases List.eq_nil_or_concat loc with rfl | ⟨parent, name, rfl⟩
      · exact absurd (List.prefix_nil.mp (hnames.trans hbefore)) hne
      · exact ⟨parent, name, List.concat_eq_append⟩
    have hparent : IsDir fs parent := fs.parent parent name _ hfile
    rcases List.prefix_concat_iff.mp (hnames.trans hbefore) with heq | hnames'
    · right; right
      subst heq
      exact ⟨hfile, hnames.eq_of_length (Nat.le_antisymm hnames.length_le hbefore.length_le)⟩
    · exact .inr (.inl ((hparent.of_prefix hnames').resolve_left hne))

end FileSystem

end Direclaw.Lib
