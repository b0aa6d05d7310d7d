import Direclaw.Lib.Effects
import Direclaw.Lib.Fallible
import Direclaw.Lib.PathWalk

/-!
# A disk

A file system that programs change: directories, links and files with their texts, under
paths that are walked as they stand at each call. An operation fails if the walk does, if
the entries do not allow it, if the system refuses a change at the place, or if a text
does not fit.
-/

namespace Direclaw.Lib

/-- The components of a path: `/` separates them, and a dot names nothing. -/
def FilePath.parse (text : String) : FilePath where
  absolute := text.toList.head? == some '/'
  components :=
    ((text.toList.splitOn '/').filter fun c => c ≠ [] ∧ c ≠ ['.']).map fun c =>
      if c = ['.', '.'] then .parentDir else .normal (String.ofList c)

def FilePath.join (path child : FilePath) : FilePath :=
  if child.absolute then child else { path with components := path.components ++ child.components }

def FilePath.names (path : FilePath) (names : Location) : FilePath :=
  { path with components := path.components ++ names.map .normal }

inductive DiskEntry : Type where
  | dir
  | file (text : String)
  | link (target : FilePath)
deriving DecidableEq, Repr

def DiskEntry.kind : DiskEntry → FileEntry
  | .dir => .dir
  | .file _ => .file
  | .link target => .link target

inductive IoError : Type where
  | walk (err : WalkError)
  | alreadyExists
  | isADirectory
  | refused
  | full
deriving DecidableEq, Repr

structure Disk where
  entries : List (Location × DiskEntry)
  cwd : Location
  root : entries.lookup [] = none
  parent : ∀ loc name found, entries.lookup (loc ++ [name]) = some found →
    loc = [] ∨ entries.lookup loc = some .dir
  cwd_dir : cwd = [] ∨ entries.lookup cwd = some .dir
  /-- The places where the system allows no change. -/
  refuses : Location → Bool := fun _ => false
  /-- The length of the texts that still fit. -/
  room : Option ℕ := none

namespace Disk

/-- Entries that are listed under directories. -/
def wellPlaced (entries : List (Location × DiskEntry)) : Bool :=
  entries.all fun held =>
    held.1 ≠ [] ∧ (held.1.dropLast = [] ∨ entries.lookup held.1.dropLast = some .dir)

def ofEntries (entries : List (Location × DiskEntry)) (h : wellPlaced entries = true) : Disk :=
  have hplaced : ∀ loc found, entries.lookup loc = some found →
      loc ≠ [] ∧ (loc.dropLast = [] ∨ entries.lookup loc.dropLast = some .dir) := by
    intro loc found hfound
    obtain ⟨before, after, hsplit, -⟩ := List.lookup_eq_some_iff.mp hfound
    have hmem : (loc, found) ∈ entries := hsplit ▸ List.mem_append_right _ List.mem_cons_self
    exact of_decide_eq_true (List.all_eq_true.mp h _ hmem)
  { entries
    cwd := []
    root := by
      cases hroot : entries.lookup [] with
      | none => rfl
      | some found => exact absurd rfl (hplaced [] found hroot).1
    parent := by
      intro loc name found hfound
      have habove := (hplaced _ found hfound).2
      rwa [List.dropLast_concat] at habove
    cwd_dir := .inl rfl }

def entry (d : Disk) (loc : Location) : Option DiskEntry := d.entries.lookup loc

/-- The disk as walks see it. -/
def fs (d : Disk) : FileSystem where
  entry loc := (d.entry loc).map DiskEntry.kind
  cwd := d.cwd
  parent := by
    intro loc name found h
    obtain ⟨held, hheld, -⟩ := Option.map_eq_some_iff.mp h
    rcases d.parent loc name held hheld with hnil | hdir
    · exact .inl hnil
    · exact .inr (Option.map_eq_some_iff.mpr ⟨.dir, hdir, rfl⟩)
  cwd_dir := by
    rcases d.cwd_dir with hnil | hdir
    · exact .inl hnil
    · exact .inr (Option.map_eq_some_iff.mpr ⟨.dir, hdir, rfl⟩)

/-- A directory, the root among them. -/
def isDirAt (d : Disk) (loc : Location) : Bool := loc = [] ∨ d.entry loc = some .dir

/-! ## Changing an entry -/

def withEntry (entries : List (Location × DiskEntry)) (loc : Location) :
    Option DiskEntry → List (Location × DiskEntry)
  | some found => (loc, found) :: entries.filter (·.1 ≠ loc)
  | none => entries.filter (·.1 ≠ loc)

theorem lookup_filter_ne (entries : List (Location × DiskEntry)) (loc : Location) :
    (entries.filter (·.1 ≠ loc)).lookup loc = none := by
  rw [List.lookup_eq_none_iff]
  intro held hmem
  have hne : held.1 ≠ loc := by simpa using (List.mem_filter.mp hmem).2
  simpa using hne.symm

theorem lookup_filter_of_ne {entries : List (Location × DiskEntry)} {loc other : Location}
    (h : other ≠ loc) : (entries.filter (·.1 ≠ loc)).lookup other = entries.lookup other := by
  induction entries with
  | nil => rfl
  | cons held entries ih =>
    by_cases hkeep : held.1 = loc
    · have hne : (other == held.1) = false := by simpa [hkeep] using h
      rw [List.filter_cons_of_neg (by simpa using hkeep), ih, List.lookup_cons, hne]
    · rw [List.filter_cons_of_pos (by simpa using hkeep), List.lookup_cons, List.lookup_cons, ih]

@[simp] theorem lookup_withEntry_self (entries : List (Location × DiskEntry)) (loc : Location)
    (found : Option DiskEntry) : (withEntry entries loc found).lookup loc = found := by
  cases found with
  | none => exact lookup_filter_ne entries loc
  | some found => simp [withEntry]

theorem lookup_withEntry_of_ne {entries : List (Location × DiskEntry)} (h : other ≠ loc)
    (found : Option DiskEntry) :
    (withEntry entries loc found).lookup other = entries.lookup other := by
  cases found with
  | none => exact lookup_filter_of_ne h
  | some found =>
    have hne : (other == loc) = false := by simpa using h
    rw [withEntry, List.lookup_cons, hne, lookup_filter_of_ne h]

/-- The entry may be changed: it is no directory and its own directory is there. -/
structure Changes (d : Disk) (loc : Location) : Prop where
  proper : loc ≠ []
  above : d.isDirAt loc.dropLast = true
  plain : d.entry loc ≠ some .dir

instance (d : Disk) (loc : Location) : Decidable (d.Changes loc) :=
  decidable_of_iff (loc ≠ [] ∧ d.isDirAt loc.dropLast = true ∧ d.entry loc ≠ some .dir)
    ⟨fun h => ⟨h.1, h.2.1, h.2.2⟩, fun h => ⟨h.proper, h.above, h.plain⟩⟩

theorem Changes.ne_dir {d : Disk} {loc other : Location} (h : d.Changes loc)
    (hother : d.entry other = some .dir) : other ≠ loc := by
  rintro rfl
  exact h.plain hother

def changed (d : Disk) (loc : Location) (found : Option DiskEntry) (h : d.Changes loc) : Disk :=
  { d with
    entries := withEntry d.entries loc found
    root := (lookup_withEntry_of_ne h.proper.symm found).trans d.root
    parent := by
      intro above name held hheld
      have hkeep : d.entries.lookup above = some .dir →
          (withEntry d.entries loc found).lookup above = some .dir := fun habove =>
        (lookup_withEntry_of_ne (h.ne_dir habove) found).trans habove
      by_cases hloc : above ++ [name] = loc
      · have habove : d.isDirAt above = true := by
          have habove := h.above
          rwa [← hloc, List.dropLast_concat] at habove
        rcases of_decide_eq_true habove with hnil | hdir
        · exact .inl hnil
        · exact .inr (hkeep hdir)
      · rw [lookup_withEntry_of_ne hloc] at hheld
        rcases d.parent above name held hheld with hnil | hdir
        · exact .inl hnil
        · exact .inr (hkeep hdir)
    cwd_dir := by
      rcases d.cwd_dir with hnil | hdir
      · exact .inl hnil
      · exact .inr ((lookup_withEntry_of_ne (h.ne_dir hdir) found).trans hdir) }

/-- The place of an entry, as it would be made, replaced or removed there. -/
def change (loc : Location) (found : Option DiskEntry) (d : Disk) : Except IoError Disk :=
  if h : d.Changes loc then
    if d.refuses loc then .error .refused else .ok (d.changed loc found h)
  else if d.isDirAt loc then .error .isADirectory
  else .error (.walk .notADirectory)

/-! ## The calls -/

/-- `Path::exists`. -/
def pathExists (d : Disk) (path : FilePath) : Bool := (d.fs.canonicalize path).toBool

def isDir (d : Disk) (path : FilePath) : Bool :=
  match d.fs.canonicalize path with
  | .ok loc => d.isDirAt loc
  | .error _ => false

/-- The entry that the path names, not what it leads to if it is a link. -/
def place (d : Disk) (path : FilePath) : Except IoError Location :=
  match path.components.getLast? with
  | some (.normal name) =>
    match d.fs.canonicalize { path with components := path.components.dropLast } with
    | .ok loc => if d.isDirAt loc then .ok (loc ++ [name]) else .error (.walk .notADirectory)
    | .error err => .error (.walk err)
  | _ => (d.fs.canonicalize path).mapError .walk

end Disk

abbrev DiskM (ε : Type) := EStateM ε Disk

namespace Disk

/-- A new entry, a directory or a link. -/
def make (found : DiskEntry) (path : FilePath) (d : Disk) : Except IoError Disk := do
  let loc ← d.place path
  if (d.entry loc).isSome || loc.isEmpty then .error .alreadyExists
  else change loc (some found) d

def mkdir : FilePath → Disk → Except IoError Disk := make .dir

def symlink (target : FilePath) : FilePath → Disk → Except IoError Disk := make (.link target)

def removeFile (path : FilePath) (d : Disk) : Except IoError Disk := do
  let loc ← d.place path
  if (d.entry loc).isNone then .error (.walk .notFound) else change loc none d

/-- A directory that may be there already. -/
def ensureDir (path : FilePath) (d : Disk) : Except IoError Disk :=
  if d.isDir path then .ok d else mkdir path d

/-- The directory and those above it that are missing; the last component comes first. -/
def createDirs (absolute : Bool) : List PathComponent → DiskM IoError Unit
  | [] => updateWith (ensureDir ⟨absolute, []⟩)
  | comp :: above => fun d =>
    if d.isDir ⟨absolute, (comp :: above).reverse⟩ then .ok () d
    else
      (do
        createDirs absolute above
        updateWith (ensureDir ⟨absolute, (comp :: above).reverse⟩)) d

def createDirAll (path : FilePath) : DiskM IoError Unit :=
  createDirs path.absolute path.components.reverse

def symlinkMetadata (path : FilePath) (d : Disk) : Except IoError DiskEntry := do
  let loc ← d.place path
  if loc.isEmpty then return .dir
  match d.entry loc with
  | some found => return found
  | none => .error (.walk .notFound)

/-- The names in a directory. -/
def readDir (path : FilePath) (d : Disk) : Except IoError (List String) :=
  match d.fs.canonicalize path with
  | .error err => .error (.walk err)
  | .ok dir =>
    if d.isDirAt dir then
      .ok ((d.entries.filter fun held => held.1 ≠ [] ∧ held.1.dropLast = dir).filterMap
        (·.1.getLast?))
    else .error (.walk .notADirectory)

end Disk

namespace FileSystem

variable (fs : FileSystem)

/-- A walk to a file that is made if its directory is there. -/
def openFrom (follow : Location → List PathComponent → Except WalkError Location) :
    Location → List PathComponent → Except WalkError Location
  | loc, [] => .ok loc
  | loc, .parentDir :: rest => openFrom follow loc.dropLast rest
  | loc, .normal name :: rest =>
    match fs.entry (loc ++ [name]) with
    | none => if rest.isEmpty then .ok (loc ++ [name]) else .error .notFound
    | some .dir => openFrom follow (loc ++ [name]) rest
    | some .file => if rest.isEmpty then .ok (loc ++ [name]) else .error .notADirectory
    | some (.link target) => follow (base loc target) (target.components ++ rest)

def openWalk : ℕ → Location → List PathComponent → Except WalkError Location
  | 0 => fs.openFrom fun _ _ => .error .tooManyLinks
  | links + 1 => fs.openFrom (openWalk links)

/-- The place of a file that is opened to be written. -/
def opens (path : FilePath) : Except WalkError Location :=
  fs.openWalk linkBudget (base fs.cwd path) path.components

end FileSystem

namespace Disk

def stored (d : Disk) (text : String) : String :=
  match d.room with
  | some room => String.ofList (text.toList.take room)
  | none => text

/-- `fs::write`: the file is emptied first, and keeps what fits. -/
def write (path : FilePath) (text : String) : DiskM IoError Unit := fun d =>
  match (d.fs.opens path).mapError IoError.walk with
  | .error err => .error err d
  | .ok loc =>
    match change loc (some (.file (d.stored text))) d with
    | .error err => .error err d
    | .ok d' => if d.stored text = text then .ok () d' else .error .full d'

/-! ## What a change keeps -/

def KeepsTexts (d d' : Disk) : Prop :=
  ∀ loc text, d.entry loc = some (.file text) → d'.entry loc = some (.file text)

/-- Every entry stays as it is. -/
structure Extends (d d' : Disk) : Prop where
  cwd : d'.cwd = d.cwd
  entry : ∀ loc found, d.entry loc = some found → d'.entry loc = some found
  refuses : d'.refuses = d.refuses
  room : d'.room = d.room

instance : Std.Refl KeepsTexts := ⟨fun _ _ _ h => h⟩

instance : IsTrans Disk KeepsTexts := ⟨fun _ _ _ h h' loc text held => h' loc text (h loc text held)⟩

instance : Std.Refl Extends := ⟨fun _ => ⟨rfl, fun _ _ h => h, rfl, rfl⟩⟩

instance : IsTrans Disk Extends :=
  ⟨fun _ _ _ h h' => ⟨h'.cwd.trans h.cwd, fun loc found held => h'.entry loc found
    (h.entry loc found held), h'.refuses.trans h.refuses, h'.room.trans h.room⟩⟩

variable {found : Option DiskEntry} {d d' : Disk}

theorem Extends.keepsTexts (h : Extends d d') : KeepsTexts d d' :=
  fun loc text => h.entry loc (.file text)

theorem change_eq_ok {loc : Location} (h : change loc found d = .ok d') :
    ∃ hchanges : d.Changes loc, d.refuses loc = false ∧ d' = d.changed loc found hchanges := by
  unfold change at h
  split at h
  · next hchanges =>
      split at h
      · cases h
      · next hallowed =>
          cases h
          exact ⟨hchanges, by simpa using hallowed, rfl⟩
  · split at h
    · cases h
    · cases h

theorem entry_changed_self {d : Disk} {loc : Location} {found : Option DiskEntry}
    (h : d.Changes loc) : (d.changed loc found h).entry loc = found :=
  lookup_withEntry_self d.entries loc found

theorem entry_changed_of_ne {d : Disk} {loc other : Location} (h : d.Changes loc)
    (hother : other ≠ loc) :
    (d.changed loc found h).entry other = d.entry other :=
  lookup_withEntry_of_ne hother found

/-- An entry is made where there was none. -/
theorem extends_make {found : DiskEntry} {path : FilePath} {d d' : Disk}
    (h : make found path d = .ok d') : Extends d d' := by
  obtain ⟨loc, -, h⟩ := bind_eq_ok h
  split at h
  · cases h
  · next hnew =>
      obtain ⟨hchanges, -, rfl⟩ := change_eq_ok h
      refine ⟨rfl, fun other held hheld => ?_, rfl, rfl⟩
      have hne : other ≠ loc := by
        rintro rfl
        simp [hheld] at hnew
      rw [entry_changed_of_ne hchanges hne, hheld]

theorem keepsTexts_removeFile {path : FilePath} {target : FilePath}
    (hlink : symlinkMetadata path d = .ok (.link target)) (h : removeFile path d = .ok d') :
    KeepsTexts d d' := by
  obtain ⟨loc, hloc, h⟩ := bind_eq_ok h
  have hentry : d.entry loc = some (.link target) := by
    rw [symlinkMetadata, hloc] at hlink
    change (if loc.isEmpty then _ else _) = _ at hlink
    split at hlink
    · cases hlink
    · cases hfound : d.entry loc with
      | none =>
        rw [hfound] at hlink
        cases hlink
      | some found =>
        rw [hfound] at hlink
        cases hlink
        rfl
  split at h
  · cases h
  · obtain ⟨hchanges, -, rfl⟩ := change_eq_ok h
    intro other text held
    have hne : other ≠ loc := by
      rintro rfl
      rw [hentry] at held
      cases held
    rw [entry_changed_of_ne hchanges hne, held]

theorem preserves_ensureDir (path : FilePath) :
    Preserves Extends (updateWith (ensureDir path)) := by
  refine Preserves.updateWith_of (refl_of Extends) fun d d' h => ?_
  unfold ensureDir at h
  split at h
  · cases h
    exact refl_of Extends d
  · exact extends_make h

theorem preserves_createDirs (absolute : Bool) : ∀ comps,
    Preserves Extends (createDirs absolute comps)
  | [] => preserves_ensureDir _
  | comp :: above => by
      have hmake : Preserves Extends (do
          createDirs absolute above
          updateWith (ensureDir ⟨absolute, (comp :: above).reverse⟩)) :=
        (preserves_createDirs absolute above).bind fun _ => preserves_ensureDir _
      intro d
      simp only [leaves, createDirs]
      by_cases hdir : d.isDir ⟨absolute, (comp :: above).reverse⟩ = true
      · rw [if_pos hdir]
        exact refl_of Extends d
      · rw [if_neg hdir]
        exact hmake d

theorem preserves_createDirAll (path : FilePath) : Preserves Extends (createDirAll path) :=
  preserves_createDirs path.absolute _

end Disk

end Direclaw.Lib
