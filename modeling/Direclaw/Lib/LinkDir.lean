import Direclaw.Lib.DiskPaths
import Mathlib.Data.List.Nodup

/-!
# A directory of links

A directory with nothing but links in it, while links are set and removed there. Where the path
of the directory leads does not depend on them; where a path through one of its names leads is
up to the link of that name, and to the links that this one leads through.
-/

namespace Direclaw.Lib

namespace Disk

/-! ## Walks to a place -/

theorem walk_names {fs : FileSystem} {loc : Location} (h : FileSystem.IsPlace fs loc)
    (links : ℕ) : fs.walk false links [] (loc.map .normal) = .ok loc := by
  have hnames : ∀ follow, fs.walkFrom false follow [] (loc.map .normal) = .ok ([] ++ loc) := by
    intro follow
    apply FileSystem.walkFrom_names
    intro before hprefix hne
    right
    rcases h with hdir | hfile
    · exact .inl ((hdir.of_prefix hprefix).resolve_left hne)
    · rcases List.eq_nil_or_concat loc with rfl | ⟨above, name, rfl⟩
      · exact absurd (List.prefix_nil.mp hprefix) hne
      · rw [List.concat_eq_append] at hfile hprefix ⊢
        rcases List.prefix_concat_iff.mp hprefix with rfl | hprefix
        · exact .inr ⟨hfile, rfl⟩
        · have habove : FileSystem.IsDir fs above := fs.parent above name _ hfile
          exact .inl ((habove.of_prefix hprefix).resolve_left hne)
  cases links with
  | zero => exact hnames _
  | succ links => exact hnames _

/-- A path with names below it leads to a directory. -/
theorem isDir_of_walk_name {fs : FileSystem} {name : String} (links : ℕ) :
    ∀ {comps : List PathComponent} {loc found : Location}, FileSystem.IsDir fs loc →
      fs.walk false links loc (comps ++ [.normal name]) = .ok found →
        ∃ dir, fs.walk false links loc comps = .ok dir ∧ FileSystem.IsDir fs dir := by
  induction links using Nat.strongRecOn with
  | ind links ihLinks =>
    intro comps
    induction comps with
    | nil => exact fun {loc _} hloc _ => ⟨loc, walk_nil fs links loc, hloc⟩
    | cons comp comps ih =>
      intro loc found hloc hwalk
      cases comp with
      | parentDir =>
        rw [List.cons_append, walk_parentDir] at hwalk
        rw [walk_parentDir]
        exact ih hloc.dropLast hwalk
      | normal next =>
        rw [List.cons_append, walk_normal] at hwalk
        rw [walk_normal]
        cases hentry : fs.entry (loc ++ [next]) with
        | none =>
          rw [hentry] at hwalk
          cases hwalk
        | some kind =>
          rw [hentry] at hwalk
          cases kind with
          | dir => exact ih (.inr hentry) hwalk
          | file => simp at hwalk
          | link target =>
            cases links with
            | zero => cases hwalk
            | succ links =>
              have hrest : fs.walk false links (FileSystem.base loc target)
                  ((target.components ++ comps) ++ [.normal name]) = .ok found := by
                rw [List.append_assoc]
                exact hwalk
              exact ihLinks links (Nat.lt_succ_self links) (hloc.base target) hrest

variable {loc : Location}

theorem isDir_of_below {d : Disk} {path : FilePath} {name : String}
    (h : d.fs.canonicalize (below path (.normal name)) = .ok loc) : d.isDir path = true := by
  obtain ⟨dir, hwalk, hdir⟩ := isDir_of_walk_name _ (FileSystem.IsDir.base d.fs.cwd_dir path) h
  exact isDir_iff.mpr ⟨dir, hwalk, isDirAt_iff.mpr hdir⟩

theorem createDirAll_of_isDir {d : Disk} {path : FilePath} (h : d.isDir path = true) :
    createDirAll path d = .ok () d := by
  unfold createDirAll
  cases hcomps : path.components.reverse with
  | nil =>
    have hpath : (⟨path.absolute, []⟩ : FilePath) = path := by
      rw [← List.reverse_eq_nil_iff.mp hcomps]
    simp only [createDirs, updateWith, ensureDir, hpath, h, if_true]
  | cons comp above =>
    have hpath : (⟨path.absolute, (comp :: above).reverse⟩ : FilePath) = path := by
      rw [← hcomps, List.reverse_reverse]
    simp only [createDirs, hpath, h, if_true]

/-! ## Setting an entry -/

/-- The disk with an entry set, if it can be there. -/
def relink (d : Disk) (loc : Location) (found : Option DiskEntry) : Disk :=
  if h : d.Changes loc then d.changed loc found h else d

theorem relink_eq {d : Disk} (h : d.Changes loc) (found : Option DiskEntry) :
    d.relink loc found = d.changed loc found h := dif_pos h

theorem entry_relink_of_ne (d : Disk) {loc other : Location} (h : other ≠ loc)
    (found : Option DiskEntry) : (d.relink loc found).entry other = d.entry other := by
  unfold relink
  split
  · next hchanges => exact entry_changed_of_ne hchanges h
  · rfl

@[simp] theorem relink_refuses (d : Disk) (loc : Location) (found : Option DiskEntry) :
    (d.relink loc found).refuses = d.refuses := by
  unfold relink
  split
  · rfl
  · rfl

@[simp] theorem relink_cwd (d : Disk) (loc : Location) (found : Option DiskEntry) :
    (d.relink loc found).cwd = d.cwd := by
  unfold relink
  split
  · rfl
  · rfl

/-- An entry that is removed and made again is replaced. -/
theorem changed_changed {d : Disk} (h : d.Changes loc) (found again : Option DiskEntry)
    (h' : (d.changed loc found h).Changes loc) :
    (d.changed loc found h).changed loc again h' = d.changed loc again h := by
  have hentries : withEntry (withEntry d.entries loc found) loc again =
      withEntry d.entries loc again := by
    have hfilter : (withEntry d.entries loc found).filter (·.1 ≠ loc) =
        d.entries.filter (·.1 ≠ loc) := by
      cases found with
      | none => simp [withEntry, List.filter_filter]
      | some found => simp [withEntry, List.filter_filter]
    cases again with
    | none => exact hfilter
    | some again => exact congrArg (List.cons (loc, again)) hfilter
  simp only [changed, hentries]

theorem nodup_withEntry {entries : List (Location × DiskEntry)}
    (h : (entries.map Prod.fst).Nodup) (loc : Location) (found : Option DiskEntry) :
    ((withEntry entries loc found).map Prod.fst).Nodup := by
  have hfilter : ((entries.filter (·.1 ≠ loc)).map Prod.fst).Nodup :=
    h.sublist (List.filter_sublist.map _)
  cases found with
  | none => exact hfilter
  | some found =>
    refine List.nodup_cons.mpr ⟨fun hmem => ?_, hfilter⟩
    obtain ⟨held, hheld, heq⟩ := List.mem_map.mp hmem
    exact absurd heq (by simpa using (List.mem_filter.mp hheld).2)

/-! ## The links of a directory -/

/-- The disks that differ in the links of a directory only. -/
structure Relinked (dir : Location) (d d' : Disk) : Prop where
  cwd : d'.cwd = d.cwd
  refuses : d'.refuses = d.refuses
  elsewhere : ∀ loc, (∀ name, loc ≠ dir ++ [name]) → d'.entry loc = d.entry loc
  links : ∀ name found, d'.entry (dir ++ [name]) = some found → ∃ target, found = .link target
  listed : (d'.entries.map Prod.fst).Nodup

theorem Relinked.trans {dir : Location} {d d' d'' : Disk} (h : Relinked dir d d')
    (h' : Relinked dir d' d'') : Relinked dir d d'' :=
  ⟨h'.cwd.trans h.cwd, h'.refuses.trans h.refuses,
    fun loc hloc => (h'.elsewhere loc hloc).trans (h.elsewhere loc hloc), h'.links, h'.listed⟩

/-- A path that leads to a directory of links, whatever links there are, and leaves a link to be
followed. -/
structure LinkDir (path : FilePath) (dir : Location) (d : Disk) : Prop where
  isDir : d.isDirAt dir = true
  links : ∀ name found, d.entry (dir ++ [name]) = some found → ∃ target, found = .link target
  listed : (d.entries.map Prod.fst).Nodup
  leads : ∀ d', Relinked dir d d' →
    d'.fs.walk false (FileSystem.linkBudget - 1) (FileSystem.base d'.cwd path) path.components =
      .ok dir

section LinkDir

variable {path : FilePath} {dir : Location} {d d' : Disk}

theorem LinkDir.refl (h : LinkDir path dir d) : Relinked dir d d :=
  ⟨rfl, rfl, fun _ _ => rfl, h.links, h.listed⟩

theorem isDirAt_of_relinked (hdir : d.isDirAt dir = true) (h : Relinked dir d d') :
    d'.isDirAt dir = true := by
  rcases of_decide_eq_true hdir with hnil | hentry
  · exact decide_eq_true (.inl hnil)
  · refine decide_eq_true (.inr ?_)
    rw [h.elsewhere dir fun name heq => ?_]
    · exact hentry
    · exact absurd (congrArg List.length heq) (by simp)

theorem LinkDir.relinked (h : LinkDir path dir d) (h' : Relinked dir d d') :
    LinkDir path dir d' :=
  ⟨isDirAt_of_relinked h.isDir h', h'.links, h'.listed, fun d'' h'' => h.leads d'' (h'.trans h'')⟩

theorem LinkDir.changes (h : LinkDir path dir d) (name : String) : d.Changes (dir ++ [name]) := by
  refine ⟨by simp, ?_, fun hentry => ?_⟩
  · rw [List.dropLast_concat]
    exact h.isDir
  · obtain ⟨target, heq⟩ := h.links name .dir hentry
    cases heq

/-- Only the links of the directory change when one of them is set or removed. -/
theorem LinkDir.relinked_relink (h : LinkDir path dir d) (name : String)
    (target : Option FilePath) :
    Relinked dir d (d.relink (dir ++ [name]) (target.map .link)) := by
  refine ⟨relink_cwd .., relink_refuses .., fun loc hloc => entry_relink_of_ne d (hloc name) _,
    fun other found hfound => ?_, ?_⟩
  · rw [relink_eq (h.changes name)] at hfound
    by_cases heq : other = name
    · rw [heq, entry_changed_self] at hfound
      obtain ⟨held, -, hlink⟩ := Option.map_eq_some_iff.mp hfound
      exact ⟨held, hlink.symm⟩
    · rw [entry_changed_of_ne _ (by simpa using heq)] at hfound
      exact h.links other found hfound
  · rw [relink_eq (h.changes name)]
    exact nodup_withEntry h.listed _ _

theorem LinkDir.relinked_remove (h : LinkDir path dir d) (name : String) :
    Relinked dir d (d.relink (dir ++ [name]) none) := h.relinked_relink name none

/-- The path leads to the directory, and a name below it goes on from there. -/
theorem LinkDir.walks (h : LinkDir path dir d) :
    d.fs.canonicalize path = .ok dir ∧ ∃ left, ∀ name,
      d.fs.canonicalize (below path (.normal name)) =
        d.fs.walk false (left + 1) dir [.normal name] := by
  obtain ⟨left, hleft⟩ := walk_append_spare (isDirAt_iff.mp h.isDir) _ (h.leads d h.refl)
  refine ⟨?_, left, fun name => hleft 1 [.normal name]⟩
  have hpath := hleft 1 []
  rw [List.append_nil, walk_nil] at hpath
  exact hpath

theorem LinkDir.place (h : LinkDir path dir d) (name : String) :
    d.place (below path (.normal name)) = .ok (dir ++ [name]) := by
  have hpath : (⟨path.absolute, path.components⟩ : FilePath) = path := rfl
  simp only [Disk.place, below, List.getLast?_concat, List.dropLast_concat, hpath, h.walks.1,
    h.isDir, if_true]

theorem LinkDir.symlinkMetadata (h : LinkDir path dir d) (name : String) :
    symlinkMetadata (below path (.normal name)) d = match d.entry (dir ++ [name]) with
      | some found => .ok found
      | none => .error (.walk .notFound) := by
  unfold Disk.symlinkMetadata
  rw [h.place]
  show (if (dir ++ [name]).isEmpty then _ else _) = _
  rw [if_neg (by simp)]
  cases d.entry (dir ++ [name]) with
  | none => rfl
  | some found => rfl

variable {name : String} {loc : Location}

theorem LinkDir.pathExists_of_none (h : LinkDir path dir d)
    (hentry : d.entry (dir ++ [name]) = none) :
    d.pathExists (below path (.normal name)) = false := by
  obtain ⟨left, hleft⟩ := h.walks.2
  have hkind : d.fs.entry (dir ++ [name]) = none := by
    change (d.entry (dir ++ [name])).map DiskEntry.kind = none
    rw [hentry]
    rfl
  rw [pathExists, hleft, walk_normal, hkind]
  rfl

/-- A link by the names of a place leads to the place. -/
theorem LinkDir.canonicalize_of_link (h : LinkDir path dir d)
    (hentry : d.entry (dir ++ [name]) = some (.link (.ofLocation loc)))
    (hloc : FileSystem.IsPlace d.fs loc) :
    d.fs.canonicalize (below path (.normal name)) = .ok loc := by
  obtain ⟨left, hleft⟩ := h.walks.2
  have hkind : d.fs.entry (dir ++ [name]) = some (.link (.ofLocation loc)) :=
    Option.map_eq_some_iff.mpr ⟨_, hentry, rfl⟩
  rw [hleft, walk_normal, hkind]
  show d.fs.walk false left [] (loc.map .normal ++ []) = .ok loc
  rw [List.append_nil]
  exact walk_names hloc left

theorem isPlace_of_relinked (hlinks : ∀ name found, d.entry (dir ++ [name]) = some found →
      ∃ target, found = .link target) (h : Relinked dir d d') {loc : Location}
    (hloc : FileSystem.IsPlace d.fs loc) : FileSystem.IsPlace d'.fs loc := by
  have hkeep {kind : FileEntry} (hkind : ∀ target, kind ≠ .link target)
      (hentry : d.fs.entry loc = some kind) : d'.fs.entry loc = some kind := by
    obtain ⟨held, hheld, rfl⟩ := Option.map_eq_some_iff.mp hentry
    have hother : ∀ name, loc ≠ dir ++ [name] := by
      rintro name rfl
      obtain ⟨target, rfl⟩ := hlinks name held hheld
      exact hkind target rfl
    exact Option.map_eq_some_iff.mpr ⟨held, (h.elsewhere loc hother).trans hheld, rfl⟩
  rcases hloc with (hnil | hdir) | hfile
  · exact .inl (.inl hnil)
  · exact .inl (.inr (hkeep nofun hdir))
  · exact .inr (hkeep nofun hfile)

/-- By the names of the directory no link of it is followed. -/
theorem linkDir_of_names (hdir : d.isDirAt dir = true)
    (hlinks : ∀ name found, d.entry (dir ++ [name]) = some found → ∃ target, found = .link target)
    (hlisted : (d.entries.map Prod.fst).Nodup) : LinkDir (.ofLocation dir) dir d := by
  refine ⟨hdir, hlinks, hlisted, fun d' h => ?_⟩
  have hplace : FileSystem.IsPlace d'.fs dir :=
    .inl (isDirAt_iff.mp (isDirAt_of_relinked hdir h))
  exact walk_names hplace _

theorem LinkDir.symlink_ok_iff (h : LinkDir path dir d) {target : FilePath} :
    symlink target (below path (.normal name)) d = .ok d' ↔
      d.entry (dir ++ [name]) = none ∧ d.refuses (dir ++ [name]) = false ∧
        d' = d.relink (dir ++ [name]) (some (.link target)) := by
  have hrun : symlink target (below path (.normal name)) d =
      if (d.entry (dir ++ [name])).isSome || (dir ++ [name]).isEmpty then .error .alreadyExists
      else change (dir ++ [name]) (some (.link target)) d := by
    unfold symlink make
    rw [h.place]
    rfl
  rw [hrun, relink_eq (h.changes name)]
  cases hentry : d.entry (dir ++ [name]) with
  | some found => simp
  | none =>
    have hchange : change (dir ++ [name]) (some (.link target)) d =
        if d.refuses (dir ++ [name]) then .error .refused
        else .ok (d.changed (dir ++ [name]) (some (.link target)) (h.changes name)) :=
      dif_pos (h.changes name)
    cases hrefuses : d.refuses (dir ++ [name]) with
    | true => simp [hchange, hrefuses]
    | false => simp [hchange, hrefuses, @eq_comm _ d']

theorem LinkDir.removeFile_ok_iff (h : LinkDir path dir d) :
    removeFile (below path (.normal name)) d = .ok d' ↔
      (d.entry (dir ++ [name])).isSome ∧ d.refuses (dir ++ [name]) = false ∧
        d' = d.relink (dir ++ [name]) none := by
  have hrun : removeFile (below path (.normal name)) d =
      if (d.entry (dir ++ [name])).isNone then .error (.walk .notFound)
      else change (dir ++ [name]) none d := by
    unfold removeFile
    rw [h.place]
    rfl
  rw [hrun, relink_eq (h.changes name)]
  cases hentry : d.entry (dir ++ [name]) with
  | none => simp
  | some found =>
    have hchange : change (dir ++ [name]) none d =
        if d.refuses (dir ++ [name]) then .error .refused
        else .ok (d.changed (dir ++ [name]) none (h.changes name)) := dif_pos (h.changes name)
    cases hrefuses : d.refuses (dir ++ [name]) with
    | true => simp [hchange, hrefuses]
    | false => simp [hchange, hrefuses, @eq_comm _ d']

/-- A link that is removed and made again. -/
theorem LinkDir.relink_relink (h : LinkDir path dir d) (name : String)
    (found : Option DiskEntry) :
    (d.relink (dir ++ [name]) none).relink (dir ++ [name]) found =
      d.relink (dir ++ [name]) found := by
  have hremoved := (h.relinked (h.relinked_remove name)).changes name
  rw [relink_eq (h.changes name)] at hremoved
  rw [relink_eq (h.changes name), relink_eq (h.changes name), relink_eq hremoved, changed_changed]

/-! ## The names in a directory -/

def namesIn (d : Disk) (dir : Location) : List String :=
  (d.entries.filter fun held => held.1 ≠ [] ∧ held.1.dropLast = dir).filterMap (·.1.getLast?)

theorem LinkDir.readDir (h : LinkDir path dir d) : readDir path d = .ok (namesIn d dir) := by
  unfold Disk.readDir
  rw [h.walks.1]
  simp only [h.isDir, if_true]
  rfl

theorem mem_namesIn : name ∈ namesIn d dir ↔ ∃ found, (dir ++ [name], found) ∈ d.entries := by
  unfold namesIn
  rw [List.mem_filterMap]
  constructor
  · rintro ⟨held, hheld, hlast⟩
    obtain ⟨hmem, hdir⟩ := List.mem_filter.mp hheld
    obtain ⟨hne, hdrop⟩ := of_decide_eq_true hdir
    refine ⟨held.2, ?_⟩
    obtain ⟨above, habove⟩ := List.getLast?_eq_some_iff.mp hlast
    rw [habove, List.dropLast_concat] at hdrop
    rw [← hdrop, ← habove]
    exact hmem
  · rintro ⟨found, hmem⟩
    exact ⟨_, List.mem_filter.mpr ⟨hmem, by simp⟩, by simp⟩

theorem isSome_entry_iff : (d.entry loc).isSome ↔ ∃ found, (loc, found) ∈ d.entries := by
  unfold entry
  constructor
  · intro h
    obtain ⟨found, hfound⟩ := Option.isSome_iff_exists.mp h
    obtain ⟨before, after, hsplit, -⟩ := List.lookup_eq_some_iff.mp hfound
    exact ⟨found, hsplit ▸ List.mem_append_right _ List.mem_cons_self⟩
  · rintro ⟨found, hmem⟩
    by_contra hnone
    have hlookup := List.lookup_eq_none_iff.mp (Option.not_isSome_iff_eq_none.mp hnone) _ hmem
    simp at hlookup

theorem mem_namesIn_iff_entry :
    name ∈ namesIn d dir ↔ (d.entry (dir ++ [name])).isSome :=
  mem_namesIn.trans isSome_entry_iff.symm

theorem LinkDir.nodup_namesIn (h : LinkDir path dir d) : (namesIn d dir).Nodup := by
  unfold namesIn
  apply List.Nodup.of_map (dir ++ [·])
  rw [List.map_filterMap]
  have hplaces : (d.entries.filter fun held => held.1 ≠ [] ∧ held.1.dropLast = dir).filterMap
      (fun held => held.1.getLast?.map (dir ++ [·])) =
        (d.entries.filter fun held => held.1 ≠ [] ∧ held.1.dropLast = dir).map Prod.fst := by
    rw [← List.filterMap_eq_map]
    refine List.filterMap_congr fun held hheld => ?_
    obtain ⟨hne, hdrop⟩ := of_decide_eq_true (List.mem_filter.mp hheld).2
    rw [← hdrop, List.getLast?_eq_some_getLast hne]
    exact congrArg some (List.dropLast_concat_getLast hne)
  rw [hplaces]
  exact h.listed.sublist (List.filter_sublist.map _)

end LinkDir

end Disk

end Direclaw.Lib
