import Direclaw.Lib.Disk

/-!
# Paths on a changing disk

What a path leads to stays so while entries are only added. A missing file is still
missing when its directory is made, as long as its path goes by names from a directory
that exists.
-/

namespace Direclaw.Lib

namespace Disk

/-! ## Walks on a larger disk -/

theorem Extends.kind {d d' : Disk} (h : Extends d d') {loc : Location} {found : FileEntry}
    (hentry : d.fs.entry loc = some found) : d'.fs.entry loc = some found := by
  obtain ⟨held, hheld, hkind⟩ := Option.map_eq_some_iff.mp hentry
  exact Option.map_eq_some_iff.mpr ⟨held, h.entry loc held hheld, hkind⟩

variable {path : FilePath}
  {follow follow' : Location → List PathComponent → Except WalkError Location} {loc : Location}
  {d d' : Disk} {found : Location}

theorem Extends.canonicalize (h : Extends d d')
    (hpath : d.fs.canonicalize path = .ok loc) : d'.fs.canonicalize path = .ok loc := by
  have hcwd : d'.fs.cwd = d.fs.cwd := h.cwd
  unfold FileSystem.canonicalize at hpath ⊢
  rw [hcwd]
  exact FileSystem.walk_mono (fun _ _ hentry => h.kind hentry) _ _ _ _ hpath

theorem openFrom_of_walkFrom {fs : FileSystem}
    (hfollow : ∀ loc rest found, follow loc rest = .ok found → follow' loc rest = .ok found)
    (comps : List PathComponent) :
    ∀ {loc : Location}, fs.walkFrom false follow loc comps = .ok found →
      fs.openFrom follow' loc comps = .ok found := by
  induction comps with
  | nil =>
    intro loc hwalk
    exact hwalk
  | cons comp rest ih =>
    intro loc hwalk
    cases comp with
    | parentDir => exact ih hwalk
    | normal name =>
      simp only [FileSystem.walkFrom, FileSystem.openFrom] at hwalk ⊢
      cases hentry : fs.entry (loc ++ [name]) with
      | none =>
        rw [hentry] at hwalk
        cases hwalk
      | some found =>
        rw [hentry] at hwalk
        cases found with
        | dir => exact ih hwalk
        | file => exact hwalk
        | link target => exact hfollow _ _ _ hwalk

theorem opens_of_canonicalize {fs : FileSystem} {path : FilePath} {loc : Location}
    (hpath : fs.canonicalize path = .ok loc) : fs.opens path = .ok loc := by
  have hwalk : ∀ (links : ℕ) (start : Location) (comps : List PathComponent) (found : Location),
      fs.walk false links start comps = .ok found → fs.openWalk links start comps = .ok found := by
    intro links
    induction links with
    | zero =>
      intro start comps found
      exact openFrom_of_walkFrom (fun _ _ _ h => by cases h) comps
    | succ links ih =>
      intro start comps found
      exact openFrom_of_walkFrom ih comps
  exact hwalk _ _ _ _ hpath

theorem openFrom_cases {fs : FileSystem}
    {follow follow' : Location → List PathComponent → Except WalkError Location}
    (hfollow : ∀ loc rest found, follow' loc rest = .ok found →
      follow loc rest = .ok found ∨ fs.entry found = none)
    {found : Location} (comps : List PathComponent) :
    ∀ {loc : Location}, fs.openFrom follow' loc comps = .ok found →
      fs.walkFrom false follow loc comps = .ok found ∨ fs.entry found = none := by
  induction comps with
  | nil =>
    intro loc hwalk
    exact .inl hwalk
  | cons comp rest ih =>
    intro loc hwalk
    cases comp with
    | parentDir => exact ih hwalk
    | normal name =>
      simp only [FileSystem.walkFrom, FileSystem.openFrom] at hwalk ⊢
      cases hentry : fs.entry (loc ++ [name]) with
      | none =>
        simp only [hentry] at hwalk
        cases hrest : rest.isEmpty with
        | true =>
          simp only [hrest, if_true] at hwalk
          cases hwalk
          exact .inr hentry
        | false =>
          simp only [hrest] at hwalk
          cases hwalk
      | some found =>
        rw [hentry] at hwalk
        cases found with
        | dir => exact ih hwalk
        | file => exact .inl hwalk
        | link target => exact hfollow _ _ _ hwalk

/-- A file that is opened exists, or is made where there was nothing. -/
theorem opens_cases {fs : FileSystem} {path : FilePath} {loc : Location}
    (hpath : fs.opens path = .ok loc) : fs.canonicalize path = .ok loc ∨ fs.entry loc = none := by
  have hwalk : ∀ (links : ℕ) (start : Location) (comps : List PathComponent) (found : Location),
      fs.openWalk links start comps = .ok found →
        fs.walk false links start comps = .ok found ∨ fs.entry found = none := by
    intro links
    induction links with
    | zero =>
      intro start comps found
      exact openFrom_cases (fun _ _ _ h => by cases h) comps
    | succ links ih =>
      intro start comps found
      exact openFrom_cases ih comps
  exact hwalk _ _ _ _ hpath

/-! ## Below a directory -/

theorem walk_normal (fs : FileSystem) (links : ℕ) (loc : Location) (name : String)
    (rest : List PathComponent) :
    fs.walk false links loc (.normal name :: rest) = match fs.entry (loc ++ [name]) with
      | none => .error .notFound
      | some .dir => fs.walk false links (loc ++ [name]) rest
      | some .file => if rest.isEmpty then .ok (loc ++ [name]) else .error .notADirectory
      | some (.link target) => match links with
          | 0 => .error .tooManyLinks
          | links + 1 =>
            fs.walk false links (FileSystem.base loc target) (target.components ++ rest) := by
  cases links with
  | zero =>
    simp only [FileSystem.walk, FileSystem.walkFrom]
    cases fs.entry (loc ++ [name]) with
    | none => rfl
    | some found => cases found <;> rfl
  | succ links =>
    simp only [FileSystem.walk, FileSystem.walkFrom]
    cases fs.entry (loc ++ [name]) with
    | none => rfl
    | some found => cases found <;> rfl

theorem walk_parentDir (fs : FileSystem) (links : ℕ) (loc : Location)
    (rest : List PathComponent) :
    fs.walk false links loc (.parentDir :: rest) = fs.walk false links loc.dropLast rest := by
  cases links <;> rfl

theorem walk_nil (fs : FileSystem) (links : ℕ) (loc : Location) :
    fs.walk false links loc [] = .ok loc := by
  cases links <;> rfl

/-- A walk to a directory goes on from there, and what it need not follow is left to the rest. -/
theorem walk_append_spare {fs : FileSystem} {dir : Location} (hdir : FileSystem.IsDir fs dir)
    (links : ℕ) : ∀ {comps : List PathComponent} {loc : Location},
      fs.walk false links loc comps = .ok dir →
        ∃ left, ∀ extra rest, fs.walk false (links + extra) loc (comps ++ rest) =
          fs.walk false (left + extra) dir rest := by
  induction links using Nat.strongRecOn with
  | ind links ihLinks =>
    intro comps
    induction comps with
    | nil =>
      intro loc hwalk
      rw [walk_nil] at hwalk
      cases hwalk
      exact ⟨links, fun extra rest => rfl⟩
    | cons comp comps ih =>
      intro loc hwalk
      cases comp with
      | parentDir =>
        rw [walk_parentDir] at hwalk
        obtain ⟨left, hleft⟩ := ih hwalk
        refine ⟨left, fun extra rest => ?_⟩
        rw [List.cons_append, walk_parentDir, hleft]
      | normal name =>
        rw [walk_normal] at hwalk
        cases hentry : fs.entry (loc ++ [name]) with
        | none =>
          rw [hentry] at hwalk
          cases hwalk
        | some found =>
          simp only [hentry] at hwalk
          cases found with
          | dir =>
            obtain ⟨left, hleft⟩ := ih hwalk
            refine ⟨left, fun extra rest => ?_⟩
            rw [List.cons_append, walk_normal, hentry]
            exact hleft extra rest
          | file =>
            -- a walk that ends at a file does not end at a directory
            simp only at hwalk
            split at hwalk
            · cases hwalk
              rcases hdir with hnil | hdir
              · simp at hnil
              · rw [hentry] at hdir
                cases hdir
            · cases hwalk
          | link target =>
            cases links with
            | zero => cases hwalk
            | succ links =>
              obtain ⟨left, hleft⟩ := ihLinks links (Nat.lt_succ_self links) hwalk
              refine ⟨left, fun extra rest => ?_⟩
              rw [List.cons_append, walk_normal, hentry, Nat.succ_add]
              show fs.walk false (links + extra) _ _ = _
              rw [← hleft, List.append_assoc]

/-- A path with a component more. -/
def below (path : FilePath) (comp : PathComponent) : FilePath :=
  { path with components := path.components ++ [comp] }

theorem isDirAt_iff : d.isDirAt loc = true ↔ FileSystem.IsDir d.fs loc := by
  rw [isDirAt, decide_eq_true_iff]
  refine or_congr_right ?_
  change _ ↔ (d.entry loc).map DiskEntry.kind = some .dir
  cases d.entry loc with
  | none => simp
  | some found => cases found <;> simp [DiskEntry.kind]

theorem isDir_iff :
    d.isDir path = true ↔ ∃ loc, d.fs.canonicalize path = .ok loc ∧ d.isDirAt loc = true := by
  unfold isDir
  cases d.fs.canonicalize path with
  | ok loc => simp
  | error err => simp

theorem Extends.isDirAt {d d' : Disk} (h : Extends d d') {loc : Location}
    (hdir : d.isDirAt loc = true) : d'.isDirAt loc = true := by
  simp only [Disk.isDirAt, decide_eq_true_iff] at hdir ⊢
  exact hdir.imp_right (h.entry loc .dir)

theorem Extends.isDir (h : Extends d d') (hdir : d.isDir path = true) : d'.isDir path = true := by
  obtain ⟨loc, hpath, hloc⟩ := isDir_iff.mp hdir
  exact isDir_iff.mpr ⟨loc, h.canonicalize hpath, h.isDirAt hloc⟩

theorem canonicalize_below {dir : Location} (hpath : d.fs.canonicalize path = .ok dir)
    (hdir : d.isDirAt dir = true) (name : String) :
    ∃ left, d.fs.canonicalize (below path (.normal name)) =
      d.fs.walk false left dir [.normal name] := by
  obtain ⟨left, hleft⟩ := walk_append_spare (isDirAt_iff.mp hdir) _ hpath
  exact ⟨left, hleft 0 [.normal name]⟩

/-- A directory with nothing in it. -/
structure EmptyDir (d : Disk) (path : FilePath) (loc : Location) : Prop where
  leads : d.fs.canonicalize path = .ok loc
  dir : d.isDirAt loc = true
  empty : ∀ name, d.entry (loc ++ [name]) = none

theorem EmptyDir.not_found {d : Disk} {path : FilePath} {loc : Location} (h : d.EmptyDir path loc)
    (name : String) : d.fs.canonicalize (below path (.normal name)) = .error .notFound := by
  obtain ⟨left, hleft⟩ := canonicalize_below h.leads h.dir name
  have hentry : d.fs.entry (loc ++ [name]) = none := by
    change (d.entry (loc ++ [name])).map DiskEntry.kind = none
    rw [h.empty name]
    rfl
  simp only [hleft, walk_normal, hentry]

/-- A directory is made empty. -/
theorem emptyDir_mkdir {above : FilePath} {name : String}
    (h : mkdir (below above (.normal name)) d = .ok d') :
    ∃ loc, d'.EmptyDir (below above (.normal name)) loc := by
  have hextends : Extends d d' := extends_make h
  obtain ⟨loc, hloc, h⟩ := bind_eq_ok h
  split at h
  · cases h
  · next hnew =>
      obtain ⟨hchanges, -, rfl⟩ := change_eq_ok h
      have hnone : d.entry loc = none := by
        cases hentry : d.entry loc with
        | none => rfl
        | some _ => simp [hentry] at hnew
      unfold place below at hloc
      simp only [List.getLast?_append, List.getLast?_singleton, Option.some_or,
        List.dropLast_concat] at hloc
      cases habove : d.fs.canonicalize above with
      | error err =>
        rw [habove] at hloc
        cases hloc
      | ok dir =>
        simp only [habove] at hloc
        split at hloc
        · next hdir =>
            cases hloc
            have hself : (d.changed _ _ hchanges).entry (dir ++ [name]) = some .dir :=
              entry_changed_self hchanges
            refine ⟨dir ++ [name], ?_, ?_, fun child => ?_⟩
            · obtain ⟨left, hleft⟩ := canonicalize_below (hextends.canonicalize habove)
                (hextends.isDirAt hdir) name
              have hkind : (d.changed _ _ hchanges).fs.entry (dir ++ [name]) = some .dir :=
                Option.map_eq_some_iff.mpr ⟨.dir, hself, rfl⟩
              simp only [hleft, walk_normal, hkind, walk_nil]
            · simp [isDirAt, hself]
            · rw [entry_changed_of_ne hchanges (by simp)]
              cases hchild : d.entry (dir ++ [name] ++ [child]) with
              | none => rfl
              | some held =>
                have hparent := d.parent _ _ _ hchild
                rcases hparent with hnil | hdir
                · simp at hnil
                · rw [entry] at hnone
                  rw [hnone] at hdir
                  cases hdir
        · cases hloc

theorem below_rev (absolute : Bool) (comp : PathComponent) (above : List PathComponent) :
    (⟨absolute, (comp :: above).reverse⟩ : FilePath) = below ⟨absolute, above.reverse⟩ comp := by
  simp [below]

theorem createDirs_below {absolute : Bool} {base : List PathComponent}
    (hbase : d.isDir ⟨absolute, base.reverse⟩ = true) : ∀ (names : Location) {d' : Disk},
      createDirs absolute (names.map PathComponent.normal ++ base) d = .ok () d' →
        d' = d ∨ ∃ loc, d'.EmptyDir ⟨absolute, (names.map PathComponent.normal ++ base).reverse⟩ loc := by
  intro names
  induction names with
  | nil =>
    intro d' h
    left
    cases base with
    | nil =>
      simp only [List.map_nil, List.nil_append, createDirs, updateWith, ensureDir] at h
      rw [List.reverse_nil] at hbase
      rw [if_pos hbase] at h
      cases h
      rfl
    | cons comp above =>
      simp only [List.map_nil, List.nil_append, createDirs] at h
      rw [if_pos hbase] at h
      cases h
      rfl
  | cons name names ih =>
    intro d' h
    rw [List.map_cons, List.cons_append] at h
    simp only [createDirs] at h
    split at h
    · cases h
      exact .inl rfl
    · next hmissing =>
        right
        cases habove : createDirs absolute (names.map PathComponent.normal ++ base) d with
        | error err d₁ =>
          rw [bind_of_error habove] at h
          cases h
        | ok _ d₁ =>
          rw [bind_of_ok habove] at h
          simp only [updateWith, ensureDir, below_rev] at h
          have hnot : d₁.isDir (below ⟨absolute, (names.map PathComponent.normal ++ base).reverse⟩
              (.normal name)) = false := by
            rcases ih habove with rfl | ⟨loc, hempty⟩
            · rw [← below_rev]
              simpa using hmissing
            · unfold isDir
              rw [hempty.not_found]
          rw [hnot] at h
          cases hmake : mkdir (below ⟨absolute, (names.map PathComponent.normal ++ base).reverse⟩
              (.normal name)) d₁ with
          | error err =>
            rw [if_neg (by simp), hmake] at h
            cases h
          | ok d₂ =>
            rw [if_neg (by simp), hmake] at h
            cases h
            rw [List.map_cons, List.cons_append, below_rev]
            exact emptyDir_mkdir hmake

/-- Below a directory by names, a missing file is still missing when its directory is made. -/
theorem missing_createDirAll {base : FilePath} (hbase : d.isDir base = true) {names : Location}
    {name : String} (hmissing : d.pathExists (below (base.names names) (.normal name)) = false)
    (h : createDirAll (base.names names) d = .ok () d') :
    d'.pathExists (below (base.names names) (.normal name)) = false := by
  have hrev : (base.components ++ names.map PathComponent.normal).reverse =
      names.reverse.map .normal ++ base.components.reverse := by
    rw [List.reverse_append, List.map_reverse]
  rw [createDirAll, FilePath.names, hrev] at h
  have hdir : d.isDir ⟨base.absolute, base.components.reverse.reverse⟩ = true := by
    rw [List.reverse_reverse]
    exact hbase
  rcases createDirs_below hdir names.reverse h with rfl | ⟨loc, hempty⟩
  · exact hmissing
  · rw [← hrev, List.reverse_reverse] at hempty
    rw [pathExists, FilePath.names, hempty.not_found]
    rfl

/-- A directory is there once it is made. -/
theorem isDir_ensureDir (h : ensureDir path d = .ok d') : d'.isDir path = true := by
  unfold ensureDir at h
  split at h
  · next hdir =>
      cases h
      exact hdir
  · rcases List.eq_nil_or_concat path.components with hnil | ⟨above, comp, hcomps⟩
    · -- the path is a directory already
      exfalso
      obtain ⟨loc, hloc, h⟩ := bind_eq_ok h
      have hcwd : d.fs.canonicalize path = .ok (FileSystem.base d.cwd path) := by
        rw [FileSystem.canonicalize, hnil]
        rfl
      have hdir : d.isDir path = true := by
        refine isDir_iff.mpr ⟨_, hcwd, isDirAt_iff.mpr ?_⟩
        exact FileSystem.IsDir.base d.fs.cwd_dir path
      contradiction
    · have hpath : path = below { path with components := above } comp := by
        cases path
        simp_all [below]
      cases comp with
      | normal name =>
        rw [hpath] at h ⊢
        obtain ⟨loc, hempty⟩ := emptyDir_mkdir h
        exact isDir_iff.mpr ⟨loc, hempty.leads, hempty.dir⟩
      | parentDir =>
        -- what a path with dots at its end leads to exists
        exfalso
        obtain ⟨loc, hloc, h⟩ := bind_eq_ok h
        unfold place at hloc
        rw [hcomps, List.concat_eq_append, List.getLast?_concat] at hloc
        have hcanonical := mapError_eq_ok hloc
        split at h
        · cases h
        · next hnew =>
            rcases FileSystem.isPlace_canonicalize hcanonical with (rfl | hentry) | hentry
            · simp at hnew
            · obtain ⟨held, hheld, -⟩ := Option.map_eq_some_iff.mp hentry
              simp [hheld] at hnew
            · obtain ⟨held, hheld, -⟩ := Option.map_eq_some_iff.mp hentry
              simp [hheld] at hnew

theorem isDir_createDirAll (h : createDirAll path d = .ok () d') : d'.isDir path = true := by
  have hensure : ∀ {comps : List PathComponent} {d : Disk},
      updateWith (ensureDir ⟨path.absolute, comps⟩) d = .ok () d' →
        d'.isDir ⟨path.absolute, comps⟩ = true := by
    intro comps d h
    unfold updateWith at h
    cases hmake : ensureDir ⟨path.absolute, comps⟩ d with
    | error err =>
      rw [hmake] at h
      cases h
    | ok d₁ =>
      rw [hmake] at h
      cases h
      exact isDir_ensureDir hmake
  have hdirs : ∀ comps, createDirs path.absolute comps d = .ok () d' →
      d'.isDir ⟨path.absolute, comps.reverse⟩ = true := by
    intro comps h
    cases comps with
    | nil => exact hensure h
    | cons comp above =>
      simp only [createDirs] at h
      split at h
      · next hdir =>
          cases h
          exact hdir
      · cases habove : createDirs path.absolute above d with
        | error err d₁ =>
          rw [bind_of_error habove] at h
          cases h
        | ok _ d₁ =>
          rw [bind_of_ok habove] at h
          exact hensure h
  have hpath := hdirs _ h
  rwa [List.reverse_reverse] at hpath

/-! ## Writing -/

theorem changes_of_file {text : String} (h : d.entry loc = some (.file text)) : d.Changes loc := by
  have hproper : loc ≠ [] := by
    rintro rfl
    exact absurd (h.symm.trans d.root) (by simp)
  refine ⟨hproper, ?_, by simp [h]⟩
  have hsplit := List.dropLast_concat_getLast hproper
  rw [← hsplit] at h
  exact decide_eq_true (d.parent _ _ _ h)

theorem write_existing {old : String} (hpath : d.fs.canonicalize path = .ok loc)
    (hold : d.entry loc = some (.file old)) (text : String) :
    write path text d =
      if d.refuses loc then .error .refused d
      else if d.stored text = text then
        .ok () (d.changed loc (some (.file text)) (changes_of_file hold))
      else .error .full (d.changed loc (some (.file (d.stored text))) (changes_of_file hold)) := by
  unfold write
  rw [opens_of_canonicalize hpath]
  simp only [Except.mapError, change, dif_pos (changes_of_file hold)]
  cases hrefuses : d.refuses loc with
  | true => rfl
  | false =>
    by_cases hfits : d.stored text = text
    · simp [hfits]
    · simp [hfits]

theorem extends_write {d : Disk} {path : FilePath} (hmissing : d.pathExists path = false)
    (text : String) : Extends d (leaves (write path text) d) := by
  have hkeep : ∀ {loc : Location} {found : Option DiskEntry} {d' : Disk},
      d.fs.opens path = .ok loc → change loc found d = .ok d' → Extends d d' := by
    intro loc found d' hopens hchange
    obtain ⟨hchanges, -, rfl⟩ := change_eq_ok hchange
    have hnone : d.fs.entry loc = none := by
      rcases opens_cases hopens with hcanonical | hnone
      · rw [pathExists, hcanonical] at hmissing
        cases hmissing
      · exact hnone
    refine ⟨rfl, fun other held hheld => ?_, rfl, rfl⟩
    have hne : other ≠ loc := by
      rintro rfl
      have hkind : (d.entry other).map DiskEntry.kind = none := hnone
      rw [hheld] at hkind
      cases hkind
    rw [entry_changed_of_ne hchanges hne, hheld]
  unfold leaves write
  cases hopens : d.fs.opens path with
  | error err => exact refl_of Extends d
  | ok loc =>
    simp only [Except.mapError]
    cases hchange : change loc (some (.file (d.stored text))) d with
    | error err => exact refl_of Extends d
    | ok d' =>
      by_cases hfits : d.stored text = text
      · simp only [if_pos hfits]
        exact hkeep hopens hchange
      · simp only [if_neg hfits]
        exact hkeep hopens hchange

end Disk

end Direclaw.Lib
