import Direclaw.Lib.OsPath
import Direclaw.Orchestration.PromptRender

/-!
# The shared root of output paths

`shared_output_root_and_paths` of `orchestration/prompt_render.rs`, for any paths of the
operating system. One pass shrinks the root until it lies above the parent at hand; after
each parent it is the longest path above all parents so far, so the order does not matter.
-/

namespace Direclaw.Orchestration.SharedRoot

open Direclaw.Lib

/-! ## The pass over the paths -/

theorem length_parent_lt {path above : PathBuf} (h : path.parent = some above) :
    above.length < path.length := by
  obtain ⟨component, rfl⟩ := PathBuf.parent_eq_some h
  rw [List.length_append]
  exact Nat.lt_succ_self _

/-- `while !parent.starts_with(&root) { if !root.pop() { None } }`. -/
def shrink (parent root : PathBuf) : Option PathBuf :=
  if parent.startsWith root then some root
  else
    match _h : root.parent with
    | none => none
    | some shorter => shrink parent shorter
termination_by root.length
decreasing_by exact length_parent_lt ‹_›

/-- The root before a path, and the root behind it; `None` ends the loop. -/
def sharedRootStep (parent : PathBuf) : Option PathBuf → Option PathBuf
  | none => some parent
  | some root => shrink parent root

def sharedRootFrom (root : Option PathBuf) : List PathBuf → Option PathBuf
  | [] => root
  | path :: paths =>
    match path.parent with
    | none => none
    | some parent =>
      match sharedRootStep parent root with
      | none => none
      | some root => sharedRootFrom (some root) paths

/-- The path that is shown for an output. -/
def shownPath (root : Option PathBuf) (path : PathBuf) : PathBuf :=
  (root.bind fun root => path.stripPrefix root).getD path

def renderedPath (root : Option PathBuf) (path : PathBuf) : String :=
  displayOs (shownPath root path).text

def sharedOutputRootAndPaths (outputPaths : List (String × PathBuf)) :
    Option PathBuf × List (String × String) :=
  let root := sharedRootFrom none (outputPaths.map (·.2))
  (root, outputPaths.map fun entry => (entry.1, renderedPath root entry.2))

/-! ## The longest path above all -/

/-- The longest path that all of them lie under. -/
structure LongestAbove (root : PathBuf) (paths : List PathBuf) : Prop where
  above : ∀ path ∈ paths, root <+: path
  longest : ∀ other, (∀ path ∈ paths, other <+: path) → other <+: root

theorem longestAbove_singleton (path : PathBuf) : LongestAbove path [path] :=
  ⟨by simp, fun other h => h path List.mem_cons_self⟩

/-- The root that the loop ends with. -/
theorem shrink_spec {parent root shrunk : PathBuf} (h : shrink parent root = some shrunk) :
    shrunk <+: root ∧ shrunk <+: parent ∧
      ∀ other, other <+: root → other <+: parent → other <+: shrunk := by
  induction hlength : root.length using Nat.strongRecOn generalizing root with
  | _ length ih =>
    subst hlength
    rw [shrink] at h
    split at h
    · next hprefix =>
        cases h
        exact ⟨List.prefix_rfl, List.isPrefixOf_iff_prefix.mp hprefix, fun other hother _ => hother⟩
    · next hprefix =>
        split at h
        · cases h
        · next shorter hshorter =>
            obtain ⟨hroot, hparent, hlongest⟩ := ih _ (length_parent_lt hshorter) h rfl
            obtain ⟨component, rfl⟩ := PathBuf.parent_eq_some hshorter
            refine ⟨hroot.trans (List.prefix_append _ _), hparent, ?_⟩
            intro other hother hunder
            -- a beginning of the root that the parent lies under is not the whole root
            rcases List.prefix_concat_iff.mp hother with rfl | hshort
            · exact absurd (List.isPrefixOf_iff_prefix.mpr hunder) hprefix
            · exact hlongest other hshort hunder

/-- One path: the invariant of the pass. -/
theorem LongestAbove.shrink {root shrunk parent : PathBuf} {seen : List PathBuf}
    (hseen : LongestAbove root seen) (h : SharedRoot.shrink parent root = some shrunk) :
    LongestAbove shrunk (seen ++ [parent]) := by
  obtain ⟨hroot, hparent, hlongest⟩ := shrink_spec h
  refine ⟨fun path hpath => ?_, fun other hother => ?_⟩
  · rcases List.mem_append.mp hpath with hin | hin
    · exact hroot.trans (hseen.above path hin)
    · rwa [List.mem_singleton.mp hin]
  · refine hlongest other (hseen.longest other fun path hpath => ?_) ?_
    · exact hother path (List.mem_append_left _ hpath)
    · exact hother parent (List.mem_append_right _ List.mem_cons_self)

/-- The whole pass. -/
theorem sharedRootFrom_spec {root found : PathBuf} {seen paths : List PathBuf}
    (hseen : LongestAbove root seen) (h : sharedRootFrom (some root) paths = some found) :
    ∃ parents : List PathBuf, paths.map PathBuf.parent = parents.map some ∧
      LongestAbove found (seen ++ parents) := by
  induction paths generalizing root seen with
  | nil =>
    cases h
    exact ⟨[], rfl, by rwa [List.append_nil]⟩
  | cons path paths ih =>
    rw [sharedRootFrom] at h
    cases hparent : path.parent with
    | none => simp [hparent] at h
    | some parent =>
      simp only [hparent, sharedRootStep] at h
      cases hshrink : SharedRoot.shrink parent root with
      | none => simp [hshrink] at h
      | some shrunk =>
        simp only [hshrink] at h
        obtain ⟨parents, hparents, hlongest⟩ := ih (hseen.shrink hshrink) h
        refine ⟨parent :: parents, ?_, ?_⟩
        · rw [List.map_cons, hparent, hparents, List.map_cons]
        · rwa [List.append_assoc, List.singleton_append] at hlongest

theorem sharedRootFrom_none_spec {found : PathBuf} {paths : List PathBuf}
    (h : sharedRootFrom none paths = some found) :
    ∃ parents : List PathBuf, paths.map PathBuf.parent = parents.map some ∧
      LongestAbove found parents := by
  cases paths with
  | nil => cases h
  | cons path paths =>
    rw [sharedRootFrom] at h
    cases hparent : path.parent with
    | none => simp [hparent] at h
    | some parent =>
      simp only [hparent, sharedRootStep] at h
      obtain ⟨parents, hparents, hlongest⟩ :=
        sharedRootFrom_spec (longestAbove_singleton parent) h
      refine ⟨parent :: parents, ?_, hlongest⟩
      rw [List.map_cons, hparent, hparents, List.map_cons]

/-! ## What is rendered -/

theorem rootDir_prefix_parent {path parent : PathBuf} (habsolute : path.Absolute)
    (h : path.parent = some parent) : [.rootDir] <+: parent := by
  obtain ⟨component, hpath⟩ := PathBuf.parent_eq_some h
  obtain ⟨rest, rfl, hplain⟩ := habsolute
  cases parent with
  | nil =>
    cases hpath
    cases h
  | cons first parent =>
    cases (List.cons.inj hpath).1
    exact List.prefix_append [OsComponent.rootDir] parent

variable {outputPaths : List (String × PathBuf)}

variable {root : PathBuf}

/-- The shared root is the longest path above the parents of the outputs. -/
theorem sharedRoot_spec (hroot : (sharedOutputRootAndPaths outputPaths).1 = some root) :
    ∃ parents : List PathBuf, LongestAbove root parents ∧
      (∀ parent ∈ parents, ∃ entry ∈ outputPaths, entry.2.parent = some parent) ∧
      ∀ entry ∈ outputPaths, ∃ parent ∈ parents, entry.2.parent = some parent := by
  obtain ⟨parents, hparents, hlongest⟩ := sharedRootFrom_none_spec hroot
  rw [List.map_map] at hparents
  refine ⟨parents, hlongest, fun parent hparent => ?_, fun entry hentry => ?_⟩
  · have hmem : some parent ∈ parents.map some := List.mem_map_of_mem hparent
    rw [← hparents] at hmem
    exact List.mem_map.mp hmem
  · have hmem : entry.2.parent ∈ parents.map some := by
      rw [← hparents]
      exact List.mem_map_of_mem hentry
    obtain ⟨parent, hparent, heq⟩ := List.mem_map.mp hmem
    exact ⟨parent, hparent, heq.symm⟩

theorem exists_below_root (habsolute : ∀ entry ∈ outputPaths, entry.2.Absolute)
    (hroot : (sharedOutputRootAndPaths outputPaths).1 = some root) {entry : String × PathBuf}
    (hentry : entry ∈ outputPaths) :
    ∃ rest : PathBuf, entry.2 = root ++ rest ∧ rest ≠ [] ∧ ∀ component ∈ rest, component.Plain := by
  obtain ⟨parents, hlongest, hof, hparent⟩ := sharedRoot_spec hroot
  obtain ⟨parent, hmem, hparententry⟩ := hparent entry hentry
  -- the root itself begins at the root directory
  obtain ⟨root, rfl⟩ : ∃ rest, root = .rootDir :: rest := by
    obtain ⟨rest, hrest⟩ := hlongest.longest [.rootDir] fun parent hparent => by
      obtain ⟨entry, hin, hof⟩ := hof parent hparent
      exact rootDir_prefix_parent (habsolute entry hin) hof
    exact ⟨rest, hrest.symm⟩
  obtain ⟨between, rfl⟩ := hlongest.above parent hmem
  obtain ⟨component, hpath⟩ := PathBuf.parent_eq_some hparententry
  obtain ⟨whole, hwhole, hplain⟩ := habsolute entry hentry
  rw [List.append_assoc] at hpath
  refine ⟨between ++ [component], hpath, by simp, fun other hother => hplain other ?_⟩
  rw [hwhole, List.cons_append] at hpath
  rw [(List.cons.inj hpath).2]
  exact List.mem_append_right _ hother

theorem shownPath_append (root rest : PathBuf) : shownPath (some root) (root ++ rest) = rest := by
  rw [shownPath, Option.bind_some, PathBuf.stripPrefix_append, Option.getD_some]

theorem parse_renderedPath (habsolute : ∀ entry ∈ outputPaths, entry.2.Absolute)
    {entry : String × PathBuf} (hentry : entry ∈ outputPaths)
    (htext : IsText (shownPath (sharedOutputRootAndPaths outputPaths).1 entry.2).text) :
    PathBuf.parse (osText (renderedPath (sharedOutputRootAndPaths outputPaths).1 entry.2)) =
      shownPath (sharedOutputRootAndPaths outputPaths).1 entry.2 := by
  rw [renderedPath, osText_displayOs htext]
  cases hroot : (sharedOutputRootAndPaths outputPaths).1 with
  | none => exact PathBuf.parse_text_of_absolute (habsolute entry hentry)
  | some root =>
    obtain ⟨rest, hpath, hne, hplain⟩ := exists_below_root habsolute hroot hentry
    rw [hpath, shownPath_append, PathBuf.text_of_plain hplain, PathBuf.parse_bodyText hne hplain]

/-- What holds of a root that is returned. -/
structure Faithful (outputPaths : List (String × PathBuf)) (root : PathBuf) : Prop where
  ancestor : ∀ entry ∈ outputPaths, ∃ parent, entry.2.parent = some parent ∧
    parent.startsWith root = true
  longest : ∀ other : PathBuf, (∀ entry ∈ outputPaths, ∃ parent, entry.2.parent = some parent ∧
    parent.startsWith other = true) → root.startsWith other = true
  joins : ∀ entry ∈ outputPaths, IsText (shownPath (some root) entry.2).text →
    root.join (PathBuf.parse (osText (renderedPath (some root) entry.2))) = entry.2

theorem faithful_of_root (habsolute : ∀ entry ∈ outputPaths, entry.2.Absolute)
    (hroot : (sharedOutputRootAndPaths outputPaths).1 = some root) : Faithful outputPaths root := by
  obtain ⟨parents, hlongest, hof, hparent⟩ := sharedRoot_spec hroot
  refine ⟨fun entry hentry => ?_, fun other hother => ?_, fun entry hentry htext => ?_⟩
  · obtain ⟨parent, hmem, heq⟩ := hparent entry hentry
    exact ⟨parent, heq, List.isPrefixOf_iff_prefix.mpr (hlongest.above parent hmem)⟩
  · refine List.isPrefixOf_iff_prefix.mpr (hlongest.longest other fun parent hmem => ?_)
    obtain ⟨entry, hentry, heq⟩ := hof parent hmem
    obtain ⟨parent', heq', hprefix⟩ := hother entry hentry
    cases heq.symm.trans heq'
    exact List.isPrefixOf_iff_prefix.mp hprefix
  · have hparse := parse_renderedPath habsolute hentry (by rwa [hroot])
    obtain ⟨rest, hpath, -, hplain⟩ := exists_below_root habsolute hroot hentry
    rw [hroot, hpath, shownPath_append] at hparse
    rw [hpath, hparse, PathBuf.join_of_plain root hplain]

/-- The shared root of paths from the root directory is faithful, and different paths that
are shown as text are rendered differently. -/
theorem sharedOutputRootAndPaths_faithful
    (habsolute : ∀ entry ∈ outputPaths, entry.2.Absolute) :
    (∀ root, (sharedOutputRootAndPaths outputPaths).1 = some root → Faithful outputPaths root) ∧
      (sharedOutputRootAndPaths outputPaths).2 = outputPaths.map (fun entry =>
        (entry.1, renderedPath (sharedOutputRootAndPaths outputPaths).1 entry.2)) ∧
      ∀ entry ∈ outputPaths, ∀ other ∈ outputPaths,
        IsText (shownPath (sharedOutputRootAndPaths outputPaths).1 entry.2).text →
        IsText (shownPath (sharedOutputRootAndPaths outputPaths).1 other.2).text →
        entry.2 ≠ other.2 →
        renderedPath (sharedOutputRootAndPaths outputPaths).1 entry.2 ≠
          renderedPath (sharedOutputRootAndPaths outputPaths).1 other.2 := by
  refine ⟨fun root hroot => faithful_of_root habsolute hroot, rfl, ?_⟩
  intro entry hentry other hother htext htext' hne heq
  have hshown : shownPath (sharedOutputRootAndPaths outputPaths).1 entry.2 =
      shownPath (sharedOutputRootAndPaths outputPaths).1 other.2 := by
    rw [← parse_renderedPath habsolute hentry htext, heq,
      parse_renderedPath habsolute hother htext']
  apply hne
  cases hroot : (sharedOutputRootAndPaths outputPaths).1 with
  | none => rwa [hroot] at hshown
  | some root =>
    obtain ⟨rest, hpath, -⟩ := exists_below_root habsolute hroot hentry
    obtain ⟨rest', hpath', -⟩ := exists_below_root habsolute hroot hother
    rw [hroot, hpath, hpath', shownPath_append, shownPath_append] at hshown
    rw [hpath, hpath', hshown]

/-! ## Locations -/

/-- The output paths of a step are locations: names from the root, all of them text. -/
def osLocation (loc : Location) : PathBuf :=
  .rootDir :: loc.map fun name => .normal (osText name)

theorem osText_injective : Function.Injective osText := by
  intro text other h
  have hlist := List.map_injective_iff.mpr (fun _ _ heq => OsChar.char.inj heq) h
  exact String.toList_inj.mp hlist

theorem startsWith_osLocation (loc other : Location) :
    (osLocation other).startsWith (osLocation loc) = loc.isPrefixOf other := by
  have hinjective : Function.Injective fun name => OsComponent.normal (osText name) :=
    fun _ _ heq => osText_injective (OsComponent.normal.inj heq)
  rw [PathBuf.startsWith, Bool.eq_iff_iff, List.isPrefixOf_iff_prefix, List.isPrefixOf_iff_prefix,
    osLocation, osLocation, List.prefix_cons_inj, List.prefix_map_iff_of_injective hinjective]

theorem parent_osLocation_append (loc : Location) (name : String) :
    (osLocation (loc ++ [name])).parent = some (osLocation loc) := by
  rw [osLocation, List.map_append, ← List.cons_append]
  exact PathBuf.parent_of_append _ (by simp)

theorem popTo_append (parent root : Location) (name : String) :
    popTo parent (root ++ [name]) =
      if (root ++ [name]).isPrefixOf parent then root ++ [name] else popTo parent root := by
  have hinits : (root ++ [name]).inits = root.inits ++ [root ++ [name]] := by
    rw [List.inits_append]
    rfl
  rw [popTo, hinits, List.reverse_append, List.reverse_singleton, List.singleton_append,
    List.find?_cons]
  split
  · next h => rw [if_pos h, Option.getD_some]
  · next h => rw [if_neg (by rw [h]; exact Bool.false_ne_true), popTo]

theorem shrink_osLocation (parent root : Location) :
    shrink (osLocation parent) (osLocation root) = some (osLocation (popTo parent root)) := by
  induction root using List.reverseRecOn with
  | nil =>
    rw [shrink, if_pos (by rw [startsWith_osLocation]; rfl)]
    rfl
  | append_singleton root name ih =>
    rw [shrink, startsWith_osLocation, popTo_append]
    split
    · rfl
    · rw [parent_osLocation_append]
      exact ih

theorem sharedRootFrom_osLocation (root : Option Location) (paths : List Location) :
    sharedRootFrom (root.map osLocation) (paths.map osLocation) =
      (Orchestration.sharedRootFrom root paths).map osLocation := by
  induction paths generalizing root with
  | nil => rfl
  | cons path paths ih =>
    rcases List.eq_nil_or_concat' path with rfl | ⟨above, name, rfl⟩
    · rfl
    · have hempty : (above ++ [name]).isEmpty = false := by simp
      rw [List.map_cons, sharedRootFrom, parent_osLocation_append]
      cases root with
      | none =>
        rw [Orchestration.sharedRootFrom, hempty, List.dropLast_concat]
        exact ih (some above)
      | some root =>
        rw [Orchestration.sharedRootFrom, hempty, List.dropLast_concat]
        simp only [Option.map_some, sharedRootStep, shrink_osLocation]
        exact ih (some (popTo above root))

theorem map_intercalate {α β : Type} (f : α → β) (sep : List α) (parts : List (List α)) :
    (sep.intercalate parts).map f = (sep.map f).intercalate (parts.map (List.map f)) := by
  induction parts with
  | nil => rfl
  | cons part rest ih =>
    cases rest with
    | nil => simp only [List.map_cons, List.map_nil, List.intercalate_singleton]
    | cons next rest =>
      rw [List.intercalate_cons_cons, List.map_append, List.map_append, ih]
      exact List.intercalate_cons_cons.symm

theorem displayOs_bodyText (names : Location) :
    displayOs (PathBuf.bodyText (names.map fun name => .normal (osText name))) =
      "/".intercalate names := by
  have hshown : ∀ name, (osText name).map OsChar.shown = name.toList := by
    intro name
    rw [osText, List.map_map]
    exact List.map_id _
  have hparts : ((names.map fun name => OsComponent.normal (osText name)).map
      OsComponent.text).map (List.map OsChar.shown) = names.map String.toList := by
    rw [List.map_map, List.map_map]
    exact List.map_congr_left fun name _ => hshown name
  rw [← String.toList_inj, displayOs, String.toList_ofList, String.toList_intercalate,
    PathBuf.bodyText, map_intercalate, hparts]
  rfl

theorem displayAbsolute_eq (path : Location) :
    displayAbsolute path = "/" ++ "/".intercalate path := by
  have hnames : ∀ written : PathComponent → String, (∀ name, written (.normal name) = name) →
      (path.map PathComponent.normal).map written = path := by
    intro written hwritten
    rw [List.map_map]
    exact (List.map_congr_left fun name _ => hwritten name).trans (List.map_id path)
  simp only [displayAbsolute, FilePath.display, FilePath.ofLocation]
  rw [hnames _ fun _ => rfl]
  rfl

theorem displayOs_osLocation (path : Location) :
    displayOs (osLocation path).text = displayAbsolute path := by
  rw [displayAbsolute_eq, ← displayOs_bodyText, ← String.toList_inj]
  simp only [String.toList_append, displayOs, String.toList_ofList]
  rfl

theorem renderedPath_osLocation (root : Option Location) (path : Location) :
    renderedPath (root.map osLocation) (osLocation path) = relativeTo root path := by
  cases root with
  | none => exact displayOs_osLocation path
  | some root =>
    have hprefix := startsWith_osLocation root path
    rw [PathBuf.startsWith] at hprefix
    rw [renderedPath, Option.map_some, shownPath, Option.bind_some, PathBuf.stripPrefix, hprefix,
      relativeTo]
    split
    · rw [Option.getD_some, osLocation, osLocation, List.length_cons, List.length_map,
        List.drop_succ_cons, ← List.map_drop, ← displayOs_bodyText]
      cases path.drop root.length <;> rfl
    · exact displayOs_osLocation path

/-- For locations, the rendering of a step computes the same root and the same texts. -/
theorem sharedOutputRootAndPaths_osLocation (outputPaths : List (String × Location)) :
    sharedOutputRootAndPaths (outputPaths.map fun entry => (entry.1, osLocation entry.2)) =
      ((Orchestration.sharedOutputRootAndPaths outputPaths).1.map osLocation,
        (Orchestration.sharedOutputRootAndPaths outputPaths).2) := by
  have hroot := sharedRootFrom_osLocation none (outputPaths.map (·.2))
  rw [List.map_map] at hroot
  have hvalues : (outputPaths.map fun entry => (entry.1, osLocation entry.2)).map (·.2) =
      outputPaths.map (osLocation ∘ fun entry => entry.2) := by
    rw [List.map_map]
    rfl
  have hroot' : sharedRootFrom none (outputPaths.map (osLocation ∘ fun entry => entry.2)) =
      (Orchestration.sharedRootFrom none (outputPaths.map (·.2))).map osLocation := hroot
  simp only [sharedOutputRootAndPaths, Orchestration.sharedOutputRootAndPaths, hvalues, hroot',
    List.map_map]
  refine congrArg (Prod.mk _) (List.map_congr_left fun entry _ => ?_)
  exact congrArg (Prod.mk entry.1) (renderedPath_osLocation _ entry.2)

/-! ## Two outputs in `/docs` -/

def docsRoot : PathBuf := [.rootDir, .normal (osText "docs")]

def docsOutputs (first second : List OsChar) : List (String × PathBuf) :=
  [("a", docsRoot ++ [.normal first]), ("b", docsRoot ++ [.normal second])]

theorem sharedOutputRootAndPaths_docs (first second : List OsChar) :
    sharedOutputRootAndPaths (docsOutputs first second) =
      (some docsRoot, [("a", displayOs first), ("b", displayOs second)]) := by
  have hparent : ∀ name, PathBuf.parent (docsRoot ++ [.normal name]) = some docsRoot :=
    fun name => PathBuf.parent_of_append docsRoot (by simp)
  have hrendered : ∀ name,
      renderedPath (some docsRoot) (docsRoot ++ [.normal name]) = displayOs name := by
    intro name
    rw [renderedPath, shownPath_append]
    exact congrArg displayOs (@List.intercalate_singleton _ [OsChar.slash] name)
  have hroot : sharedRootFrom none
      [docsRoot ++ [.normal first], docsRoot ++ [.normal second]] = some docsRoot := by
    simp only [sharedRootFrom, hparent, sharedRootStep]
    rw [shrink, if_pos (by decide)]
  simp only [sharedOutputRootAndPaths, docsOutputs, List.map_cons, List.map_nil, hroot, hrendered]

theorem sharedOutputRootAndPaths_faithful_docs :
    Faithful (docsOutputs (osText "x") (osText "y")) docsRoot := by
  refine (sharedOutputRootAndPaths_faithful ?_).1 docsRoot (by rw [sharedOutputRootAndPaths_docs])
  intro entry hentry
  rcases List.mem_cons.mp hentry with rfl | hentry
  · exact ⟨_, rfl, by decide⟩
  · cases List.mem_singleton.mp hentry
    exact ⟨_, rfl, by decide⟩

/-- Names that are no text lose their bytes when they are shown: two outputs are rendered
alike, and the text leads to neither. -/
theorem stray_names_collide :
    docsRoot ++ [.normal [.stray [0xFE]]] ≠ docsRoot ++ [.normal [.stray [0xFF]]] ∧
      sharedOutputRootAndPaths (docsOutputs [.stray [0xFE]] [.stray [0xFF]]) =
        (some docsRoot, [("a", "\uFFFD"), ("b", "\uFFFD")]) ∧
      docsRoot.join (PathBuf.parse (osText "\uFFFD")) ≠ docsRoot ++ [.normal [.stray [0xFE]]] :=
  ⟨by decide, sharedOutputRootAndPaths_docs _ _, by decide⟩

end Direclaw.Orchestration.SharedRoot
