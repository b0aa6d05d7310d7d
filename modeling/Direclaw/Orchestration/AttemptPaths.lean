import Direclaw.Lib.Alike
import Direclaw.Orchestration.OutputFiles
import Direclaw.Orchestration.OutputKeys

/-!
# Output paths of every attempt

The start of a run resolves the output paths of first attempts only
(`validate_selected_workflow_output_paths`). The attempt enters a path as digits, and what
is checked of a path cannot be decided by digits: the answer holds for every attempt.
-/

namespace Direclaw.Orchestration

open Direclaw.Lib

def validateSelectedWorkflowOutputPaths (stateRoot : FilePath) (runId : String)
    (orchestrator : OrchestratorConfig) (workflowId : String) : Except OrchestratorError Unit :=
  match orchestrator.workflows.find? (·.id == workflowId) with
  | none =>
    .error (.selectorValidation s!"workflow `{workflowId}` is not declared in orchestrator")
  | some workflow =>
    workflow.steps.forM fun step => do
      let _ ← resolveStepOutputPaths stateRoot runId step 1
      return ()

/-! ## Canonical names -/

/-- The name of an entry: neither a dot nor two, and not a path of its own. -/
structure CanonicalName (name : String) : Prop where
  nonempty : name ≠ ""
  not_dot : name ≠ "."
  not_dots : name ≠ ".."
  slash_not_mem : '/' ∉ name.toList

/-- Paths are read by `Path::components`, which gives canonical names. -/
def CanonicalPath (path : FilePath) : Prop :=
  ∀ name, PathComponent.normal name ∈ path.components → CanonicalName name

theorem IsIdentifier.canonicalName {value : String} (h : IsIdentifier value) :
    CanonicalName value := by
  refine ⟨?_, ?_, ?_, h.not_mem (by decide)⟩
  · rintro rfl
    exact h.nonempty rfl
  · rintro rfl
    exact h.not_mem (c := '.') (by decide) (by decide)
  · rintro rfl
    exact h.not_mem (c := '.') (by decide) (by decide)

theorem isIdentifier_decimal (n : ℕ) : IsIdentifier (String.ofList (Text.decimal n)) := by
  refine ⟨?_, fun c hc => ?_⟩
  · rw [String.toList_ofList]
    exact Text.decimal_ne_nil n
  · rw [String.toList_ofList] at hc
    have hdigit := Text.isDigit_of_mem_decimal hc
    simp [identifierChar, Char.isAlphanum, hdigit]

theorem canonicalName_of_mem_attemptNames {runId stepId name : String} {attempt : ℕ}
    (hrun : IsIdentifier runId) (hstep : IsIdentifier stepId)
    (h : name ∈ attemptNames runId stepId attempt) : CanonicalName name := by
  apply IsIdentifier.canonicalName
  simp only [attemptNames, List.mem_cons, List.not_mem_nil, or_false] at h
  rcases h with rfl | rfl | rfl | rfl | rfl | rfl | rfl
  · decide
  · decide
  · exact hrun
  · decide
  · exact hstep
  · decide
  · exact isIdentifier_decimal attempt

theorem canonicalName_of_pushComponents {path : FilePath} {comps : List PathComponent}
    {before loc : Location} (hcomps : ∀ name, PathComponent.normal name ∈ comps → CanonicalName name)
    (hbefore : ∀ name ∈ before, CanonicalName name)
    (h : comps.foldlM (pushComponent path) before = .ok loc) :
    ∀ name ∈ loc, CanonicalName name := by
  induction comps generalizing before with
  | nil =>
    cases h
    exact hbefore
  | cons comp comps ih =>
    rw [List.foldlM_cons] at h
    obtain ⟨next, hnext, hrest⟩ := bind_eq_ok h
    refine ih (fun name hname => hcomps name (List.mem_cons_of_mem _ hname)) ?_ hrest
    cases comp with
    | normal first =>
      cases hnext
      intro name hname
      rcases List.mem_append.mp hname with hname | hname
      · exact hbefore name hname
      · rw [List.mem_singleton.mp hname]
        exact hcomps first List.mem_cons_self
    | parentDir =>
      simp only [pushComponent] at hnext
      split at hnext
      · cases hnext
      · cases hnext
        exact fun name hname => hbefore name (List.mem_of_mem_dropLast hname)

theorem canonicalName_of_normalize {path : FilePath} {loc : Location} (hpath : CanonicalPath path)
    (h : normalizeAbsolutePath path = .ok loc) : ∀ name ∈ loc, CanonicalName name := by
  unfold normalizeAbsolutePath at h
  split at h
  · exact canonicalName_of_pushComponents hpath (List.forall_mem_nil _) h
  · cases h

variable {path : List Char}

/-- What `Path::components` takes for a name is one. -/
theorem canonicalName_of_mem_templateComponents {name : String}
    (h : .normal name ∈ templateComponents path) : CanonicalName name := by
  have hsegment : ∀ segment ∈ path.splitOn '/', templateComponent segment = some (.normal name) →
      CanonicalName name := by
    intro segment hmem hsome
    have hslash := not_mem_of_mem_splitOn hmem
    unfold templateComponent at hsome
    split at hsome
    · cases hsome
    · cases hsome
    · cases hsome
    · next hempty hdot hdots =>
        cases hsome
        have htext : ∀ text, String.ofList segment = text → segment = text.toList := by
          rintro _ rfl
          rw [String.toList_ofList]
        refine ⟨fun heq => hempty (htext _ heq), fun heq => hdot (htext _ heq),
          fun heq => hdots (htext _ heq), ?_⟩
        rwa [String.toList_ofList]
  unfold templateComponents at h
  split at h
  · next rest hsegments =>
      obtain ⟨segment, hmem, hsome⟩ :=
        List.mem_filterMap.mp ((List.mem_cons.mp h).resolve_left nofun)
      refine hsegment segment ?_ hsome
      rw [hsegments]
      exact List.mem_cons_of_mem _ hmem
  · obtain ⟨segment, hmem, hsome⟩ := List.mem_filterMap.mp h
    exact hsegment segment hmem hsome

/-! ## What the checks look at -/

/-- The names that a relative template consists of. -/
structure TemplateNames (interpolated : List Char) (names : Location) : Prop where
  relative : interpolated.head? ≠ some '/'
  components : templateComponents interpolated = names.map .normal
  nonempty : names ≠ []

theorem map_filterMap_name? {comps : List TemplateComponent}
    (h : ∀ comp ∈ comps, comp.name?.isSome = true) :
    (comps.filterMap TemplateComponent.name?).map .normal = comps := by
  induction comps with
  | nil => rfl
  | cons comp comps ih =>
    have hrest := ih fun other hother => h other (List.mem_cons_of_mem _ hother)
    cases comp with
    | normal name => exact congrArg (TemplateComponent.normal name :: ·) hrest
    | curDir => exact absurd (h _ List.mem_cons_self) (by decide)
    | parentDir => exact absurd (h _ List.mem_cons_self) (by decide)

theorem filterMap_name?_map (names : Location) :
    (names.map TemplateComponent.normal).filterMap TemplateComponent.name? = names := by
  rw [List.filterMap_map]
  exact List.filterMap_some

theorem validateRelativeOutputTemplate_ok_iff {interpolated : List Char}
    {stepId template : String} {names : Location} :
    validateRelativeOutputTemplate interpolated stepId template = .ok names ↔
      TemplateNames interpolated names := by
  unfold validateRelativeOutputTemplate
  dsimp only
  rw [throw_if_ok_iff, throw_if_ok_iff, throw_if_ok_iff]
  constructor
  · rintro ⟨hrelative, hcomps, hnames, hok⟩
    cases hok
    refine ⟨hrelative, (map_filterMap_name? fun comp hcomp => ?_).symm, by simpa using hnames⟩
    by_contra hnot
    exact hcomps (List.any_eq_true.mpr ⟨comp, hcomp, by simpa using hnot⟩)
  · intro h
    rw [h.components, filterMap_name?_map]
    refine ⟨h.relative, ?_, by simpa using h.nonempty, rfl⟩
    simp [TemplateComponent.name?]

theorem resolveOutputPath_ok_iff {outputRoot path : Location} {runId stepId template : String}
    {attempt : ℕ} :
    resolveOutputPath outputRoot runId stepId attempt template = .ok path ↔
      ∃ names, TemplateNames (interpolateOutputTemplate template.toList runId stepId attempt) names ∧
        isReservedAttemptRootOutputTarget names = false ∧ path = outputRoot ++ names := by
  unfold resolveOutputPath
  dsimp only
  rw [bind_ok_iff]
  refine exists_congr fun names => ?_
  have hjoin : FilePath.join (.ofLocation outputRoot) names = .ofLocation (outputRoot ++ names) := by
    simp [FilePath.join, FilePath.ofLocation]
  have hbelow : outputRoot.isPrefixOf (outputRoot ++ names) = true :=
    List.isPrefixOf_iff_prefix.mpr (List.prefix_append _ _)
  rw [validateRelativeOutputTemplate_ok_iff, throw_if_ok_iff, hjoin, normalize_ofLocation,
    Bool.not_eq_true]
  refine and_congr_right fun _ => and_congr_right fun _ => ?_
  show (do
    if !outputRoot.isPrefixOf (outputRoot ++ names) then throw _
    return outputRoot ++ names) = _ ↔ _
  rw [throw_if_ok_iff, hbelow]
  constructor
  · rintro ⟨-, hok⟩
    cases hok
    rfl
  · rintro rfl
    exact ⟨by decide, rfl⟩

/-! ## What an attempt leaves to decide -/

/-- Digits do not decide between the two: they are equal, or both have some. -/
def DigitsApart (s t : List Char) : Prop :=
  s = t ∨ (∃ c ∈ s, c.isDigit = true) ∧ ∃ c ∈ t, c.isDigit = true

theorem DigitsApart.of_alike {n m : ℕ} {s t : List Char}
    (h : Alike (Text.decimal n) (Text.decimal m) s t) : DigitsApart s t := by
  have hdigit : ∀ {k : ℕ} {text : List Char}, Text.decimal k <:+: text →
      ∃ c ∈ text, c.isDigit = true := by
    intro k text hinfix
    obtain ⟨c, hc⟩ := List.exists_mem_of_ne_nil _ (Text.decimal_ne_nil k)
    exact ⟨c, hinfix.subset hc, Text.isDigit_of_mem_decimal hc⟩
  exact h.eq_or_infix.imp id (And.imp hdigit hdigit)

/-- The interpolations of a template for two attempts. -/
theorem alike_replaceFrom (pat d d' : List Char) (skip : ℕ) (s : List Char) :
    Alike d d' (replaceFrom pat d skip s) (replaceFrom pat d' skip s) := by
  fun_induction replaceFrom pat d skip s with
  | case1 => exact .nil
  | case2 skip c s ih => exact ih
  | case3 c s hmatch ih =>
    rw [replaceFrom, if_pos hmatch]
    exact ih.block
  | case4 c s hmatch ih =>
    rw [replaceFrom, if_neg hmatch]
    exact ih.same c

/-- Components that digits do not decide between. -/
def ComponentsApart : TemplateComponent → TemplateComponent → Prop
  | .normal name, .normal name' => DigitsApart name.toList name'.toList
  | a, b => a = b

theorem ComponentsApart.refl (comp : TemplateComponent) : ComponentsApart comp comp := by
  cases comp with
  | normal name => exact .inl rfl
  | curDir => rfl
  | parentDir => rfl

theorem templateComponent_of_digit {segment : List Char} {c : Char} (hc : c ∈ segment)
    (hdigit : c.isDigit = true) :
    templateComponent segment = some (.normal (String.ofList segment)) := by
  have hdot : c ≠ '.' := by
    rintro rfl
    cases hdigit
  unfold templateComponent
  split
  · cases hc
  · simp [hdot] at hc
  · simp [hdot] at hc
  · rfl

theorem templateComponent_apart ⦃segment segment' : List Char⦄
    (h : DigitsApart segment segment') :
    Option.Rel ComponentsApart (templateComponent segment) (templateComponent segment') := by
  rcases h with rfl | ⟨⟨c, hc, hdigit⟩, c', hc', hdigit'⟩
  · cases templateComponent segment with
    | none => exact .none
    | some comp => exact .some (ComponentsApart.refl comp)
  · rw [templateComponent_of_digit hc hdigit, templateComponent_of_digit hc' hdigit']
    refine .some (.inr ?_)
    rw [String.toList_ofList, String.toList_ofList]
    exact ⟨⟨c, hc, hdigit⟩, c', hc', hdigit'⟩

/-- A dot in front is there for every attempt. -/
theorem eq_dot_iff {segment segment' : List Char} (h : DigitsApart segment segment') :
    segment = ['.'] ↔ segment' = ['.'] := by
  rcases h with rfl | ⟨⟨c, hc, hdigit⟩, c', hc', hdigit'⟩
  · rfl
  · refine iff_of_false ?_ ?_
    · rintro rfl
      rw [List.mem_singleton.mp hc] at hdigit
      cases hdigit
    · rintro rfl
      rw [List.mem_singleton.mp hc'] at hdigit'
      cases hdigit'

theorem templateComponents_of_ne_dot (h : ∀ rest, path.splitOn '/' ≠ ['.'] :: rest) :
    templateComponents path = (path.splitOn '/').filterMap templateComponent := by
  unfold templateComponents
  split
  · next rest hsegments => exact absurd hsegments (h rest)
  · rfl

theorem templateComponents_of_dot {rest : List (List Char)} (h : path.splitOn '/' = ['.'] :: rest) :
    templateComponents path = .curDir :: rest.filterMap templateComponent := by
  rw [templateComponents, h]
  rfl

/-- The components of a template for two attempts. -/
theorem templateComponents_apart {n m : ℕ} {s t : List Char}
    (h : Alike (Text.decimal n) (Text.decimal m) s t) :
    List.Forall₂ ComponentsApart (templateComponents s) (templateComponents t) := by
  have hslash : ∀ k, '/' ∉ Text.decimal k := Text.not_mem_decimal (by decide)
  have hsegments : List.Forall₂ DigitsApart (s.splitOn '/') (t.splitOn '/') :=
    (h.splitOn (hslash n) (hslash m)).imp fun _ _ => DigitsApart.of_alike
  -- only a dot in front is a component, and digits make no dot
  by_cases hdot : ∃ rest, s.splitOn '/' = ['.'] :: rest
  · obtain ⟨rest, hs⟩ := hdot
    cases ht : t.splitOn '/' with
    | nil =>
      rw [hs, ht] at hsegments
      cases hsegments
    | cons first' rest' =>
      rw [hs, ht] at hsegments
      cases hsegments with
      | cons hfirst hrest =>
        rw [(eq_dot_iff hfirst).mp rfl] at ht
        rw [templateComponents_of_dot hs, templateComponents_of_dot ht]
        exact .cons rfl (List.rel_filterMap templateComponent_apart hrest)
  · have hs : ∀ rest, s.splitOn '/' ≠ ['.'] :: rest := fun rest heq => hdot ⟨rest, heq⟩
    have ht : ∀ rest, t.splitOn '/' ≠ ['.'] :: rest := by
      intro rest heq
      rw [heq] at hsegments
      cases hsplit : s.splitOn '/' with
      | nil =>
        rw [hsplit] at hsegments
        cases hsegments
      | cons first firsts =>
        rw [hsplit] at hsegments
        cases hsegments with
        | cons hfirst _ =>
          rw [(eq_dot_iff hfirst).mpr rfl] at hsplit
          exact hs firsts hsplit
    rw [templateComponents_of_ne_dot hs, templateComponents_of_ne_dot ht]
    exact List.rel_filterMap templateComponent_apart hsegments

def NamesApart (names names' : Location) : Prop :=
  List.Forall₂ (fun name name' => DigitsApart name.toList name'.toList) names names'

theorem namesApart_of_components {names : Location} {comps : List TemplateComponent}
    (h : List.Forall₂ ComponentsApart (names.map .normal) comps) :
    ∃ names', comps = names'.map .normal ∧ NamesApart names names' := by
  induction names generalizing comps with
  | nil =>
    cases h
    exact ⟨[], rfl, .nil⟩
  | cons name names ih =>
    cases h with
    | @cons _ comp _ comps hfirst hrest =>
      obtain ⟨names', rfl, hnames⟩ := ih hrest
      cases comp with
      | normal name' => exact ⟨name' :: names', rfl, .cons hfirst hnames⟩
      | curDir => cases hfirst
      | parentDir => cases hfirst

/-- The reserved names have no digits. -/
theorem isReserved_apart {names names' : Location} (h : NamesApart names names') :
    isReservedAttemptRootOutputTarget names = isReservedAttemptRootOutputTarget names' := by
  have hfree : ∀ {name : String} {c : Char}, c ∈ name.toList → c.isDigit = true →
      isReservedAttemptRootOutputTarget [name] = false := by
    intro name c hc hdigit
    have hplain : ∀ reserved ∈ reservedAttemptRootOutputTargets,
        (reserved.toList.any Char.isDigit) = false := by decide
    refine Bool.eq_false_iff.mpr fun hreserved => ?_
    have hnone := hplain name (List.contains_iff_mem.mp hreserved)
    exact absurd hdigit (List.any_eq_false.mp hnone c hc)
  cases h with
  | nil => rfl
  | cons hfirst hrest =>
    cases hrest with
    | cons _ _ => rfl
    | nil =>
      rcases hfirst with heq | ⟨⟨c, hc, hdigit⟩, c', hc', hdigit'⟩
      · rw [String.toList_inj.mp heq]
      · rw [hfree hc hdigit, hfree hc' hdigit']

/-! ## Every attempt -/

section Attempts

variable {stateRoot : FilePath} {runId : String} {step : WorkflowStepConfig} {n m : ℕ}

variable {stepId : String}

theorem TemplateNames.every_attempt {template : List Char} {names : Location}
    (h : TemplateNames (interpolateOutputTemplate template runId stepId n) names) (m : ℕ) :
    ∃ names', TemplateNames (interpolateOutputTemplate template runId stepId m) names' ∧
      NamesApart names names' := by
  have halike : Alike (Text.decimal n) (Text.decimal m)
      (interpolateOutputTemplate template runId stepId n)
      (interpolateOutputTemplate template runId stepId m) := alike_replaceFrom _ _ _ 0 _
  have hcomps := templateComponents_apart halike
  rw [h.components] at hcomps
  obtain ⟨names', hnames', hapart⟩ := namesApart_of_components hcomps
  refine ⟨names', ⟨fun hhead => h.relative ?_, hnames', ?_⟩, hapart⟩
  · have hslash : ∀ k, '/' ∉ Text.decimal k := Text.not_mem_decimal (by decide)
    exact (halike.head?_eq_some_iff (Text.decimal_ne_nil n) (Text.decimal_ne_nil m) (hslash n)
      (hslash m)).mpr hhead
  · rintro rfl
    cases hapart
    exact h.nonempty rfl

theorem resolveOutputPath_every_attempt {root path : Location} {stepId template : String}
    (h : resolveOutputPath root runId stepId n template = .ok path) (root' : Location) (m : ℕ) :
    ∃ path', resolveOutputPath root' runId stepId m template = .ok path' := by
  obtain ⟨names, hnames, hreserved, -⟩ := resolveOutputPath_ok_iff.mp h
  obtain ⟨names', hnames', hapart⟩ := hnames.every_attempt m
  refine ⟨root' ++ names', resolveOutputPath_ok_iff.mpr ⟨names', hnames', ?_, rfl⟩⟩
  rw [← isReserved_apart hapart, hreserved]

theorem foldlM_addOutputPath_ok_iff {root : Location} {entries : List (String × String)}
    {paths : List (String × Location)} :
    (∃ paths', entries.foldlM (addOutputPath root runId stepId n) paths = .ok paths') ↔
      ∀ entry ∈ entries, ∃ path, resolveOutputPath root runId stepId n entry.2 = .ok path := by
  induction entries generalizing paths with
  | nil => exact iff_of_true ⟨paths, rfl⟩ (List.forall_mem_nil _)
  | cons entry entries ih =>
    rw [List.forall_mem_cons, List.foldlM_cons]
    constructor
    · rintro ⟨paths', h⟩
      obtain ⟨next, hnext, hrest⟩ := bind_eq_ok h
      obtain ⟨path, hpath, -⟩ := bind_eq_ok hnext
      exact ⟨⟨path, hpath⟩, ih.mp ⟨paths', hrest⟩⟩
    · rintro ⟨⟨path, hpath⟩, hentries⟩
      have hnext : addOutputPath root runId stepId n paths entry =
          .ok (OrderedMap.insert entry.1 path paths) := by
        rw [addOutputPath, hpath]
        rfl
      rw [hnext]
      exact ih.mpr hentries

theorem attemptRoot_ok_iff {root : Location} :
    attemptRoot stateRoot runId stepId n = .ok root ↔
      ∃ base, normalizeAbsolutePath stateRoot = .ok base ∧
        root = base ++ attemptNames runId stepId n := by
  refine ⟨attemptRoot_names, ?_⟩
  rintro ⟨base, hbase, rfl⟩
  unfold normalizeAbsolutePath at hbase
  split at hbase
  · next habsolute =>
      unfold attemptRoot normalizeAbsolutePath FilePath.join
      dsimp only
      rw [if_pos habsolute, List.foldlM_append, foldlM_pushComponent hbase]
      exact foldlM_pushNames _ _
  · cases hbase

/-- The paths of an attempt can be resolved. -/
def Resolves (stateRoot : FilePath) (runId : String) (step : WorkflowStepConfig) (n : ℕ) : Prop :=
  ∃ paths, resolveStepOutputPaths stateRoot runId step n = .ok paths

theorem Resolves.every_attempt (h : Resolves stateRoot runId step n) (m : ℕ) :
    Resolves stateRoot runId step m := by
  obtain ⟨paths, hpaths⟩ := h
  obtain ⟨root, hroot, hfold⟩ := bind_eq_ok hpaths
  obtain ⟨base, hbase, -⟩ := attemptRoot_ok_iff.mp hroot
  have hroot' : attemptRoot stateRoot runId step.id m = .ok (base ++ attemptNames runId step.id m) :=
    attemptRoot_ok_iff.mpr ⟨base, hbase, rfl⟩
  have hentries := foldlM_addOutputPath_ok_iff.mp ⟨paths, hfold⟩
  obtain ⟨paths', hpaths'⟩ := foldlM_addOutputPath_ok_iff.mpr fun entry hentry =>
    (hentries entry hentry).elim fun path hpath => resolveOutputPath_every_attempt hpath _ m
  refine ⟨paths', ?_⟩
  rw [resolveStepOutputPaths, hroot']
  exact hpaths'

/-- Strictly below the directory of the attempt, without a dot left in it. -/
structure InsideAttempt (base : Location) (runId stepId : String) (n : ℕ) (path : Location) :
    Prop where
  below : ∃ names, names ≠ [] ∧ path = base ++ attemptNames runId stepId n ++ names
  canonical : ∀ name ∈ path, CanonicalName name

theorem insideAttempt_of_resolve {paths : List (String × Location)}
    (hroot : CanonicalPath stateRoot) (hrun : IsIdentifier runId) (hstep : IsIdentifier step.id)
    (h : resolveStepOutputPaths stateRoot runId step n = .ok paths) :
    ∃ base, normalizeAbsolutePath stateRoot = .ok base ∧
      ∀ entry ∈ paths, InsideAttempt base runId step.id n entry.2 := by
  obtain ⟨root, hattempt, hfold⟩ := bind_eq_ok h
  obtain ⟨base, hbase, rfl⟩ := attemptRoot_names hattempt
  refine ⟨base, hbase, ?_⟩
  refine foldlM_invariant (P := fun paths : List (String × Location) =>
    ∀ entry ∈ paths, InsideAttempt base runId step.id n entry.2) ?_ (List.forall_mem_nil _) hfold
  intro paths entry paths' hpaths hentry held hheld
  obtain ⟨path, hpath, hentry⟩ := bind_eq_ok hentry
  cases hentry
  rcases OrderedMap.mem_insert hheld with rfl | hheld
  · obtain ⟨names, hnames, -, rfl⟩ := resolveOutputPath_ok_iff.mp hpath
    refine ⟨⟨names, hnames.nonempty, rfl⟩, fun name hname => ?_⟩
    rcases List.mem_append.mp hname with hname | hname
    · rcases List.mem_append.mp hname with hname | hname
      · exact canonicalName_of_normalize hroot hbase name hname
      · exact canonicalName_of_mem_attemptNames hrun hstep hname
    · apply canonicalName_of_mem_templateComponents
      rw [hnames.components]
      exact List.mem_map_of_mem hname
  · exact hpaths held hheld

theorem validateSelectedWorkflowOutputPaths_ok_iff {orchestrator : OrchestratorConfig}
    {workflowId : String} {workflow : WorkflowConfig}
    (hfind : orchestrator.workflows.find? (·.id == workflowId) = some workflow) :
    validateSelectedWorkflowOutputPaths stateRoot runId orchestrator workflowId = .ok () ↔
      ∀ step ∈ workflow.steps, Resolves stateRoot runId step 1 := by
  unfold validateSelectedWorkflowOutputPaths
  rw [hfind]
  refine forM_ok_iff.trans (forall₂_congr fun step _ => ?_)
  rw [bind_ok_iff]
  exact exists_congr fun paths => and_iff_left rfl

end Attempts

/-- The first attempt stands for all: its paths are resolved if and only if those of every
attempt are, and what is resolved lies inside the attempt. The start of a run therefore
decides the matter for every step of the workflow and every retry. -/
theorem output_paths_every_attempt {stateRoot : FilePath} {runId : String}
    {step : WorkflowStepConfig} (hroot : CanonicalPath stateRoot) (hrun : IsIdentifier runId)
    (hstep : IsIdentifier step.id) :
    (Resolves stateRoot runId step 1 → ∀ n, ∃ base paths,
      normalizeAbsolutePath stateRoot = .ok base ∧
        resolveStepOutputPaths stateRoot runId step n = .ok paths ∧
          ∀ entry ∈ paths, InsideAttempt base runId step.id n entry.2) ∧
    ((∃ err, resolveStepOutputPaths stateRoot runId step 1 = .error err) →
      ∀ n, ∃ err, resolveStepOutputPaths stateRoot runId step n = .error err) ∧
    ∀ orchestrator workflowId workflow,
      orchestrator.workflows.find? (·.id == workflowId) = some workflow →
        (validateSelectedWorkflowOutputPaths stateRoot runId orchestrator workflowId = .ok () ↔
          ∀ step ∈ workflow.steps, ∀ n, Resolves stateRoot runId step n) := by
  refine ⟨fun h n => ?_, ?_, fun orchestrator workflowId workflow hfind => ?_⟩
  · obtain ⟨paths, hpaths⟩ := h.every_attempt n
    obtain ⟨base, hbase, hinside⟩ := insideAttempt_of_resolve hroot hrun hstep hpaths
    exact ⟨base, paths, hbase, hpaths, hinside⟩
  · rintro ⟨err, herr⟩ n
    cases hn : resolveStepOutputPaths stateRoot runId step n with
    | error err => exact ⟨err, rfl⟩
    | ok paths =>
      obtain ⟨paths', hpaths'⟩ := Resolves.every_attempt ⟨paths, hn⟩ 1
      rw [herr] at hpaths'
      cases hpaths'
  · rw [validateSelectedWorkflowOutputPaths_ok_iff hfind]
    exact forall₂_congr fun step _ => ⟨fun h n => h.every_attempt n, fun h => h 1⟩

/-- A step that keeps the notes of its attempts apart. -/
def notesStep : WorkflowStepConfig where
  id := "notes"
  agent := "writer"
  outputs := [{ name := "summary", required := true }]
  outputFiles := [("summary", "notes/\x7b\x7bworkflow.attempt\x7d\x7d.md")]
  finalOutputPriority := []

theorem output_paths_every_attempt_of_notes : ∃ base paths,
    normalizeAbsolutePath (.ofLocation ["state"]) = .ok base ∧
      resolveStepOutputPaths (.ofLocation ["state"]) "run-1" notesStep 17 = .ok paths ∧
        ∀ entry ∈ paths, InsideAttempt base "run-1" "notes" 17 entry.2 := by
  have hroot : CanonicalPath (.ofLocation ["state"]) := by
    intro name hname
    cases List.mem_singleton.mp hname
    exact ⟨by decide, by decide, by decide, by decide⟩
  have hfirst : Resolves (.ofLocation ["state"]) "run-1" notesStep 1 :=
    ⟨[("summary", ["state", "workflows", "runs", "run-1", "steps", "notes", "attempts", "1",
      "notes", "1.md"])], rfl⟩
  exact (output_paths_every_attempt hroot (by decide) (by decide)).1 hfirst 17

end Direclaw.Orchestration
