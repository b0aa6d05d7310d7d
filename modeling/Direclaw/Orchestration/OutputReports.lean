import Direclaw.Orchestration.OutputFiles
import Direclaw.Orchestration.OutputKeys

/-!
# Reports of output errors

`output_validation_errors_for` reads the faulty keys of an attempt back out of the reason
of its error: a list `key=kind` behind one of two beginnings. Identifiers hold none of the
characters that the list is cut at, so every report is read as it was written.
-/

namespace Direclaw.Orchestration

open Direclaw.Lib

def missingPrefix : String := "missing required output keys"
def invalidPrefix : String := "invalid required output keys"

/-- One entry of the list, as a key and what is wrong with it. -/
def parseReport (entry : List Char) : Option (String × String) :=
  match Text.splitOnce '=' (Text.trim entry) with
  | none => none
  | some (key, detail) =>
    let key := Text.trim key
    let detail := Text.trim detail
    if key.isEmpty || detail.isEmpty then none
    else some (String.ofList key, String.ofList detail)

/-- The reason without its beginning, if it has one of the two. -/
def reportDetails (reason : List Char) : List Char :=
  ((Text.stripPrefix (missingPrefix.toList ++ [':']) (Text.trim reason)).or
    (Text.stripPrefix (invalidPrefix.toList ++ [':']) (Text.trim reason))).getD reason

def outputValidationErrorsFor : OrchestratorError → List (String × String)
  | .outputContractValidation _ reason =>
    OrderedMap.ofEntries
      (((reportDetails reason.toList).splitOn ',').filterMap parseReport)
  | _ => []

/-! ## What is reported -/

/-- What is wrong with the value of a key. -/
def outputFault (outputs : Outputs) (name : String) : Option String :=
  match Json.field outputs name with
  | none => some "missing"
  | some (.str text) => if Text.isBlank text.toList then some "empty" else none
  | some _ => none

/-- What is wrong with the file of a key. -/
def fileFault (paths : List (String × Location)) (disk : OutputDisk) (name : String) :
    Option String :=
  if ((paths.lookup name).bind disk).isNone then some "file_not_found" else none

def requiredNames (step : WorkflowStepConfig) : List String :=
  (step.outputs.filter (·.required)).map (·.name)

/-- A required key with its fault. -/
def requiredFault (step : WorkflowStepConfig) (fault : String → Option String) (name : String) :
    Option String :=
  if name ∈ requiredNames step then fault name else none

/-- The error is read back as the faulty keys, each with its fault, and nothing else. -/
structure ReportsExactly (err : OrchestratorError) (fault : String → Option String) : Prop where
  nodup : ((outputValidationErrorsFor err).map (·.1)).Nodup
  lookup : ∀ name, (outputValidationErrorsFor err).lookup name = fault name

/-- Without an error there is no fault, and an error reports the faults. -/
def FaultsReported {α : Type} (result : Except OrchestratorError α)
    (fault : String → Option String) : Prop :=
  match result with
  | .ok _ => ∀ name, fault name = none
  | .error err => ReportsExactly err fault

/-! ## One report -/

def reportText (report : String × String) : String := report.1 ++ "=" ++ report.2

def faultKinds : List String := ["missing", "empty", "file_not_found"]

structure IsReport (report : String × String) : Prop where
  key : IsIdentifier report.1
  kind : report.2 ∈ faultKinds

theorem isIdentifier_of_faultKind {kind : String} (h : kind ∈ faultKinds) : IsIdentifier kind := by
  simp only [faultKinds, List.mem_cons, List.not_mem_nil, or_false] at h
  rcases h with rfl | rfl | rfl
  · decide
  · decide
  · decide

theorem toList_reportText (report : String × String) :
    (reportText report).toList = report.1.toList ++ '=' :: report.2.toList := by
  rw [reportText, String.toList_append, String.toList_append, List.append_assoc]
  rfl

namespace IsReport

variable {report : String × String}

theorem comma_not_mem (h : IsReport report) : ',' ∉ (reportText report).toList := by
  rw [toList_reportText, List.mem_append, List.mem_cons, not_or, not_or]
  exact ⟨h.key.not_mem (by decide), by decide, (isIdentifier_of_faultKind h.kind).not_mem (by decide)⟩

theorem no_blank (h : IsReport report) :
    ∀ c ∈ (reportText report).toList, Text.isWhitespace c = false := by
  intro c hc
  rw [toList_reportText] at hc
  rcases List.mem_append.mp hc with hc | hc
  · exact not_isWhitespace_of_identifierChar (h.key.chars c hc)
  · rcases List.mem_cons.mp hc with rfl | hc
    · decide
    · exact not_isWhitespace_of_identifierChar ((isIdentifier_of_faultKind h.kind).chars c hc)

/-- A report is read as it was written. -/
theorem parse (h : IsReport report) :
    parseReport (' ' :: (reportText report).toList) = some report := by
  have hkind := isIdentifier_of_faultKind h.kind
  have htrim : Text.trim (' ' :: (reportText report).toList) =
      report.1.toList ++ '=' :: report.2.toList := by
    rw [Text.trim_cons_of_isWhitespace (by decide), Text.trim_of_no_blank h.no_blank,
      toList_reportText]
  have hsplit := Text.splitOnce_append (h.key.not_mem (c := '=') (by decide)) report.2.toList
  unfold parseReport
  rw [htrim, hsplit]
  simp only [h.key.trim, hkind.trim, List.isEmpty_eq_false_iff.mpr h.key.nonempty,
    List.isEmpty_eq_false_iff.mpr hkind.nonempty, Bool.or_self, Bool.false_eq_true, if_false,
    String.ofList_toList]

end IsReport

/-! ## The list of reports -/

/-- The reason that lists the reports behind a beginning. -/
def reportReason (start : String) (reports : List (String × String)) : String :=
  start ++ ": " ++ ", ".intercalate (reports.map reportText)

theorem intercalate_comma {reports : List (String × String)} (h : reports ≠ []) :
    ' ' :: (", ".intercalate (reports.map reportText)).toList =
      [','].intercalate (reports.map fun report => ' ' :: (reportText report).toList) := by
  induction reports with
  | nil => exact absurd rfl h
  | cons report reports ih =>
    by_cases hrest : reports = []
    · subst hrest
      simp
    · rw [List.map_cons, List.map_cons, String.intercalate_cons_of_ne_nil (by simpa using hrest),
        List.intercalate_cons_of_ne_nil (by simpa using hrest), ← ih hrest]
      simp

theorem intercalate_concat (reports : List (String × String)) (last : String × String) :
    ∃ before, (", ".intercalate ((reports ++ [last]).map reportText)).toList =
      before ++ (reportText last).toList := by
  by_cases hreports : reports = []
  · subst hreports
    exact ⟨[], by simp⟩
  · refine ⟨(", ".intercalate (reports.map reportText) ++ ", ").toList, ?_⟩
    rw [List.map_append, String.intercalate_append_of_ne_nil (by simpa using hreports) (by simp),
      String.toList_append]
    simp

/-- The two beginnings of a reason. -/
def IsBeginning (start : String) : Prop := start = missingPrefix ∨ start = invalidPrefix

theorem toList_reportReason (start : String) (reports : List (String × String)) :
    (reportReason start reports).toList =
      (start.toList ++ [':']) ++ ' ' :: (", ".intercalate (reports.map reportText)).toList := by
  simp [reportReason]

section Reason

variable {start : String} {reports : List (String × String)}

/-- A reason neither begins nor ends with a blank. -/
theorem trim_reportReason (hstart : IsBeginning start) (hne : reports ≠ [])
    (h : ∀ report ∈ reports, IsReport report) :
    Text.trim (reportReason start reports).toList = (reportReason start reports).toList := by
  rw [toList_reportReason]
  refine Text.trimMatches_of_bare ⟨?_, ?_⟩
  · rcases hstart with rfl | rfl
    · exact fun c hc => by cases hc; decide
    · exact fun c hc => by cases hc; decide
  · rcases List.eq_nil_or_concat reports with hnil | ⟨before, last, hreports⟩
    · exact absurd hnil hne
    · rw [List.concat_eq_append] at hreports
      subst hreports
      obtain ⟨front, hfront⟩ := intercalate_concat before last
      have hlast := (h last (by simp)).no_blank
      have hsome : (reportText last).toList.getLast?.isSome = true := by
        rw [List.getLast?_isSome, toList_reportText]
        simp
      intro c hc
      rw [hfront, List.append_cons, ← List.append_assoc,
        List.getLast?_append_of_ne_nil _ (List.getLast?_isSome.mp hsome)] at hc
      exact hlast c (List.mem_of_getLast? hc)

/-- Behind either beginning the whole list is left. -/
theorem reportDetails_reportReason (hstart : IsBeginning start) (hne : reports ≠ [])
    (h : ∀ report ∈ reports, IsReport report) :
    reportDetails (reportReason start reports).toList =
      ' ' :: (", ".intercalate (reports.map reportText)).toList := by
  unfold reportDetails
  rw [trim_reportReason hstart hne h, toList_reportReason]
  rcases hstart with rfl | rfl
  · rw [Text.stripPrefix_append]
    rfl
  · have hother : Text.stripPrefix (missingPrefix.toList ++ [':'])
        ((invalidPrefix.toList ++ [':']) ++
          ' ' :: (", ".intercalate (reports.map reportText)).toList) = none := rfl
    rw [hother, Text.stripPrefix_append]
    rfl

/-- The map that is read back from a reason. -/
theorem outputValidationErrorsFor_reportReason (stepId : String) (hstart : IsBeginning start)
    (hne : reports ≠ []) (h : ∀ report ∈ reports, IsReport report) :
    outputValidationErrorsFor (.outputContractValidation stepId (reportReason start reports)) =
      OrderedMap.ofEntries reports := by
  have hcomma : ∀ entry ∈ reports.map fun report => ' ' :: (reportText report).toList,
      ',' ∉ entry := by
    intro entry hentry
    obtain ⟨report, hreport, rfl⟩ := List.mem_map.mp hentry
    rw [List.mem_cons, not_or]
    exact ⟨by decide, (h report hreport).comma_not_mem⟩
  have hread : (reports.map fun report => ' ' :: (reportText report).toList).filterMap
      parseReport = reports := by
    rw [List.filterMap_map]
    refine (List.filterMap_congr fun report hreport => ?_).trans List.filterMap_some
    exact (h report hreport).parse
  show OrderedMap.ofEntries
    (((reportDetails (reportReason start reports).toList).splitOn ',').filterMap parseReport) = _
  rw [reportDetails_reportReason hstart hne h, intercalate_comma hne,
    List.splitOn_intercalate ',' hcomma (by simpa using hne), hread]

/-- A reason whose reports are the faults is read back as the faults. -/
theorem reportsExactly_reportReason {fault : String → Option String} (stepId : String)
    (hstart : IsBeginning start) (hne : reports ≠ []) (h : ∀ report ∈ reports, IsReport report)
    (hfault : ∀ name kind, (name, kind) ∈ reports ↔ fault name = some kind) :
    ReportsExactly (.outputContractValidation stepId (reportReason start reports)) fault := by
  have hread := outputValidationErrorsFor_reportReason stepId hstart hne h
  have hagree : ∀ name kind other, (name, kind) ∈ reports → (name, other) ∈ reports →
      kind = other := by
    intro name kind other hkind hother
    exact Option.some.inj (((hfault name kind).mp hkind).symm.trans ((hfault name other).mp hother))
  have hmem : ∀ name kind, (name, kind) ∈ OrderedMap.ofEntries reports ↔ fault name = some kind :=
    fun name kind => (OrderedMap.mem_ofEntries_iff hagree).trans (hfault name kind)
  have hnodup := (OrderedMap.sorted_ofEntries reports).nodup
  refine ⟨by rw [hread]; exact hnodup, fun name => ?_⟩
  rw [hread]
  ext kind
  rw [← hmem name kind]
  exact ⟨OrderedMap.mem_of_lookup, OrderedMap.lookup_of_mem hnodup⟩

end Reason

/-! ## The two encoders -/

/-- The faults of the required keys, in the order of the contract. -/
def faultReports (step : WorkflowStepConfig) (fault : String → Option String) :
    List (String × String) :=
  (requiredNames step).filterMap fun name => (fault name).map fun kind => (name, kind)

section Encoders

variable {step : WorkflowStepConfig} {fault : String → Option String}

variable {name kind : String}

theorem mem_faultReports :
    (name, kind) ∈ faultReports step fault ↔ requiredFault step fault name = some kind := by
  unfold faultReports requiredFault
  rw [List.mem_filterMap]
  constructor
  · rintro ⟨required, hrequired, hkind⟩
    obtain ⟨held, hheld, hpair⟩ := Option.map_eq_some_iff.mp hkind
    cases hpair
    rw [if_pos hrequired, hheld]
  · intro hkind
    split at hkind
    · next hrequired => exact ⟨name, hrequired, by rw [hkind]; rfl⟩
    · cases hkind

theorem requiredFault_of_faultReports (h : faultReports step fault = []) (name : String) :
    requiredFault step fault name = none := by
  refine Option.eq_none_iff_forall_ne_some.mpr fun kind hkind => ?_
  have hmem := mem_faultReports.mpr hkind
  rw [h] at hmem
  cases hmem

theorem insertionSort_reportText (reports : List (String × String)) :
    (reports.map reportText).insertionSort (· ≤ ·) =
      (reports.insertionSort fun a b => reportText a ≤ reportText b).map reportText :=
  (List.map_insertionSort _ _ reportText reports fun _ _ _ _ => Iff.rfl).symm

/-- An error that lists the faults, in whichever order, is read back as the faults. -/
theorem reportsExactly_faultReports {start : String} (hstart : IsBeginning start)
    (hkeys : ∀ key ∈ step.outputs, IsIdentifier key.name)
    (hkinds : ∀ name kind, fault name = some kind → kind ∈ faultKinds)
    (hne : faultReports step fault ≠ []) :
    ReportsExactly (.outputContractValidation step.id (start ++ ": " ++
        ", ".intercalate (((faultReports step fault).map reportText).insertionSort (· ≤ ·))))
      (requiredFault step fault) := by
  rw [insertionSort_reportText]
  refine reportsExactly_reportReason step.id hstart ?_ ?_ fun name kind => ?_
  · intro hnil
    exact hne (List.perm_nil.mp (hnil ▸ (List.perm_insertionSort _ _).symm))
  · rintro ⟨name, kind⟩ hreport
    have hfault := mem_faultReports.mp ((List.mem_insertionSort _).mp hreport)
    unfold requiredFault at hfault
    split at hfault
    · next hrequired =>
        obtain ⟨key, hkey, rfl⟩ := List.mem_map.mp hrequired
        exact ⟨hkeys key (List.mem_filter.mp hkey).1, hkinds _ _ hfault⟩
    · cases hfault
  · rw [List.mem_insertionSort]
    exact mem_faultReports

/-! ### `validate_outputs_contract` -/

theorem reportText_mk (name kind : String) : reportText (name, kind) = name ++ ("=" ++ kind) :=
  String.append_assoc

theorem requiredIssue_eq (outputs : Outputs) (key : OutputKey) :
    requiredIssue outputs key =
      (outputFault outputs key.name).map fun kind => reportText (key.name, kind) := by
  simp only [reportText_mk]
  unfold requiredIssue outputFault
  generalize Json.field outputs key.name = held
  cases held with
  | none => rfl
  | some value =>
    cases value with
    | str text =>
      dsimp only
      split
      · rfl
      · rfl
    | _ => rfl

theorem requiredIssues_eq (outputs : Outputs) :
    (step.outputs.filter (·.required)).filterMap (requiredIssue outputs) =
      (faultReports step (outputFault outputs)).map reportText := by
  unfold faultReports requiredNames
  rw [List.map_filterMap, List.filterMap_map]
  refine List.filterMap_congr fun key _ => ?_
  rw [requiredIssue_eq, Function.comp_apply, Option.map_map]
  rfl

theorem outputFault_kind {outputs : Outputs} {name kind : String}
    (h : outputFault outputs name = some kind) : kind ∈ faultKinds := by
  unfold outputFault at h
  split at h
  · cases h; decide
  · split at h
    · cases h; decide
    · cases h
  · cases h

theorem validateOutputsContract_reported (hkeys : ∀ key ∈ step.outputs, IsIdentifier key.name)
    (outputs : Outputs) : FaultsReported (validateOutputsContract step outputs)
      (requiredFault step (outputFault outputs)) := by
  unfold validateOutputsContract
  dsimp only
  rw [requiredIssues_eq]
  by_cases hne : faultReports step (outputFault outputs) = []
  · rw [hne]
    exact requiredFault_of_faultReports hne
  · rw [if_neg (by simpa using hne)]
    refine reportsExactly_faultReports ?_ hkeys (fun _ _ => outputFault_kind) hne
    split
    · exact .inl rfl
    · exact .inr rfl

/-! ### `load_outputs_from_files` -/

variable {fromStr : String → Option Json} {paths : List (String × Location)} {disk : OutputDisk}

theorem missingRequired_eq :
    missingRequired paths disk step.outputs =
      (faultReports step (fileFault paths disk)).map reportText := by
  unfold missingRequired faultReports requiredNames
  rw [List.map_filterMap, List.filterMap_map, List.filterMap_filter, ← List.filterMap_eq_map,
    List.filterMap_filter]
  refine List.filterMap_congr fun key _ => ?_
  cases key.required with
  | false => rfl
  | true =>
    simp only [Bool.true_and, if_true, Function.comp_apply, fileFault]
    split
    · exact congrArg some (reportText_mk key.name "file_not_found").symm
    · rfl

theorem fileFault_kind (h : fileFault paths disk name = some kind) : kind ∈ faultKinds := by
  unfold fileFault at h
  split at h
  · cases h; decide
  · cases h

/-- Every key of the contract has its path, and no file that cannot be read. -/
def AllRead (step : WorkflowStepConfig) (paths : List (String × Location)) (disk : OutputDisk) :
    Prop :=
  PathsMapped paths step.outputs ∧ FilesReadable paths disk step.outputs

theorem loadOutputsFromFiles_reported (hkeys : ∀ key ∈ step.outputs, IsIdentifier key.name)
    (hread : AllRead step paths disk) :
    FaultsReported (loadOutputsFromFiles fromStr step paths disk)
      (requiredFault step (fileFault paths disk)) := by
  by_cases hne : faultReports step (fileFault paths disk) = []
  · have hfaults := requiredFault_of_faultReports hne
    unfold loadOutputsFromFiles
    split
    · exact hfaults
    · obtain ⟨outputs, hload⟩ : ∃ outputs,
          step.outputs.foldlM (loadOutputKey fromStr step paths disk) ([], []) =
            .ok (outputs, missingRequired paths disk step.outputs) :=
        foldlM_loadOutputKey hread.1 hread.2 ([], [])
      rw [missingRequired_eq, hne] at hload
      rw [hload]
      exact hfaults
  · have hmissing : missingRequired paths disk step.outputs ≠ [] := by
      rw [missingRequired_eq]
      simpa using hne
    rw [loadOutputsFromFiles_missing hread.1 hread.2 hmissing, missingOutputs, missingRequired_eq]
    exact reportsExactly_faultReports (.inl rfl) hkeys (fun _ _ => fileFault_kind) hne

theorem reportDetails_sublist (reason : List Char) : (reportDetails reason).Sublist reason := by
  have hstrip : ∀ pat details, Text.stripPrefix pat (Text.trim reason) = some details →
      details.Sublist reason := by
    intro pat details h
    unfold Text.stripPrefix at h
    split at h
    · cases h
      exact (List.drop_sublist _ _).trans (Text.trim_sublist reason)
    · cases h
  unfold reportDetails
  cases hmissing : Text.stripPrefix (missingPrefix.toList ++ [':']) (Text.trim reason) with
  | some details => exact hstrip _ _ hmissing
  | none =>
    cases hinvalid : Text.stripPrefix (invalidPrefix.toList ++ [':']) (Text.trim reason) with
    | some details => exact hstrip _ _ hinvalid
    | none => exact List.Sublist.refl _

/-- A reason without a list is read back as nothing. -/
theorem outputValidationErrorsFor_of_not_mem {stepId reason : String}
    (hcomma : ',' ∉ reason.toList) (hequals : '=' ∉ reason.toList) :
    outputValidationErrorsFor (.outputContractValidation stepId reason) = [] := by
  have hdetails := reportDetails_sublist reason.toList
  show OrderedMap.ofEntries
    (((reportDetails reason.toList).splitOn ',').filterMap parseReport) = _
  have hnone : parseReport (reportDetails reason.toList) = none := by
    have hsplit : Text.splitOnce '=' (Text.trim (reportDetails reason.toList)) = none :=
      Text.splitOnce_eq_none_iff.mpr fun h => hequals (hdetails.subset (Text.mem_of_mem_trim h))
    rw [parseReport, hsplit]
  rw [List.splitOn_eq_singleton fun h => hcomma (hdetails.subset h), List.filterMap_cons, hnone]
  rfl

/-- Where a key has no path, or a file that cannot be read, no key is blamed. -/
theorem loadOutputsFromFiles_unread (hkeys : ∀ key ∈ step.outputs, IsIdentifier key.name)
    (hunread : ¬ AllRead step paths disk) :
    ∃ err, loadOutputsFromFiles fromStr step paths disk = .error err ∧
      outputValidationErrorsFor err = [] := by
  obtain ⟨first, hfirst, err, hstop, hload⟩ := loadOutputsFromFiles_error hunread
  refine ⟨err, hload, ?_⟩
  rcases hstop with ⟨-, rfl⟩ | ⟨path, kind, -, -, rfl⟩
  · have hfresh : ∀ c, identifierChar c = false →
        c ∉ "missing output_files mapping for key `".toList → c ∉ "`".toList →
          c ∉ (unmappedReason first.name).toList := fun c hc hbefore hafter =>
      Text.not_mem_toList_append
        (Text.not_mem_toList_append hbefore ((hkeys first hfirst).not_mem hc)) hafter
    exact outputValidationErrorsFor_of_not_mem
      (hfresh ',' (by decide) (by decide) (by decide))
      (hfresh '=' (by decide) (by decide) (by decide))
  · rfl

end Encoders

/-! ## Both ways together -/

/-- The errors of both encoders are read back exactly. Where a key has no path to look at, or a
file that cannot be read, the error of the scan is about that and blames no key. -/
theorem output_errors_read_back (step : WorkflowStepConfig)
    (hkeys : ∀ key ∈ step.outputs, IsIdentifier key.name) :
    (∀ outputs, FaultsReported (validateOutputsContract step outputs)
      (requiredFault step (outputFault outputs))) ∧
    ∀ fromStr paths disk,
      (AllRead step paths disk → FaultsReported (loadOutputsFromFiles fromStr step paths disk)
        (requiredFault step (fileFault paths disk))) ∧
      (¬ AllRead step paths disk → ∃ err,
        loadOutputsFromFiles fromStr step paths disk = .error err ∧
          outputValidationErrorsFor err = []) := by
  refine ⟨validateOutputsContract_reported hkeys, fun fromStr paths disk => ⟨?_, ?_⟩⟩
  · exact loadOutputsFromFiles_reported hkeys
  · exact loadOutputsFromFiles_unread hkeys

/-- A step with two required keys and one optional one. -/
def draftStep : WorkflowStepConfig where
  id := "draft"
  agent := "writer"
  outputs := [{ name := "summary", required := true }, { name := "notes", required := false },
    { name := "next-step_2", required := true }]
  outputFiles := []
  finalOutputPriority := []

theorem output_errors_of_draft_read_back :
    (∃ err, validateOutputsContract draftStep [("summary", .str " ")] = .error err ∧
      ReportsExactly err (requiredFault draftStep (outputFault [("summary", .str " ")]))) ∧
    requiredFault draftStep (outputFault [("summary", .str " ")]) "summary" = some "empty" ∧
    requiredFault draftStep (outputFault [("summary", .str " ")]) "next-step_2" = some "missing" ∧
    requiredFault draftStep (outputFault [("summary", .str " ")]) "notes" = none := by
  have hreported := (output_errors_read_back draftStep (by decide)).1 [("summary", .str " ")]
  refine ⟨?_, by decide, by decide, by decide⟩
  cases hresult : validateOutputsContract draftStep [("summary", .str " ")] with
  | ok _ =>
    rw [hresult] at hreported
    exact absurd (hreported "summary") (by decide)
  | error err =>
    rw [hresult] at hreported
    exact ⟨err, rfl, hreported⟩

end Direclaw.Orchestration
