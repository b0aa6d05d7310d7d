import Direclaw.Automation.Interleaving
import Direclaw.Automation.ScheduleCalls
import Direclaw.Lib.Disk
import Direclaw.Lib.OrderedMap

/-!
# Scoped schedule functions

What a call of a schedule function with the scope of an orchestrator can read and write of
the job files of other orchestrators.
-/

namespace Direclaw.Automation

open Direclaw.Lib Direclaw.Orchestration

/-! ## Whose files -/

section Scope

variable {P : Type} (sys : JobSystem P) (settings : Settings)

def RootOf (orchestratorId root : String) : Prop :=
  settings.resolveOrchestratorRuntimeRoot orchestratorId = .ok root

def Inside (orchestratorId : String) (x : P) : Prop :=
  ∃ root, RootOf settings orchestratorId root ∧ sys.below root x

def JobFileOf (orchestratorId : String) (x : P) : Prop :=
  ∃ root jobId, RootOf settings orchestratorId root ∧ '/' ∉ jobId.toList ∧
    sys.place (SchedulerFiles.jobPath root jobId) = x

def OtherJobFile (scope : String) (x : P) : Prop :=
  ∃ orchestratorId, orchestratorId ≠ scope ∧ JobFileOf sys settings orchestratorId x

def PlainName (name : String) : Prop :=
  name ≠ "" ∧ name ≠ "." ∧ name ≠ ".." ∧ '/' ∉ name.toList

/-- No file is below the workspaces of two orchestrators. -/
def DisjointWorkspaces : Prop :=
  ∀ p q rootP rootQ x, p ≠ q → RootOf settings p rootP → RootOf settings q rootQ →
    sys.below rootP x → ¬ sys.below rootQ x

/-- A plain name leads to the file of that name in the directory of the jobs, which is below
the runtime root. -/
structure PlainNames : Prop where
  nameIn_iff : ∀ {p root : String}, RootOf settings p root → ∀ {x : P} {name : String},
    sys.nameIn (jobsDir root) x = some name ↔
      PlainName name ∧ sys.place (joinPath (jobsDir root) name) = x
  below : ∀ {p root : String}, RootOf settings p root → ∀ {name : String}, PlainName name →
    sys.below root (sys.place (joinPath (jobsDir root) name))

/-- Every orchestrator that is configured can have a job that was deleted. -/
def StoresJobs : Prop :=
  ∀ p root, RootOf settings p root →
    ∃ text job, sys.decode text = .ok job ∧ job.orchestratorId = p ∧ job.state = .deleted

/-- The files are the same but for the jobs of other orchestrators. -/
def SameButOthers [DecidableEq P] (scope : String) (files files' : FileTexts P) : Prop :=
  ∀ x, ¬ OtherJobFile sys settings scope x → files'.lookup x = files.lookup x

/-- A call neither learns of the job files of other orchestrators nor writes outside the
workspace of its own. -/
structure Contained [DecidableEq P] (scope : String) (call : FileTexts P → CallOutcome P)
    (files : FileTexts P) : Prop where
  independent : ∀ files', SameButOthers sys settings scope files files' → call files' = call files
  inside : ∀ write ∈ (call files).writes, Inside sys settings scope write.1

end Scope

/-! ## When a call stays in its scope -/

section Stays

variable {P : Type} [DecidableEq P] (sys : JobSystem P) (settings : Settings) (scope : String)
  (now : Int) (nanos : ℕ) (files : FileTexts P)

def scopedTo : FunctionExecutionContext := ⟨some settings, some scope⟩

/-- The file that the id of a job leads to is not a job of another orchestrator. -/
def ReadsOwn (jobId : String) : Prop :=
  ∀ root, RootOf settings scope root →
    ¬ OtherJobFile sys settings scope (sys.place (SchedulerFiles.jobPath root jobId))

/-- A job that the edit accepts is written back into the workspace. -/
def WritesOwn (jobId : String) (change : JobEdit) : Prop :=
  ∀ root job, RootOf settings scope root → loadJob sys files root jobId = .ok job →
    (∃ change' job', normalizedEdit settings scope change = .ok change' ∧
      change'.apply sys.zones jobId now job = .ok job') →
    sys.writeError (sys.place (SchedulerFiles.jobPath root job.jobId)) = none →
      sys.below root (sys.place (SchedulerFiles.jobPath root job.jobId))

/-- A job for another orchestrator is refused. -/
def CreatesOwn (input : NewJob) : Prop :=
  input.orchestratorId ≠ scope →
    ∀ root job, preparedCreate sys (scopedTo settings scope) now nanos input = .ok (root, job) →
      sys.writeError (sys.place (SchedulerFiles.jobPath root (newJobId input.orchestratorId nanos)))
        ≠ none

/-- Another orchestrator is not configured. -/
def ListsOwn (orchestratorId : String) : Prop :=
  orchestratorId ≠ scope → ∀ root, ¬ RootOf settings orchestratorId root

def StaysWithin : ScheduleFunction → Prop
  | .scheduleCreate input => CreatesOwn sys settings scope now nanos input
  | .scheduleList orchestratorId => ListsOwn settings scope orchestratorId
  | .scheduleShow jobId => ReadsOwn sys settings scope jobId
  | .scheduleUpdate jobId patch =>
    ReadsOwn sys settings scope jobId ∧
      WritesOwn sys settings scope now files jobId (.update patch)
  | .schedulePause jobId =>
    ReadsOwn sys settings scope jobId ∧ WritesOwn sys settings scope now files jobId .pause
  | .scheduleResume jobId =>
    ReadsOwn sys settings scope jobId ∧ WritesOwn sys settings scope now files jobId .resume
  | .scheduleDelete jobId =>
    ReadsOwn sys settings scope jobId ∧ WritesOwn sys settings scope now files jobId .delete
  | .scheduleRunNow jobId =>
    ReadsOwn sys settings scope jobId ∧ WritesOwn sys settings scope now files jobId .runNow

end Stays

/-! ## Files -/

section Files

variable {P : Type} {sys : JobSystem P} {settings : Settings} {scope : String}

def keptFiles (keep : P → Bool) (files : FileTexts P) : FileTexts P :=
  files.filter fun file => keep file.1

variable {x : P}

theorem lookup_keptFiles [DecidableEq P] {keep : P → Bool} (h : keep x = true) (files : FileTexts P)
    : (keptFiles keep files).lookup x = files.lookup x := by
  unfold keptFiles
  induction files with
  | nil => rfl
  | cons file files ih =>
    rw [List.filter_cons, List.lookup_cons]
    by_cases hx : x = file.1
    · subst hx
      rw [if_pos h, List.lookup_cons, beq_self_eq_true]
    · have hne : (x == file.1) = false := by simpa using hx
      rw [hne]
      split
      · rw [List.lookup_cons, hne]
        exact ih
      · exact ih

theorem lookup_keptFiles_of_not [DecidableEq P] {keep : P → Bool} (h : keep x = false)
    (files : FileTexts P) : (keptFiles keep files).lookup x = none := by
  rw [List.lookup_eq_none_iff]
  intro file hfile
  have hkeep := (List.mem_filter.mp hfile).2
  have hne : x ≠ file.1 := by
    rintro rfl
    rw [h] at hkeep
    cases hkeep
  simpa using hne

theorem plainName_json {jobId : String} (h : '/' ∉ jobId.toList) : PlainName s!"{jobId}.json" := by
  have hlist : (s!"{jobId}.json").toList = jobId.toList ++ ['.', 'j', 's', 'o', 'n'] := by
    rw [String.toList_append]
    rfl
  have hne : ∀ other : String, other.toList.length < 5 → s!"{jobId}.json" ≠ other := by
    intro other hlength heq
    rw [← heq, hlist, List.length_append] at hlength
    simp at hlength
  refine ⟨hne _ (by decide), hne _ (by decide), hne _ (by decide), ?_⟩
  rw [hlist]
  simpa using h

theorem JobFileOf.inside (hnames : PlainNames sys settings) {p : String}
    (h : JobFileOf sys settings p x) : Inside sys settings p x := by
  obtain ⟨root, jobId, hroot, hslash, rfl⟩ := h
  exact ⟨root, hroot, hnames.below hroot (plainName_json hslash)⟩

theorem not_other_of_inside (hdisjoint : DisjointWorkspaces sys settings)
    (hnames : PlainNames sys settings) (h : Inside sys settings scope x) :
    ¬ OtherJobFile sys settings scope x := by
  rintro ⟨p, hne, hfile⟩
  obtain ⟨rootP, hrootP, hbelowP⟩ := hfile.inside hnames
  obtain ⟨root, hroot, hbelow⟩ := h
  exact hdisjoint p scope rootP root x hne hrootP hroot hbelowP hbelow

variable [DecidableEq P] {files files' : FileTexts P}

theorem loadJob_congr {root jobId : String}
    (h : files'.lookup (sys.place (SchedulerFiles.jobPath root jobId)) =
      files.lookup (sys.place (SchedulerFiles.jobPath root jobId))) :
    loadJob sys files' root jobId = loadJob sys files root jobId := by
  unfold loadJob readJob
  rw [h]

/-- A call that reads one file learns of another orchestrator exactly if the file is its. -/
theorem independent_iff_of_load {root jobId : String} {call : FileTexts P → CallOutcome P}
    {found : ScheduledJob → CallOutcome P} {unknown : CallOutcome P}
    (hcall : ∀ files, call files = match loadJob sys files root jobId with
      | .ok job => found job
      | .error _ => unknown)
    (hfound : ∃ text job, sys.decode text = .ok job ∧ found job ≠ unknown) :
    (∀ files', SameButOthers sys settings scope files files' → call files' = call files) ↔
      ¬ OtherJobFile sys settings scope (sys.place (SchedulerFiles.jobPath root jobId)) := by
  constructor
  · intro hsame hother
    obtain ⟨text, job, hdecode, hne⟩ := hfound
    have hunknown : call (keptFiles
        (fun x => decide (x ≠ sys.place (SchedulerFiles.jobPath root jobId))) files) = unknown := by
      rw [hcall, loadJob, readJob, lookup_keptFiles_of_not (by simp)]
    have hadded : call ((sys.place (SchedulerFiles.jobPath root jobId), text) :: files) = found job := by
      rw [hcall, loadJob, readJob, List.lookup_cons, beq_self_eq_true]
      simp only [hdecode]
      rfl
    have hplace : ∀ x, ¬ OtherJobFile sys settings scope x →
        x ≠ sys.place (SchedulerFiles.jobPath root jobId) := by
      rintro x hx rfl
      exact hx hother
    refine hne ?_
    rw [← hunknown, ← hadded]
    refine (hsame _ fun x hx => ?_).trans (hsame _ fun x hx => ?_).symm
    · rw [List.lookup_cons, beq_false_of_ne (hplace x hx)]
    · refine lookup_keptFiles ?_ files
      exact decide_eq_true (hplace x hx)
  · intro hown files' hsame
    rw [hcall, hcall, loadJob_congr (hsame _ hown)]

end Files

/-! ## Messages -/

section Messages

/-- Texts that begin differently are different. -/
theorem ne_of_head {a b : String} (h : a.toList.head? ≠ b.toList.head?) : a ≠ b := by
  rintro rfl
  exact h rfl

theorem unknownJob_head (jobId : String) :
    (s!"unknown scheduler job `{jobId}`").toList.head? = some 'u' := by
  rw [String.toList_append, String.toList_append]
  rfl

/-- The text begins with the path of a field. -/
def SaidOf (fieldPath reason : String) : Prop := ∃ rest, reason = fieldPath ++ rest

theorem saidOf_append (fieldPath rest : String) : SaidOf fieldPath (fieldPath ++ rest) := ⟨rest, rfl⟩

theorem SaidOf.append {fieldPath reason : String} (h : SaidOf fieldPath reason) (more : String) :
    SaidOf fieldPath (reason ++ more) := by
  obtain ⟨rest, rfl⟩ := h
  exact ⟨rest ++ more, String.append_assoc⟩

theorem requiredTrimmedString_error {obj : List (String × Json)} {key fieldPath reason : String}
    (h : requiredTrimmedString obj key fieldPath = .error reason) : SaidOf fieldPath reason := by
  unfold requiredTrimmedString at h
  split at h
  · cases h
    exact ((saidOf_append _ _).append _).append _
  · split at h
    · cases h
      exact ((saidOf_append _ _).append _).append _
    · cases h

theorem optionalTrimmedString_error {obj : List (String × Json)} {key fieldPath reason : String}
    (h : optionalTrimmedString obj key fieldPath = .error reason) : SaidOf fieldPath reason := by
  unfold optionalTrimmedString at h
  split at h
  · cases h
  · cases h
  · split at h
    · cases h
      exact ((saidOf_append _ _).append _).append _
    · cases h
  · cases h
    exact ((saidOf_append _ _).append _).append _

theorem parsePostingMode_error {value fieldPath reason : String}
    (h : parsePostingMode value fieldPath = .error reason) : SaidOf fieldPath reason := by
  unfold parsePostingMode at h
  split at h
  · cases h
  · split at h
    · cases h
    · cases h
      exact ((saidOf_append _ _).append _).append _

theorem parseSlackTargetRef_error {value : Json} {fieldPath reason : String}
    (h : parseSlackTargetRef value fieldPath = .error reason) : SaidOf fieldPath reason := by
  unfold parseSlackTargetRef at h
  split at h
  · split at h
    · simp only at h
      split at h
      · cases h
        exact ((saidOf_append _ _).append _).append _
      · rcases bind_eq_error h with h | ⟨_, -, h⟩
        · exact requiredTrimmedString_error h
        rcases bind_eq_error h with h | ⟨_, -, h⟩
        · exact requiredTrimmedString_error h
        rcases bind_eq_error h with h | ⟨_, -, h⟩
        · exact requiredTrimmedString_error h
        rcases bind_eq_error h with h | ⟨_, -, h⟩
        · exact parsePostingMode_error h
        rcases bind_eq_error h with h | ⟨_, -, h⟩
        · exact optionalTrimmedString_error h
        split at h
        · cases h
        · split at h
          · cases h
            exact saidOf_append _ _
          · cases h
    · cases h
  · cases h
    exact saidOf_append _ _

end Messages

/-! ## Edits -/

section Edits

variable {P : Type} {sys : JobSystem P} {settings : Settings} {scope : String} {now : Int}
  {nanos : ℕ}

theorem deleted_refuses {job : ScheduledJob} (h : job.state = .deleted) (change : JobEdit)
    (jobId : String) : ∃ reason, change.apply sys.zones jobId now job = .error reason ∧
      reason.toList.head? ≠ some 'u' := by
  have hmove : ∀ next, ∃ reason, moveJob next now job = .error reason ∧
      reason.toList.head? ≠ some 'u' := by
    intro next
    have hvalid : validTransition job.state next = false := by
      rw [h]
      cases next <;> rfl
    refine ⟨_, by rw [moveJob, hvalid]; rfl, ?_⟩
    simp only [String.toList_append, List.append_assoc]
    exact ne_of_beq_false rfl
  cases change with
  | update patch =>
    refine ⟨s!"job `{jobId}` is deleted", ?_, ?_⟩
    · show updateJob sys.zones jobId patch now job = _
      unfold updateJob
      rw [if_pos h]
      rfl
    · simp only [String.toList_append, List.append_assoc]
      exact ne_of_beq_false rfl
  | pause => exact hmove .paused
  | resume => exact hmove .enabled
  | delete => exact hmove .deleted
  | runNow =>
    refine ⟨_, if_pos (by rw [h]; nofun), ?_⟩
    simp only [String.toList_append, List.append_assoc]
    exact ne_of_beq_false rfl

theorem normalizedEdit_error {change : JobEdit} {reason : String}
    (h : normalizedEdit settings scope change = .error reason) :
    reason.toList.head? ≠ some 'u' := by
  cases change with
  | update patch =>
    rcases bind_eq_error h with h | ⟨⟨patch', target⟩, -, h⟩
    · obtain ⟨rest, rfl⟩ : SaidOf "patch.targetRef" reason := by
        unfold normalizePatchSlackTargetRef at h
        split at h
        · cases h
        · cases h
        · cases hparsed : parseSlackTargetRef _ "patch.targetRef" with
          | ok parsed =>
            rw [hparsed] at h
            cases h
          | error reason' =>
            rw [hparsed] at h
            cases h
            exact parseSlackTargetRef_error hparsed
      rw [String.toList_append]
      exact ne_of_beq_false rfl
    · rcases bind_eq_error h with h | ⟨_, -, h⟩
      · unfold validateProfileMapping at h
        split at h
        · cases h
        · split at h
          · cases h
            simp only [String.toList_append, List.append_assoc]
            exact ne_of_beq_false rfl
          · split at h
            · cases h
              simp only [String.toList_append, List.append_assoc]
              exact ne_of_beq_false rfl
            · split at h
              · cases h
                simp only [String.toList_append, List.append_assoc]
                exact ne_of_beq_false rfl
              · cases h
      · cases h
  | pause => cases h
  | resume => cases h
  | delete => cases h
  | runNow => cases h

theorem failed_ne {a b : String} (h : a ≠ b) : (failed a : CallOutcome P) ≠ failed b := by
  intro heq
  have hvalue := congrArg CallOutcome.value heq
  simp only [failed, Except.error.injEq, OrchestratorError.selectorValidation.injEq] at hvalue
  exact h hvalue

variable {root jobId : String}

theorem rootOf_unique {root' : String} (h : RootOf settings scope root)
    (h' : RootOf settings scope root') : root' = root :=
  Except.ok.inj (h'.symm.trans h)

theorem inside_iff (h : RootOf settings scope root) {x : P} :
    Inside sys settings scope x ↔ sys.below root x := by
  constructor
  · rintro ⟨root', hroot', hbelow⟩
    rwa [rootOf_unique h hroot'] at hbelow
  · exact fun hbelow => ⟨root, h, hbelow⟩

theorem runtimeRootOf_ok (h : RootOf settings scope root) : runtimeRootOf settings scope = .ok root := by
  unfold runtimeRootOf
  rw [h]
  rfl

/-- What an edit makes of the job that was found. -/
def editFound (sys : JobSystem P) (settings : Settings) (scope : String) (now : Int)
    (event root jobId : String) (change : JobEdit) (job : ScheduledJob) : CallOutcome P :=
  match (do
    let change ← normalizedEdit settings scope change
    change.apply sys.zones jobId now job : Except String ScheduledJob) with
  | .error reason => failed reason
  | .ok job => persisted sys now event root job

variable {function event : String} {change : JobEdit}

variable {job : ScheduledJob} {err : ConfigError}

theorem editFound_ne (h : job.state = .deleted) :
    editFound sys settings scope now event root jobId change job ≠
      failed s!"unknown scheduler job `{jobId}`" := by
  unfold editFound
  cases hnormal : normalizedEdit settings scope change with
  | error reason =>
    refine failed_ne (ne_of_head ?_)
    rw [unknownJob_head]
    exact normalizedEdit_error hnormal
  | ok change' =>
    obtain ⟨reason, happly, hhead⟩ :
        ∃ reason, change'.apply sys.zones jobId now job = .error reason ∧
          reason.toList.head? ≠ some 'u' := deleted_refuses h change' jobId
    simp only [bind, Except.bind]
    rw [happly]
    refine failed_ne (ne_of_head ?_)
    rw [unknownJob_head]
    exact hhead

/-- What `persist_job` writes is inside exactly if the file it goes to is. -/
theorem persisted_inside_iff (h : RootOf settings scope root) :
    (∀ write ∈ (persisted sys now event root job).writes, Inside sys settings scope write.1) ↔
      (sys.writeError (sys.place (SchedulerFiles.jobPath root job.jobId)) = none →
        sys.below root (sys.place (SchedulerFiles.jobPath root job.jobId))) := by
  unfold persisted
  cases hwrite : sys.writeError (sys.place (SchedulerFiles.jobPath root job.jobId)) with
  | some err =>
    simp only [hwrite]
    exact iff_of_true (by nofun) (by nofun)
  | none =>
    simp only [hwrite, List.forall_mem_singleton, inside_iff h, forall_const]

variable [DecidableEq P] {files : FileTexts P}

theorem jobStoreForJobId_scope (h : RootOf settings scope root) :
    jobStoreForJobId sys files settings jobId (some scope) =
      match loadJob sys files root jobId with
      | .ok _ => .ok scope
      | .error _ => .error s!"unknown scheduler job `{jobId}`" := by
  show findJobStore sys files settings jobId [scope] = _
  unfold findJobStore
  rw [runtimeRootOf_ok h]
  cases hload : loadJob sys files root jobId with
  | ok job => simp only [hload, bind, Except.bind, Except.toBool, if_true, pure, Except.pure]
  | error reason => simp [hload, bind, Except.bind, Except.toBool, findJobStore]

theorem jobStoreForJobId_unresolved (h : settings.resolveOrchestratorRuntimeRoot scope = .error err)
    : jobStoreForJobId sys files settings jobId (some scope) = .error err.display := by
  show findJobStore sys files settings jobId [scope] = _
  unfold findJobStore runtimeRootOf
  rw [h]
  rfl

theorem executeEdit_eq (h : RootOf settings scope root) (files : FileTexts P) :
    executeEdit sys (scopedTo settings scope) now files function event jobId change =
      match loadJob sys files root jobId with
      | .ok job => editFound sys settings scope now event root jobId change job
      | .error _ => failed s!"unknown scheduler job `{jobId}`" := by
  unfold executeEdit preparedEdit editFound
  have hsettings : withSettings (scopedTo settings scope) function = .ok settings := rfl
  have hscope : (scopedTo settings scope).orchestratorId = some scope := rfl
  rw [hsettings, hscope]
  simp only [bind, Except.bind]
  rw [jobStoreForJobId_scope h]
  cases hload : loadJob sys files root jobId with
  | error reason => simp only
  | ok job =>
    simp only
    cases normalizedEdit settings scope change with
    | error reason => simp only
    | ok change' =>
      simp only
      rw [runtimeRootOf_ok h]
      simp only
      rw [hload]
      simp only
      cases change'.apply sys.zones jobId now job with
      | error reason => simp only
      | ok job' => simp only [pure, Except.pure]

theorem executeEdit_unresolved (h : settings.resolveOrchestratorRuntimeRoot scope = .error err)
    (files : FileTexts P) :
    executeEdit sys (scopedTo settings scope) now files function event jobId change =
      failed err.display := by
  unfold executeEdit preparedEdit
  have hsettings : withSettings (scopedTo settings scope) function = .ok settings := rfl
  have hscope : (scopedTo settings scope).orchestratorId = some scope := rfl
  rw [hsettings, hscope]
  simp only [bind, Except.bind]
  rw [jobStoreForJobId_unresolved h]

theorem edit_inside_iff (h : RootOf settings scope root) :
    (∀ write ∈ (executeEdit sys (scopedTo settings scope) now files function event jobId change).writes,
      Inside sys settings scope write.1) ↔ WritesOwn sys settings scope now files jobId change := by
  unfold WritesOwn
  rw [executeEdit_eq h]
  cases hload : loadJob sys files root jobId with
  | error reason =>
    refine iff_of_true ?_ ?_
    · nofun
    · intro root' job hroot' hjob
      rw [rootOf_unique h hroot', hload] at hjob
      cases hjob
  | ok job =>
    simp only [editFound]
    cases hnormal : normalizedEdit settings scope change with
    | error reason =>
      refine iff_of_true ?_ ?_
      · nofun
      · rintro root' job' - - ⟨change', job'', ⟨⟩, -⟩
    | ok change' =>
      simp only [bind, Except.bind]
      cases happly : change'.apply sys.zones jobId now job with
      | error reason =>
        refine iff_of_true ?_ ?_
        · nofun
        · rintro root' job' hroot' hjob ⟨_, job'', ⟨⟩, happly'⟩
          rw [rootOf_unique h hroot', hload] at hjob
          cases hjob
          rw [happly] at happly'
          cases happly'
      | ok job' =>
        have hid := (JobEdit.apply_keeps happly).1
        simp only
        rw [persisted_inside_iff h, hid]
        constructor
        · rintro hwrites root' held hroot' hheld -
          rw [rootOf_unique h hroot'] at hheld ⊢
          rw [hload] at hheld
          cases hheld
          exact hwrites
        · exact fun hwrites => hwrites root job h hload ⟨change', job', rfl, happly⟩

theorem edit_contained_iff (hstores : StoresJobs sys settings) :
    Contained sys settings scope
      (fun files => executeEdit sys (scopedTo settings scope) now files function event jobId change)
      files ↔
        ReadsOwn sys settings scope jobId ∧ WritesOwn sys settings scope now files jobId change := by
  cases hroot : settings.resolveOrchestratorRuntimeRoot scope with
  | error err =>
    have hnone : ∀ root, ¬ RootOf settings scope root := by
      intro root h
      rw [RootOf, hroot] at h
      cases h
    refine iff_of_true ⟨fun files' _ => ?_, ?_⟩ ⟨?_, ?_⟩
    · rw [executeEdit_unresolved hroot, executeEdit_unresolved hroot]
    · rw [executeEdit_unresolved hroot]
      nofun
    · exact fun root h => absurd h (hnone root)
    · exact fun root _ h => absurd h (hnone root)
  | ok root =>
    have hreads : ReadsOwn sys settings scope jobId ↔
        ¬ OtherJobFile sys settings scope (sys.place (SchedulerFiles.jobPath root jobId)) := by
      constructor
      · exact fun h => h root hroot
      · intro h root' hroot'
        rwa [rootOf_unique hroot hroot']
    have hindependent : (∀ files', SameButOthers sys settings scope files files' →
        executeEdit sys (scopedTo settings scope) now files' function event jobId change =
          executeEdit sys (scopedTo settings scope) now files function event jobId change) ↔
        ¬ OtherJobFile sys settings scope (sys.place (SchedulerFiles.jobPath root jobId)) := by
      refine independent_iff_of_load (executeEdit_eq hroot) ?_
      obtain ⟨text, job, hdecode, -, hdeleted⟩ := hstores scope root hroot
      exact ⟨text, job, hdecode, editFound_ne hdeleted⟩
    rw [hreads, ← hindependent, ← edit_inside_iff hroot]
    exact ⟨fun h => ⟨h.independent, h.inside⟩, fun h => ⟨h.1, h.2⟩⟩

theorem executeShow_eq (h : RootOf settings scope root) (files : FileTexts P) :
    executeScheduleFunction sys (scopedTo settings scope) now nanos files (.scheduleShow jobId) =
      match loadJob sys files root jobId with
      | .ok job =>
        { value := jobToValue sys job
          audits := [auditEvent now root "scheduler.job.shown" job] }
      | .error _ => failed s!"unknown scheduler job `{jobId}`" := by
  have hshow : preparedShow sys (scopedTo settings scope) files jobId =
      match loadJob sys files root jobId with
      | .ok job => .ok (root, job)
      | .error _ => .error s!"unknown scheduler job `{jobId}`" := by
    unfold preparedShow
    have hsettings : withSettings (scopedTo settings scope) "schedule.show" = .ok settings := rfl
    have hscope : (scopedTo settings scope).orchestratorId = some scope := rfl
    rw [hsettings, hscope]
    simp only [bind, Except.bind]
    rw [jobStoreForJobId_scope h]
    cases hload : loadJob sys files root jobId with
    | error reason => simp only
    | ok job =>
      simp only
      rw [runtimeRootOf_ok h]
      simp only
      rw [hload]
      simp only [pure, Except.pure]
  unfold executeScheduleFunction
  simp only [hshow]
  cases loadJob sys files root jobId with
  | error reason => simp only
  | ok job => simp only

theorem executeShow_unresolved (h : settings.resolveOrchestratorRuntimeRoot scope = .error err)
    (files : FileTexts P) :
    executeScheduleFunction sys (scopedTo settings scope) now nanos files (.scheduleShow jobId) =
      failed err.display := by
  have hshow : preparedShow sys (scopedTo settings scope) files jobId = .error err.display := by
    unfold preparedShow
    have hsettings : withSettings (scopedTo settings scope) "schedule.show" = .ok settings := rfl
    have hscope : (scopedTo settings scope).orchestratorId = some scope := rfl
    rw [hsettings, hscope]
    simp only [bind, Except.bind]
    rw [jobStoreForJobId_unresolved h]
  unfold executeScheduleFunction
  simp only [hshow]

theorem show_contained_iff (hstores : StoresJobs sys settings) :
    Contained sys settings scope
      (fun files =>
        executeScheduleFunction sys (scopedTo settings scope) now nanos files (.scheduleShow jobId))
      files ↔ ReadsOwn sys settings scope jobId := by
  cases hroot : settings.resolveOrchestratorRuntimeRoot scope with
  | error err =>
    refine iff_of_true ⟨fun files' _ => ?_, ?_⟩ ?_
    · rw [executeShow_unresolved hroot, executeShow_unresolved hroot]
    · rw [executeShow_unresolved hroot]
      nofun
    · intro root h
      rw [RootOf, hroot] at h
      cases h
  | ok root =>
    have hreads : ReadsOwn sys settings scope jobId ↔
        ¬ OtherJobFile sys settings scope (sys.place (SchedulerFiles.jobPath root jobId)) := by
      constructor
      · exact fun h => h root hroot
      · intro h root' hroot'
        rwa [rootOf_unique hroot hroot']
    rw [hreads, ← independent_iff_of_load (executeShow_eq hroot) ?_]
    · refine ⟨fun h => h.independent, fun h => ⟨h, ?_⟩⟩
      rw [executeShow_eq hroot]
      cases loadJob sys files root jobId with
      | ok job => nofun
      | error reason => nofun
    · obtain ⟨text, job, hdecode, -⟩ := hstores scope root hroot
      refine ⟨text, job, hdecode, fun heq => ?_⟩
      have hvalue := congrArg CallOutcome.value heq
      simp only [failed, jobToValue] at hvalue
      cases htoValue : sys.toValue job with
      | ok value =>
        rw [htoValue] at hvalue
        cases hvalue
      | error reason =>
        rw [htoValue] at hvalue
        cases hvalue

end Edits

/-! ## New jobs -/

section Creating

variable {P : Type} {sys : JobSystem P} {settings : Settings} {scope : String} {now : Int}
  {nanos : ℕ}

theorem slash_not_mem_newJobId (orchestratorId : String) (nanos : ℕ) :
    '/' ∉ (newJobId orchestratorId nanos).toList := by
  intro hmem
  have hsanitized : sanitizeId (newJobId orchestratorId nanos) = newJobId orchestratorId nanos :=
    sanitized_newJobId orchestratorId nanos
  rw [← hsanitized, sanitizeId, String.toList_ofList] at hmem
  obtain ⟨ch, -, hch⟩ := List.mem_map.mp hmem
  unfold sanitizeChar at hch
  split at hch
  · next halnum =>
      subst hch
      exact absurd halnum (by decide)
  · exact absurd hch (by decide)

theorem preparedCreate_ok {input : NewJob} {root : String} {job : ScheduledJob}
    (h : preparedCreate sys (scopedTo settings scope) now nanos input = .ok (root, job)) :
    RootOf settings input.orchestratorId root ∧ job.jobId = newJobId input.orchestratorId nanos := by
  obtain ⟨settings', hsettings, h⟩ := bind_eq_ok h
  cases hsettings
  obtain ⟨⟨targetRef, target⟩, -, h⟩ := bind_eq_ok h
  obtain ⟨_, -, h⟩ := bind_eq_ok h
  obtain ⟨root', hroot, h⟩ := bind_eq_ok h
  obtain ⟨created, hcreated, h⟩ := bind_eq_ok h
  cases h
  exact ⟨mapError_eq_ok hroot, (newJob_ok hcreated).2.1⟩

variable [DecidableEq P] {files : FileTexts P}

theorem create_contained_iff (hdisjoint : DisjointWorkspaces sys settings)
    (hnames : PlainNames sys settings) {input : NewJob} :
    Contained sys settings scope
      (fun files =>
        executeScheduleFunction sys (scopedTo settings scope) now nanos files (.scheduleCreate input))
      files ↔ CreatesOwn sys settings scope now nanos input := by
  have hinside : (∀ write ∈ (executeScheduleFunction sys (scopedTo settings scope) now nanos files
      (.scheduleCreate input)).writes, Inside sys settings scope write.1) ↔
        CreatesOwn sys settings scope now nanos input := by
    unfold CreatesOwn
    cases hprepared : preparedCreate sys (scopedTo settings scope) now nanos input with
    | error reason =>
      have hcall : executeScheduleFunction sys (scopedTo settings scope) now nanos files
          (.scheduleCreate input) = failed reason := by
        simp only [executeScheduleFunction, hprepared]
      rw [hcall]
      refine iff_of_true ?_ ?_
      · intro write hwrite
        cases hwrite
      · rintro - root job ⟨⟩
    | ok made =>
      obtain ⟨root, job⟩ := made
      have hcall : executeScheduleFunction sys (scopedTo settings scope) now nanos files
          (.scheduleCreate input) = persisted sys now "scheduler.job.created" root job := by
        simp only [executeScheduleFunction, hprepared]
      rw [hcall]
      obtain ⟨hroot, hid⟩ := preparedCreate_ok hprepared
      have hslash := slash_not_mem_newJobId input.orchestratorId nanos
      by_cases hscope : input.orchestratorId = scope
      · refine iff_of_true ?_ fun hne => absurd hscope hne
        rw [hscope] at hroot
        refine (persisted_inside_iff hroot).mpr fun _ => ?_
        rw [hid]
        exact hnames.below hroot (plainName_json hslash)
      · have hfile : JobFileOf sys settings input.orchestratorId
            (sys.place (SchedulerFiles.jobPath root (newJobId input.orchestratorId nanos))) :=
          ⟨root, _, hroot, hslash, rfl⟩
        rw [forall_prop_of_true hscope]
        simp only [persisted, hid]
        constructor
        · rintro hwrites root' job' ⟨⟩ hnone
          rw [hnone] at hwrites
          refine not_other_of_inside hdisjoint hnames ?_ ⟨_, hscope, hfile⟩
          exact hwrites _ (List.mem_singleton.mpr rfl)
        · intro hrefused
          cases herror : sys.writeError
              (sys.place (SchedulerFiles.jobPath root (newJobId input.orchestratorId nanos))) with
          | some err =>
            intro write hwrite
            cases hwrite
          | none => exact absurd herror (hrefused root job rfl)
  rw [← hinside]
  exact ⟨fun h => h.inside, fun h => ⟨fun _ _ => rfl, h⟩⟩

end Creating

/-! ## Listings -/

section Listing

variable {P : Type} {sys : JobSystem P} {settings : Settings} {scope : String} {now : Int}
  {nanos : ℕ}

theorem jobFileOf_name {p root name : String} (hroot : RootOf settings p root)
    (hplain : PlainName name) (hjson : hasJsonExtension name = true) :
    JobFileOf sys settings p (sys.place (joinPath (jobsDir root) name)) := by
  obtain ⟨-, stem, -, hstem, -⟩ := Text.extension_spec (eq_of_beq hjson)
  have hname : name = s!"{String.ofList stem}.json" := by
    apply String.toList_inj.mp
    rw [String.toList_append, hstem]
    exact congrArg (· ++ '.' :: "json".toList) String.toList_ofList.symm
  refine ⟨root, String.ofList stem, hroot, ?_, ?_⟩
  · intro hslash
    refine hplain.2.2.2 ?_
    rw [hstem]
    rw [String.toList_ofList] at hslash
    exact List.mem_append_left _ hslash
  · rw [hname]
    rfl

variable [DecidableEq P] {files files' : FileTexts P} {root : String}

theorem mem_namesIn {name : String} (hnames : PlainNames sys settings)
    (hroot : RootOf settings scope root) : name ∈ namesIn sys files (jobsDir root) ↔
      PlainName name ∧ (files.lookup (sys.place (joinPath (jobsDir root) name))).isSome := by
  unfold namesIn
  rw [List.mem_toFinset, List.mem_filterMap, Option.isSome_iff_ne_none, ne_eq,
    List.lookup_eq_none_iff]
  constructor
  · rintro ⟨file, hfile, hname⟩
    obtain ⟨hplain, hplace⟩ := (hnames.nameIn_iff hroot).mp hname
    refine ⟨hplain, fun hnone => ?_⟩
    have hne := hnone file hfile
    simp only [hplace, bne_self_eq_false] at hne
    cases hne
  · rintro ⟨hplain, hsome⟩
    simp only [not_forall, bne_iff_ne, ne_eq, not_not] at hsome
    obtain ⟨file, hfile, heq⟩ := hsome
    exact ⟨file, hfile, (hnames.nameIn_iff hroot).mpr ⟨hplain, heq⟩⟩

theorem listAllJobs_congr (hnames : PlainNames sys settings) (hroot : RootOf settings scope root)
    (h : ∀ name, PlainName name → files'.lookup (sys.place (joinPath (jobsDir root) name)) =
      files.lookup (sys.place (joinPath (jobsDir root) name))) :
    listAllJobs sys files' root = listAllJobs sys files root := by
  have hsame : namesIn sys files' (jobsDir root) = namesIn sys files (jobsDir root) := by
    ext name
    rw [mem_namesIn hnames hroot, mem_namesIn hnames hroot]
    refine and_congr_right fun hplain => ?_
    rw [h name hplain]
  have hread : ∀ name ∈ sys.order.list (namesIn sys files (jobsDir root)),
      readJob sys files' (joinPath (jobsDir root) name) =
        readJob sys files (joinPath (jobsDir root) name) := by
    intro name hname
    unfold readJob
    rw [h name ((mem_namesIn hnames hroot).mp ((sys.order.mem_list _ _).mp hname)).1]
  unfold listAllJobs
  simp only [hsame]
  rw [Lib.mapM_congr fun name hname => hread name (List.mem_of_mem_filter hname)]

variable {p : String}

theorem executeList_eq (hroot : RootOf settings p root) (files : FileTexts P) :
    executeScheduleFunction sys (scopedTo settings scope) now nanos files (.scheduleList p) =
      match listForOrchestrator sys files root p with
      | .error reason => failed reason
      | .ok jobs =>
        { value := do
            let values ← jobs.mapM (jobToValue sys)
            return .object [("jobs", .array values), ("orchestratorId", .str p)] } := by
  have hlist : preparedList sys (scopedTo settings scope) files p =
      listForOrchestrator sys files root p := by
    unfold preparedList
    have hsettings : withSettings (scopedTo settings scope) "schedule.list" = .ok settings := rfl
    rw [hsettings]
    simp only [bind, Except.bind]
    rw [runtimeRootOf_ok hroot]
  unfold executeScheduleFunction
  cases hfound : listForOrchestrator sys files root p with
  | error reason =>
    rw [hfound] at hlist
    simp only [hlist]
  | ok jobs =>
    rw [hfound] at hlist
    simp only [hlist]

theorem list_without_jobs (hnames : PlainNames sys settings) (hroot : RootOf settings p root)
    (h : ∀ x, JobFileOf sys settings p x → files.lookup x = none) :
    listForOrchestrator sys files root p = .ok [] := by
  have hnone : (sys.order.list (namesIn sys files (jobsDir root))).filter hasJsonExtension = [] := by
    refine List.filter_eq_nil_iff.mpr fun name hname hjson => ?_
    obtain ⟨hplain, hsome⟩ :=
      (mem_namesIn hnames hroot).mp ((sys.order.mem_list _ _).mp hname)
    rw [h _ (jobFileOf_name hroot hplain hjson)] at hsome
    cases hsome
  unfold listForOrchestrator listAllJobs
  simp only [hnone]
  rfl

theorem list_one_job {p text : String} {job : ScheduledJob} (hnames : PlainNames sys settings)
    (hroot : RootOf settings p root) (hdecode : sys.decode text = .ok job)
    (hjob : job.orchestratorId = p)
    (h : ∀ x, JobFileOf sys settings p x → files.lookup x = none) :
    listForOrchestrator sys
      ((sys.place (SchedulerFiles.jobPath root "job"), text) :: files) root p = .ok [job] := by
  have hplain : PlainName "job.json" := @plainName_json "job" (by decide)
  have hone : (sys.order.list (namesIn sys
      ((sys.place (SchedulerFiles.jobPath root "job"), text) :: files) (jobsDir root))).filter
        hasJsonExtension = ["job.json"] := by
    refine List.perm_singleton.mp ((List.perm_ext_iff_of_nodup
      ((sys.order.nodup _).filter _) (List.nodup_singleton _)).mpr fun name => ?_)
    rw [List.mem_filter, sys.order.mem_list, mem_namesIn hnames hroot, List.mem_singleton]
    constructor
    · rintro ⟨⟨hname, hsome⟩, hjson⟩
      by_contra hne
      have hplace : sys.place (joinPath (jobsDir root) name) ≠
          sys.place (SchedulerFiles.jobPath root "job") := by
        intro heq
        have hin := (hnames.nameIn_iff hroot).mpr ⟨hname, heq⟩
        have hjobName : sys.nameIn (jobsDir root) (sys.place (SchedulerFiles.jobPath root "job")) =
            some "job.json" := (hnames.nameIn_iff hroot).mpr ⟨hplain, rfl⟩
        rw [hjobName] at hin
        exact hne (Option.some.inj hin).symm
      rw [List.lookup_cons, beq_false_of_ne hplace, h _ (jobFileOf_name hroot hname hjson)] at hsome
      cases hsome
    · rintro rfl
      refine ⟨⟨hplain, ?_⟩, by decide⟩
      rw [List.lookup_cons]
      show (match sys.place (SchedulerFiles.jobPath root "job") ==
        sys.place (SchedulerFiles.jobPath root "job") with
        | true => some text
        | false => _).isSome = true
      rw [beq_self_eq_true]
      rfl
  have hread : readJob sys ((sys.place (SchedulerFiles.jobPath root "job"), text) :: files)
      (joinPath (jobsDir root) "job.json") = .ok job := by
    show readJob sys _ (SchedulerFiles.jobPath root "job") = .ok job
    unfold readJob
    rw [List.lookup_cons, beq_self_eq_true]
    simp only [hdecode]
    rfl
  unfold listForOrchestrator listAllJobs
  simp only [hone, List.mapM_cons, List.mapM_nil, hread]
  show Except.ok (([job].insertionSort fun a b => a.jobId ≤ b.jobId).filter
    (·.orchestratorId == p)) = .ok [job]
  rw [List.insertionSort_cons, List.insertionSort_nil, List.orderedInsert_nil]
  simp [hjob]

theorem list_contained_iff (hdisjoint : DisjointWorkspaces sys settings)
    (hnames : PlainNames sys settings) (hstores : StoresJobs sys settings) :
    Contained sys settings scope
      (fun files =>
        executeScheduleFunction sys (scopedTo settings scope) now nanos files (.scheduleList p))
      files ↔ ListsOwn settings scope p := by
  cases hroot : settings.resolveOrchestratorRuntimeRoot p with
  | error err =>
    have hconstant : ∀ files' : FileTexts P, executeScheduleFunction sys (scopedTo settings scope)
        now nanos files' (.scheduleList p) = failed err.display := by
      intro files'
      have hlist : preparedList sys (scopedTo settings scope) files' p = .error err.display := by
        show ((settings.resolveOrchestratorRuntimeRoot p).mapError ConfigError.display >>= _) = _
        rw [hroot]
        rfl
      unfold executeScheduleFunction
      simp only [hlist]
    refine iff_of_true ⟨fun files' _ => ?_, ?_⟩ ?_
    · rw [hconstant, hconstant]
    · rw [hconstant]
      nofun
    · intro _ root h
      rw [RootOf, hroot] at h
      cases h
  | ok root =>
    constructor
    · intro hcontained hne
      -- the listing differs between a store without jobs and one with a job
      exfalso
      classical
      obtain ⟨text, job, hdecode, hjob, -⟩ := hstores p root hroot
      have hother : ∀ x, JobFileOf sys settings p x → OtherJobFile sys settings scope x :=
        fun x hx => ⟨p, hne, hx⟩
      let without := keptFiles (fun x => decide (¬ JobFileOf sys settings p x)) files
      have hnone : ∀ x, JobFileOf sys settings p x → without.lookup x = none :=
        fun x hx => lookup_keptFiles_of_not (by simpa using hx) files
      have hwithout : SameButOthers sys settings scope files without := by
        intro x hx
        exact lookup_keptFiles (by simpa using fun hfile => hx (hother x hfile)) files
      have hwith : SameButOthers sys settings scope files
          ((sys.place (SchedulerFiles.jobPath root "job"), text) :: without) := by
        intro x hx
        have hplace : x ≠ sys.place (SchedulerFiles.jobPath root "job") := by
          rintro rfl
          exact hx (hother _ ⟨root, "job", hroot, by decide, rfl⟩)
        rw [List.lookup_cons, beq_false_of_ne hplace]
        exact hwithout x hx
      have heq := (hcontained.independent _ hwithout).trans
        (hcontained.independent _ hwith).symm
      rw [executeList_eq hroot, executeList_eq hroot, list_without_jobs hnames hroot hnone,
        list_one_job hnames hroot hdecode hjob hnone] at heq
      have hvalue := congrArg CallOutcome.value heq
      simp only [List.mapM_cons, List.mapM_nil, jobToValue] at hvalue
      cases htoValue : sys.toValue job with
      | ok value =>
        rw [htoValue] at hvalue
        cases hvalue
      | error reason =>
        rw [htoValue] at hvalue
        cases hvalue
    · intro hown
      have hscope : p = scope := not_not.mp fun hne => hown hne root hroot
      subst hscope
      refine ⟨fun files' hsame => ?_, ?_⟩
      · have hlist : listForOrchestrator sys files' root p = listForOrchestrator sys files root p := by
          unfold listForOrchestrator
          rw [listAllJobs_congr hnames hroot fun name hplain => hsame _ ?_]
          exact not_other_of_inside hdisjoint hnames ⟨root, hroot, hnames.below hroot hplain⟩
        rw [executeList_eq hroot, executeList_eq hroot, hlist]
      · rw [executeList_eq hroot]
        cases listForOrchestrator sys files root p with
        | ok jobs => nofun
        | error reason => nofun

end Listing

/-! ## Every call -/

section Calls

variable {P : Type} [DecidableEq P] {sys : JobSystem P} {settings : Settings}

theorem function_contained_iff (hdisjoint : DisjointWorkspaces sys settings)
    (hnames : PlainNames sys settings) (hstores : StoresJobs sys settings) (scope : String) (now : Int)
    (nanos : ℕ) (files : FileTexts P) (function : ScheduleFunction) :
    Contained sys settings scope
      (fun files => executeScheduleFunction sys (scopedTo settings scope) now nanos files function)
      files ↔ StaysWithin sys settings scope now nanos files function := by
  cases function with
  | scheduleCreate input => exact create_contained_iff hdisjoint hnames
  | scheduleList p => exact list_contained_iff hdisjoint hnames hstores
  | scheduleShow jobId => exact show_contained_iff hstores
  | scheduleUpdate jobId patch => exact edit_contained_iff hstores
  | schedulePause jobId => exact edit_contained_iff hstores
  | scheduleResume jobId => exact edit_contained_iff hstores
  | scheduleDelete jobId => exact edit_contained_iff hstores
  | scheduleRunNow jobId => exact edit_contained_iff hstores

/-- An invocation keeps to its scope exactly if its arguments do. -/
theorem invocation_contained_iff (hdisjoint : DisjointWorkspaces sys settings)
    (hnames : PlainNames sys settings) (hstores : StoresJobs sys settings) (scope : String) (now : Int)
    (nanos : ℕ) (files : FileTexts P) (functionId : String) (args : List (String × Json)) :
    Contained sys settings scope
      (fun files => executeScheduleInvocation sys (scopedTo settings scope) now nanos files
        functionId args) files ↔
      ∀ function, planScheduleFunction functionId args = .ok function →
        StaysWithin sys settings scope now nanos files function := by
  cases hplan : planScheduleFunction functionId args with
  | error reason =>
    refine iff_of_true ?_ nofun
    unfold executeScheduleInvocation
    simp only [hplan]
    exact ⟨fun _ _ => rfl, nofun⟩
  | ok function =>
    unfold executeScheduleInvocation
    simp only [hplan]
    rw [function_contained_iff hdisjoint hnames hstores]
    constructor
    · rintro h _ ⟨⟩
      exact h
    · exact fun h => h function rfl

omit [DecidableEq P] in
theorem readsOwn_plain (hdisjoint : DisjointWorkspaces sys settings)
    (hnames : PlainNames sys settings) {scope jobId : String} (h : '/' ∉ jobId.toList) :
    ReadsOwn sys settings scope jobId := by
  intro root hroot
  exact not_other_of_inside hdisjoint hnames
    ⟨root, hroot, hnames.below hroot (plainName_json h)⟩

end Calls

/-! ## Two workspaces -/

/-- Where a path leads when there are no links. -/
def plainPlace (path : String) : List String :=
  (FilePath.parse path).components.foldl (fun place component =>
    match component with
    | .normal name => place ++ [name]
    | .parentDir => place.dropLast) []

instance (name : String) : Decidable (PlainName name) := by
  unfold PlainName
  infer_instance

def deletedJob (orchestratorId : String) : ScheduledJob where
  jobId := "job"
  orchestratorId := orchestratorId
  schedule := .once 0
  targetAction := .workflowStart "triage" []
  state := .deleted
  misfirePolicy := .skipMissed
  nextRunAt := none
  allowOverlap := false
  createdAt := 0
  updatedAt := 0

/-- What `to_vec_pretty` writes of a deleted job. -/
def deletedJobText (orchestratorId : String) : String :=
  "\x7b\n  \"jobId\": \"job\",\n  \"orchestratorId\": \"" ++ orchestratorId ++ "\",\n" ++
    "  \"createdBy\": \x7b\x7d,\n" ++
    "  \"schedule\": \x7b\n    \"type\": \"once\",\n    \"run_at\": 0\n  \x7d,\n" ++
    "  \"targetAction\": \x7b\n    \"type\": \"workflow_start\",\n" ++
    "    \"workflow_id\": \"triage\",\n    \"inputs\": \x7b\x7d\n  \x7d,\n" ++
    "  \"targetRef\": null,\n  \"state\": \"deleted\",\n" ++
    "  \"misfirePolicy\": \"skip_missed\",\n  \"nextRunAt\": null,\n" ++
    "  \"lastRunAt\": null,\n  \"lastResult\": null,\n  \"allowOverlap\": false,\n" ++
    "  \"createdAt\": 0,\n  \"updatedAt\": 0\n\x7d"

/-- What `to_value` makes of it. -/
def deletedJobValue (orchestratorId : String) : Json :=
  .object [("allowOverlap", .bool false), ("createdAt", .int 0), ("createdBy", .object []),
    ("jobId", .str "job"), ("lastResult", .null), ("lastRunAt", .null),
    ("misfirePolicy", .str "skip_missed"), ("nextRunAt", .null),
    ("orchestratorId", .str orchestratorId),
    ("schedule", .object [("run_at", .int 0), ("type", .str "once")]), ("state", .str "deleted"),
    ("targetAction", .object [("inputs", .object []), ("type", .str "workflow_start"),
      ("workflow_id", .str "triage")]), ("targetRef", .null), ("updatedAt", .int 0)]

/-- The printers and the reader know deleted jobs only. -/
def plainSystem : JobSystem (List String) where
  zones := utc
  place := plainPlace
  below := fun root x => plainPlace root <+: x
  nameIn := fun dir x => x.getLast?.filter fun name => x.dropLast = plainPlace dir ∧ PlainName name
  order := DirectoryOrder.sorted String
  writeError := fun _ => none
  encode := fun job => deletedJobText job.orchestratorId
  decode := fun text =>
    if text = deletedJobText "alpha" then .ok (deletedJob "alpha")
    else if text = deletedJobText "beta" then .ok (deletedJob "beta")
    else .error "expected value at line 1 column 1"
  toValue := fun job => .ok (deletedJobValue job.orchestratorId)

def twoWorkspaces : Settings where
  workspacesPath := "/ws"
  orchestrators := [("alpha", {}), ("beta", {})]

theorem rootOf_twoWorkspaces {p root : String} (h : RootOf twoWorkspaces p root) :
    p = "alpha" ∧ root = "/ws/alpha" ∨ p = "beta" ∧ root = "/ws/beta" := by
  obtain ⟨-, entry, hentry, hworkspace, -⟩ := resolvePrivateWorkspace_ok_iff.mp h
  have hmem : (p, entry) ∈ twoWorkspaces.orchestrators := OrderedMap.mem_of_lookup hentry
  rcases List.mem_cons.mp hmem with hmem | hmem
  · cases hmem
    exact .inl ⟨rfl, hworkspace.symm.trans (by decide)⟩
  · cases List.mem_singleton.mp hmem
    exact .inr ⟨rfl, hworkspace.symm.trans (by decide)⟩

theorem parse_plain {base name : String} (hplain : PlainName name) :
    (FilePath.parse (base ++ "/" ++ name)).components =
      (FilePath.parse base).components ++ [.normal name] := by
  obtain ⟨hne, hdot, hdots, hslash⟩ := hplain
  have hlist : (base ++ "/" ++ name).toList = base.toList ++ '/' :: name.toList := by
    rw [String.toList_append, String.toList_append, List.append_assoc]
    rfl
  have hname : name.toList.splitOn '/' = [name.toList] :=
    List.splitOnP_eq_singleton fun c hc => beq_false_of_ne fun heq => hslash (heq ▸ hc)
  have hempty : name.toList ≠ [] := fun h => hne (String.toList_inj.mp h)
  have hone : name.toList ≠ ['.'] := fun h => hdot (String.toList_inj.mp h)
  have htwo : name.toList ≠ ['.', '.'] := fun h => hdots (String.toList_inj.mp h)
  unfold FilePath.parse
  simp only [hlist]
  unfold List.splitOn at hname ⊢
  rw [@List.splitOnP_append_cons Char (· == '/') _ _ '/' (beq_self_eq_true '/'), hname,
    List.filter_append, List.map_append]
  congr 1
  rw [List.filter_cons_of_pos (by simp [hempty, hone]), List.filter_nil, List.map_singleton,
    if_neg htwo, String.ofList_toList]

theorem plainPlace_join {base name : String} (hplain : PlainName name) (hbase : base ≠ "")
    (hlast : base.toList.getLast? ≠ some '/') :
    plainPlace (joinPath base name) = plainPlace base ++ [name] := by
  have habs : isAbsolutePath name = false := by
    unfold isAbsolutePath
    cases hname : name.toList with
    | nil => rfl
    | cons c rest =>
      have hc : c ≠ '/' := by
        rintro rfl
        refine hplain.2.2.2 ?_
        rw [hname]
        exact List.mem_cons_self
      simpa using hc
  have hjoin : joinPath base name = base ++ "/" ++ name := by
    unfold joinPath
    rw [habs, if_neg Bool.false_ne_true, if_neg, if_neg]
    · simpa using hlast
    · simpa using hbase
  rw [hjoin, plainPlace, parse_plain hplain, List.foldl_append]
  rfl

theorem twoWorkspaces_disjoint : DisjointWorkspaces plainSystem twoWorkspaces := by
  intro p q rootP rootQ x hne hp hq hbelowP hbelowQ
  have hcompare := List.prefix_or_prefix_of_prefix hbelowP hbelowQ
  rcases rootOf_twoWorkspaces hp with ⟨rfl, rfl⟩ | ⟨rfl, rfl⟩
  · rcases rootOf_twoWorkspaces hq with ⟨rfl, rfl⟩ | ⟨rfl, rfl⟩
    · exact hne rfl
    · exact absurd hcompare (by decide)
  · rcases rootOf_twoWorkspaces hq with ⟨rfl, rfl⟩ | ⟨rfl, rfl⟩
    · exact absurd hcompare (by decide)
    · exact hne rfl

theorem twoWorkspaces_plainNames : PlainNames plainSystem twoWorkspaces := by
  have hjoin : ∀ {p root}, RootOf twoWorkspaces p root → ∀ {name}, PlainName name →
      plainPlace (joinPath (jobsDir root) name) = plainPlace (jobsDir root) ++ [name] := by
    intro p root hroot name hplain
    rcases rootOf_twoWorkspaces hroot with ⟨rfl, rfl⟩ | ⟨rfl, rfl⟩
    · exact plainPlace_join hplain (by decide) (by decide)
    · exact plainPlace_join hplain (by decide) (by decide)
  constructor
  · intro p root hroot x name
    show (x.getLast?.filter _) = some name ↔ PlainName name ∧ plainPlace _ = x
    rw [Option.filter_eq_some_iff]
    constructor
    · rintro ⟨hlast, hin⟩
      obtain ⟨hdir, hplain⟩ := of_decide_eq_true hin
      refine ⟨hplain, ?_⟩
      rw [hjoin hroot hplain, ← hdir]
      exact List.dropLast_append_getLast? name hlast
    · rintro ⟨hplain, rfl⟩
      rw [hjoin hroot hplain]
      refine ⟨List.getLast?_concat, decide_eq_true ⟨List.dropLast_concat, hplain⟩⟩
  · intro p root hroot name hplain
    show plainPlace root <+: plainPlace _
    rw [hjoin hroot hplain]
    refine List.IsPrefix.trans ?_ (List.prefix_append _ _)
    rcases rootOf_twoWorkspaces hroot with ⟨rfl, rfl⟩ | ⟨rfl, rfl⟩
    · decide
    · decide

theorem plainSystem_stores : StoresJobs plainSystem twoWorkspaces := by
  intro p root hroot
  rcases rootOf_twoWorkspaces hroot with ⟨rfl, rfl⟩ | ⟨rfl, rfl⟩
  · refine ⟨deletedJobText "alpha", deletedJob "alpha", ?_, rfl, rfl⟩
    simp only [plainSystem, if_true]
  · refine ⟨deletedJobText "beta", deletedJob "beta", ?_, rfl, rfl⟩
    have hne : deletedJobText "beta" ≠ deletedJobText "alpha" := by decide
    simp only [plainSystem, if_neg hne, if_true]

theorem invocation_contained_example : Contained plainSystem twoWorkspaces "alpha"
    (fun files => executeScheduleInvocation plainSystem (scopedTo twoWorkspaces "alpha") 0 0 files
      "schedule.show" [("jobId", .str "job")])
    [(["ws", "alpha", "automation", "jobs", "job.json"], deletedJobText "alpha")] := by
  refine (invocation_contained_iff twoWorkspaces_disjoint twoWorkspaces_plainNames
    plainSystem_stores "alpha" 0 0 _ _ _).mpr fun function hplan => ?_
  have hfunction : ScheduleFunction.scheduleShow "job" = function := Except.ok.inj hplan
  subst hfunction
  exact readsOwn_plain twoWorkspaces_disjoint twoWorkspaces_plainNames (by decide)

/-- The schedules of another orchestrator are listed, and an id with parent components leads to its
jobs. -/
theorem invocation_not_contained :
    ¬ Contained plainSystem twoWorkspaces "alpha"
      (fun files => executeScheduleInvocation plainSystem (scopedTo twoWorkspaces "alpha") 0 0 files
        "schedule.list" [("orchestratorId", .str "beta")]) [] ∧
    ¬ Contained plainSystem twoWorkspaces "alpha"
      (fun files => executeScheduleInvocation plainSystem (scopedTo twoWorkspaces "alpha") 0 0 files
        "schedule.show" [("jobId", .str "../../../beta/automation/jobs/job")]) [] := by
  constructor
  · intro h
    have hlist : Contained plainSystem twoWorkspaces "alpha"
        (fun files => executeScheduleFunction plainSystem (scopedTo twoWorkspaces "alpha") 0 0 files
          (.scheduleList "beta")) [] := h
    exact (list_contained_iff twoWorkspaces_disjoint twoWorkspaces_plainNames
      plainSystem_stores).mp hlist (by decide) "/ws/beta" rfl
  · intro h
    have hshow : Contained plainSystem twoWorkspaces "alpha"
        (fun files => executeScheduleFunction plainSystem (scopedTo twoWorkspaces "alpha") 0 0 files
          (.scheduleShow "../../../beta/automation/jobs/job")) [] := h
    refine (show_contained_iff plainSystem_stores).mp hshow "/ws/alpha" rfl
      ⟨"beta", by decide, "/ws/beta", "job", rfl, by decide, ?_⟩
    decide +kernel

end Direclaw.Automation
