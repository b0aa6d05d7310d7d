import Mathlib
import Direclaw.Lib.Fallible
import Direclaw.Orchestration.RunStore

/-!
# The latest run

`latest_run_for_source_message_id` and `latest_run_for_conversation`: a scan of the runs
directory, in whatever order it is listed, that keeps the first of the matching records
with the greatest `(updated_at, started_at)`. Times are whole seconds, so two runs can
share them.
-/

namespace Direclaw.Orchestration

open Direclaw.Lib

/-- A run record with the fields that say which conversation it belongs to. -/
structure ConversationRun extends WorkflowRunRecord where
  channelProfileId : Option String := none
  statusConversationId : Option String := none

/-- An entry of the runs directory, and what reading it gives. -/
structure RunsEntry where
  name : String
  isFile : Bool := true
  text : Except IoErrorKind String

section Scan

variable (fromStr : String → Except String ConversationRun) (runsRoot : String)

def RunsEntry.path (entry : RunsEntry) : String := s!"{runsRoot}/{entry.name}"

/-- A `.json` file; everything else is passed over. -/
def RunsEntry.isRecord (entry : RunsEntry) : Bool :=
  entry.isFile && Text.extension entry.name.toList == some "json".toList

/-- The record in a file; `fromStr` is `serde_json::from_str`. -/
def RunsEntry.load (entry : RunsEntry) : Except OrchestratorError ConversationRun :=
  match entry.text with
  | .error kind => .error (.io (entry.path runsRoot) kind)
  | .ok raw => (fromStr raw).mapError (.json (entry.path runsRoot))

def shouldReplace (latest : Option ConversationRun) (run : ConversationRun) : Bool :=
  match latest with
  | none => true
  | some current =>
    current.updatedAt < run.updatedAt ||
      (run.updatedAt == current.updatedAt && current.startedAt < run.startedAt)

/-- One entry of the listing. -/
def considerEntry (isMatch : ConversationRun → Bool) (latest : Option ConversationRun)
    (entry : Except IoErrorKind RunsEntry) :
    Except OrchestratorError (Option ConversationRun) :=
  match entry with
  | .error kind => .error (.io runsRoot kind)
  | .ok entry =>
    if entry.isRecord then
      match entry.load fromStr runsRoot with
      | .error err => .error err
      | .ok run =>
        if isMatch run && shouldReplace latest run then .ok (some run) else .ok latest
    else .ok latest

/-- The listing of the runs directory, or why there is none. -/
abbrev RunsListing := Except IoErrorKind (List (Except IoErrorKind RunsEntry))

def latestRun (isMatch : ConversationRun → Bool) (listing : RunsListing) :
    Except OrchestratorError (Option ConversationRun) :=
  match listing with
  | .error .notFound => .ok none
  | .error kind => .error (.io runsRoot kind)
  | .ok entries => entries.foldlM (considerEntry fromStr runsRoot isMatch) none

def ofSourceMessage (sourceMessageId : String) (run : ConversationRun) : Bool :=
  run.sourceMessageId == some sourceMessageId

def latestRunForSourceMessageId (listing : RunsListing) (sourceMessageId : String) :
    Except OrchestratorError (Option ConversationRun) :=
  latestRun fromStr runsRoot (ofSourceMessage sourceMessageId) listing

def ofConversation (channelProfileId conversationId : String) (includeTerminal : Bool)
    (run : ConversationRun) : Bool :=
  run.channelProfileId == some channelProfileId &&
    run.statusConversationId == some conversationId &&
      (includeTerminal || !run.state.isTerminal)

def latestRunForConversation (listing : RunsListing) (channelProfileId conversationId : String)
    (includeTerminal : Bool) : Except OrchestratorError (Option ConversationRun) :=
  latestRun fromStr runsRoot (ofConversation channelProfileId conversationId includeTerminal)
    listing

end Scan

/-! ## The order of runs -/

/-- Updated, then started. -/
abbrev RunKey : Type := ℤ ×ₗ ℤ

def runKey (run : ConversationRun) : RunKey := toLex (run.updatedAt, run.startedAt)

theorem shouldReplace_iff {current run : ConversationRun} :
    shouldReplace (some current) run = true ↔ runKey current < runKey run := by
  unfold shouldReplace runKey
  rw [Prod.Lex.toLex_lt_toLex, Bool.or_eq_true, Bool.and_eq_true, decide_eq_true_iff,
    decide_eq_true_iff, beq_iff_eq]
  exact or_congr_right (and_congr_left' eq_comm)

section Order

variable {fromStr : String → Except String ConversationRun} {runsRoot : String}
  {isMatch : ConversationRun → Bool}

/-- The entry can be read, if it has to be. -/
def Readable (fromStr : String → Except String ConversationRun) (runsRoot : String)
    (entry : Except IoErrorKind RunsEntry) : Prop :=
  ∃ found, entry = .ok found ∧
    (found.isRecord = true → ∃ run, found.load fromStr runsRoot = .ok run)

def offered (fromStr : String → Except String ConversationRun) (runsRoot : String)
    (isMatch : ConversationRun → Bool) : Except IoErrorKind RunsEntry → Option ConversationRun
  | .error _ => none
  | .ok entry =>
    if entry.isRecord then ((entry.load fromStr runsRoot).toOption).filter isMatch else none

/-- The matching runs, in the order of the listing. -/
def matchingRuns (fromStr : String → Except String ConversationRun) (runsRoot : String)
    (isMatch : ConversationRun → Bool) (entries : List (Except IoErrorKind RunsEntry)) :
    List ConversationRun :=
  entries.filterMap (offered fromStr runsRoot isMatch)

/-- What a run that is offered does to the one that is kept. -/
def keepLatest (latest : Option ConversationRun) : Option ConversationRun → Option ConversationRun
  | none => latest
  | some run => if shouldReplace latest run then some run else latest

variable {entry : Except IoErrorKind RunsEntry}

theorem considerEntry_readable (h : Readable fromStr runsRoot entry)
    (latest : Option ConversationRun) :
    considerEntry fromStr runsRoot isMatch latest entry =
      .ok (keepLatest latest (offered fromStr runsRoot isMatch entry)) := by
  obtain ⟨found, rfl, hload⟩ := h
  by_cases hrecord : found.isRecord = true
  · obtain ⟨run, hrun⟩ := hload hrecord
    by_cases hmatch : isMatch run = true
    · have hoffered : offered fromStr runsRoot isMatch (.ok found) = some run := by
        simp [offered, hrecord, hrun, Except.toOption, hmatch]
      rw [hoffered]
      simp only [considerEntry, hrecord, hrun, hmatch, keepLatest, Bool.true_and, if_true]
      split <;> rfl
    · have hoffered : offered fromStr runsRoot isMatch (.ok found) = none := by
        simp [offered, hrecord, hrun, Except.toOption, hmatch]
      rw [hoffered]
      simp [considerEntry, hrecord, hrun, hmatch, keepLatest]
  · simp [considerEntry, offered, hrecord, keepLatest]

theorem considerEntry_unreadable (h : ¬ Readable fromStr runsRoot entry)
    (latest kept : Option ConversationRun) :
    considerEntry fromStr runsRoot isMatch latest entry ≠ .ok kept := by
  intro hkept
  refine h ?_
  unfold considerEntry at hkept
  split at hkept
  · cases hkept
  · next found =>
      refine ⟨found, rfl, fun hrecord => ?_⟩
      rw [if_pos hrecord] at hkept
      split at hkept
      · cases hkept
      · next run hrun => exact ⟨run, hrun⟩

theorem matchingRuns_concat (entries : List (Except IoErrorKind RunsEntry))
    (entry : Except IoErrorKind RunsEntry) :
    matchingRuns fromStr runsRoot isMatch (entries ++ [entry]) =
      matchingRuns fromStr runsRoot isMatch entries ++
        (offered fromStr runsRoot isMatch entry).toList := by
  unfold matchingRuns
  rw [List.filterMap_append]
  cases hoffered : offered fromStr runsRoot isMatch entry with
  | none => simp [hoffered]
  | some run => simp [hoffered]

theorem foldl_keepLatest (entries : List (Except IoErrorKind RunsEntry)) :
    (entries.map (offered fromStr runsRoot isMatch)).foldl keepLatest none =
      (matchingRuns fromStr runsRoot isMatch entries).argmax runKey := by
  induction entries using List.reverseRecOn with
  | nil => rfl
  | append_singleton entries entry ih =>
    rw [List.map_append, List.foldl_append, ih, matchingRuns_concat]
    show keepLatest _ (offered fromStr runsRoot isMatch entry) = _
    cases offered fromStr runsRoot isMatch entry with
    | none =>
      rw [Option.toList_none, List.append_nil]
      rfl
    | some run =>
      rw [Option.toList_some, List.argmax_concat]
      cases (matchingRuns fromStr runsRoot isMatch entries).argmax runKey with
      | none => rfl
      | some current => exact if_congr shouldReplace_iff rfl rfl

theorem latestRun_readable {entries : List (Except IoErrorKind RunsEntry)}
    (h : ∀ entry ∈ entries, Readable fromStr runsRoot entry) :
    latestRun fromStr runsRoot isMatch (.ok entries) =
      .ok ((matchingRuns fromStr runsRoot isMatch entries).argmax runKey) := by
  rw [← foldl_keepLatest]
  show entries.foldlM (considerEntry fromStr runsRoot isMatch) none = _
  generalize (none : Option ConversationRun) = latest
  induction entries generalizing latest with
  | nil => rfl
  | cons entry entries ih =>
    rw [List.foldlM_cons, considerEntry_readable (h entry List.mem_cons_self)]
    exact ih (fun other hother => h other (List.mem_cons_of_mem _ hother)) _

theorem readable_of_latestRun {entries : List (Except IoErrorKind RunsEntry)}
    {result : Option ConversationRun}
    (h : latestRun fromStr runsRoot isMatch (.ok entries) = .ok result) :
    ∀ entry ∈ entries, Readable fromStr runsRoot entry := by
  have hscan : ∀ latest, entries.foldlM (considerEntry fromStr runsRoot isMatch) latest =
      .ok result → ∀ entry ∈ entries, Readable fromStr runsRoot entry := by
    clear h
    induction entries with
    | nil => exact fun _ _ _ hmem => nomatch hmem
    | cons entry entries ih =>
      intro latest h
      rw [List.foldlM_cons] at h
      obtain ⟨next, hnext, hrest⟩ := bind_eq_ok h
      intro other hother
      rcases List.mem_cons.mp hother with rfl | hother
      · exact not_not.mp fun hunread => considerEntry_unreadable hunread latest next hnext
      · exact ih next hrest other hother
  exact hscan none h

/-! ## Every order of the listing -/

/-- What `lookup` returns is the same however the directory is listed: the run of the
greatest times among `runs`, if there are any. -/
structure SameInEveryOrder
    (lookup : RunsListing → Except OrchestratorError (Option ConversationRun))
    (runs : List ConversationRun) (entries : List (Except IoErrorKind RunsEntry)) : Prop where
  same : ∀ listed, listed.Perm entries → ∀ result,
    lookup (.ok listed) = .ok result ↔ lookup (.ok entries) = .ok result
  greatest : ∀ result, lookup (.ok entries) = .ok result →
    (result = none ↔ runs = []) ∧
    ∀ run ∈ result, run ∈ runs ∧ ∀ other ∈ runs, runKey other ≤ runKey run

/-- No two different matching runs share the greatest key, if the listing can be read. -/
def NoTies (fromStr : String → Except String ConversationRun) (runsRoot : String)
    (isMatch : ConversationRun → Bool) (entries : List (Except IoErrorKind RunsEntry)) : Prop :=
  (∀ entry ∈ entries, Readable fromStr runsRoot entry) →
    ∀ run ∈ matchingRuns fromStr runsRoot isMatch entries,
      ∀ other ∈ matchingRuns fromStr runsRoot isMatch entries,
        (∀ third ∈ matchingRuns fromStr runsRoot isMatch entries, runKey third ≤ runKey run) →
          runKey other = runKey run → other = run

/-- A matching run of the greatest key is returned if its file is listed first. -/
theorem latestRun_of_first {listed : List (Except IoErrorKind RunsEntry)} {run : ConversationRun}
    (hread : ∀ other ∈ entry :: listed, Readable fromStr runsRoot other)
    (hrun : offered fromStr runsRoot isMatch entry = some run)
    (hgreatest : ∀ other ∈ matchingRuns fromStr runsRoot isMatch listed, runKey other ≤ runKey run)
    : latestRun fromStr runsRoot isMatch (.ok (entry :: listed)) = .ok (some run) := by
  rw [latestRun_readable hread]
  have hfirst : matchingRuns fromStr runsRoot isMatch (entry :: listed) =
      run :: matchingRuns fromStr runsRoot isMatch listed := by
    rw [matchingRuns, List.filterMap_cons_some hrun]
    rfl
  rw [hfirst, List.argmax_cons]
  congr 1
  cases hrest : (matchingRuns fromStr runsRoot isMatch listed).argmax runKey with
  | none => rfl
  | some current => exact if_neg (hgreatest current (List.argmax_mem hrest)).not_gt

/-- Without ties the greatest is the same in every order. -/
theorem argmax_of_perm {α κ : Type} [LinearOrder κ] {f : α → κ} {l l' : List α}
    (hperm : l.Perm l')
    (hties : ∀ a ∈ l', ∀ b ∈ l', (∀ c ∈ l', f c ≤ f a) → f b = f a → b = a) :
    l.argmax f = l'.argmax f := by
  cases hfound : l.argmax f with
  | none =>
    rw [List.argmax_eq_none] at hfound
    rw [hfound, List.nil_perm] at hperm
    rw [hperm, List.argmax_nil]
  | some b =>
    have hb : b ∈ l' := hperm.mem_iff.mp (List.argmax_mem hfound)
    cases hother : l'.argmax f with
    | none =>
      rw [List.argmax_eq_none] at hother
      rw [hother] at hb
      cases hb
    | some a =>
      have ha : a ∈ l' := List.argmax_mem hother
      have hgreatest : ∀ c ∈ l', f c ≤ f a := fun c hc => List.le_of_mem_argmax hc hother
      have hle : f a ≤ f b := List.le_of_mem_argmax (hperm.mem_iff.mpr ha) hfound
      rw [hties a ha b hb hgreatest (le_antisymm (hgreatest b hb) hle)]

theorem sameInEveryOrder_iff (entries : List (Except IoErrorKind RunsEntry)) :
    SameInEveryOrder (latestRun fromStr runsRoot isMatch)
        (matchingRuns fromStr runsRoot isMatch entries) entries ↔
      NoTies fromStr runsRoot isMatch entries := by
  constructor
  · intro h hread
    -- a run of the greatest key, listed first, is what the listing itself gives
    have hfirst : ∀ run ∈ matchingRuns fromStr runsRoot isMatch entries,
        (∀ third ∈ matchingRuns fromStr runsRoot isMatch entries, runKey third ≤ runKey run) →
          latestRun fromStr runsRoot isMatch (.ok entries) = .ok (some run) := by
      intro run hrun hgreatest
      obtain ⟨entry, hentry, hoffered⟩ := List.mem_filterMap.mp hrun
      obtain ⟨before, after, rfl⟩ := List.append_of_mem hentry
      have hperm : (entry :: (before ++ after)).Perm (before ++ entry :: after) :=
        List.perm_middle.symm
      refine (h.same _ hperm _).mp (latestRun_of_first ?_ hoffered ?_)
      · exact fun other hother => hread other (hperm.mem_iff.mp hother)
      · intro other hother
        refine hgreatest other ((hperm.filterMap _).mem_iff.mp ?_)
        rw [List.filterMap_cons_some hoffered]
        exact List.mem_cons_of_mem _ hother
    intro run hrun other hother hgreatest hkey
    have hreturned := hfirst run hrun hgreatest
    rw [hfirst other hother fun third hthird => (hgreatest third hthird).trans hkey.ge] at hreturned
    exact Option.some.inj (Except.ok.inj hreturned)
  · intro h
    refine ⟨fun listed hperm result => ?_, fun result hresult => ?_⟩
    · by_cases hread : ∀ entry ∈ entries, Readable fromStr runsRoot entry
      · have hlisted : ∀ entry ∈ listed, Readable fromStr runsRoot entry :=
          fun entry hentry => hread entry (hperm.mem_iff.mp hentry)
        have hmatching : (matchingRuns fromStr runsRoot isMatch listed).Perm
            (matchingRuns fromStr runsRoot isMatch entries) := hperm.filterMap _
        rw [latestRun_readable hread, latestRun_readable hlisted,
          argmax_of_perm hmatching (h hread)]
      · refine iff_of_false (fun hok => hread ?_) fun hok => hread (readable_of_latestRun hok)
        exact fun entry hentry => readable_of_latestRun hok entry (hperm.mem_iff.mpr hentry)
    · rw [latestRun_readable (readable_of_latestRun hresult)] at hresult
      cases hresult
      refine ⟨List.argmax_eq_none, fun run hrun => ⟨List.argmax_mem hrun, ?_⟩⟩
      exact fun other hother => List.le_of_mem_argmax hother hrun

end Order

section Lookups

variable (fromStr : String → Except String ConversationRun) (runsRoot : String)

/-- **Run lookup.** Each lookup returns the same run, of the greatest times, in every order
of the listing exactly if no two different matching runs tie for these times. -/
theorem run_lookup_same_in_every_order_iff (entries : List (Except IoErrorKind RunsEntry)) :
    (∀ sourceMessageId : String,
      SameInEveryOrder (latestRunForSourceMessageId fromStr runsRoot · sourceMessageId)
          (matchingRuns fromStr runsRoot (ofSourceMessage sourceMessageId) entries) entries ↔
        NoTies fromStr runsRoot (ofSourceMessage sourceMessageId) entries) ∧
    ∀ (channelProfileId conversationId : String) (includeTerminal : Bool),
      SameInEveryOrder
          (latestRunForConversation fromStr runsRoot · channelProfileId conversationId
            includeTerminal)
          (matchingRuns fromStr runsRoot
            (ofConversation channelProfileId conversationId includeTerminal) entries) entries ↔
        NoTies fromStr runsRoot (ofConversation channelProfileId conversationId includeTerminal)
          entries :=
  ⟨fun _ => sameInEveryOrder_iff entries, fun _ _ _ => sameInEveryOrder_iff entries⟩

end Lookups

/-! ### Two runs of one second -/

/-- A run of the message `m1` in the conversation `c1`, begun and updated at second 5. -/
def sampleConversationRun (runId : String) : ConversationRun where
  runId := runId
  workflowId := "flow"
  state := .running
  startedAt := 5
  updatedAt := 5
  sourceMessageId := some "m1"
  channelProfileId := some "eng"
  statusConversationId := some "c1"

/-- The text of a run file is its run id here. -/
def sampleRunEntry (runId : String) : Except IoErrorKind RunsEntry :=
  .ok { name := runId ++ ".json", text := .ok runId }

def readSampleRun (text : String) : Except String ConversationRun :=
  .ok (sampleConversationRun text)

/-- Of two runs of one second the lookups return the one that is listed first. -/
theorem first_listed_run_is_returned :
    ¬ SameInEveryOrder (latestRunForConversation readSampleRun "/runs" · "eng" "c1" false)
        (matchingRuns readSampleRun "/runs" (ofConversation "eng" "c1" false)
          [sampleRunEntry "run-a", sampleRunEntry "run-b"])
        [sampleRunEntry "run-a", sampleRunEntry "run-b"] ∧
    ¬ SameInEveryOrder (latestRunForSourceMessageId readSampleRun "/runs" · "m1")
        (matchingRuns readSampleRun "/runs" (ofSourceMessage "m1")
          [sampleRunEntry "run-a", sampleRunEntry "run-b"])
        [sampleRunEntry "run-a", sampleRunEntry "run-b"] := by
  have hperm : [sampleRunEntry "run-b", sampleRunEntry "run-a"].Perm
      [sampleRunEntry "run-a", sampleRunEntry "run-b"] := List.Perm.swap _ _ _
  have hne : sampleConversationRun "run-b" ≠ sampleConversationRun "run-a" := fun heq =>
    absurd (congrArg (·.runId) heq) (by decide)
  constructor
  · intro h
    have hfirst := (h.same _ hperm (some (sampleConversationRun "run-b"))).mp rfl
    exact hne (Option.some.inj (Except.ok.inj hfirst)).symm
  · intro h
    have hfirst := (h.same _ hperm (some (sampleConversationRun "run-b"))).mp rfl
    exact hne (Option.some.inj (Except.ok.inj hfirst)).symm

end Direclaw.Orchestration
