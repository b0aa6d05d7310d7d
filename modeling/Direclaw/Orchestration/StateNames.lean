import Direclaw.Orchestration.OutputKeys
import Direclaw.Orchestration.PromptRender

/-!
# Names of state placeholders

The `state.` placeholders share one map: the engine's entries, and the outputs of every
step under `<step>_<key>`. Step ids and keys may hold underscores themselves, so two of
them can come to one name, and the entry that is written last stays.
-/

namespace Direclaw.Orchestration

open Direclaw.Lib

/-! ## What is asked -/

/-- Step outputs as maps hold them. -/
structure OutputMaps (stepOutputs : List (String × Outputs)) : Prop where
  steps : (stepOutputs.map (·.1)).Nodup
  keys : ∀ held ∈ stepOutputs, (held.2.map (·.1)).Nodup

/-- Every output is found under its name, and the engine's entries are the engine's. -/
structure KeepsStateNames (run : WorkflowRunRecord) (stepOutputs : List (String × Outputs)) :
    Prop where
  outputs : ∀ stepId outputs key value, (stepId, outputs) ∈ stepOutputs → (key, value) ∈ outputs →
    (stateMap run stepOutputs).lookup (stateKey stepId key) = some value
  engine : ∀ name value, (name, value) ∈ engineEntries run →
    (stateMap run stepOutputs).lookup name = some value

/-- Outputs whose names can be cut in two ways, or that have the name of an entry of the
engine, have the same value. -/
structure StateNamesApart (run : WorkflowRunRecord) (stepOutputs : List (String × Outputs)) :
    Prop where
  steps : ∀ stepId mid key outputs outputs' value value',
    (stepId, outputs) ∈ stepOutputs → (stateKey stepId mid, outputs') ∈ stepOutputs →
      (stateKey mid key, value) ∈ outputs → (key, value') ∈ outputs' → value = value'
  engine : ∀ stepId outputs key value held, (stepId, outputs) ∈ stepOutputs →
    (key, value) ∈ outputs → (stateKey stepId key, held) ∈ engineEntries run → value = held

theorem toList_stateKey (stepId key : String) :
    (stateKey stepId key).toList = stepId.toList ++ '_' :: key.toList := by
  rw [stateKey, String.toList_append, String.toList_append, List.append_assoc]
  rfl

/-! ## Names that coincide -/

theorem stateKey_assoc (stepId mid key : String) :
    stateKey (stateKey stepId mid) key = stateKey stepId (stateKey mid key) := by
  apply String.toList_inj.mp
  simp only [toList_stateKey, List.append_assoc, List.cons_append]

/-- Two pairs come to one name if they are the same, or the one's step goes on into the
other's key. -/
theorem stateKey_eq_iff {stepId key stepId' key' : String} :
    stateKey stepId key = stateKey stepId' key' ↔
      (stepId = stepId' ∧ key = key') ∨
        (∃ mid, stepId' = stateKey stepId mid ∧ key = stateKey mid key') ∨
          ∃ mid, stepId = stateKey stepId' mid ∧ key' = stateKey mid key := by
  -- what the longer step has more than the shorter one begins with the underscore
  have hcut : ∀ {short long rest rest' : String} {more : List Char},
      long.toList = short.toList ++ more →
        '_' :: rest.toList = more ++ '_' :: rest'.toList →
          (short = long ∧ rest = rest') ∨
            ∃ mid, long = stateKey short mid ∧ rest = stateKey mid rest' := by
    intro short long rest rest' more hlong hrest
    cases more with
    | nil =>
      rw [List.append_nil] at hlong
      rw [List.nil_append, List.cons.injEq] at hrest
      exact .inl ⟨String.toList_inj.mp hlong.symm, String.toList_inj.mp hrest.2⟩
    | cons c mid =>
      rw [List.cons_append, List.cons.injEq] at hrest
      obtain ⟨rfl, hrest⟩ := hrest
      refine .inr ⟨String.ofList mid, String.toList_inj.mp ?_, String.toList_inj.mp ?_⟩
      · rw [toList_stateKey, String.toList_ofList, hlong]
      · rw [toList_stateKey, String.toList_ofList, hrest]
  constructor
  · intro h
    have htext := congrArg String.toList h
    rw [toList_stateKey, toList_stateKey] at htext
    rcases List.append_eq_append_iff.mp htext with ⟨more, hlong, hrest⟩ | ⟨more, hlong, hrest⟩
    · exact (hcut hlong hrest).imp id .inl
    · rcases hcut hlong hrest with ⟨rfl, rfl⟩ | hmid
      · exact .inl ⟨rfl, rfl⟩
      · exact .inr (.inr hmid)
  · rintro (⟨rfl, rfl⟩ | ⟨mid, rfl, rfl⟩ | ⟨mid, rfl, rfl⟩)
    · rfl
    · exact (stateKey_assoc stepId mid key').symm
    · exact stateKey_assoc stepId' mid key

/-! ## The map and its entries -/

section Entries

variable {run : WorkflowRunRecord} {stepOutputs : List (String × Outputs)}

theorem mem_outputEntries {name : String} {value : Json} :
    (name, value) ∈ outputEntries stepOutputs ↔ ∃ stepId outputs key,
      (stepId, outputs) ∈ stepOutputs ∧ (key, value) ∈ outputs ∧ stateKey stepId key = name := by
  unfold outputEntries
  rw [List.mem_flatMap]
  constructor
  · rintro ⟨⟨stepId, outputs⟩, hheld, hmem⟩
    obtain ⟨⟨key, value⟩, houtput, heq⟩ := List.mem_map.mp hmem
    cases heq
    exact ⟨stepId, outputs, key, hheld, houtput, rfl⟩
  · rintro ⟨stepId, outputs, key, hheld, houtput, rfl⟩
    exact ⟨(stepId, outputs), hheld, List.mem_map.mpr ⟨(key, value), houtput, rfl⟩⟩

theorem nodup_engineEntries (run : WorkflowRunRecord) : ((engineEntries run).map (·.1)).Nodup := by
  unfold engineEntries
  cases run.currentStepId with
  | none =>
    cases run.currentAttempt with
    | none =>
      show ["run_state", "total_iterations", "started_at", "updated_at"].Nodup
      decide
    | some attempt =>
      show ["run_state", "total_iterations", "started_at", "updated_at",
        "current_attempt"].Nodup
      decide
  | some stepId =>
    cases run.currentAttempt with
    | none =>
      show ["run_state", "total_iterations", "started_at", "updated_at",
        "current_step_id"].Nodup
      decide
    | some attempt =>
      show ["run_state", "total_iterations", "started_at", "updated_at", "current_step_id",
        "current_attempt"].Nodup
      decide

/-- All entries are read back if and only if they agree wherever their names coincide. -/
theorem keepsStateNames_iff :
    KeepsStateNames run stepOutputs ↔ ∀ name value value',
      (name, value) ∈ engineEntries run ++ outputEntries stepOutputs →
        (name, value') ∈ engineEntries run ++ outputEntries stepOutputs → value = value' := by
  constructor
  · intro h
    have hread : ∀ name value, (name, value) ∈ engineEntries run ++ outputEntries stepOutputs →
        (stateMap run stepOutputs).lookup name = some value := by
      intro name value hmem
      rcases List.mem_append.mp hmem with hmem | hmem
      · exact h.engine name value hmem
      · obtain ⟨stepId, outputs, key, hheld, houtput, rfl⟩ := mem_outputEntries.mp hmem
        exact h.outputs stepId outputs key value hheld houtput
    intro name value value' hvalue hvalue'
    have hsame := (hread name value hvalue).symm.trans (hread name value' hvalue')
    exact Option.some.inj hsame
  · intro h
    have hread : ∀ name value, (name, value) ∈ engineEntries run ++ outputEntries stepOutputs →
        (stateMap run stepOutputs).lookup name = some value := by
      intro name value hmem
      apply OrderedMap.lookup_of_mem (OrderedMap.sorted_ofEntries _).nodup
      exact (OrderedMap.mem_ofEntries_iff h).mpr hmem
    refine ⟨fun stepId outputs key value hheld houtput => ?_, fun name value hmem => ?_⟩
    · apply hread
      exact List.mem_append_right _
        (mem_outputEntries.mpr ⟨stepId, outputs, key, hheld, houtput, rfl⟩)
    · exact hread name value (List.mem_append_left _ hmem)

/-- Entries of one name have one value, whoever they are from. -/
theorem StateNamesApart.agree (hmaps : OutputMaps stepOutputs)
    (h : StateNamesApart run stepOutputs) {name : String} {value value' : Json}
    (hvalue : (name, value) ∈ engineEntries run ++ outputEntries stepOutputs)
    (hvalue' : (name, value') ∈ engineEntries run ++ outputEntries stepOutputs) :
    value = value' := by
  rcases List.mem_append.mp hvalue with hvalue | hvalue
  · rcases List.mem_append.mp hvalue' with hvalue' | hvalue'
    · exact congrArg Prod.snd
        (List.inj_on_of_nodup_map (nodup_engineEntries run) hvalue hvalue' rfl)
    · obtain ⟨stepId, outputs, key, hheld, houtput, rfl⟩ := mem_outputEntries.mp hvalue'
      exact (h.engine stepId outputs key value' value hheld houtput hvalue).symm
  · obtain ⟨stepId, outputs, key, hheld, houtput, rfl⟩ := mem_outputEntries.mp hvalue
    rcases List.mem_append.mp hvalue' with hvalue' | hvalue'
    · exact h.engine stepId outputs key value value' hheld houtput hvalue'
    · obtain ⟨stepId', outputs', key', hheld', houtput', hname⟩ := mem_outputEntries.mp hvalue'
      rcases stateKey_eq_iff.mp hname with ⟨rfl, rfl⟩ | ⟨mid, rfl, rfl⟩ | ⟨mid, rfl, rfl⟩
      · obtain rfl : outputs = outputs' := congrArg Prod.snd
          (List.inj_on_of_nodup_map hmaps.steps hheld hheld' rfl)
        exact congrArg Prod.snd
          (List.inj_on_of_nodup_map (hmaps.keys _ hheld) houtput houtput' rfl)
      · exact (h.steps stepId' mid key outputs' outputs value' value hheld' hheld houtput'
          houtput).symm
      · exact h.steps stepId mid key' outputs outputs' value value' hheld hheld' houtput houtput'

end Entries

/-- **State placeholders.** They are unambiguous, and the engine's entries the engine's, if
and only if outputs that come to one name, or to the name of an entry of the engine, have
the same value. -/
theorem state_names_kept_iff (run : WorkflowRunRecord) {stepOutputs : List (String × Outputs)}
    (hmaps : OutputMaps stepOutputs) :
    KeepsStateNames run stepOutputs ↔ StateNamesApart run stepOutputs := by
  rw [keepsStateNames_iff]
  constructor
  · intro h
    have houtput : ∀ {stepId outputs key value}, (stepId, outputs) ∈ stepOutputs →
        (key, value) ∈ outputs → (stateKey stepId key, value) ∈
          engineEntries run ++ outputEntries stepOutputs := fun hheld hmem =>
      List.mem_append_right _ (mem_outputEntries.mpr ⟨_, _, _, hheld, hmem, rfl⟩)
    refine ⟨?_, ?_⟩
    · intro stepId mid key outputs outputs' value value' hheld hheld' hvalue hvalue'
      have hlonger := houtput hheld' hvalue'
      rw [stateKey_assoc] at hlonger
      exact h _ value value' (houtput hheld hvalue) hlonger
    · intro stepId outputs key value held hheld hvalue hengine
      exact h _ value held (houtput hheld hvalue) (List.mem_append_left _ hengine)
  · exact fun h name value value' hvalue hvalue' => h.agree hmaps hvalue hvalue'

/-! ## Two outputs under one name -/

def planningRun : WorkflowRunRecord :=
  { runId := "run-1", workflowId := "flow", state := .running, startedAt := 0, updatedAt := 0 }

/-- `plan` has reviewed its summary, `plan_review` has one of its own. -/
def reviewedPlan : List (String × Outputs) :=
  [("plan", [("review_summary", .str "by plan")]), ("plan_review", [("summary", .str "by review")])]

/-- A step `run` with an output `state`. -/
def statefulRun : List (String × Outputs) := [("run", [("state", .str "draft")])]

theorem state_names_collide :
    OutputMaps reviewedPlan ∧ ¬ KeepsStateNames planningRun reviewedPlan ∧
    OutputMaps statefulRun ∧ ¬ KeepsStateNames planningRun statefulRun := by
  refine ⟨⟨by decide, by decide⟩, fun h => ?_, ⟨by decide, by decide⟩, fun h => ?_⟩
  · have hplan := h.outputs "plan" _ "review_summary" _ (.head _) (.head _)
    have hreview := h.outputs "plan_review" _ "summary" _ (.tail _ (.head _)) (.head _)
    have hname : stateKey "plan" "review_summary" = stateKey "plan_review" "summary" := by decide
    rw [hname, hreview] at hplan
    exact absurd (Json.str.inj (Option.some.inj hplan)) (by decide)
  · have hoverwritten : (stateMap planningRun statefulRun).lookup "run_state" = some (.str "draft") :=
      rfl
    have hstate := h.engine "run_state" (.str "running") (.head _)
    rw [hoverwritten] at hstate
    exact absurd (Json.str.inj (Option.some.inj hstate)) (by decide)

/-- The two steps come to one name, with one value. -/
def agreedPlan : List (String × Outputs) :=
  [("plan", [("review_summary", .str "fine"), ("summary", .str "a plan")]),
    ("plan_review", [("summary", .str "fine"), ("verdict", .str "go")])]

theorem state_names_of_agreedPlan_kept : KeepsStateNames planningRun agreedPlan := by
  refine (state_names_kept_iff planningRun ⟨by decide, by decide⟩).mpr ⟨?_, ?_⟩
  · intro stepId mid key outputs outputs' value value' hheld hheld' hvalue hvalue'
    simp only [agreedPlan, List.mem_cons, List.not_mem_nil, or_false, Prod.mk.injEq] at hheld hheld'
    rcases hheld with ⟨rfl, rfl⟩ | ⟨rfl, rfl⟩
    · rcases hheld' with ⟨hname, -⟩ | ⟨hname, rfl⟩
      · have hlonger := congrArg (·.toList.length) hname
        simp [toList_stateKey] at hlonger
      · obtain rfl : mid = "review" := by
          have hlist := congrArg String.toList hname
          rw [toList_stateKey] at hlist
          exact String.toList_inj.mp (@List.append_cancel_left _ "plan_".toList _ _ hlist)
        simp only [List.mem_cons, List.not_mem_nil, or_false, Prod.mk.injEq] at hvalue hvalue'
        rcases hvalue with ⟨hkey, rfl⟩ | ⟨hkey, -⟩
        · rcases hvalue' with ⟨-, rfl⟩ | ⟨rfl, -⟩
          · rfl
          · exact absurd hkey (by decide)
        · have hfirst := congrArg (·.toList.head?) hkey
          rw [toList_stateKey] at hfirst
          cases hfirst
    · rcases hheld' with ⟨hname, -⟩ | ⟨hname, -⟩
      · have hlonger := congrArg (·.toList.length) hname
        simp [toList_stateKey] at hlonger
      · have hlonger := congrArg (·.toList.length) hname
        simp [toList_stateKey] at hlonger
  · intro stepId outputs key value held hheld hvalue hengine
    have happart : ∀ step ∈ agreedPlan, ∀ output ∈ step.2,
        stateKey step.1 output.1 ∉ (engineEntries planningRun).map (·.1) := by decide
    exact absurd (List.mem_map_of_mem hengine) (happart _ hheld _ hvalue)

end Direclaw.Orchestration
