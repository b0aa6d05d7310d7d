import Direclaw.Memory.Origins
import Direclaw.Orchestration.OpenAttempt

/-!
# What is remembered of a step

The engine of `orchestration/workflow_engine.rs` with memory switched on: when an attempt
ends with an evaluation, `execute_step_attempt` writes a memory for every output. The
memory is that of the run, the step and the key, so a later visit should replace it; the
write is dropped when its idempotency key, made of run, step and attempt number, has been
seen, and attempt numbers begin again with every visit.
-/

namespace Direclaw.Memory

open Direclaw.Lib Direclaw.Orchestration

/-! ## The engine with a memory -/

/-- What is answered from outside while an attempt's memories are written. -/
structure MemoryAnswers where
  env : WritebackEnv
  outputFiles : List (String × String) := []

inductive MemoryEvent : Type where
  | engine (event : EngineEvent) (answers : MemoryAnswers)
  /-- Any other write to the database, by this process or another. -/
  | other (call : UpsertCall)

structure MemorySystem where
  system : System
  db : Database := {}

def endsWith (s : System) : EngineEvent → Option (Attempt × StepEvaluation)
  | .engine input =>
    match s.process.todo, s.process.control with
    | [], .running a =>
      match a.evaluate input.outcome with
      | .ok evaluation => some (a, evaluation)
      | .error _ => none
    | _, _ => none
  | _ => none

def outputWriteback (orchestrator : OrchestratorConfig) (answers : MemoryAnswers) (a : Attempt)
    (evaluation : StepEvaluation) : WorkflowOutputWriteback where
  orchestratorId := orchestrator.id
  runId := a.run.runId
  stepId := a.step.id
  attempt := a.attempt
  conversationId := (Json.field a.run.inputs "conversation_id").bind Json.asStr
  outputs := evaluation.outputs
  outputFiles := answers.outputFiles
  capturedAt := Int64.ofInt a.startedAt

/-- The memory write-back of an event, if it is the end of an attempt. -/
def MemorySystem.writeback (orchestrator : OrchestratorConfig) (s : MemorySystem) :
    MemoryEvent → Option (WorkflowOutputWriteback × WritebackEnv)
  | .engine event answers =>
    (endsWith s.system event).map fun (a, evaluation) =>
      (outputWriteback orchestrator answers a evaluation, answers.env)
  | .other _ => none

section Steps

variable (sha256 : List UInt8 → List UInt8) (orchestrator : OrchestratorConfig)

/-- `persist_workflow_output_memories` on the orchestrator's repository. -/
def persistOutputs (db : Database) (input : WorkflowOutputWriteback) (env : WritebackEnv) :
    Database × Except MemoryRepositoryError PersistOutcome :=
  PersistCall.exec sha256 env orchestrator.id db (.outputs input)

/-- The memories are written before `result.json` is; an error of the write is logged. -/
def memoryStep (s : MemorySystem) (e : MemoryEvent) : MemorySystem :=
  match e with
  | .engine event _ =>
    { system := engineStep orchestrator s.system event
      db := match s.writeback orchestrator e with
        | some (input, env) => (persistOutputs sha256 orchestrator s.db input env).1
        | none => s.db }
  | .other call => { s with db := (call.exec s.db).1 }

def contentAt (rows : List MemoryRow) (key : MemoryKey) : Option String :=
  (rows.find? (·.node.key == key)).map (·.node.content)

/-- The write of an attempt that ends here succeeds. -/
def Writes (s : MemorySystem) (e : MemoryEvent) (input : WorkflowOutputWriteback)
    (env : WritebackEnv) : Prop :=
  s.writeback orchestrator e = some (input, env) ∧
    ∃ outcome, (persistOutputs sha256 orchestrator s.db input env).2 = .ok outcome

/-- **The memory is current**: after the write of an attempt, the memory of every output
that is not blank is that output. -/
def OutputsRemembered (s : MemorySystem) (e : MemoryEvent) : Prop :=
  ∀ input env, Writes sha256 orchestrator s e input env → ∀ output ∈ input.outputs,
    Text.isBlank (renderOutputValue env output.2) = false →
      contentAt (memoryStep sha256 orchestrator s e).db.memories
          (input.orchestratorId,
            Origin.memoryId sha256 (.output input.runId input.stepId output.1)) =
        some (String.ofList (renderOutputValue env output.2))

def KeysApart (nodes : List (Origin × MemoryNode)) : Prop :=
  ∀ entry ∈ nodes, ∀ other ∈ nodes, other.2.key = entry.2.key →
    other.2.content = entry.2.content

/-- The attempt number is new for the step and its outputs have ids of their own; or the
number has been used, and what it would store is stored already. -/
def NumberFresh (s : MemorySystem) (e : MemoryEvent) : Prop :=
  ∀ input env w, Writes sha256 orchestrator s e input env →
    persistWorkflowOutputMemories sha256 env input = some w →
      (¬ UpsertCall.Recorded w.source s.db → KeysApart w.nodes) ∧
      (UpsertCall.Recorded w.source s.db → ∀ entry ∈ w.nodes,
        contentAt s.db.memories entry.2.key = some entry.2.content)

end Steps

/-! ## Reading a key after upserts -/

section Content

variable {rows : List MemoryRow} {node : MemoryNode} {key : MemoryKey}

theorem contentAt_upsertMemory (rows : List MemoryRow) (node : MemoryNode)
    (idempotencyKey : String) (key : MemoryKey) :
    contentAt (upsertMemory rows node idempotencyKey) key =
      if node.key = key then some node.content else contentAt rows key := by
  rw [upsertMemory]
  split
  · next hany =>
      rw [contentAt, List.find?_map]
      -- an update keeps the key of its row
      have hkey : ((fun row : MemoryRow => row.node.key == key) ∘ fun row =>
          if row.node.key == node.key then row.update node idempotencyKey else row) =
            fun row => row.node.key == key := by
        funext row
        rw [Function.comp_apply]
        split
        · next hsame =>
            rw [beq_iff_eq.mp hsame]
            rfl
        · rfl
      rw [hkey]
      by_cases hnode : node.key = key
      · rw [if_pos hnode]
        obtain ⟨row, hfound⟩ : ∃ row, rows.find? (·.node.key == key) = some row := by
          rw [← Option.isSome_iff_exists, List.find?_isSome, ← hnode]
          exact List.any_eq_true.mp hany
        have hrow := List.find?_some hfound
        rw [← hnode] at hrow
        rw [hfound]
        show some (if row.node.key == node.key then row.update node idempotencyKey
          else row).node.content = some node.content
        rw [if_pos hrow]
        rfl
      · rw [if_neg hnode, contentAt]
        cases hfound : rows.find? (·.node.key == key) with
        | none => rfl
        | some row =>
          have hrow := List.find?_some hfound
          have hrow : row.node.key = key := beq_iff_eq.mp hrow
          show some (if row.node.key == node.key then row.update node idempotencyKey
            else row).node.content = some row.node.content
          rw [if_neg]
          rw [hrow, beq_iff_eq]
          exact fun heq => hnode heq.symm
  · next hany =>
      rw [contentAt, List.find?_append]
      by_cases hnode : node.key = key
      · have hnone : rows.find? (·.node.key == key) = none := by
          rw [List.find?_eq_none, ← hnode]
          intro row hrow heq
          exact hany (List.any_eq_true.mpr ⟨row, hrow, heq⟩)
        rw [hnone, if_pos hnode, Option.none_or, List.find?_singleton,
          if_pos (beq_iff_eq.mpr hnode)]
        rfl
      · rw [if_neg hnode, List.find?_singleton, if_neg (by rwa [beq_iff_eq]), Option.or_none]
        rfl

/-- Where every write to a key says the same, that is what stands there. -/
theorem contentAt_upserts {content idempotencyKey : String} :
    ∀ {nodes : List MemoryNode} {rows : List MemoryRow},
      (∀ node ∈ nodes, node.key = key → node.content = content) →
      (contentAt rows key = some content ∨ ∃ node ∈ nodes, node.key = key) →
      contentAt (nodes.foldl (fun rows node => upsertMemory rows node idempotencyKey) rows) key =
        some content
  | [], rows, _, h => by
      rcases h with hrows | ⟨node, hnode, -⟩
      · exact hrows
      · cases hnode
  | node :: nodes, rows, hsame, h => by
      rw [List.foldl_cons]
      apply contentAt_upserts fun later hlater => hsame later (List.mem_cons_of_mem _ hlater)
      rw [contentAt_upsertMemory]
      by_cases hnode : node.key = key
      · rw [if_pos hnode, hsame node List.mem_cons_self hnode]
        exact .inl rfl
      · rw [if_neg hnode]
        refine h.imp_right fun ⟨later, hlater, hkey⟩ => ⟨later, ?_, hkey⟩
        rcases List.mem_cons.mp hlater with rfl | hlater
        · exact absurd hkey hnode
        · exact hlater

end Content

/-! ## One write -/

section Write

variable {sha256 : List UInt8 → List UInt8} {orchestrator : OrchestratorConfig}
  {input : WorkflowOutputWriteback} {env : WritebackEnv} {w : Writeback} {db : Database}

theorem writeback_nodes (h : persistWorkflowOutputMemories sha256 env input = some w) :
    w.nodes = input.outputs.filterMap (outputNode sha256 env input) := by
  rw [persistWorkflowOutputMemories] at h
  split at h
  · cases h
  · cases h
    rfl

theorem outputNode_of_blank {output : String × Json}
    (h : Text.isBlank (renderOutputValue env output.2) = true) :
    outputNode sha256 env input output = none := by
  rw [outputNode]
  exact if_pos h

theorem outputNode_of_text {output : String × Json}
    (h : Text.isBlank (renderOutputValue env output.2) = false) :
    ∃ node : MemoryNode,
      outputNode sha256 env input output =
        some (.output input.runId input.stepId output.1, node) ∧
      node.key = (input.orchestratorId,
        Origin.memoryId sha256 (.output input.runId input.stepId output.1)) ∧
      node.content = String.ofList (renderOutputValue env output.2) := by
  have htext : ¬ Text.isBlank (renderOutputValue env output.2) = true := by
    rw [h]
    exact Bool.false_ne_true
  exact ⟨_, if_neg htext, rfl, rfl⟩

/-- What is asked of the outputs is asked of their nodes. -/
theorem remembered_iff {rows : List MemoryRow} :
    (∀ output ∈ input.outputs, Text.isBlank (renderOutputValue env output.2) = false →
      contentAt rows (input.orchestratorId,
          Origin.memoryId sha256 (.output input.runId input.stepId output.1)) =
        some (String.ofList (renderOutputValue env output.2))) ↔
      ∀ entry ∈ input.outputs.filterMap (outputNode sha256 env input),
        contentAt rows entry.2.key = some entry.2.content := by
  constructor
  · intro h entry hentry
    obtain ⟨output, houtput, hnode⟩ := List.mem_filterMap.mp hentry
    cases hblank : Text.isBlank (renderOutputValue env output.2) with
    | true =>
      rw [outputNode_of_blank hblank] at hnode
      cases hnode
    | false =>
      obtain ⟨node, hsome, hkey, hcontent⟩ := @outputNode_of_text sha256 input env output hblank
      rw [hsome] at hnode
      obtain rfl := Option.some.inj hnode
      rw [hkey, hcontent]
      exact h output houtput hblank
  · intro h output houtput hblank
    obtain ⟨node, hsome, hkey, hcontent⟩ := @outputNode_of_text sha256 input env output hblank
    have hnode := h _ (List.mem_filterMap.mpr ⟨output, houtput, hsome⟩)
    rw [hkey, hcontent] at hnode
    exact hnode

theorem persistOutputs_none (h : persistWorkflowOutputMemories sha256 env input = none) :
    persistOutputs sha256 orchestrator db input env = (db, .ok .duplicateSource) := by
  rw [persistOutputs, PersistCall.exec, PersistCall.writeback, h]

theorem persistOutputs_some (h : persistWorkflowOutputMemories sha256 env input = some w) :
    persistOutputs sha256 orchestrator db input env =
      (w.request env orchestrator.id).exec db := by
  rw [persistOutputs, PersistCall.exec, PersistCall.writeback, h]

/-- A number that has been used leaves the database as it is. -/
theorem persistOutputs_recorded (h : persistWorkflowOutputMemories sha256 env input = some w)
    (hrecorded : UpsertCall.Recorded w.source db) :
    (persistOutputs sha256 orchestrator db input env).1 = db := by
  rw [persistOutputs_some h]
  exact UpsertCall.exec_of_recorded hrecorded

theorem persistOutputs_fresh (h : persistWorkflowOutputMemories sha256 env input = some w)
    (hinv : StoreInv db) (hfresh : ¬ UpsertCall.Recorded w.source db) {outcome : PersistOutcome}
    (hok : (persistOutputs sha256 orchestrator db input env).2 = .ok outcome) :
    (persistOutputs sha256 orchestrator db input env).1.memories =
      (w.nodes.map Prod.snd).foldl
        (fun rows node => upsertMemory rows node w.source.idempotencyKey) db.memories := by
  rw [persistOutputs_some h] at hok ⊢
  rcases (w.request env orchestrator.id).exec_cases db with
    ⟨hsame, -⟩ | ⟨recorded, written, -, hsource, hwrite, hexec⟩
  · -- an accepted call records its source
    have hrecorded := UpsertCall.recorded_of_ok hok
    rw [hsame] at hrecorded
    exact absurd hrecorded hfresh
  · rw [hexec]
    have hstart : StoreInv recorded := by
      rw [insertSource_tables hsource]
      exact ⟨hinv.consistent.of_tables rfl rfl rfl rfl, hinv.named⟩
    have hmemories : recorded.memories = db.memories := by rw [insertSource_tables hsource]
    rw [write_memories hstart hwrite, hmemories]
    rfl

theorem keysApart_iff {rows : List MemoryRow} {nodes : List (Origin × MemoryNode)}
    {idempotencyKey : String} :
    (∀ entry ∈ nodes, contentAt ((nodes.map Prod.snd).foldl
        (fun rows node => upsertMemory rows node idempotencyKey) rows) entry.2.key =
      some entry.2.content) ↔ KeysApart nodes := by
  constructor
  · intro h entry hentry other hother hkey
    have hcontent := h other hother
    rw [hkey, h entry hentry] at hcontent
    exact (Option.some.inj hcontent).symm
  · intro h entry hentry
    apply contentAt_upserts
    · intro node hnode hkey
      obtain ⟨other, hother, rfl⟩ := List.mem_map.mp hnode
      exact h entry hentry other hother hkey
    · exact .inr ⟨entry.2, List.mem_map_of_mem hentry, rfl⟩

end Write

/-! ## Every run -/

section Runs

variable {sha256 : List UInt8 → List UInt8} {orchestrator : OrchestratorConfig}
  {s : MemorySystem} {e : MemoryEvent}

theorem memoryStep_db {input : WorkflowOutputWriteback} {env : WritebackEnv}
    (h : s.writeback orchestrator e = some (input, env)) :
    (memoryStep sha256 orchestrator s e).db =
      (persistOutputs sha256 orchestrator s.db input env).1 := by
  cases e with
  | engine event answers =>
    show (match s.writeback orchestrator (.engine event answers) with
      | some (input, env) => (persistOutputs sha256 orchestrator s.db input env).1
      | none => s.db) = _
    rw [h]
  | other call => cases h

/-- A step stores through `upsert_nodes_and_edges`, or not at all: what every call of it keeps,
the step keeps. -/
theorem memoryStep_keeps {P : Database → Prop}
    (hexec : ∀ (call : UpsertCall) {db : Database}, P db → P (call.exec db).1)
    (s : MemorySystem) (e : MemoryEvent) (h : P s.db) :
    P (memoryStep sha256 orchestrator s e).db := by
  cases hwrite : s.writeback orchestrator e with
  | some written =>
    obtain ⟨input, env⟩ := written
    rw [memoryStep_db hwrite]
    cases hw : persistWorkflowOutputMemories sha256 env input with
    | none =>
      rw [persistOutputs_none hw]
      exact h
    | some w =>
      rw [persistOutputs_some hw]
      exact hexec _ h
  | none =>
    cases e with
    | engine event answers =>
      show P (match s.writeback orchestrator (.engine event answers) with
        | some (input, env) => (persistOutputs sha256 orchestrator s.db input env).1
        | none => s.db)
      rw [hwrite]
      exact h
    | other call => exact hexec call h

theorem storeInv_memoryStep (s : MemorySystem) (e : MemoryEvent) (h : StoreInv s.db) :
    StoreInv (memoryStep sha256 orchestrator s e).db :=
  memoryStep_keeps (fun call _ => call.storeInv_exec) s e h

theorem outputsRemembered_iff_step (h : StoreInv s.db) :
    OutputsRemembered sha256 orchestrator s e ↔ NumberFresh sha256 orchestrator s e := by
  constructor
  · intro hremembered input env w hwrites hw
    have hnodes := remembered_iff.mp (hremembered input env hwrites)
    rw [← writeback_nodes hw, memoryStep_db hwrites.1] at hnodes
    constructor
    · intro hfresh
      obtain ⟨outcome, hok⟩ := hwrites.2
      rw [persistOutputs_fresh hw h hfresh hok] at hnodes
      exact keysApart_iff.mp hnodes
    · intro hrecorded
      rwa [persistOutputs_recorded hw hrecorded] at hnodes
  · intro hnumber input env hwrites
    refine remembered_iff.mpr ?_
    rw [memoryStep_db hwrites.1]
    cases hw : persistWorkflowOutputMemories sha256 env input with
    | none =>
      -- no output has a text
      rw [persistWorkflowOutputMemories] at hw
      split at hw
      · next hnone =>
          rw [List.isEmpty_iff.mp hnone]
          intro entry hentry
          cases hentry
      · cases hw
    | some w =>
      rw [← writeback_nodes hw]
      obtain ⟨hfresh, hused⟩ := hnumber input env w hwrites hw
      by_cases hrecorded : UpsertCall.Recorded w.source s.db
      · rw [persistOutputs_recorded hw hrecorded]
        exact hused hrecorded
      · obtain ⟨outcome, hok⟩ := hwrites.2
        rw [persistOutputs_fresh hw h hrecorded hok]
        exact keysApart_iff.mpr (hfresh hrecorded)

end Runs

/-- A run that was created in a repository without memories. -/
def MemorySystem.created (runId workflowId : String) (now : Int) : MemorySystem where
  system := System.created runId workflowId now

/-- Over every run with its loops, retries, crashes and resumes, and whatever else is written
meanwhile: after every attempt whose write succeeds the memories of its outputs are its
outputs, if and only if every such attempt has a number that is fresh. -/
theorem outputs_remembered_iff (sha256 : List UInt8 → List UInt8)
    (orchestrator : OrchestratorConfig) (runId workflowId : String) (now : Int)
    (events : List MemoryEvent) :
    Meets (memoryStep sha256 orchestrator) (OutputsRemembered sha256 orchestrator)
        (MemorySystem.created runId workflowId now) events ↔
      Meets (memoryStep sha256 orchestrator) (NumberFresh sha256 orchestrator)
        (MemorySystem.created runId workflowId now) events :=
  meets_congr (I := fun s : MemorySystem => StoreInv s.db)
    (fun s e h => storeInv_memoryStep s e h) (fun _ _ h => outputsRemembered_iff_step h) events
    storeInv_empty

/-! ### A step that is visited twice -/

def plainAnswers : MemoryAnswers where
  env :=
    { toText := fun _ => "", canonicalize := fun _ => none, isFile := fun _ => false, now := 0 }

/-- The engine makes steps, and every provider answers this summary. -/
def summarizing (n : ℕ) (text : String) : List MemoryEvent :=
  List.replicate n
    (.engine (.engine { now := 1, outcome := .outputs [("summary", .str text)] }) plainAnswers)

/-- `plan` and `build` have answered, and `plan` is running again. -/
def untilSecondVisit : List MemoryEvent :=
  .engine (.call .start 0) plainAnswers :: summarizing 36 "first plan"

def secondPlan : WorkflowOutputWriteback where
  orchestratorId := "main"
  runId := "run-1"
  stepId := "plan"
  attempt := 1
  outputs := [("summary", .str "second plan")]
  outputFiles := []
  capturedAt := 1

theorem second_plan_forgotten :
    validateSetupInvariants loopOrchestrator = .ok () ∧
    ¬ Meets (memoryStep Sha256.digest loopOrchestrator)
      (OutputsRemembered Sha256.digest loopOrchestrator)
      (MemorySystem.created "run-1" "flow" 0)
      (untilSecondVisit ++ summarizing 1 "second plan") := by
  refine ⟨rfl, fun h => ?_⟩
  obtain ⟨hlast, -⟩ := (meets_append.mp h).2
  have hcontent := hlast secondPlan plainAnswers.env
    ⟨rfl, .duplicateSource, by decide +kernel⟩ ("summary", .str "second plan")
    List.mem_cons_self (by decide)
  exact absurd hcontent (by decide +kernel)

end Direclaw.Memory
