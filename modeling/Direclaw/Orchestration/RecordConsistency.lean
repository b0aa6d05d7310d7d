import Direclaw.Orchestration.CrashResume

/-!
# The record and its snapshot

The run record and `progress.json` are written by six operations, some from a
copy the caller holds and some from a fresh load. `transition_state`,
`mark_step_attempt_started` and `checkpoint` write the copy they are given, and
`persist_step_attempt` loads the record, counts the attempt and writes it back: a
copy made before it does not have the count. The engine reloads whenever somebody
else has written, so its copies are current. A caller outside it has to do the
same; then every write of the record is a legal transition.
-/

namespace Direclaw.Orchestration

open Direclaw.Lib

/-! ## Histories -/

/-- A store operation on the copy (`&mut WorkflowRunRecord`) of its caller. -/
inductive CopyOp : Type where
  | transitionState (next : RunState) (now : Int) (summary : String) (pendingHumanInput : Bool)
      (nextExpectedAction : String)
  | markStepAttemptStarted (stepId : String) (attempt : ℕ) (now : Int)
  | checkpoint (now : Int) (summary : String) (pendingHumanInput : Bool)
      (nextExpectedAction : String)

/-- The copy the operation leaves, and its writes; a rejected transition changes
nothing. -/
def CopyOp.apply (run : WorkflowRunRecord) : CopyOp → WorkflowRunRecord × List StoreWrite
  | .transitionState next now summary pending action =>
    match Orchestration.transitionState run next now summary pending action with
    | .ok done => done
    | .error _ => (run, [])
  | .markStepAttemptStarted stepId attempt now =>
    Orchestration.markStepAttemptStarted run stepId attempt now
  | .checkpoint now summary pending action => Orchestration.checkpoint run now summary pending action

/-- The copy of the record that the engine holds. -/
def Control.copy : Control → Option WorkflowRunRecord
  | .cycling run _ => some run
  | .attempting a | .invoking a | .running a | .counting a _ _ | .settling a _ _ => some a.run
  | .idle | .loading .. | .reloading .. => none

/-- A run with the callers that work on it outside the engine, each with its copy of
the record. -/
structure History where
  system : System
  held : ℕ → WorkflowRunRecord

/-- After `create_run`: every caller has the record it returned. -/
def History.created (runId workflowId : String) (sourceMessageId : Option String)
    (inputs : List (String × Json)) (now : Int) : History :=
  let files := createRunWithMetadata runId workflowId sourceMessageId inputs now
  { system := { files := files }, held := fun _ => files.run }

def History.hold (h : History) (caller : ℕ) (copy : WorkflowRunRecord) : History :=
  { h with held := Function.update h.held caller copy }

/-- The writes are queued, to be made one by one. -/
def System.queue (s : System) (writes : List StoreWrite) : System :=
  { s with process := { s.process with todo := writes } }

inductive HistoryEvent : Type where
  | call (entry : Entry) (now : Int)
  /-- `load_run`. -/
  | load (caller : ℕ)
  /-- The caller sets the step pointer of its copy, as the engine does with its own. -/
  | point (caller : ℕ) (currentStepId : Option String) (currentAttempt : Option ℕ)
  | operate (caller : ℕ) (op : CopyOp)
  | persistStepAttempt (attempt : StepAttemptRecord)
  /-- `heartbeat_tick` by the engine that has the run. -/
  | heartbeat (now : Int) (summary : String)
  /-- `heartbeat_tick` by a caller. -/
  | heartbeatBy (caller : ℕ) (now : Int) (summary : String)
  /-- Whatever is in progress makes its next file access; an engine reads the
  configuration it was given. -/
  | access (orchestrator : OrchestratorConfig) (input : Input)

/-- Operations do not overlap: one begins when the writes of the last have landed,
and a caller only works on a run that no engine call is in progress on. -/
def historyStep (h : History) (e : HistoryEvent) : History :=
  match h.system.process.todo, h.system.process.control, e with
  | _, _, .access orchestrator input => { h with system := h.system.advance orchestrator input }
  | [], .idle, .call entry now =>
    { h with system := { h.system with process := { control := .loading entry now } } }
  | [], .idle, .load caller => h.hold caller h.system.files.run
  | [], .idle, .point caller step attempt =>
    h.hold caller { h.held caller with currentStepId := step, currentAttempt := attempt }
  | [], .idle, .operate caller op =>
    let done := op.apply (h.held caller)
    { h.hold caller done.1 with system := h.system.queue done.2 }
  | [], .idle, .persistStepAttempt attempt =>
    { h with
      system := h.system.queue (.result attempt :: countStepAttempt h.system.files.run attempt) }
  | [], .idle, .heartbeatBy caller now summary =>
    { h with system := h.system.queue (heartbeatTick (h.held caller) now summary) }
  | [], control, .heartbeat now summary =>
    match control.copy with
    | some run => { h with system := h.system.queue (heartbeatTick run now summary) }
    | none => h
  | _, _, _ => h

/-- The copy has the state and the count of the record. -/
structure WorkflowRunRecord.Agrees (copy run : WorkflowRunRecord) : Prop where
  state : copy.state = run.state
  total : copy.totalIterations = run.totalIterations

instance WorkflowRunRecord.Agrees.decidable (copy run : WorkflowRunRecord) :
    Decidable (copy.Agrees run) :=
  decidable_of_iff (copy.state = run.state ∧ copy.totalIterations = run.totalIterations)
    ⟨fun h => ⟨h.1, h.2⟩, fun h => ⟨h.state, h.total⟩⟩

/-- A caller outside the engine works on the record as loaded: nobody has moved or
counted the run since. -/
def OnLoaded (h : History) : HistoryEvent → Prop
  | .operate caller _ | .heartbeatBy caller _ _ => (h.held caller).Agrees h.system.files.run
  | .call .. | .load _ | .point .. | .persistStepAttempt _ | .heartbeat .. | .access .. => True

instance OnLoaded.decidable (h : History) : ∀ e, Decidable (OnLoaded h e)
  | .operate caller _ | .heartbeatBy caller _ _ =>
    inferInstanceAs (Decidable ((h.held caller).Agrees h.system.files.run))
  | .call .. | .load _ | .point .. | .persistStepAttempt _ | .heartbeat .. | .access .. =>
    .isTrue trivial

/-! ## Legal writes -/

/-- The reason is there exactly in the terminal states, and the total is a `u32`. -/
structure WorkflowRunRecord.Sound (run : WorkflowRunRecord) : Prop where
  reason : run.terminalReason.isSome = run.state.isTerminal
  total : run.totalIterations ≤ Text.u32Max

/-- What the persisted record may become. -/
structure WorkflowRunRecord.Follows (run run' : WorkflowRunRecord) : Prop where
  edge : run'.state = run.state ∨ run.state.canTransitionTo run'.state = true
  total : run.totalIterations ≤ run'.totalIterations

namespace WorkflowRunRecord.Follows

theorem refl (run : WorkflowRunRecord) : run.Follows run := ⟨.inl rfl, le_rfl⟩

theorem terminal {run run' : WorkflowRunRecord} (h : run.Follows run')
    (ht : run.state.isTerminal = true) : run'.state = run.state := by
  rcases h.edge with heq | hedge
  · exact heq
  · rw [RunState.canTransitionTo_of_isTerminal ht] at hedge
    cases hedge

end WorkflowRunRecord.Follows

/-- Every write of the record is legal where it lands. -/
def Lawful : RunFiles → List StoreWrite → Prop
  | _, [] => True
  | files, w :: ws =>
    files.run.Follows (files.apply w).run ∧ (files.apply w).run.Sound ∧ Lawful (files.apply w) ws

/-- The copy is current where the process writes from it, and never of another
state. -/
def Control.Current (files : RunFiles) : Control → Prop
  | .cycling run _ => run = files.run
  | .attempting a | .invoking a => a.run = files.run
  | .running a | .counting a _ _ | .settling a _ _ => a.run.state = files.run.state
  | _ => True

/-- Between two operations. -/
structure AtRest (files : RunFiles) (control : Control) : Prop where
  progress : files.progress.state = files.run.state
  current : control.Current files

/-- What a process has queued is legal, and ends between two operations. -/
structure Process.Lawful (files : RunFiles) (p : Process) : Prop where
  todo : Orchestration.Lawful files p.todo
  rest : AtRest (files.applyAll p.todo) p.control

structure ConsistentInv (h : History) : Prop where
  sound : h.system.files.run.Sound
  process : h.system.process.Lawful h.system.files
  held : ∀ caller, (h.held caller).Sound

/-! ## One operation -/

section Operations

variable {files : RunFiles} {run : WorkflowRunRecord}

theorem Control.Current.copy_state {control : Control} (h : control.Current files)
    (hcopy : control.copy = some run) : run.state = files.run.state := by
  cases control with
  | cycling run n =>
    cases hcopy
    exact congrArg _ h
  | attempting a | invoking a =>
    cases hcopy
    exact congrArg _ h
  | running a | counting a record result | settling a record result =>
    cases hcopy
    exact h
  | idle | loading entry now | reloading n c => cases hcopy

variable {control : Control}

theorem lawful_of_record {origin : RunWriteOrigin} {snapshot : ProgressSnapshot}
    (h : files.run.Follows run) (hr : run.Sound) (hs : snapshot.state = run.state)
    (hc : control.Current ((files.apply (.run origin run)).apply (.progress snapshot))) :
    Process.Lawful files { todo := [.run origin run, .progress snapshot], control := control } :=
  ⟨⟨h, hr, .refl _, hr, trivial⟩, hs, hc⟩

theorem lawful_transitionState {run' : WorkflowRunRecord} {writes : List StoreWrite}
    {next : RunState} {now : Int} {summary action : String} {pending : Bool}
    (hsound : files.run.Sound)
    (h : transitionState run next now summary pending action = .ok (run', writes))
    (hs : run.state = files.run.state) (ht : run.totalIterations = files.run.totalIterations) :
    ∃ snapshot, writes = [.run .transitionState run', .progress snapshot] ∧
      files.run.Follows run' ∧ run'.Sound ∧ snapshot.state = run'.state := by
  unfold transitionState at h
  split at h
  case isFalse => cases h
  case isTrue hcan =>
    cases h
    refine ⟨_, rfl, ⟨.inr (hs ▸ hcan), ht.ge⟩, ⟨?_, ht.le.trans hsound.total⟩, rfl⟩
    dsimp only
    split
    · next hterm => simp [hterm]
    · next hlive => simpa using hlive

theorem lawful_executeOrFail (hsound : files.run.Sound) (hs : run.state = files.run.state)
    (ht : run.totalIterations = files.run.totalIterations)
    (hp : files.progress.state = files.run.state) (now : Int) (err : OrchestratorError) :
    (executeOrFail run now err).Lawful files := by
  unfold executeOrFail
  split
  · exact ⟨trivial, hp, trivial⟩
  · split
    · next run' writes htr =>
        obtain ⟨snapshot, rfl, hf, hr, hsnap⟩ := lawful_transitionState hsound htr hs ht
        exact lawful_of_record hf hr hsnap trivial
    · exact ⟨trivial, hp, trivial⟩

theorem lawful_finishRun (hsound : files.run.Sound) (hs : run.state = files.run.state)
    (ht : run.totalIterations = files.run.totalIterations)
    (hp : files.progress.state = files.run.state) (now at_ : Int) (summary : String) (n c : ℕ) :
    (finishRun run now at_ summary n c).Lawful files := by
  let cleared : WorkflowRunRecord := { run with currentStepId := none, currentAttempt := none }
  have hs' : cleared.state = files.run.state := hs
  have ht' : cleared.totalIterations = files.run.totalIterations := ht
  unfold finishRun
  dsimp only
  split
  · next run' writes htr =>
      obtain ⟨snapshot, rfl, hf, hr, hsnap⟩ := lawful_transitionState hsound htr hs' ht'
      exact lawful_of_record hf hr hsnap trivial
  · exact lawful_executeOrFail hsound hs' ht' hp now _

theorem lawful_countStepAttempt (hsound : files.run.Sound) (record : StepAttemptRecord)
    (hc : control.Current (files.applyAll (countStepAttempt files.run record))) :
    Process.Lawful files { todo := countStepAttempt files.run record, control := control } := by
  have htotal := hsound.total
  have hle : files.run.totalIterations ≤ Text.u32Succ files.run.totalIterations := by
    simp only [Text.u32Succ]
    omega
  apply lawful_of_record
  · exact ⟨.inl rfl, hle⟩
  · exact ⟨hsound.reason, Nat.min_le_right _ _⟩
  · rfl
  · exact hc

/-- Every control point queues legal writes only. -/
theorem lawful_advance {orchestrator : OrchestratorConfig} (input : Input)
    (hsound : files.run.Sound) (h : AtRest files control) :
    (Control.advance orchestrator files input control).1.Lawful files := by
  have hp := h.progress
  have hcur := h.current
  cases control with
  | idle => exact ⟨trivial, hp, trivial⟩
  | loading entry now =>
    simp only [Control.advance]
    rcases enter_cases entry files.run now with he | he | ⟨_, verb, he⟩
    · rw [he]
      exact ⟨trivial, hp, trivial⟩
    · rw [he]
      exact ⟨trivial, hp, rfl⟩
    · rw [he, beginRun]
      split
      · next run' writes htr =>
          obtain ⟨snapshot, rfl, hf, hr', hsnap⟩ := lawful_transitionState hsound htr rfl rfl
          exact lawful_of_record hf hr' hsnap rfl
      · exact ⟨trivial, hp, trivial⟩
  | cycling run cycles =>
    obtain rfl : run = files.run := hcur
    simp only [Control.advance]
    split
    · exact ⟨trivial, hp, trivial⟩
    · rcases executeNext_cases orchestrator files files.run input.now cycles with
        ⟨err, he⟩ | ⟨workflow, _, _, he⟩ | ⟨workflow, pointer, step, _, _, _, he⟩
      · rw [he]
        exact lawful_executeOrFail hsound rfl rfl hp _ _
      · rw [he]
        exact lawful_finishRun hsound rfl rfl hp _ _ _ _ _
      · rw [he]
        exact ⟨trivial, hp, rfl⟩
  | attempting a =>
    have hrun : a.run = files.run := hcur
    simp only [Control.advance, markStepAttemptStarted, hrun]
    apply lawful_of_record
    · exact ⟨.inl rfl, le_rfl⟩
    · exact ⟨hsound.reason, hsound.total⟩
    · rfl
    · rfl
  | invoking a =>
    have hrun : a.run = files.run := hcur
    simp only [Control.advance]
    split
    · rw [hrun]
      exact lawful_executeOrFail hsound rfl rfl hp _ _
    · exact ⟨trivial, hp, congrArg _ hrun⟩
  | running a => exact ⟨⟨.refl _, hsound, trivial⟩, hp, hcur⟩
  | counting a record result =>
    exact lawful_countStepAttempt hsound record hcur
  | settling a record result =>
    simp only [Control.advance]
    rcases a.settle_cases files.run record result with
      ⟨err, he⟩ | ⟨evaluation, next, summary, action, _, _, he⟩ |
        ⟨evaluation, summary, _, _, he⟩ | ⟨err, _, _, _, he⟩
    · rw [he]
      exact lawful_executeOrFail hsound rfl rfl hp _ _
    · rw [he]
      apply lawful_of_record
      · exact ⟨.inl rfl, le_rfl⟩
      · exact ⟨hsound.reason, hsound.total⟩
      · rfl
      · trivial
    · rw [he]
      exact lawful_finishRun hsound rfl rfl hp _ _ _ _ _
    · rw [he]
      exact ⟨trivial, hp, rfl⟩
  | reloading n cycles =>
    simp only [Control.advance]
    split
    · exact ⟨trivial, hp, trivial⟩
    · exact ⟨trivial, hp, rfl⟩

end Operations

/-! ## Whole histories -/

section Histories

/-- A caller's operation leaves a copy that could be a record. -/
theorem CopyOp.apply_sound {copy : WorkflowRunRecord} (h : copy.Sound) (op : CopyOp) :
    (op.apply copy).1.Sound := by
  cases op with
  | transitionState next now summary pending action =>
    simp only [CopyOp.apply]
    cases htr : Orchestration.transitionState copy next now summary pending action with
    | error err => exact h
    | ok done =>
      unfold Orchestration.transitionState at htr
      split at htr
      · cases htr
        refine ⟨?_, h.total⟩
        dsimp only
        split
        · next hterm => simp [hterm]
        · next hlive => simpa using hlive
      · cases htr
  | markStepAttemptStarted stepId attempt now => exact ⟨h.reason, h.total⟩
  | checkpoint now summary pending action => exact ⟨h.reason, h.total⟩

variable {files : RunFiles} {copy : WorkflowRunRecord}

/-- The writes of a caller's operation on a copy that agrees with the record. -/
theorem lawful_copyOp (hsound : files.run.Sound) (hp : files.progress.state = files.run.state)
    (hcopy : copy.Sound) (hagrees : copy.Agrees files.run) (op : CopyOp) :
    Process.Lawful files { todo := (op.apply copy).2 } := by
  have hfollows : files.run.Follows copy := ⟨.inl hagrees.state, hagrees.total.ge⟩
  cases op with
  | transitionState next now summary pending action =>
    simp only [CopyOp.apply]
    cases htr : Orchestration.transitionState copy next now summary pending action with
    | error err => exact ⟨trivial, hp, trivial⟩
    | ok done =>
      obtain ⟨run', writes⟩ := done
      obtain ⟨snapshot, rfl, hf, hr, hsnap⟩ :=
        lawful_transitionState hsound htr hagrees.state hagrees.total
      exact lawful_of_record hf hr hsnap trivial
  | markStepAttemptStarted stepId attempt now =>
    apply lawful_of_record
    · exact ⟨hfollows.edge, hfollows.total⟩
    · exact ⟨hcopy.reason, hcopy.total⟩
    · rfl
    · trivial
  | checkpoint now summary pending action =>
    apply lawful_of_record
    · exact ⟨hfollows.edge, hfollows.total⟩
    · exact ⟨hcopy.reason, hcopy.total⟩
    · rfl
    · trivial

theorem lawful_persistStepAttempt (hsound : files.run.Sound) (attempt : StepAttemptRecord) :
    Process.Lawful files { todo := .result attempt :: countStepAttempt files.run attempt } := by
  -- the result is written first, and does not touch the record
  have h : Process.Lawful (files.apply (.result attempt))
      { todo := countStepAttempt files.run attempt } := by
    apply lawful_countStepAttempt
    · exact hsound
    · trivial
  exact ⟨⟨.refl _, hsound, h.todo⟩, h.rest⟩

theorem lawful_heartbeatTick {control : Control} (hsound : files.run.Sound)
    (hc : control.Current files) (hstate : copy.state = files.run.state) (now : Int)
    (summary : String) :
    Process.Lawful files { todo := heartbeatTick copy now summary, control := control } := by
  refine ⟨⟨.refl _, hsound, trivial⟩, hstate, ?_⟩
  cases control <;> exact hc

theorem ConsistentInv.hold {h : History} (hinv : ConsistentInv h) (caller : ℕ)
    (hcopy : copy.Sound) (other : ℕ) : ((h.hold caller copy).held other).Sound := by
  simp only [History.hold, Function.update_apply]
  split
  · exact hcopy
  · exact hinv.held other

variable {h : History}

/-- A step of a caller. It begins when nothing is in progress, and else it waits. -/
theorem consistent_caller (hinv : ConsistentInv h) {e : HistoryEvent} (he : OnLoaded h e)
    (haccess : ∀ cfg input, e ≠ .access cfg input)
    (hbeat : ∀ now summary, e ≠ .heartbeat now summary) :
    ConsistentInv (historyStep h e) ∧ (historyStep h e).system.files = h.system.files := by
  obtain ⟨⟨files, ⟨todo, control⟩, trace⟩, held⟩ := h
  have hsound : files.run.Sound := hinv.sound
  have hbusy : todo ≠ [] ∨ control ≠ .idle →
      historyStep ⟨⟨files, ⟨todo, control⟩, trace⟩, held⟩ e =
        ⟨⟨files, ⟨todo, control⟩, trace⟩, held⟩ := by
    intro hnot
    cases e with
    | access cfg input => exact absurd rfl (haccess cfg input)
    | heartbeat now summary => exact absurd rfl (hbeat now summary)
    | _ => cases todo <;> cases control <;> first | rfl | simp at hnot
  by_cases hrest : todo = [] ∧ control = .idle
  · obtain ⟨rfl, rfl⟩ := hrest
    have hp : files.progress.state = files.run.state := hinv.process.rest.progress
    cases e with
    | call entry now => exact ⟨⟨hsound, ⟨trivial, hp, trivial⟩, hinv.held⟩, rfl⟩
    | load caller => exact ⟨⟨hsound, hinv.process, hinv.hold caller hsound⟩, rfl⟩
    | point caller step attempt =>
      have hcopy := hinv.held caller
      exact ⟨⟨hsound, hinv.process, hinv.hold caller ⟨hcopy.reason, hcopy.total⟩⟩, rfl⟩
    | operate caller op =>
      have hcopy := hinv.held caller
      exact ⟨⟨hsound, lawful_copyOp hsound hp hcopy he op,
        hinv.hold caller (op.apply_sound hcopy)⟩, rfl⟩
    | persistStepAttempt attempt =>
      exact ⟨⟨hsound, lawful_persistStepAttempt hsound attempt, hinv.held⟩, rfl⟩
    | heartbeatBy caller now summary =>
      have hidle : Control.Current files .idle := trivial
      exact ⟨⟨hsound, lawful_heartbeatTick hsound hidle he.state now summary, hinv.held⟩, rfl⟩
    | heartbeat now summary => exact absurd rfl (hbeat now summary)
    | access cfg input => exact absurd rfl (haccess cfg input)
  · rw [hbusy (by tauto)]
    exact ⟨hinv, rfl⟩

/-- A heartbeat of the engine, which only a call in progress can make. -/
theorem consistent_heartbeat (hinv : ConsistentInv h) (now : Int) (summary : String) :
    ConsistentInv (historyStep h (.heartbeat now summary)) ∧
      (historyStep h (.heartbeat now summary)).system.files = h.system.files := by
  obtain ⟨⟨files, ⟨todo, control⟩, trace⟩, held⟩ := h
  cases todo with
  | cons w ws => cases control <;> exact ⟨hinv, rfl⟩
  | nil =>
    have hc : control.Current files := hinv.process.rest.current
    cases hcopy : control.copy with
    | none =>
      have hnone : historyStep ⟨⟨files, ⟨[], control⟩, trace⟩, held⟩ (.heartbeat now summary) =
          ⟨⟨files, ⟨[], control⟩, trace⟩, held⟩ := by
        cases control <;> first | rfl | cases hcopy
      rw [hnone]
      exact ⟨hinv, rfl⟩
    | some run =>
      have hsome : historyStep ⟨⟨files, ⟨[], control⟩, trace⟩, held⟩ (.heartbeat now summary) =
          ⟨⟨files, ⟨heartbeatTick run now summary, control⟩, trace⟩, held⟩ := by
        cases control <;> cases hcopy <;> rfl
      rw [hsome]
      exact ⟨⟨hinv.sound, lawful_heartbeatTick hinv.sound hc (hc.copy_state hcopy) now summary,
        hinv.held⟩, rfl⟩

theorem consistent_step (hinv : ConsistentInv h) (e : HistoryEvent) (he : OnLoaded h e) :
    ConsistentInv (historyStep h e) ∧
      h.system.files.run.Follows (historyStep h e).system.files.run := by
  have hsame : ∀ {h' : History}, ConsistentInv h' ∧ h'.system.files = h.system.files →
      ConsistentInv h' ∧ h.system.files.run.Follows h'.system.files.run := by
    rintro h' ⟨hinv', hfiles⟩
    rw [hfiles]
    exact ⟨hinv', .refl _⟩
  cases e with
  | heartbeat now summary => exact hsame (consistent_heartbeat hinv now summary)
  | access orchestrator input =>
    obtain ⟨⟨files, ⟨todo, control⟩, trace⟩, held⟩ := h
    obtain ⟨hsound, ⟨hlawful, hrest⟩, hheld⟩ := hinv
    cases todo with
    | nil =>
      have hp : files.progress.state = files.run.state := hrest.progress
      have hc : control.Current files := hrest.current
      exact ⟨⟨hsound, lawful_advance input hsound ⟨hp, hc⟩, hheld⟩, .refl _⟩
    | cons w ws => exact ⟨⟨hlawful.2.1, ⟨hlawful.2.2, hrest⟩, hheld⟩, hlawful.1⟩
  | _ => exact hsame (consistent_caller hinv he (fun _ _ h => by cases h) fun _ _ h => by cases h)

theorem consistent_run {events : List HistoryEvent} (hinv : ConsistentInv h)
    (hloaded : Meets historyStep OnLoaded h events) : ConsistentInv (run historyStep h events) :=
  run_invariant (I := ConsistentInv) (fun _ e hI he => (consistent_step hI e he).1) hinv hloaded

theorem follows_run {events : List HistoryEvent} (hinv : ConsistentInv h)
    (hloaded : Meets historyStep OnLoaded h events) :
    h.system.files.run.totalIterations ≤
        (run historyStep h events).system.files.run.totalIterations ∧
      (h.system.files.run.state.isTerminal = true →
        (run historyStep h events).system.files.run.state = h.system.files.run.state) := by
  induction events generalizing h with
  | nil => exact ⟨le_rfl, fun _ => rfl⟩
  | cons e events ih =>
    obtain ⟨he, hloaded⟩ := hloaded
    obtain ⟨hnext, hfollows⟩ := consistent_step hinv e he
    obtain ⟨htotal, hterm⟩ := ih hnext hloaded
    refine ⟨hfollows.total.trans htotal, fun ht => ?_⟩
    have hstate := hfollows.terminal ht
    exact (hterm (by rw [hstate]; exact ht)).trans hstate

theorem consistent_created (runId workflowId : String) (sourceMessageId : Option String)
    (inputs : List (String × Json)) (now : Int) :
    ConsistentInv (History.created runId workflowId sourceMessageId inputs now) :=
  ⟨⟨rfl, Nat.zero_le _⟩, ⟨trivial, rfl, trivial⟩, fun _ => ⟨rfl, Nat.zero_le _⟩⟩

end Histories

/-- What `load_run` returns agrees with the record. -/
theorem onLoaded_load {h : History} (htodo : h.system.process.todo = [])
    (hidle : h.system.process.control = .idle) (caller : ℕ) (op : CopyOp) :
    OnLoaded (historyStep h (.load caller)) (.operate caller op) := by
  obtain ⟨⟨files, ⟨todo, control⟩, trace⟩, held⟩ := h
  obtain rfl : todo = [] := htodo
  obtain rfl : control = .idle := hidle
  have hheld : (historyStep ⟨⟨files, ⟨[], .idle⟩, trace⟩, held⟩ (.load caller)).held caller =
      files.run := Function.update_self ..
  exact ⟨congrArg _ hheld, congrArg _ hheld⟩

/-- A run that is created and then worked on by any sequence of engine calls, store
operations and heartbeats, one after the other, those outside the engine on the
record as loaded. At every point of the history the reason is there exactly in a
terminal state, and the snapshot has the record's state whenever no operation is in
progress; every step is an edge of `can_transition_to` or leaves the state, and from
any point on the total never goes down and a terminal state never changes. -/
theorem run_record_consistent {runId workflowId : String} {sourceMessageId : Option String}
    {inputs : List (String × Json)} {now : Int} {events : List HistoryEvent}
    (hloaded : Meets historyStep OnLoaded
      (History.created runId workflowId sourceMessageId inputs now) events) :
    let h := run historyStep (History.created runId workflowId sourceMessageId inputs now) events
    let record := h.system.files.run
    (record.terminalReason.isSome = record.state.isTerminal) ∧
    (h.system.process.todo = [] → h.system.files.progress.state = record.state) ∧
    (∀ e, OnLoaded h e →
      (historyStep h e).system.files.run.state = record.state ∨
      record.state.canTransitionTo (historyStep h e).system.files.run.state = true) ∧
    (∀ later, Meets historyStep OnLoaded h later →
      record.totalIterations ≤ (run historyStep h later).system.files.run.totalIterations ∧
      (record.state.isTerminal = true →
        (run historyStep h later).system.files.run.state = record.state)) := by
  intro h record
  have hinv : ConsistentInv h :=
    consistent_run (consistent_created runId workflowId sourceMessageId inputs now) hloaded
  refine ⟨hinv.sound.reason, fun htodo => ?_, fun e he => (consistent_step hinv e he).2.edge,
    fun later hlater => follows_run hinv hlater⟩
  have hrest := hinv.process.rest.progress
  rwa [htodo] at hrest

/-! ### A count that is lost -/

def plannedAttempt : StepAttemptRecord where
  runId := "run-1"
  stepId := "plan"
  attempt := 1
  startedAt := 2
  endedAt := 3
  state := .failedRetryable

/-- The writes of an operation land. -/
def writesLand (n : ℕ) : List HistoryEvent :=
  List.replicate n
    (.access (sampleOrchestrator [sampleStep "plan" none]) { providerAnswers with now := 5 })

/-- A caller starts the run, counts an attempt and loads the record again; the engine
finishes it, and a transition after that is rejected. -/
def reloadedRun : List HistoryEvent :=
  [.operate 0 (.transitionState .running 1 "started" false "execute next step")] ++ writesLand 2 ++
  [.operate 0 (.markStepAttemptStarted "plan" 1 2)] ++ writesLand 2 ++
  [.persistStepAttempt plannedAttempt] ++ writesLand 3 ++
  [.load 0, .heartbeatBy 0 4 "still running"] ++ writesLand 1 ++
  [.point 0 (some "plan") none, .operate 0 (.checkpoint 4 "again" false "execute step plan")] ++
    writesLand 2 ++
  [.call .resume 5] ++ writesLand 2 ++ [.heartbeat 5 "working"] ++ writesLand 16 ++
  [.load 1, .operate 1 (.transitionState .running 6 "once more" false "execute next step")]

theorem run_record_consistent_reloadedRun :
    let h := run historyStep (History.created "run-1" "flow" none [] 0) reloadedRun
    let record := h.system.files.run
    record.state = .succeeded ∧ record.totalIterations = 2 ∧ record.terminalReason.isSome = true ∧
      (h.system.process.todo = [] → h.system.files.progress.state = .succeeded) := by
  intro h record
  have hloaded : Meets historyStep OnLoaded (History.created "run-1" "flow" none [] 0)
      reloadedRun := by decide +kernel
  obtain ⟨hreason, hprogress, -⟩ := run_record_consistent hloaded
  have hstate : record.state = .succeeded := by decide +kernel
  refine ⟨hstate, by decide +kernel, ?_, fun htodo => (hprogress htodo).trans hstate⟩
  rw [hreason]
  exact congrArg _ hstate

/-- The copy that started the run is kept while an attempt is counted. -/
def keptCopy : List HistoryEvent :=
  [.operate 0 (.transitionState .running 1 "started" false "execute next step")] ++ writesLand 2 ++
  [.persistStepAttempt plannedAttempt] ++ writesLand 3

theorem kept_copy_loses_count :
    ¬ ∀ earlier later : List HistoryEvent,
      (run historyStep (History.created "run-1" "flow" none [] 0)
          earlier).system.files.run.totalIterations ≤
        (run historyStep (History.created "run-1" "flow" none [] 0)
          (earlier ++ later)).system.files.run.totalIterations := by
  intro hall
  have hle := hall keptCopy
    ([.operate 0 (.transitionState .succeeded 4 "done" false "none")] ++ writesLand 2)
  revert hle
  decide

end Direclaw.Orchestration
