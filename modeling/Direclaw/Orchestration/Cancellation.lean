import Direclaw.Orchestration.CrashResume

/-!
# `workflow cancel` beside a running engine

The cancel command is another process: it loads the record, and if the run is
live it writes the record back as `Canceled`. Both processes rewrite the whole
record from a copy of their own, so whether a cancellation lasts depends on
what the engine holds when it lands. The engine keeps it when its next access
to the record is a read; a copy taken before is written over it.

Besides that, the retry loop of `execute_next` goes on without looking at the
state of the record it has reloaded.
-/

namespace Direclaw.Orchestration

open Direclaw.Lib

/-! ## The two processes -/

/-- The `cancel` branch of `workflow`, with the loaded record in hand: the writes
it makes. -/
def cancelRun (run : WorkflowRunRecord) (now : Int) : List StoreWrite :=
  if run.state.isTerminal then []
  else
    match transitionState run .canceled now "canceled by command" false "none" with
    | .ok (_, writes) => writes
    | .error _ => []

/-- One engine and any number of cancel commands that have loaded the record. -/
structure CancelSystem where
  engine : System
  cancels : List (List StoreWrite) := []

inductive CancelEvent : Type where
  | engine (event : EngineEvent)
  /-- A cancel command loads the record. -/
  | load (now : Int)
  /-- The `i`-th cancel command makes its next write. -/
  | write (i : ℕ)

namespace CancelSystem

def state (s : CancelSystem) : RunState := s.engine.files.run.state

/-- The write that the `i`-th cancel command makes next. -/
def nextWrite (s : CancelSystem) (i : ℕ) : Option StoreWrite := (s.cancels[i]?).bind List.head?

def step (orchestrator : OrchestratorConfig) (s : CancelSystem) : CancelEvent → CancelSystem
  | .engine event => { s with engine := engineStep orchestrator s.engine event }
  | .load now => { s with cancels := s.cancels ++ [cancelRun s.engine.files.run now] }
  | .write i =>
    match s.nextWrite i with
    | some w =>
      { engine := { s.engine with files := s.engine.files.apply w }
        cancels := s.cancels.modify i List.tail }
    | none => s

end CancelSystem

/-- The provider is called, or an attempt is marked as started. -/
def Observation.startsAttempt : Observation → Bool
  | .invoked _ _ => true
  | .wrote (.run .markStepAttemptStarted _) => true
  | _ => false

/-! ## When a cancellation lasts -/

def StoreWrite.isRun : StoreWrite → Bool
  | .run _ _ => true
  | _ => false

/-- A control point whose next access to the record is a read, and which does not
call the provider before it. -/
def Control.readsNext : Control → Bool
  | .cycling run cycles => run.state ≠ .running || decide (maxCycles ≤ cycles)
  | .attempting _ | .invoking _ => false
  | _ => true

/-- The process holds no copy of the record that it is going to write. -/
def Process.readsNext (p : Process) : Bool :=
  p.todo.all (!·.isRun) && p.control.readsNext

/-- The process is about to take the retry branch of `execute_next`. -/
def Process.retriesNext (p : Process) (run : WorkflowRunRecord) : Bool :=
  match p.todo, p.control with
  | [], .settling a record (.error err) =>
    a.canRetry err &&
      (enforceExecutionSafety run a.limits record.endedAt a.startedAt a.attempt).isOk
  | _, _ => false

/-- The steps that do not reach a lost cancellation: a live run is overwritten
with `Canceled` only while the engine reads next, and on a canceled run no
failed attempt is retried. -/
def CancelSafe (s : CancelSystem) : CancelEvent → Prop
  | .write i =>
    s.state = .canceled ∨ (s.nextWrite i).all (!·.isRun) = true ∨
      s.engine.process.readsNext = true
  | .engine (.engine _) =>
    s.state = .canceled → s.engine.process.retriesNext s.engine.files.run = false
  | _ => True

instance CancelSafe.decidable (s : CancelSystem) : ∀ e, Decidable (CancelSafe s e)
  | .write _ => inferInstanceAs (Decidable (_ ∨ _ ∨ _))
  | .engine (.engine _) => inferInstanceAs (Decidable (_ → _))
  | .engine (.call _ _) | .engine .crash | .load _ => inferInstanceAs (Decidable True)

/-! ## The invariant -/

/-- A write of the record leaves a state with `p`. -/
def StoreWrite.Leaves (p : RunState → Prop) : StoreWrite → Prop
  | .run _ record => p record.state
  | _ => True

/-- The copies a control point is going to write are not canceled. -/
def Control.Live : Control → Prop
  | .cycling run _ => run.state ≠ .canceled
  | .attempting a | .invoking a => a.run.state ≠ .canceled
  | _ => True

/-- What the engine's process may hold, given the state of the record. -/
structure Process.Agrees (p : Process) (state : RunState) : Prop where
  canceled : state = .canceled →
    (∀ w ∈ p.todo, w.Leaves (· = .canceled) ∧ (Observation.wrote w).startsAttempt = false) ∧
      p.control.readsNext = true
  live : state ≠ .canceled → (∀ w ∈ p.todo, w.Leaves (· ≠ .canceled)) ∧ p.control.Live

structure CancelInv (s : CancelSystem) : Prop where
  process : s.engine.process.Agrees s.state
  cancels : ∀ ws ∈ s.cancels, ∀ w ∈ ws, w.Leaves (· = .canceled)

/-! ## One step of the engine -/

section Steps

variable {files : RunFiles}

theorem executeOrFail_canceled {run : WorkflowRunRecord} {now : Int} {err : OrchestratorError}
    (h : run.state = .canceled) : executeOrFail run now err = {} := by
  simp [executeOrFail, h, RunState.isTerminal]

variable {run : WorkflowRunRecord}

theorem finishRun_canceled {now at_ : Int} {summary : String} {n c : ℕ} (h : run.state = .canceled)
    : finishRun run now at_ summary n c = {} := by
  rcases finishRun_cases run now at_ summary n c with ⟨hs, _⟩ | ⟨_, run', err, hs, he⟩
  · rw [h] at hs
    cases hs
  · rw [he]
    exact executeOrFail_canceled (hs.trans h)

theorem enter_canceled (entry : Entry) (now : Int) (h : run.state = .canceled) :
    enter entry run now = {} ∨ enter entry run now = { control := .cycling run 0 } := by
  rcases enter_cases entry run now with he | he | ⟨hs, _⟩
  · exact .inl he
  · exact .inr he
  · rcases hs with hs | hs <;> rw [h] at hs <;> cases hs

/-- On a canceled run a control point that reads next starts no attempt, and
everything it queues keeps the state. -/
theorem control_canceled (orchestrator : OrchestratorConfig) (input : Input) (control : Control)
    (hst : files.run.state = .canceled) (hreads : control.readsNext = true)
    (hretry : ({ control := control } : Process).retriesNext files.run = false) :
    (∀ w ∈ (Control.advance orchestrator files input control).1.todo,
        w.Leaves (· = .canceled) ∧ (Observation.wrote w).startsAttempt = false) ∧
      (Control.advance orchestrator files input control).1.control.readsNext = true ∧
      ∀ o ∈ (Control.advance orchestrator files input control).2, o.startsAttempt = false := by
  have hne : files.run.state ≠ .running := by rw [hst]; decide
  cases control with
  | idle => simp [Control.advance, Control.readsNext]
  | loading entry now =>
    rcases enter_canceled entry now hst with he | he <;>
      simp [Control.advance, he, Control.readsNext, hne]
  | cycling run cycles =>
    -- a copy that is still running would not read again before its next attempt
    have hout : run.state ≠ .running ∨ maxCycles ≤ cycles := by
      simpa [Control.readsNext] using hreads
    simp [Control.advance, if_pos hout, Control.readsNext]
  | attempting a => cases hreads
  | invoking a => cases hreads
  | running a =>
    simp [Control.advance, Control.readsNext, StoreWrite.Leaves, Observation.startsAttempt]
  | counting a record result =>
    simp [Control.advance, countStepAttempt, Control.readsNext, StoreWrite.Leaves, hst,
      Observation.startsAttempt]
  | settling a record result =>
    simp only [Control.advance]
    rcases a.settle_cases files.run record result with
      ⟨err, he⟩ | ⟨evaluation, next, summary, action, _, _, he⟩ |
        ⟨evaluation, summary, _, _, he⟩ | ⟨err, hr, hcan, hsafe, he⟩
    · simp [he, executeOrFail_canceled hst, Control.readsNext]
    · simp [he, checkpoint, Control.readsNext, StoreWrite.Leaves, hst, Observation.startsAttempt]
    · simp [he, finishRun_canceled hst, Control.readsNext]
    · -- a failed attempt that may be retried is the one case `hretry` rules out
      subst hr
      simp [Process.retriesNext, hcan, hsafe, Except.isOk, Except.toBool] at hretry
  | reloading n c => simp [Control.advance, hne, Control.readsNext]

theorem executeOrFail_live {now : Int} {err : OrchestratorError} :
    (∀ w ∈ (executeOrFail run now err).todo, w.Leaves (· ≠ .canceled)) ∧
      (executeOrFail run now err).control.Live := by
  rcases executeOrFail_cases run now err with ⟨_, he⟩ | ⟨_, record, snapshot, hr, he⟩
  · simp [he, Control.Live]
  · simp [he, Control.Live, StoreWrite.Leaves, hr]

theorem finishRun_live {now at_ : Int} {summary : String} {n c : ℕ} :
    (∀ w ∈ (finishRun run now at_ summary n c).todo, w.Leaves (· ≠ .canceled)) ∧
      (finishRun run now at_ summary n c).control.Live := by
  rcases finishRun_cases run now at_ summary n c with
    ⟨_, record, snapshot, hr, he⟩ | ⟨_, run', err, _, he⟩
  · simp [he, Control.Live, StoreWrite.Leaves, hr]
  · rw [he]
    exact executeOrFail_live

/-- On a live run no control point comes to hold a canceled copy. -/
theorem control_live (orchestrator : OrchestratorConfig) (input : Input) (control : Control)
    (hst : files.run.state ≠ .canceled) (hlive : control.Live) :
    (∀ w ∈ (Control.advance orchestrator files input control).1.todo, w.Leaves (· ≠ .canceled)) ∧
      (Control.advance orchestrator files input control).1.control.Live := by
  cases control with
  | idle => simp [Control.advance, Control.Live]
  | loading entry now =>
    simp only [Control.advance]
    rcases enter_cases entry files.run now with he | he | ⟨hs, verb, he⟩
    · simp [he, Control.Live]
    · simp [he, Control.Live, hst]
    · obtain ⟨record, snapshot, hr, _, _, hb⟩ := beginRun_eq files.run now verb hs
      simp [he, hb, Control.Live, StoreWrite.Leaves, hr]
  | cycling run cycles =>
    simp only [Control.advance]
    split
    · simp [Control.Live]
    · rcases executeNext_cases orchestrator files run input.now cycles with
        ⟨err, he⟩ | ⟨workflow, _, _, he⟩ | ⟨workflow, pointer, step, _, _, _, he⟩
      · rw [he]
        exact executeOrFail_live
      · rw [he]
        exact finishRun_live
      · rw [he]
        exact ⟨by simp, hlive⟩
  | attempting a =>
    have : a.run.state ≠ .canceled := hlive
    simp [Control.advance, markStepAttemptStarted, Control.Live, StoreWrite.Leaves, this]
  | invoking a =>
    simp only [Control.advance]
    split
    · exact executeOrFail_live
    · simp [Control.Live]
  | running a => simp [Control.advance, Control.Live, StoreWrite.Leaves]
  | counting a record result =>
    simp [Control.advance, countStepAttempt, Control.Live, StoreWrite.Leaves, hst]
  | settling a record result =>
    simp only [Control.advance]
    rcases a.settle_cases files.run record result with
      ⟨err, he⟩ | ⟨evaluation, next, summary, action, _, _, he⟩ |
        ⟨evaluation, summary, _, _, he⟩ | ⟨err, _, _, _, he⟩
    · rw [he]
      exact executeOrFail_live
    · simp [he, checkpoint, Control.Live, StoreWrite.Leaves, hst]
    · rw [he]
      exact finishRun_live
    · rw [he]
      exact ⟨by simp, hst⟩
  | reloading n c =>
    simp only [Control.advance]
    split
    · simp [Control.Live]
    · exact ⟨by simp, hst⟩

/-- How many attempts an observer has seen started. -/
def attemptsStarted (trace : List Observation) : ℕ := trace.countP (·.startsAttempt)

theorem attemptsStarted_append {seen trace : List Observation}
    (h : ∀ o ∈ seen, o.startsAttempt = false) :
    attemptsStarted (seen ++ trace) = attemptsStarted trace := by
  have hzero : seen.countP (·.startsAttempt) = 0 := List.countP_eq_zero.mpr (by simpa using h)
  rw [attemptsStarted, List.countP_append, hzero, Nat.zero_add, attemptsStarted]

theorem advance_canceled (orchestrator : OrchestratorConfig) {s : System} (input : Input)
    (hst : s.files.run.state = .canceled) (hag : s.process.Agrees s.files.run.state)
    (hretry : s.process.retriesNext s.files.run = false) :
    (s.advance orchestrator input).files.run.state = .canceled ∧
      (s.advance orchestrator input).process.Agrees .canceled ∧
      attemptsStarted (s.advance orchestrator input).trace = attemptsStarted s.trace := by
  obtain ⟨htodo, hreads⟩ := hag.canceled hst
  obtain ⟨files, ⟨todo, control⟩, trace⟩ := s
  cases todo with
  | nil =>
    obtain ⟨h₁, h₂, h₃⟩ := control_canceled orchestrator input control hst hreads hretry
    exact ⟨hst, ⟨fun _ => ⟨h₁, h₂⟩, fun h => absurd rfl h⟩, attemptsStarted_append h₃⟩
  | cons w ws =>
    obtain ⟨hw, hstart⟩ := htodo w (by simp)
    refine ⟨?_, ⟨fun _ => ⟨fun x hx => htodo x (List.mem_cons_of_mem w hx), hreads⟩,
      fun h => absurd rfl h⟩, @attemptsStarted_append [.wrote w] trace (by simpa using hstart)⟩
    cases w with
    | run origin record => exact hw
    | progress snapshot => exact hst
    | result record => exact hst

theorem advance_live (orchestrator : OrchestratorConfig) {s : System} (input : Input)
    (hst : s.files.run.state ≠ .canceled) (hag : s.process.Agrees s.files.run.state) :
    (s.advance orchestrator input).process.Agrees
      (s.advance orchestrator input).files.run.state := by
  obtain ⟨htodo, hlive⟩ := hag.live hst
  obtain ⟨files, ⟨todo, control⟩, trace⟩ := s
  cases todo with
  | nil =>
    have h := control_live orchestrator input control hst hlive
    exact ⟨fun hc => absurd hc hst, fun _ => h⟩
  | cons w ws =>
    have hkeep : (files.apply w).run.state ≠ .canceled := by
      have hw := htodo w (by simp)
      cases w with
      | run origin record => exact hw
      | progress snapshot => exact hst
      | result record => exact hst
    exact ⟨fun hc => absurd hc hkeep,
      fun _ => ⟨fun x hx => htodo x (List.mem_cons_of_mem w hx), hlive⟩⟩

theorem cancelRun_leaves (run : WorkflowRunRecord) (now : Int) :
    ∀ w ∈ cancelRun run now, w.Leaves (· = .canceled) := by
  cases ht : run.state.isTerminal with
  | true => simp [cancelRun, ht]
  | false =>
    have hcan := (RunState.canTransitionTo_failed_canceled ht).2
    simp [cancelRun, ht, transitionState, hcan, StoreWrite.Leaves]

end Steps

/-! ## One step of the system -/

section SystemSteps

variable (orchestrator : OrchestratorConfig) {s : CancelSystem}

/-- Landing a cancel's write while the engine reads next. -/
theorem readsNext_agrees {p : Process} (h : p.readsNext = true) : p.Agrees .canceled := by
  obtain ⟨htodo, hreads⟩ := Bool.and_eq_true_iff.mp h
  refine ⟨fun _ => ⟨fun w hw => ?_, hreads⟩, fun hne => absurd rfl hne⟩
  have hrun := List.all_eq_true.mp htodo w hw
  cases w with
  | run origin record => cases hrun
  | progress snapshot => exact ⟨trivial, rfl⟩
  | result record => exact ⟨trivial, rfl⟩

theorem nextWrite_leaves (hinv : CancelInv s) {i : ℕ} {w : StoreWrite}
    (h : s.nextWrite i = some w) : w.Leaves (· = .canceled) := by
  obtain ⟨ws, hws, hw⟩ := Option.bind_eq_some_iff.mp h
  exact hinv.cancels ws (List.mem_of_getElem? hws) w (List.mem_of_head? hw)

theorem modify_leaves (hinv : CancelInv s) (i : ℕ) :
    ∀ ws ∈ s.cancels.modify i List.tail, ∀ w ∈ ws, w.Leaves (· = .canceled) := by
  intro ws hws w hw
  obtain ⟨j, hj⟩ := List.mem_iff_getElem?.mp hws
  rw [List.getElem?_modify] at hj
  obtain ⟨old, hold, rfl⟩ := Option.map_eq_some_iff.mp hj
  have hmem := List.mem_of_getElem? hold
  split at hw
  · exact hinv.cancels old hmem w (List.mem_of_mem_tail hw)
  · exact hinv.cancels old hmem w hw

/-- Every safe step keeps the invariant, and on a canceled run it keeps the state
and starts no attempt. -/
theorem cancelStep_inv (e : CancelEvent) (hinv : CancelInv s) (hok : CancelSafe s e) :
    CancelInv (s.step orchestrator e) ∧ (s.state = .canceled →
      (s.step orchestrator e).state = .canceled ∧
        attemptsStarted (s.step orchestrator e).engine.trace =
          attemptsStarted s.engine.trace) := by
  cases e with
  | engine event =>
    cases event with
    | call entry now =>
      simp only [CancelSystem.step, engineStep]
      split
      · refine ⟨⟨⟨fun _ => ⟨by simp, rfl⟩, fun _ => ⟨by simp, trivial⟩⟩, hinv.cancels⟩, ?_⟩
        exact fun hst => ⟨hst, rfl⟩
      · exact ⟨hinv, fun hst => ⟨hst, rfl⟩⟩
    | engine input =>
      by_cases hst : s.state = .canceled
      · obtain ⟨h₁, h₂, h₃⟩ := advance_canceled orchestrator input hst hinv.process (hok hst)
        have hag : (s.engine.advance orchestrator input).process.Agrees
            (s.engine.advance orchestrator input).files.run.state := by rw [h₁]; exact h₂
        exact ⟨⟨hag, hinv.cancels⟩, fun _ => ⟨h₁, h₃⟩⟩
      · exact ⟨⟨advance_live orchestrator input hst hinv.process, hinv.cancels⟩,
          fun h => absurd h hst⟩
    | crash =>
      exact ⟨⟨⟨fun _ => ⟨by simp [CancelSystem.step, engineStep], rfl⟩,
        fun _ => ⟨by simp [CancelSystem.step, engineStep], trivial⟩⟩, hinv.cancels⟩,
        fun hst => ⟨hst, rfl⟩⟩
  | load now =>
    -- only the new request's writes are not covered by the invariant yet
    refine ⟨⟨hinv.process, fun ws hws => ?_⟩, fun hst => ⟨hst, rfl⟩⟩
    rcases List.mem_append.mp hws with hold | hnew
    · exact hinv.cancels ws hold
    · rw [List.mem_singleton.mp hnew]
      exact cancelRun_leaves s.engine.files.run now
  | write i =>
    simp only [CancelSystem.step]
    cases hw : s.nextWrite i with
    | none => exact ⟨hinv, fun hst => ⟨hst, rfl⟩⟩
    | some w =>
      have hleaves := nextWrite_leaves hinv hw
      have hcancels := modify_leaves hinv i
      cases w with
      | run origin record =>
        have hst' : record.state = .canceled := hleaves
        -- the process may hold a stale copy: it must read before it writes
        have hag : s.engine.process.Agrees record.state := by
          rw [hst']
          rcases hok with hst | hnot | hreads
          · exact hst ▸ hinv.process
          · rw [hw] at hnot
            cases hnot
          · exact readsNext_agrees hreads
        exact ⟨⟨hag, hcancels⟩, fun _ => ⟨hst', rfl⟩⟩
      | progress snapshot => exact ⟨⟨hinv.process, hcancels⟩, fun hst => ⟨hst, rfl⟩⟩
      | result record => exact ⟨⟨hinv.process, hcancels⟩, fun hst => ⟨hst, rfl⟩⟩

end SystemSteps

/-! ## Whole runs -/

def CancelSystem.created (runId workflowId : String) (now : Int) : CancelSystem :=
  { engine := System.created runId workflowId now }

theorem created_cancelInv (runId workflowId : String) (now : Int) :
    CancelInv (CancelSystem.created runId workflowId now) :=
  ⟨⟨fun h => (by cases h), fun _ => ⟨by simp [CancelSystem.created, System.created], trivial⟩⟩,
    by simp [CancelSystem.created]⟩

/-- **Cancellation.** Along every interleaving of the engine with cancel commands,
calls and crashes, once `Canceled` is in the record it stays there and no attempt
is started any more, provided each cancellation lands while the engine reads next
and no failed attempt is retried on a canceled run. -/
theorem cancellation_kept (orchestrator : OrchestratorConfig) (runId workflowId : String)
    (now : Int) (events later : List CancelEvent)
    (hsafe : Meets (CancelSystem.step orchestrator) CancelSafe
      (CancelSystem.created runId workflowId now) (events ++ later))
    (hcanceled : (run (CancelSystem.step orchestrator)
      (CancelSystem.created runId workflowId now) events).state = .canceled) :
    (run (CancelSystem.step orchestrator)
      (CancelSystem.created runId workflowId now) (events ++ later)).state = .canceled ∧
    attemptsStarted (run (CancelSystem.step orchestrator)
        (CancelSystem.created runId workflowId now) (events ++ later)).engine.trace =
      attemptsStarted (run (CancelSystem.step orchestrator)
        (CancelSystem.created runId workflowId now) events).engine.trace := by
  obtain ⟨hbefore, hafter⟩ := meets_append.mp hsafe
  have hstep : ∀ s e, CancelInv s → CancelSafe s e → CancelInv (s.step orchestrator e) :=
    fun s e hs hok => (cancelStep_inv orchestrator e hs hok).1
  have hinv := run_invariant hstep (created_cancelInv runId workflowId now) hbefore
  rw [run_append]
  generalize run (CancelSystem.step orchestrator) (CancelSystem.created runId workflowId now)
    events = s at hinv hafter hcanceled ⊢
  -- the state and the count of started attempts are invariants from here on
  have hkept : ∀ t e, CancelInv t ∧ t.state = .canceled ∧
      attemptsStarted t.engine.trace = attemptsStarted s.engine.trace → CancelSafe t e →
      CancelInv (t.step orchestrator e) ∧ (t.step orchestrator e).state = .canceled ∧
        attemptsStarted (t.step orchestrator e).engine.trace =
          attemptsStarted s.engine.trace := by
    rintro t e ⟨ht, hst, hcount⟩ hok
    obtain ⟨h₁, h₂⟩ := cancelStep_inv orchestrator e ht hok
    exact ⟨h₁, (h₂ hst).1, (h₂ hst).2.trans hcount⟩
  exact (run_invariant hkept ⟨hinv, hcanceled, rfl⟩ hafter).2

/-! ### Cancellations that are lost, and one that is kept -/

/-- A started run of a one-step workflow, `n` engine steps in, then canceled. -/
def canceledAfter (n : ℕ) : List CancelEvent :=
  (.call .start 0 :: engineSteps n providerDown).map .engine ++ [.load 1, .write 0]

def engineGoesOn (n : ℕ) (input : Input) : List CancelEvent := (engineSteps n input).map .engine

/-- A cancellation between taking the copy and marking the attempt is overwritten
with `Running`; one that lands while the provider runs stays in the record, and
the provider is called again all the same. -/
theorem cancellation_lost :
    ((run (CancelSystem.step (sampleOrchestrator [sampleStep "plan" none]))
        (CancelSystem.created "run-1" "flow" 0) (canceledAfter 5)).state = .canceled ∧
      (run (CancelSystem.step (sampleOrchestrator [sampleStep "plan" none]))
        (CancelSystem.created "run-1" "flow" 0)
        (canceledAfter 5 ++ engineGoesOn 1 providerDown)).state = .running) ∧
    ((run (CancelSystem.step (sampleOrchestrator [sampleStep "plan" none]))
        (CancelSystem.created "run-1" "flow" 0) (canceledAfter 8)).state = .canceled ∧
      attemptsStarted (run (CancelSystem.step (sampleOrchestrator [sampleStep "plan" none]))
        (CancelSystem.created "run-1" "flow" 0)
        (canceledAfter 8 ++ engineGoesOn 10 providerDown)).engine.trace =
      attemptsStarted (run (CancelSystem.step (sampleOrchestrator [sampleStep "plan" none]))
        (CancelSystem.created "run-1" "flow" 0) (canceledAfter 8)).engine.trace + 2) :=
  ⟨⟨rfl, rfl⟩, rfl, rfl⟩

theorem cancellation_kept_while_running :
    (run (CancelSystem.step (sampleOrchestrator [sampleStep "plan" none]))
        (CancelSystem.created "run-1" "flow" 0)
        (canceledAfter 8 ++ engineGoesOn 9 providerAnswers)).state = .canceled ∧
    attemptsStarted (run (CancelSystem.step (sampleOrchestrator [sampleStep "plan" none]))
        (CancelSystem.created "run-1" "flow" 0)
        (canceledAfter 8 ++ engineGoesOn 9 providerAnswers)).engine.trace =
      attemptsStarted (run (CancelSystem.step (sampleOrchestrator [sampleStep "plan" none]))
        (CancelSystem.created "run-1" "flow" 0) (canceledAfter 8)).engine.trace :=
  cancellation_kept _ _ _ _ _ _ (by decide) rfl

end Direclaw.Orchestration
