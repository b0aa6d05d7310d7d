import Direclaw.Lib.KeyedScan
import Direclaw.Lib.Run
import Direclaw.Lib.Text
import Direclaw.Queue.Message

/-!
# The per-key scheduler

`queue/scheduler.rs`, and the part of the worker loop that drives it. Messages
of one workflow run, or of one conversation, have one ordering key; the
scheduler hands out at most one of them at a time, in the order they came.
`HashSet` is a `Finset` and `VecDeque` a list.
-/

namespace Direclaw.Queue

open Direclaw.Lib

inductive OrderingKey : Type where
  | workflowRun (id : String)
  | conversation (channel channelProfileId conversationId : String)
  | message (id : String)
deriving DecidableEq, Repr

def presentField (field : Option String) : Option String :=
  field.filter fun s => !Text.isBlank s.toList

def deriveOrderingKey (payload : IncomingMessage) : OrderingKey :=
  match presentField payload.workflowRunId with
  | some workflowRunId => .workflowRun workflowRunId
  | none =>
    match presentField payload.channelProfileId, presentField payload.conversationId with
    | some channelProfileId, some conversationId =>
      .conversation payload.channel channelProfileId conversationId
    | _, _ => .message payload.messageId

/-! ## The scheduler -/

structure Scheduled (T : Type*) where
  key : OrderingKey
  value : T
deriving DecidableEq

structure PerKeyScheduler (T : Type*) where
  pending : List (Scheduled T) := []
  activeKeys : Finset OrderingKey := ∅

/-- The locals of the loop in `dequeue_runnable`. -/
structure DequeueState (T : Type*) where
  selected : List (Scheduled T) := []
  selectedKeys : Finset OrderingKey := ∅
  remaining : List (Scheduled T) := []
  activeKeys : Finset OrderingKey

namespace PerKeyScheduler

variable {T : Type*}

def enqueue (s : PerKeyScheduler T) (key : OrderingKey) (value : T) : PerKeyScheduler T :=
  { s with pending := s.pending ++ [⟨key, value⟩] }

def dequeueStep (maxItems : ℕ) (st : DequeueState T) (item : Scheduled T) : DequeueState T :=
  let keyBusy := item.key ∈ st.activeKeys ∨ item.key ∈ st.selectedKeys
  if ¬ keyBusy ∧ st.selected.length < maxItems then
    { st with
      selectedKeys := insert item.key st.selectedKeys
      activeKeys := insert item.key st.activeKeys
      selected := st.selected ++ [item] }
  else { st with remaining := st.remaining ++ [item] }

def dequeueRunnable (s : PerKeyScheduler T) (maxItems : ℕ) :
    List (Scheduled T) × PerKeyScheduler T :=
  if maxItems = 0 ∨ s.pending.isEmpty then ([], s)
  else
    let st := s.pending.foldl (dequeueStep maxItems) { activeKeys := s.activeKeys }
    (st.selected, { pending := st.remaining, activeKeys := st.activeKeys })

def complete (s : PerKeyScheduler T) (key : OrderingKey) : PerKeyScheduler T :=
  { s with activeKeys := s.activeKeys.erase key }

/-- The loop is the scan that picks one item per free key. -/
theorem foldl_dequeueStep (maxItems : ℕ) (items : List (Scheduled T)) (st : DequeueState T)
    (hkeys : st.selectedKeys ⊆ st.activeKeys) :
    let picked := pick Scheduled.key st.activeKeys (maxItems - st.selected.length) items
    let final := items.foldl (dequeueStep maxItems) st
    final.selected = st.selected ++ picked.1 ∧ final.remaining = st.remaining ++ picked.2 ∧
      final.activeKeys = st.activeKeys ∪ (picked.1.map Scheduled.key).toFinset := by
  induction items generalizing st with
  | nil => simp [pick]
  | cons x xs ih =>
    -- the second membership test of the loop is subsumed by the first
    have hbusy : (x.key ∈ st.activeKeys ∨ x.key ∈ st.selectedKeys) ↔ x.key ∈ st.activeKeys :=
      ⟨fun h => h.elim id (fun hs => hkeys hs), .inl⟩
    simp only [List.foldl_cons]
    by_cases h : x.key ∉ st.activeKeys ∧ st.selected.length < maxItems
    · have hroom : x.key ∉ st.activeKeys ∧ 0 < maxItems - st.selected.length :=
        ⟨h.1, by omega⟩
      have hstep : dequeueStep maxItems st x =
          { st with
            selectedKeys := insert x.key st.selectedKeys
            activeKeys := insert x.key st.activeKeys
            selected := st.selected ++ [x] } := by
        simp only [dequeueStep, hbusy]
        rw [if_pos h]
      have hlen : maxItems - (st.selected ++ [x]).length = maxItems - st.selected.length - 1 := by
        rw [List.length_append, List.length_singleton]
        omega
      have := ih { st with
        selectedKeys := insert x.key st.selectedKeys
        activeKeys := insert x.key st.activeKeys
        selected := st.selected ++ [x] } (Finset.insert_subset_insert _ hkeys)
      rw [hstep, pick_cons_take hroom]
      simp only [hlen] at this
      obtain ⟨h₁, h₂, h₃⟩ := this
      refine ⟨by rw [h₁]; simp, h₂, ?_⟩
      rw [h₃, List.map_cons, List.toFinset_cons, Finset.insert_union, Finset.union_insert]
    · have hroom : ¬ (x.key ∉ st.activeKeys ∧ 0 < maxItems - st.selected.length) :=
        fun hp => h ⟨hp.1, by omega⟩
      have hstep : dequeueStep maxItems st x =
          { st with remaining := st.remaining ++ [x] } := by
        simp only [dequeueStep, hbusy]
        rw [if_neg h]
      have := ih { st with remaining := st.remaining ++ [x] } hkeys
      rw [hstep, pick_cons_leave hroom]
      obtain ⟨h₁, h₂, h₃⟩ := this
      exact ⟨h₁, by rw [h₂]; simp, h₃⟩

/-- What `dequeue_runnable` returns and leaves, whichever of its exits it takes. -/
theorem dequeueRunnable_eq (s : PerKeyScheduler T) (maxItems : ℕ) :
    s.dequeueRunnable maxItems =
      ((pick Scheduled.key s.activeKeys maxItems s.pending).1,
        { pending := (pick Scheduled.key s.activeKeys maxItems s.pending).2
          activeKeys := s.activeKeys ∪
            ((pick Scheduled.key s.activeKeys maxItems s.pending).1.map Scheduled.key).toFinset }) := by
  unfold dequeueRunnable
  split
  · next h =>
      rcases h with h | h
      · rw [h, pick_zero]
        simp
      · obtain ⟨pending, activeKeys⟩ := s
        obtain rfl : pending = [] := List.isEmpty_iff.mp h
        simp [pick]
  · obtain ⟨h₁, h₂, h₃⟩ := foldl_dequeueStep maxItems s.pending { activeKeys := s.activeKeys }
      (Finset.empty_subset _)
    simp only [h₁, h₂, h₃, List.nil_append, List.length_nil, Nat.sub_zero]

end PerKeyScheduler

/-! ## Runs of the scheduler -/

section Runs

variable {T : Type*}

/-- A scheduler and its history. `outstanding` are the items that were dequeued
and not completed; `complete` of a key that none of them has changes nothing. -/
structure SchedulerRun (T : Type*) where
  scheduler : PerKeyScheduler T := {}
  enqueued : List (Scheduled T) := []
  dequeued : List (Scheduled T) := []
  outstanding : List (Scheduled T) := []

inductive SchedulerOp (T : Type*) where
  | enqueue (key : OrderingKey) (value : T)
  | dequeueRunnable (maxItems : ℕ)
  | complete (key : OrderingKey)

namespace SchedulerRun

def step (s : SchedulerRun T) : SchedulerOp T → SchedulerRun T
  | .enqueue key value =>
    { s with
      scheduler := s.scheduler.enqueue key value
      enqueued := s.enqueued ++ [⟨key, value⟩] }
  | .dequeueRunnable maxItems =>
    let (selected, scheduler) := s.scheduler.dequeueRunnable maxItems
    { s with
      scheduler := scheduler
      dequeued := s.dequeued ++ selected
      outstanding := s.outstanding ++ selected }
  | .complete key =>
    { s with
      scheduler := s.scheduler.complete key
      outstanding := s.outstanding.eraseP (·.key = key) }

def outstandingKeys (s : SchedulerRun T) : List OrderingKey := s.outstanding.map (·.key)

/-- The distinct pending keys with no outstanding item. -/
def runnableKeys (s : SchedulerRun T) : Finset OrderingKey :=
  freeKeys Scheduled.key s.outstandingKeys.toFinset s.scheduler.pending

structure Inv (s : SchedulerRun T) : Prop where
  active : s.scheduler.activeKeys = s.outstandingKeys.toFinset
  exclusive : s.outstandingKeys.Nodup
  fifo : ∀ k, s.dequeued.filter (·.key = k) ++ s.scheduler.pending.filter (·.key = k) =
    s.enqueued.filter (·.key = k)
  conserved : (s.dequeued ++ s.scheduler.pending).Perm s.enqueued

variable {s : SchedulerRun T}

theorem inv_enqueue (h : s.Inv) (key : OrderingKey) (value : T) :
    (s.step (.enqueue key value)).Inv where
  active := h.active
  exclusive := h.exclusive
  fifo k := by
    simp only [step, PerKeyScheduler.enqueue, List.filter_append, ← h.fifo k, List.append_assoc]
  conserved := by
    simp only [step, PerKeyScheduler.enqueue, ← List.append_assoc]
    exact h.conserved.append_right _

theorem inv_dequeueRunnable (h : s.Inv) (maxItems : ℕ) :
    (s.step (.dequeueRunnable maxItems)).Inv := by
  simp only [step, PerKeyScheduler.dequeueRunnable_eq]
  refine ⟨?_, ?_, fun k => ?_, ?_⟩
  · simp only [outstandingKeys, List.map_append, List.toFinset_append, h.active]
  · simp only [outstandingKeys, List.map_append]
    refine List.nodup_append'.mpr ⟨h.exclusive, pick_keys_nodup _ _ _, ?_⟩
    intro k hk hk'
    obtain ⟨x, hx, rfl⟩ := List.mem_map.mp hk'
    have hfree := not_mem_busy_of_mem_pick hx
    rw [h.active, List.mem_toFinset] at hfree
    exact hfree hk
  · rw [List.filter_append, List.append_assoc, pick_filter]
    exact h.fifo k
  · rw [List.append_assoc]
    exact ((pick_perm _ _ _).append_left _).trans h.conserved

theorem outstandingKeys_complete (s : SchedulerRun T) (key : OrderingKey) :
    (s.step (.complete key)).outstandingKeys = s.outstandingKeys.erase key := by
  rw [List.erase_eq_eraseP', outstandingKeys, outstandingKeys, List.eraseP_map]
  rfl

theorem inv_complete (h : s.Inv) (key : OrderingKey) : (s.step (.complete key)).Inv := by
  have hkeys := s.outstandingKeys_complete key
  refine ⟨?_, ?_, h.fifo, h.conserved⟩
  · rw [hkeys]
    ext k
    simp only [step, PerKeyScheduler.complete, h.active, Finset.mem_erase, List.mem_toFinset,
      h.exclusive.mem_erase_iff]
  · rw [hkeys]
    exact h.exclusive.erase key

theorem inv_step (s : SchedulerRun T) (op : SchedulerOp T) (h : s.Inv) : (s.step op).Inv := by
  cases op with
  | enqueue key value => exact inv_enqueue h key value
  | dequeueRunnable maxItems => exact inv_dequeueRunnable h maxItems
  | complete key => exact inv_complete h key

theorem inv_init : ({} : SchedulerRun T).Inv :=
  ⟨rfl, List.nodup_nil, fun _ => rfl, List.Perm.refl _⟩

/-- What the scheduler promises about a run. -/
structure Guarantees (s : SchedulerRun T) : Prop where
  exclusive : s.outstandingKeys.Nodup
  fifo : ∀ k, s.dequeued.filter (·.key = k) <+: s.enqueued.filter (·.key = k)
  conserved : (s.dequeued ++ s.scheduler.pending).Perm s.enqueued
  workConserving : ∀ n,
    (s.scheduler.dequeueRunnable n).1.length = min n s.runnableKeys.card

theorem Inv.guarantees (h : s.Inv) : s.Guarantees where
  exclusive := h.exclusive
  fifo k := ⟨_, h.fifo k⟩
  conserved := h.conserved
  workConserving n := by
    rw [PerKeyScheduler.dequeueRunnable_eq, pick_length, h.active, runnableKeys]

/-- A dequeue that leaves a slot free leaves no runnable key. -/
theorem runnableKeys_dequeueRunnable (h : s.Inv) {n : ℕ}
    (hfree : (s.scheduler.dequeueRunnable n).1.length < n) :
    (s.step (.dequeueRunnable n)).runnableKeys = ∅ := by
  rw [PerKeyScheduler.dequeueRunnable_eq] at hfree
  rw [Finset.eq_empty_iff_forall_notMem]
  intro k hk
  simp only [runnableKeys, freeKeys, step, PerKeyScheduler.dequeueRunnable_eq, outstandingKeys,
    List.map_append, List.toFinset_append, Finset.mem_sdiff, List.mem_toFinset,
    Finset.mem_union] at hk
  obtain ⟨hpending, hnot⟩ := hk
  obtain ⟨y, hy, rfl⟩ := List.mem_map.mp hpending
  rcases pick_exhausts hfree y hy with hbusy | ⟨x, hx, hxy⟩
  · rw [h.active, List.mem_toFinset] at hbusy
    exact hnot (.inl hbusy)
  · exact hnot (.inr (List.mem_map.mpr ⟨x, hx, hxy⟩))

end SchedulerRun

end Runs

/-! ## The worker loop -/

section Worker

variable {T : Type*} (payload : T → IncomingMessage) (maxConcurrency : ℕ)

/-- The scheduler of `run_queue_processor_loop_with_binaries` with its count of
running tasks. -/
structure WorkerLoop (T : Type*) where
  run : SchedulerRun T := {}
  inFlight : ℕ := 0

/-- What the loop does to its scheduler: a claimed message is enqueued, the free
slots are filled, or the task of the `i`-th outstanding item reports back. -/
inductive WorkerEvent (T : Type*) where
  | claimed (message : T)
  | dispatch
  | done (i : ℕ)

namespace WorkerLoop

def step (w : WorkerLoop T) : WorkerEvent T → WorkerLoop T
  | .claimed message =>
    { w with run := w.run.step (.enqueue (deriveOrderingKey (payload message)) message) }
  | .dispatch =>
    let availableSlots := maxConcurrency - w.inFlight
    if 0 < availableSlots then
      { run := w.run.step (.dequeueRunnable availableSlots)
        inFlight := w.inFlight + (w.run.scheduler.dequeueRunnable availableSlots).1.length }
    else w
  | .done i =>
    match w.run.outstanding[i]? with
    | some item =>
      { run := w.run.step (.complete item.key), inFlight := w.inFlight - 1 }
    | none => w

/-- The count is the number of outstanding items and within the bound. -/
structure Inv (w : WorkerLoop T) : Prop where
  run : w.run.Inv
  counted : w.inFlight = w.run.outstanding.length
  bounded : w.inFlight ≤ maxConcurrency

theorem inv_step (w : WorkerLoop T) (e : WorkerEvent T) (h : w.Inv maxConcurrency) :
    (w.step payload maxConcurrency e).Inv maxConcurrency := by
  cases e with
  | claimed message => exact ⟨SchedulerRun.inv_enqueue h.run _ _, h.counted, h.bounded⟩
  | dispatch =>
    simp only [step]
    split
    · refine ⟨SchedulerRun.inv_dequeueRunnable h.run _, ?_, ?_⟩
      · simp only [SchedulerRun.step, List.length_append, h.counted]
      · have hlen := h.run.guarantees.workConserving (maxConcurrency - w.inFlight)
        have hbound := h.bounded
        simp only
        omega
    · exact h
  | done i =>
    simp only [step]
    split
    · next item hitem =>
        have hmem : item ∈ w.run.outstanding := List.mem_of_getElem? hitem
        have hlen : (w.run.outstanding.eraseP (·.key = item.key)).length =
            w.run.outstanding.length - 1 :=
          List.length_eraseP_of_mem hmem (by simp)
        refine ⟨SchedulerRun.inv_complete h.run _, ?_, ?_⟩
        · simp only [SchedulerRun.step, hlen, h.counted]
        · exact (Nat.sub_le _ _).trans h.bounded
    · exact h

theorem inv_init : ({} : WorkerLoop T).Inv maxConcurrency :=
  ⟨SchedulerRun.inv_init, rfl, Nat.zero_le _⟩

theorem dispatch_fills {w : WorkerLoop T} (h : w.Inv maxConcurrency) :
    (w.step payload maxConcurrency .dispatch).inFlight = maxConcurrency ∨
      (w.step payload maxConcurrency .dispatch).run.runnableKeys = ∅ := by
  have hbound := h.bounded
  simp only [step]
  split
  · have hlen := h.run.guarantees.workConserving (maxConcurrency - w.inFlight)
    by_cases hfull : (w.run.scheduler.dequeueRunnable (maxConcurrency - w.inFlight)).1.length <
        maxConcurrency - w.inFlight
    · exact .inr (SchedulerRun.runnableKeys_dequeueRunnable h.run hfull)
    · refine .inl ?_
      simp only
      omega
  · refine .inl ?_
    omega

end WorkerLoop

end Worker

/-- **The per-key scheduler.** Every run of the scheduler keeps at most one
outstanding item per key, is first-in first-out per key, neither loses nor
duplicates an item, and hands out as many items as there are runnable keys, up to
the number asked for. In the worker loop the count of running tasks is the number
of outstanding items, never above the bound, and after each dispatch every slot
is taken or nothing is runnable. -/
theorem perKeyScheduler_guarantees {T : Type*} (ops : List (SchedulerOp T)) :
    (run SchedulerRun.step {} ops).Guarantees ∧
    ∀ (payload : T → IncomingMessage) (maxConcurrency : ℕ) (events : List (WorkerEvent T)),
      let w := run (WorkerLoop.step payload maxConcurrency) {} events
      w.run.Guarantees ∧ w.inFlight = w.run.outstanding.length ∧ w.inFlight ≤ maxConcurrency ∧
        ((w.step payload maxConcurrency .dispatch).inFlight = maxConcurrency ∨
          (w.step payload maxConcurrency .dispatch).run.runnableKeys = ∅) := by
  refine ⟨(run_invariant' SchedulerRun.inv_step ops SchedulerRun.inv_init).guarantees, ?_⟩
  intro payload maxConcurrency events
  have h := run_invariant' (WorkerLoop.inv_step payload maxConcurrency) events
    (WorkerLoop.inv_init maxConcurrency)
  exact ⟨h.run.guarantees, h.counted, h.bounded, WorkerLoop.dispatch_fills payload _ h⟩

end Direclaw.Queue
