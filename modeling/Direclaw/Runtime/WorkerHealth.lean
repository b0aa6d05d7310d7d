import Direclaw.Lib.Histories
import Direclaw.Lib.OrderedMap

/-!
# Worker health

`runtime/worker_registry.rs`: what the supervisor records of its workers from the events
they send, in whatever order and number these come.
-/

namespace Direclaw.Runtime.Health

open Direclaw.Lib

inductive WorkerEvent : Type where
  | started (workerId : String) (time : ℤ)
  | heartbeat (workerId : String) (time : ℤ)
  | error (workerId : String) (time : ℤ) (message : String) (fatal : Bool)
  | stopped (workerId : String) (time : ℤ)
deriving DecidableEq, Repr

inductive WorkerState : Type where
  | stopped
  | running
  | error
deriving DecidableEq, Repr

structure WorkerHealth where
  state : WorkerState := .stopped
  lastHeartbeat : Option ℤ := none
  lastError : Option String := none
deriving DecidableEq, Repr

structure WorkerEventLog where
  level : String
  event : String
  message : String
deriving DecidableEq, Repr

/-- `BTreeMap<String, WorkerHealth>`. -/
abbrev Workers := List (String × WorkerHealth)

/-- `BTreeSet<String>`. -/
abbrev Active := List (String × Unit)

def Active.ids (active : Active) : List String := active.map (·.1)

/-- `entry(id).or_default()`. -/
def Workers.entry (workers : Workers) (id : String) : WorkerHealth := (workers.lookup id).getD {}

def applyWorkerEvent (workers : Workers) (active : Active) :
    WorkerEvent → Workers × Active × Option WorkerEventLog
  | .started workerId time =>
    (OrderedMap.insert workerId
        { workers.entry workerId with state := .running, lastHeartbeat := some time } workers,
      active, some ⟨"info", "worker.started", workerId⟩)
  | .heartbeat workerId time =>
    (OrderedMap.insert workerId
        { state := .running, lastHeartbeat := some time, lastError := none } workers,
      active, none)
  | .error workerId time message fatal =>
    (OrderedMap.insert workerId
        { state := .error, lastHeartbeat := some time, lastError := some message } workers,
      active,
      some ⟨if fatal then "error" else "warn", "worker.error", workerId ++ ": " ++ message⟩)
  | .stopped workerId time =>
    let entry := workers.entry workerId
    (OrderedMap.insert workerId
        { entry with
          state := if entry.state != .error then .stopped else entry.state
          lastHeartbeat := some time } workers,
      OrderedMap.remove workerId active, some ⟨"info", "worker.stopped", workerId⟩)

/-! ## One worker alone -/

namespace WorkerEvent

def workerId : WorkerEvent → String
  | .started id _ | .heartbeat id _ | .error id _ _ _ | .stopped id _ => id

def time : WorkerEvent → ℤ
  | .started _ time | .heartbeat _ time | .error _ time _ _ | .stopped _ time => time

def text? : WorkerEvent → Option String
  | .error _ _ message _ => some message
  | _ => none

def isHeartbeat : WorkerEvent → Bool
  | .heartbeat _ _ => true
  | _ => false

def isStopped : WorkerEvent → Bool
  | .stopped _ _ => true
  | _ => false

section Kinds

variable (id text : String) (time : ℤ) (fatal : Bool)

@[simp] theorem started_kind : (started id time).text? = none ∧
    (started id time).isHeartbeat = false ∧ (started id time).isStopped = false ∧
      (started id time).time = time := ⟨rfl, rfl, rfl, rfl⟩

@[simp] theorem heartbeat_kind : (heartbeat id time).text? = none ∧
    (heartbeat id time).isHeartbeat = true ∧ (heartbeat id time).isStopped = false ∧
      (heartbeat id time).time = time := ⟨rfl, rfl, rfl, rfl⟩

@[simp] theorem error_kind : (error id time text fatal).text? = some text ∧
    (error id time text fatal).isHeartbeat = false ∧
      (error id time text fatal).isStopped = false ∧ (error id time text fatal).time = time :=
  ⟨rfl, rfl, rfl, rfl⟩

@[simp] theorem stopped_kind : (stopped id time).text? = none ∧
    (stopped id time).isHeartbeat = false ∧ (stopped id time).isStopped = true ∧
      (stopped id time).time = time := ⟨rfl, rfl, rfl, rfl⟩

end Kinds

end WorkerEvent

/-- What an event of the worker makes of its entry. -/
def WorkerHealth.after (health : WorkerHealth) : WorkerEvent → WorkerHealth
  | .started _ time => { health with state := .running, lastHeartbeat := some time }
  | .heartbeat _ time => { state := .running, lastHeartbeat := some time }
  | .error _ time message _ =>
    { state := .error, lastHeartbeat := some time, lastError := some message }
  | .stopped _ time =>
    { health with
      state := if health.state = .error then .error else .stopped, lastHeartbeat := some time }

theorem applyWorkerEvent_workers (workers : Workers) (active : Active) (event : WorkerEvent) :
    (applyWorkerEvent workers active event).1 =
      OrderedMap.insert event.workerId ((workers.entry event.workerId).after event) workers := by
  cases event with
  | started id time | heartbeat id time | error id time message fatal => rfl
  | stopped id time =>
    by_cases h : (workers.entry id).state = .error <;>
      simp [applyWorkerEvent, WorkerHealth.after, WorkerEvent.workerId, h]

theorem lookup_applyWorkerEvent_self (workers : Workers) (active : Active) (event : WorkerEvent) :
    (applyWorkerEvent workers active event).1.lookup event.workerId =
      some ((workers.entry event.workerId).after event) := by
  rw [applyWorkerEvent_workers, OrderedMap.lookup_insert_self]

theorem lookup_applyWorkerEvent_of_ne {id : String} {event : WorkerEvent} (workers : Workers)
    (active : Active) (h : id ≠ event.workerId) :
    (applyWorkerEvent workers active event).1.lookup id = workers.lookup id := by
  rw [applyWorkerEvent_workers, OrderedMap.lookup_insert_of_ne h]

def own (id : String) (events : List WorkerEvent) : List WorkerEvent :=
  events.filter (·.workerId = id)

@[simp] theorem own_append (id : String) (es fs : List WorkerEvent) :
    own id (es ++ fs) = own id es ++ own id fs := List.filter_append ..

theorem own_self (event : WorkerEvent) : own event.workerId [event] = [event] := by simp [own]

theorem own_of_ne {id : String} {event : WorkerEvent} (h : id ≠ event.workerId) :
    own id [event] = [] := by
  simp [own, Ne.symm h]

def recorded (workers : Workers) (events : List WorkerEvent) : Workers :=
  events.foldl (fun held event => (applyWorkerEvent held [] event).1) workers

theorem recorded_append (workers : Workers) (es : List WorkerEvent) (event : WorkerEvent) :
    recorded workers (es ++ [event]) = (applyWorkerEvent (recorded workers es) [] event).1 := by
  simp [recorded]

theorem entry_recorded (workers : Workers) (events : List WorkerEvent) (id : String) :
    (recorded workers events).entry id =
      (own id events).foldl WorkerHealth.after (workers.entry id) := by
  induction events using List.reverseRecOn with
  | nil => rfl
  | append_singleton es event ih =>
    rw [recorded_append, own_append, List.foldl_append]
    by_cases h : id = event.workerId
    · subst h
      rw [own_self, Workers.entry, lookup_applyWorkerEvent_self, ih]
      rfl
    · rw [own_of_ne h, Workers.entry, lookup_applyWorkerEvent_of_ne _ _ h]
      exact ih

/-! ## What the record says -/

/-- What the record of a worker says, as facts about its own events. -/
structure Describes (health : WorkerHealth) (events : List WorkerEvent) : Prop where
  /-- The last event but for stops is an error. -/
  error : health.state = .error ↔ Last (·.text?.isSome) (·.isStopped) events
  running : health.state = .running ↔
    Last (fun e => e.text? = none ∧ e.isStopped = false) (fun _ => False) events
  heartbeat : ∀ time, health.lastHeartbeat = some time ↔
    Last (·.time = time) (fun _ => False) events
  /-- The last error, unless the worker has reported itself alive since. -/
  message : ∀ text, health.lastError = some text ↔
    Last (·.text? = some text) (fun e => e.text? = none ∧ e.isHeartbeat = false) events

theorem describes_fold (events : List WorkerEvent) :
    Describes (events.foldl WorkerHealth.after {}) events := by
  induction events using List.reverseRecOn with
  | nil => constructor <;> simp
  | append_singleton es event ih =>
    rw [List.foldl_append]
    obtain ⟨herror, hrunning, hheartbeat, hmessage⟩ := ih
    generalize es.foldl WorkerHealth.after {} = health at herror hrunning hheartbeat hmessage
    cases event with
    | started id time | heartbeat id time | error id time text fatal =>
      constructor <;> simp [last_append_singleton, WorkerHealth.after, hmessage]
    | stopped id time =>
      refine ⟨?_, ?_, ?_, ?_⟩
      · by_cases h : health.state = .error <;>
          simp [last_append_singleton, WorkerHealth.after, ← herror, h]
      · by_cases h : health.state = .error <;>
          simp [last_append_singleton, WorkerHealth.after, h]
      · simp [last_append_singleton, WorkerHealth.after]
      · simp [last_append_singleton, WorkerHealth.after, hmessage]

/-- **The record of a worker is decided by its own events.** Whatever the other workers
send in between. -/
theorem recorded_describes (workers : Workers) (events : List WorkerEvent) {id : String}
    (hnew : workers.entry id = {}) :
    Describes ((recorded workers events).entry id) (own id events) := by
  rw [entry_recorded, hnew]
  exact describes_fold (own id events)

theorem recorded_describes_failed :
    Describes ((recorded [] [.started "slack" 1, .error "slack" 2 "dropped" false,
        .heartbeat "queue" 3, .stopped "slack" 4]).entry "slack")
      (own "slack" [.started "slack" 1, .error "slack" 2 "dropped" false,
        .heartbeat "queue" 3, .stopped "slack" 4]) :=
  recorded_describes [] _ rfl

end Direclaw.Runtime.Health
