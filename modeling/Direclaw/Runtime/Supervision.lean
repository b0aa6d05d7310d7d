import Direclaw.Runtime.SocketWorker
import Direclaw.Runtime.WorkerHealth
import Direclaw.Slack.Credentials

/-!
# Supervision

`run_supervisor` of `runtime/supervisor.rs` from the start of its workers to its return,
with the threads of `run_worker` (`runtime/channel_worker.rs`) beside it. What a worker
does between two reports is left out, what it reports is an input. Workers report through
one channel, in order.
-/

namespace Direclaw.Runtime.Health

open Direclaw.Lib Direclaw.Config

/-! ## The state file -/

structure SupervisorState where
  running : Bool := false
  pid : Option ℕ := none
  startedAt : Option ℤ := none
  stoppedAt : Option ℤ := none
  workers : Workers := []
  lastError : Option String := none
  slackProfiles : List Slack.SlackProfileCredentialHealth := []
deriving DecidableEq

/-! ## Workers -/

inductive ThreadPhase : Type where
  | created
  /-- It has reported its start. -/
  | starting
  /-- It has reported why it does not run. -/
  | refused
  | running
  /-- Out of its loop. A Slack worker waits for the thread beside it. -/
  | finishing
  | ended
deriving DecidableEq, Repr

structure WorkerThread where
  spec : WorkerSpec
  phase : ThreadPhase := .created
  /-- The thread beside a Slack worker that reports it alive. -/
  beating : Bool := false
deriving DecidableEq, Repr

inductive ThreadAct : Type where
  | start
  /-- Bootstrap, credentials or an injected fault. -/
  | refuse (message : String)
  | enter
  /-- The queue processor returns before its loop. -/
  | giveUp (message : String)
  | tick (failure : Option String)
  | leave
  | stop
  | panic
deriving DecidableEq, Repr

/-- What the thread is afterwards, and what it has sent. The flag is the one that all
threads share. -/
def WorkerThread.act (thread : WorkerThread) (stop : Bool) (time : ℤ) :
    ThreadAct → WorkerThread × List WorkerEvent
  | .start =>
    if thread.phase = .created then
      ({ thread with phase := .starting }, [.started thread.spec.id time])
    else (thread, [])
  | .refuse message =>
    if thread.phase = .starting then
      ({ thread with phase := .refused }, [.error thread.spec.id time message true])
    else (thread, [])
  | .enter =>
    if thread.phase = .starting then
      ({ thread with phase := .running, beating := thread.spec.runtime == .slackSocket }, [])
    else (thread, [])
  | .giveUp message =>
    if thread.phase = .starting ∧ thread.spec.runtime = .queueProcessor then
      ({ thread with phase := .ended }, [.error thread.spec.id time message false])
    else (thread, [])
  | .tick (some message) =>
    if thread.phase = .running then (thread, [.error thread.spec.id time message false])
    else (thread, [])
  | .tick none =>
    -- the Slack worker itself reports only errors
    if thread.phase = .running ∧ thread.spec.runtime ≠ .slackSocket then
      (thread, [.heartbeat thread.spec.id time])
    else (thread, [])
  | .leave =>
    if thread.phase = .running ∧ (stop ∨ thread.spec.runtime = .slackSocket) then
      ({ thread with phase := .finishing }, [])
    else (thread, [])
  | .stop =>
    if thread.phase = .refused ∨ (thread.phase = .finishing ∧ thread.beating = false) then
      ({ thread with phase := .ended }, [.stopped thread.spec.id time])
    else (thread, [])
  | .panic => ({ thread with phase := .ended }, [])

/-- The thread beside a Slack worker reports, or ends once it is told to. -/
def WorkerThread.beat (thread : WorkerThread) (stop ends : Bool) (time : ℤ) :
    WorkerThread × List WorkerEvent :=
  if thread.beating = false then (thread, [])
  else if ends then
    if stop ∨ thread.phase = .finishing then ({ thread with beating := false }, [])
    else (thread, [])
  else (thread, [.heartbeat thread.spec.id time])

/-! ## The supervisor -/

inductive SupervisorPhase : Type where
  /-- The head of the loop, the look for the stop file, and the channel. -/
  | polling
  | looking
  | receiving
  | waiting
  | marking
  | joining (handle : ℕ)
  | saving
  /-- It returns an error, with the lock in place. -/
  | failed
  | clearing
  | removing
  | returned
deriving DecidableEq, Repr

structure Supervision where
  threads : List WorkerThread
  /-- Sent and not yet received. -/
  channel : List WorkerEvent := []
  received : List WorkerEvent := []
  stop : Bool := false
  stopFile : Bool := false
  phase : SupervisorPhase := .polling
  state : SupervisorState
  active : Active
  /-- The state file. -/
  file : SupervisorState
  /-- The start lock is there. -/
  locked : Bool := true
deriving DecidableEq

inductive SupervisionEvent : Type where
  | thread (index : ℕ) (act : ThreadAct) (time : ℤ)
  | beat (index : ℕ) (ends : Bool) (time : ℤ)
  /-- Somebody writes the stop file. -/
  | signalStop
  /-- One step of the supervisor: whether a save works and the deadline is over. -/
  | supervisor (saved late : Bool) (time : ℤ)
deriving DecidableEq, Repr

namespace Supervision

/-- No thread is left that could send. -/
def disconnected (d : Supervision) : Bool :=
  d.threads.all fun thread => thread.phase == .ended && !thread.beating

def handleWorkerEvent (d : Supervision) (event : WorkerEvent) (saved : Bool) : Supervision :=
  let (workers, active, _) := applyWorkerEvent d.state.workers d.active event
  let state := { d.state with workers }
  { d with
    state, active
    file := if saved then state else d.file
    received := d.received ++ [event] }

def markTimeout (workers : Workers) (id : String) : Workers :=
  match workers.lookup id with
  | some health =>
    OrderedMap.insert id { health with state := .error, lastError := some "shutdown timeout" }
      workers
  | none => workers

def markTimeouts (d : Supervision) : Supervision :=
  if d.active = [] then d
  else
    { d with
      state := { d.state with
        lastError := some ("shutdown timeout waiting for workers: " ++
          String.intercalate "," d.active.ids)
        workers := d.active.ids.foldl markTimeout d.state.workers } }

def supervisorStep (d : Supervision) (saved late : Bool) (time : ℤ) : Supervision :=
  match d.phase with
  | .polling => { d with phase := if d.stop then .waiting else .looking }
  | .looking => { d with stop := d.stop || d.stopFile, phase := .receiving }
  | .receiving =>
    match d.channel with
    | event :: rest =>
      { ({ d with channel := rest }).handleWorkerEvent event saved with phase := .polling }
    | [] => { d with phase := if d.disconnected then .waiting else .polling }
  | .waiting =>
    if d.active = [] ∨ late then { d with phase := .marking }
    else
      match d.channel with
      | event :: rest => ({ d with channel := rest }).handleWorkerEvent event saved
      | [] => { d with phase := if d.disconnected then .marking else .waiting }
  | .marking => { d.markTimeouts with phase := .joining 0 }
  | .joining handle =>
    match d.threads[handle]? with
    | some thread =>
      if thread.phase = .ended then { d with phase := .joining (handle + 1) } else d
    | none => { d with phase := .saving }
  | .saving =>
    let state := { d.state with running := false, pid := none, stoppedAt := some time }
    { d with state, file := if saved then state else d.file,
             phase := if saved then .clearing else .failed }
  | .failed => d
  | .clearing => { d with locked := false, phase := .removing }
  | .removing => { d with stopFile := false, phase := .returned }
  | .returned => d

/-- The thread at `index` is replaced, and what it has sent goes into the channel. -/
def turn (d : Supervision) (index : ℕ)
    (act : WorkerThread → WorkerThread × List WorkerEvent) : Supervision :=
  match d.threads[index]? with
  | none => d
  | some thread =>
    { d with
      threads := d.threads.set index (act thread).1
      channel := d.channel ++ (act thread).2 }

def step (d : Supervision) : SupervisionEvent → Supervision
  | .thread index act time => d.turn index (·.act d.stop time act)
  | .beat index ends time => d.turn index (·.beat d.stop ends time)
  | .signalStop => { d with stopFile := true }
  | .supervisor saved late time => d.supervisorStep saved late time

/-- The workers are registered and spawned and the first state is saved. -/
def start (specs : List WorkerSpec) (pid : ℕ) (time : ℤ)
    (slackProfiles : List Slack.SlackProfileCredentialHealth) : Supervision :=
  let state : SupervisorState :=
    { running := true
      pid := some pid
      startedAt := some time
      workers := specs.foldl (fun workers spec => OrderedMap.insert spec.id {} workers) []
      slackProfiles }
  { threads := specs.map fun spec => { spec }
    state
    active := specs.foldl (fun active spec => OrderedMap.insert spec.id () active) []
    file := state }

end Supervision

end Direclaw.Runtime.Health
