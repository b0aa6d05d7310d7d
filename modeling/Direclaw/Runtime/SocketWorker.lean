import Direclaw.Config.GlobalSettings
import Direclaw.Lib.OrderedMap
import Direclaw.Slack.SocketLoop

/-!
# Workers and socket readers

The supervisor with its workers (`runtime/supervisor.rs`, `runtime/channel_worker.rs`) and
the worker for Slack sockets, which calls `run_socket_runtime_until_stop`
(`channels/slack/mod.rs`) again after each error. An event is one step of one thread; the
stop flag is shared by all of them.
-/

namespace Direclaw.Runtime

open Direclaw.Lib Direclaw.Orchestration Direclaw.Config Direclaw.Slack

/-! ## Workers -/

inductive WorkerRuntime : Type where
  | queueProcessor
  | orchestratorDispatcher
  | memory
  | scheduler
  | slackSocket
  | slackBackfill
  | heartbeat
deriving DecidableEq, Repr

structure WorkerSpec where
  id : String
  runtime : WorkerRuntime
  intervalMs : ℕ
deriving DecidableEq, Repr

/-- `configured_heartbeat_interval`, in seconds. -/
def configuredHeartbeatInterval (settings : GlobalSettings) : Option ℕ :=
  let seconds := settings.heartbeatInterval.getD 3600
  if seconds = 0 then none else some seconds

def slackSocketSpec : WorkerSpec := ⟨"channel:slack-socket", .slackSocket, 2000⟩

def slackBackfillSpec (config : ChannelConfig) : WorkerSpec :=
  ⟨"channel:slack-backfill", .slackBackfill, max config.historyBackfillIntervalSeconds 1 * 1000⟩

def channelSpecs (channel : String) (config : ChannelConfig) : List WorkerSpec :=
  if !config.enabled then []
  else if channel = "slack" then
    match config.inboundMode with
    | .socket => [slackSocketSpec]
    | .poll => [slackBackfillSpec config]
    | .hybrid =>
      if config.historyBackfillEnabled then [slackSocketSpec, slackBackfillSpec config]
      else [slackSocketSpec]
  else []

def buildWorkerSpecs (settings : GlobalSettings) : List WorkerSpec :=
  [⟨"queue_processor", .queueProcessor, 250⟩,
      ⟨"orchestrator_dispatcher", .orchestratorDispatcher, 1000⟩] ++
    (if settings.memory.enabled then
      [⟨"memory_worker", .memory, settings.memory.workerIntervalSeconds * 1000⟩] else []) ++
    [⟨"scheduler", .scheduler, 60000⟩] ++
    (match configuredHeartbeatInterval settings with
      | some interval => [⟨"heartbeat", .heartbeat, interval * 1000⟩]
      | none => []) ++
    settings.channels.flatMap fun entry => channelSpecs entry.1 entry.2

/-- What a worker tells the supervisor. -/
inductive WorkerEvent : Type where
  | started (workerId : String)
  | heartbeat (workerId : String)
  | error (workerId message : String) (fatal : Bool)
  | stopped (workerId : String)
deriving DecidableEq, Repr

/-- A worker that fails at its start is `refused`. -/
inductive WorkerStage : Type where
  | starting
  | running
  | refused
  | stopped
deriving DecidableEq, Repr

structure Worker where
  spec : WorkerSpec
  stage : WorkerStage := .starting
deriving DecidableEq, Repr

/-! ## The Slack worker -/

def slackProfiles (settings : GlobalSettings) : List (String × ChannelProfile) :=
  OrderedMap.ofEntries (settings.channelProfiles.filter fun entry => entry.2.channel == .slack)

theorem slackProfiles_nodup (settings : GlobalSettings) :
    ((slackProfiles settings).map (·.1)).Nodup :=
  (OrderedMap.sorted_ofEntries _).nodup

structure SocketThread where
  profile : String
  /-- The call of `run_socket_runtime_until_stop` that has spawned the thread. -/
  call : ℕ
  /-- None after the thread has sent its outcome and ended. -/
  phase : Option SocketPhase := some .loopHead
deriving DecidableEq

def SocketThread.running (thread : SocketThread) : Bool := thread.phase.isSome

/-- Where the Slack worker is, and in a call of `run_socket_runtime_until_stop` what that
does next. -/
inductive SlackStage : Type where
  /-- The settings ask for no such worker. -/
  | absent
  | starting
  | refused
  /-- At the head of the loop of the worker. -/
  | idle
  /-- Credentials and runtimes of the profiles. -/
  | preparing
  | spawning (profiles : List String)
  | loopHead
  /-- `process_outbound` for the roots one after the other. -/
  | delivering (roots : List String)
  | draining
  | pausing
  | joining (handles : List ℕ) (result : Except SlackError Unit)
  /-- The call has returned an error. -/
  | failed (err : SlackError)
  | waiting
  | stopped
deriving DecidableEq

structure SlackWorker where
  stage : SlackStage
  call : ℕ := 0
  handles : List ℕ := []
  outboundRoots : List String := []
  /-- The channel of the call. -/
  results : List (Except SlackError Unit) := []
deriving DecidableEq

/-- The threads of the call may be running and its channel is open. -/
def SlackStage.serving : SlackStage → Bool
  | .spawning _ | .loopHead | .delivering _ | .draining | .pausing | .joining _ _ => true
  | _ => false

/-- The worker sends no more events. -/
def SlackStage.ended : SlackStage → Bool
  | .absent | .refused | .stopped => true
  | _ => false

/-! ## The daemon -/

inductive SupervisorStage : Type where
  | loopHead
  | looking
  | stopping
deriving DecidableEq, Repr

structure WorkerSystem where
  /-- The ids of the Slack profiles. -/
  profiles : List String
  recoverMissedMessages : Bool
  supervisor : SupervisorStage := .loopHead
  /-- The flag all threads share. -/
  stop : Bool := false
  /-- The stop signal file. -/
  stopSignal : Bool := false
  /-- The supervisor has found the file. -/
  detected : Bool := false
  workers : List Worker
  slack : SlackWorker
  threads : List SocketThread := []
  events : List WorkerEvent := []
  /-- The errors that calls of `run_socket_runtime_until_stop` have returned. -/
  failures : List SlackError := []
deriving DecidableEq

def WorkerSystem.start (settings : GlobalSettings) : WorkerSystem where
  profiles := (slackProfiles settings).map (·.1)
  recoverMissedMessages :=
    ((settings.channels.lookup "slack").getD {}).historyBackfillEnabled
  workers :=
    ((buildWorkerSpecs settings).filter (·.runtime != .slackSocket)).map fun spec => { spec }
  slack :=
    { stage := if (buildWorkerSpecs settings).any (·.runtime == .slackSocket) then .starting
        else .absent }

inductive ThreadEvent : Type where
  /-- Somebody asks the daemon to stop. -/
  | requestStop
  | supervisor
  /-- A worker starts or ticks, with what fails in that. -/
  | worker (index : ℕ) (failure : Option String)
  /-- A step of the Slack worker, with what fails in it and the runtime root it resolves. -/
  | slack (failure : Option SlackError) (root : String)
  /-- The thread beside the Slack worker that reports it alive. -/
  | slackHeartbeat
  | socket (index : ℕ) (result : SocketResult)
deriving DecidableEq, Repr

namespace WorkerSystem

def send (d : WorkerSystem) (events : List WorkerEvent) : WorkerSystem :=
  { d with events := d.events ++ events }

def setStage (d : WorkerSystem) (stage : SlackStage) : WorkerSystem :=
  { d with slack := { d.slack with stage } }

def slackId : String := slackSocketSpec.id

/-! ### The supervisor -/

/-- No thread is left that could send an event. -/
def disconnected (d : WorkerSystem) : Bool :=
  d.slack.stage.ended &&
    d.workers.all fun worker => worker.stage == .refused || worker.stage == .stopped

/-- The look for the stop signal file. -/
def detect (d : WorkerSystem) : WorkerSystem :=
  if d.stopSignal then { d with stop := true, detected := true } else d

def supervisorStep (d : WorkerSystem) : WorkerSystem :=
  match d.supervisor with
  | .loopHead => { d with supervisor := if d.stop then .stopping else .looking }
  | .looking =>
    { d.detect with supervisor := if d.disconnected then .stopping else .loopHead }
  | .stopping => d

/-! ### The other workers -/

def workerStep (d : WorkerSystem) (index : ℕ) (failure : Option String) : WorkerSystem :=
  match d.workers[index]? with
  | none => d
  | some worker =>
    let turn (stage : WorkerStage) (events : List WorkerEvent) : WorkerSystem :=
      { d with
        workers := d.workers.set index { worker with stage }
        events := d.events ++ events }
    let id := worker.spec.id
    match worker.stage, failure with
    | .starting, none => turn .running [.started id]
    | .starting, some message =>
      turn .refused [.started id, .error id message true, .stopped id]
    | .running, failure =>
      if d.stop then turn .stopped [.stopped id]
      else
        match failure with
        | none => turn .running [.heartbeat id]
        | some message => turn .running [.error id message false]
    | .refused, _ => d
    | .stopped, _ => d

/-! ### Socket threads -/

def sendOutcome (d : WorkerSystem) (call : ℕ) (outcome : Except SlackError Unit) : WorkerSystem :=
  if d.slack.stage.serving && d.slack.call == call then
    { d with slack := { d.slack with results := d.slack.results ++ [outcome] } }
  else d

def socketStep (d : WorkerSystem) (index : ℕ) (result : SocketResult) : WorkerSystem :=
  match d.threads[index]? with
  | none => d
  | some thread =>
    match thread.phase with
    | none => d
    | some (.returned outcome) =>
      { d.sendOutcome thread.call outcome with
        threads := d.threads.set index { thread with phase := none } }
    | some phase =>
      { d with
        threads := d.threads.set index
          { thread with phase := some (phase.step d.recoverMissedMessages d.stop result) } }

/-! ### The Slack worker -/

/-- The call returns an error; its channel and its handles are dropped. -/
def fail (d : WorkerSystem) (err : SlackError) : WorkerSystem :=
  { d.setStage (.failed err) with failures := d.failures ++ [err] }

/-- `BTreeSet::insert`; the order of the roots plays no part. -/
def insertRoot (roots : List String) (root : String) : List String :=
  if root ∈ roots then roots else roots ++ [root]

def spawn (d : WorkerSystem) (profile root : String) (rest : List String) : WorkerSystem :=
  { d with
    threads := d.threads ++ [{ profile, call := d.slack.call }]
    slack := { d.slack with
      stage := .spawning rest
      handles := d.slack.handles ++ [d.threads.length]
      outboundRoots := insertRoot d.slack.outboundRoots root } }

def beginCall (d : WorkerSystem) : WorkerSystem :=
  { d with slack := { stage := .preparing, call := d.slack.call + 1 } }

/-- An error of a thread stops everything. -/
def drain (d : WorkerSystem) : WorkerSystem :=
  match d.slack.results with
  | [] => d.setStage .pausing
  | .ok () :: rest => { d with slack := { d.slack with results := rest } }
  | .error err :: rest =>
    { d with
      stop := true
      slack := { d.slack with
        stage := .joining d.slack.handles (.error err)
        results := rest } }

def ended (d : WorkerSystem) (handle : ℕ) : Bool :=
  match d.threads[handle]? with
  | some thread => !thread.running
  | none => true

def slackStep (d : WorkerSystem) (failure : Option SlackError) (root : String) : WorkerSystem :=
  match d.slack.stage, failure with
  | .absent, _ => d
  | .starting, none => (d.setStage .idle).send [.started slackId]
  | .starting, some err =>
    (d.setStage .refused).send
      [.started slackId, .error slackId err.display true, .stopped slackId]
  | .refused, _ => d
  | .idle, _ => if d.stop then (d.setStage .stopped).send [.stopped slackId] else d.beginCall
  | .preparing, some err => d.fail err
  | .preparing, none => d.setStage (.spawning d.profiles)
  | .spawning [], _ => d.setStage .loopHead
  | .spawning (_ :: _), some err => d.fail err
  | .spawning (profile :: rest), none => d.spawn profile root rest
  | .loopHead, _ =>
    if d.stop then d.setStage (.joining d.slack.handles (.ok ()))
    else d.setStage (.delivering d.slack.outboundRoots)
  | .delivering [], _ => d.setStage .draining
  | .delivering (_ :: _), some err => d.fail err
  | .delivering (_ :: rest), none => d.setStage (.delivering rest)
  | .draining, _ => d.drain
  | .pausing, _ => d.setStage .loopHead
  | .joining (handle :: rest) result, _ =>
    if d.ended handle then d.setStage (.joining rest result) else d
  | .joining [] (.error err), _ => d.fail err
  | .joining [] (.ok ()), _ => (d.setStage .stopped).send [.stopped slackId]
  | .failed err, _ => (d.setStage .waiting).send [.error slackId err.display false]
  | .waiting, _ =>
    if d.stop then (d.setStage .stopped).send [.stopped slackId] else d.setStage .idle
  | .stopped, _ => d

def slackHeartbeat (d : WorkerSystem) : WorkerSystem :=
  if d.stop || d.slack.stage.ended then d else d.send [.heartbeat slackId]

def step (d : WorkerSystem) : ThreadEvent → WorkerSystem
  | .requestStop => { d with stopSignal := true }
  | .supervisor => d.supervisorStep
  | .worker index failure => d.workerStep index failure
  | .slack failure root => d.slackStep failure root
  | .slackHeartbeat => d.slackHeartbeat
  | .socket index result => d.socketStep index result

end WorkerSystem

end Direclaw.Runtime
