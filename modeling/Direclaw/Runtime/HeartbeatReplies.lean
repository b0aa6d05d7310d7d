import Direclaw.Lib.Run
import Direclaw.Runtime.BatchOrder
import Direclaw.Runtime.Heartbeat
import Std.Data.String.ToInt

/-!
# The answers to heartbeats

`tick_heartbeat_worker` and `match_heartbeat_responses` of `runtime/heartbeat_worker.rs`. A
tick writes its heartbeats and looks for the answers to these same messages, in the same
breath. Message ids hold the time of the tick, so no later tick asks for them again: an answer
is reported if it lies there before its heartbeat is written, and otherwise never.
-/

namespace Direclaw.Runtime

open Direclaw.Lib Direclaw.Queue Direclaw.Orchestration

/-! ## The state -/

/-- `queue/incoming` and `queue/outgoing` under one runtime root. -/
structure HeartbeatQueues where
  incoming : Directory := ∅
  outgoing : Directory := ∅

/-- What the worker appends to the runtime log. -/
inductive HeartbeatLog : Type where
  | promptMissing (orchestratorId agentId path : String)
  | matched (orchestratorId agentId messageId snippet : String)
  | missing (orchestratorId agentId messageId : String)
deriving DecidableEq, Repr

namespace HeartbeatLog

def event : HeartbeatLog → String
  | promptMissing .. => "heartbeat.prompt.missing"
  | matched .. => "heartbeat.response.matched"
  | missing .. => "heartbeat.response.missing"

def message : HeartbeatLog → String
  | promptMissing orchestratorId agentId path =>
    s!"orchestrator={orchestratorId} agent={agentId} path={path}"
  | matched orchestratorId agentId messageId snippet =>
    s!"orchestrator={orchestratorId} agent={agentId} message_id={messageId} snippet={snippet}"
  | missing orchestratorId agentId messageId =>
    s!"orchestrator={orchestratorId} agent={agentId} message_id={messageId}"

end HeartbeatLog

def heartbeatMessageId (orchestratorId agentId : String) (tickAt : Int64) : String :=
  s!"heartbeat-{sanitizeComponent orchestratorId}-{sanitizeComponent agentId}-{tickAt.toInt}"

/-- A heartbeat whose file was written, and the runtime root of its queue. -/
structure Heartbeat where
  orchestratorId : String
  agentId : String
  tickAt : Int64
  root : String
deriving DecidableEq, Repr

def Heartbeat.messageId (heartbeat : Heartbeat) : String :=
  heartbeatMessageId heartbeat.orchestratorId heartbeat.agentId heartbeat.tickAt

def Heartbeat.correlation (heartbeat : Heartbeat) : String :=
  heartbeatCorrelation heartbeat.orchestratorId heartbeat.agentId heartbeat.tickAt

/-- The queues by runtime root, the log, and the heartbeats written so far (which the code
keeps no record of). -/
structure HeartbeatWorld where
  queues : String → HeartbeatQueues
  log : List HeartbeatLog := []
  sent : List Heartbeat := []

namespace HeartbeatWorld

def appendLog (world : HeartbeatWorld) (line : HeartbeatLog) : HeartbeatWorld :=
  { world with log := world.log ++ [line] }

/-- The file of a heartbeat appears in `incoming`. -/
def enqueue (world : HeartbeatWorld) (heartbeat : Heartbeat) (now : ℕ)
    (message : IncomingMessage) : HeartbeatWorld where
  queues := Function.update world.queues heartbeat.root
    { world.queues heartbeat.root with
      incoming := (world.queues heartbeat.root).incoming.insert
        (message.messageId ++ ".json").toList
        { modified := now, content := .json message.encode } }
  log := world.log
  sent := world.sent ++ [heartbeat]

end HeartbeatWorld

/-! ## The tick -/

/-- What a tick is given: the two environment variables, the clock, the settings, and how the
files and directories it uses answer. -/
structure TickEnv where
  failTick : Option String := none
  tickAtOverride : Option Int64 := none
  nowSecs : Int64
  now : ℕ := 0
  settings : Settings
  loadOrchestratorConfig : String → Except ConfigError OrchestratorConfig
  createDirAll : String → Except String Unit := fun _ => .ok ()
  /-- `none` for a prompt file that does not exist -/
  readToString : String → Except String (Option String)
  writeIncoming : String → Except String Unit := fun _ => .ok ()
  listOutgoing : String → Except String Unit := fun _ => .ok ()

namespace TickEnv

/-- `DIRECLAW_FAIL_HEARTBEAT_TICK`. -/
def faultInjected (env : TickEnv) : Bool :=
  env.failTick.any fun value =>
    value == "1" || Text.eqIgnoreAsciiCase value.toList "true".toList

/-- `heartbeat_tick_timestamp`. -/
def tickAt (env : TickEnv) : Int64 :=
  (env.tickAtOverride.filter fun value => 0 < value).getD env.nowSecs

end TickEnv

def resolveHeartbeatPrompt (env : TickEnv) (orchestratorRoot agentId : String) :
    Except String (Option String) :=
  let promptPath := joinPath (joinPath orchestratorRoot "heartbeat") s!"{agentId}.md"
  match env.readToString promptPath with
  | .ok body => .ok (body.map Text.trimmed)
  | .error err => .error s!"failed to read {promptPath}: {err}"

/-- `snippet`. -/
def heartbeatSnippet (text : String) (maxChars : ℕ) : String :=
  let short := String.ofList (text.toList.take maxChars)
  if maxChars < text.toList.length then short ++ "..." else short

/-- One file of the listing: the payload, if it answers the heartbeat. -/
def heartbeatReply (outgoing : Directory) (messageId correlationId : String) (name : FileName) :
    Option OutgoingMessage :=
  (outgoing.lookup name).bind fun file =>
    file.content.readOutgoing.filter fun payload =>
      payload.channel == "heartbeat" && payload.messageId == messageId &&
        payload.conversationId == some correlationId

def matchHeartbeatResponses (env : TickEnv) (root : String) (outgoing : Directory)
    (messageId correlationId : String) : Except String (Option String) :=
  match env.listOutgoing (joinPath root "queue/outgoing") with
  | .error err => .error ("failed to read " ++ joinPath root "queue/outgoing" ++ ": " ++ err)
  | .ok () =>
    .ok (((sortedOutgoingPaths outgoing).findSome?
      (heartbeatReply outgoing messageId correlationId)).map
        fun payload => heartbeatSnippet payload.message 200)

/-- The body of the loop over the agents. -/
def agentTurn (env : TickEnv) (root workspace orchestratorId : String)
    (state : HeartbeatWorld × List String) (agentId : String) : HeartbeatWorld × List String :=
  match resolveHeartbeatPrompt env workspace agentId with
  | .error err => (state.1, state.2 ++ [err])
  | .ok none =>
    (state.1.appendLog (.promptMissing orchestratorId agentId
      (joinPath (joinPath workspace "heartbeat") s!"{agentId}.md")), state.2)
  | .ok (some prompt) =>
    match buildHeartbeatIncomingMessage orchestratorId agentId prompt env.tickAt with
    | .error err => (state.1, state.2 ++ [err])
    | .ok message =>
      let queuePath := joinPath (joinPath root "queue/incoming") (message.messageId ++ ".json")
      match env.writeIncoming queuePath with
      | .error err => (state.1, state.2 ++ [s!"failed to write {queuePath}: {err}"])
      | .ok () =>
        let world := state.1.enqueue ⟨orchestratorId, agentId, env.tickAt, root⟩ env.now
          message
        match matchHeartbeatResponses env root (world.queues root).outgoing
            message.messageId (message.conversationId.getD "") with
        | .ok (some response) =>
          (world.appendLog (.matched orchestratorId agentId message.messageId response),
            state.2)
        | .ok none =>
          (world.appendLog (.missing orchestratorId agentId message.messageId), state.2)
        | .error err => (world, state.2 ++ [err])

/-- The body of the loop over the orchestrators. -/
def orchestratorTurn (env : TickEnv) (state : HeartbeatWorld × List String)
    (orchestratorId : String) : HeartbeatWorld × List String :=
  match env.loadOrchestratorConfig orchestratorId with
  | .error err =>
    (state.1, state.2 ++
      [s!"orchestrator `{orchestratorId}` heartbeat setup failed: {err.display}"])
  | .ok orchestrator =>
    match env.settings.resolveOrchestratorRuntimeRoot orchestratorId with
    | .error err =>
      (state.1, state.2 ++
        [s!"orchestrator `{orchestratorId}` runtime root resolution failed: {err.display}"])
    | .ok root =>
      match env.createDirAll (joinPath root "queue/incoming") with
      | .error err =>
        (state.1, state.2 ++
          ["failed to create " ++ joinPath root "queue/incoming" ++ ": " ++ err])
      | .ok () =>
        match env.createDirAll (joinPath root "queue/outgoing") with
        | .error err =>
          (state.1, state.2 ++
            ["failed to create " ++ joinPath root "queue/outgoing" ++ ": " ++ err])
        | .ok () =>
          match env.settings.resolvePrivateWorkspace orchestratorId with
          | .error err =>
            (state.1, state.2 ++
              [s!"failed to resolve private workspace for `{orchestratorId}`: " ++
                err.display])
          | .ok workspace =>
            (orchestrator.agents.map Prod.fst).foldl
              (agentTurn env root workspace orchestratorId) state

def tickHeartbeatWorker (env : TickEnv) (world : HeartbeatWorld) :
    HeartbeatWorld × Except String Unit :=
  if env.faultInjected then (world, .error "fault injection requested for heartbeat tick")
  else
    let (after, failures) :=
      (env.settings.orchestrators.map Prod.fst).foldl (orchestratorTurn env) (world, [])
    (after, if failures = [] then .ok () else .error ("; ".intercalate failures))

/-! ## Runs -/

/-- A tick, or the rest of the system at work on the queues. -/
inductive HeartbeatEvent : Type where
  | tick (env : TickEnv)
  | processing (queues : String → HeartbeatQueues)

def heartbeatStep (world : HeartbeatWorld) : HeartbeatEvent → HeartbeatWorld
  | .tick env => (tickHeartbeatWorker env world).1
  | .processing queues => { world with queues := queues }

def tickTimes (events : List HeartbeatEvent) : List Int64 :=
  events.filterMap fun
    | .tick env => some env.tickAt
    | .processing _ => none

/-- An answer to the heartbeat lies in the outgoing directory of its queue. -/
def Heartbeat.AnsweredIn (heartbeat : Heartbeat) (world : HeartbeatWorld) : Prop :=
  ∃ name ∈ sortedOutgoingPaths (world.queues heartbeat.root).outgoing,
    (heartbeatReply (world.queues heartbeat.root).outgoing heartbeat.messageId
      heartbeat.correlation name).isSome

/-- The log has a line that says so. -/
def Heartbeat.ReportedIn (heartbeat : Heartbeat) (log : List HeartbeatLog) : Prop :=
  ∃ snippet, .matched heartbeat.orchestratorId heartbeat.agentId heartbeat.messageId snippet ∈ log

/-- **Replies are observed**: each one that a tick finds in the outgoing directory, to a
heartbeat of an earlier tick, has been reported by the end of this tick. -/
def RepliesObserved (world : HeartbeatWorld) (events : List HeartbeatEvent) : Prop :=
  ∀ before env after, events = before ++ .tick env :: after →
    ∀ heartbeat ∈ (run heartbeatStep world before).sent,
      heartbeat.AnsweredIn (run heartbeatStep world before) →
        heartbeat.ReportedIn (run heartbeatStep world (before ++ [.tick env])).log

/-- When the heartbeat's own tick began there was an answer to it already, and the tick could
list it. -/
def AnsweredBeforehand (world : HeartbeatWorld) (events : List HeartbeatEvent)
    (heartbeat : Heartbeat) : Prop :=
  ∃ before env after, events = before ++ .tick env :: after ∧ env.tickAt = heartbeat.tickAt ∧
    heartbeat.AnsweredIn (run heartbeatStep world before) ∧
      env.listOutgoing (joinPath heartbeat.root "queue/outgoing") = .ok ()

/-! ## Message ids -/

/-- The time of a tick can be read off the id. -/
theorem heartbeatMessageId_injective (orchestratorId agentId : String) :
    Function.Injective (heartbeatMessageId orchestratorId agentId) := by
  intro t u h
  have hlist := congrArg String.toList h
  simp only [heartbeatMessageId, String.toList_append] at hlist
  have hrepr : Int.repr t.toInt = Int.repr u.toInt :=
    String.toList_inj.mp (List.append_cancel_left hlist)
  exact Int64.toInt_inj.mp (Int.repr_inj.mp hrepr)

theorem built_ids {orchestratorId agentId prompt : String} {tickAt : Int64}
    {message : IncomingMessage}
    (h : buildHeartbeatIncomingMessage orchestratorId agentId prompt tickAt = .ok message) :
    message.messageId = heartbeatMessageId orchestratorId agentId tickAt ∧
      message.conversationId = some (heartbeatCorrelation orchestratorId agentId tickAt) := by
  rw [buildHeartbeatIncomingMessage] at h
  split at h
  · cases h
  · split at h
    · cases h
    · cases h
      exact ⟨rfl, rfl⟩

/-! ## One tick -/

section Tick

variable {env : TickEnv} {world middle after : HeartbeatWorld}

/-- Only the outgoing directory decides. -/
theorem answeredIn_congr {heartbeat : Heartbeat}
    (h : (after.queues heartbeat.root).outgoing = (world.queues heartbeat.root).outgoing) :
    heartbeat.AnsweredIn after ↔ heartbeat.AnsweredIn world := by
  rw [Heartbeat.AnsweredIn, Heartbeat.AnsweredIn, h]

/-- A tick writes this heartbeat: it is of this time, and in the queue of its orchestrator. -/
def Heartbeat.OfTick (heartbeat : Heartbeat) (env : TickEnv) : Prop :=
  heartbeat.tickAt = env.tickAt ∧
    env.settings.resolveOrchestratorRuntimeRoot heartbeat.orchestratorId = .ok heartbeat.root

/-- The tick finds an answer to the heartbeat. -/
def Heartbeat.FoundBy (heartbeat : Heartbeat) (env : TickEnv) (world : HeartbeatWorld) : Prop :=
  heartbeat.AnsweredIn world ∧
    env.listOutgoing (joinPath heartbeat.root "queue/outgoing") = .ok ()

/-- What any part of a tick does to the world. -/
structure Ticked (env : TickEnv) (world after : HeartbeatWorld) : Prop where
  outgoing : ∀ root, (after.queues root).outgoing = (world.queues root).outgoing
  log : world.log ⊆ after.log
  matched : ∀ orchestratorId agentId messageId snippet,
    .matched orchestratorId agentId messageId snippet ∈ after.log →
      .matched orchestratorId agentId messageId snippet ∈ world.log ∨
        ∃ heartbeat : Heartbeat, heartbeat.OfTick env ∧ heartbeat.FoundBy env world ∧
          heartbeat.orchestratorId = orchestratorId ∧ heartbeat.agentId = agentId ∧
          heartbeat.messageId = messageId
  sent : world.sent ⊆ after.sent
  written : ∀ heartbeat ∈ after.sent, heartbeat ∈ world.sent ∨
    heartbeat.OfTick env ∧ (heartbeat.FoundBy env world → heartbeat.ReportedIn after.log)

theorem Ticked.refl (env : TickEnv) (world : HeartbeatWorld) : Ticked env world world where
  outgoing _ := rfl
  log := List.Subset.refl _
  matched _ _ _ _ h := .inl h
  sent := List.Subset.refl _
  written _ h := .inl h

theorem Ticked.foundBy_iff (h : Ticked env world after) {heartbeat : Heartbeat} :
    heartbeat.FoundBy env after ↔ heartbeat.FoundBy env world :=
  and_congr_left fun _ => answeredIn_congr (h.outgoing heartbeat.root)

theorem Heartbeat.ReportedIn.mono {heartbeat : Heartbeat} {log log' : List HeartbeatLog}
    (h : heartbeat.ReportedIn log) (hsub : log ⊆ log') : heartbeat.ReportedIn log' := by
  obtain ⟨snippet, hmem⟩ := h
  exact ⟨snippet, hsub hmem⟩

theorem Ticked.trans (h : Ticked env world middle) (h' : Ticked env middle after) :
    Ticked env world after where
  outgoing root := (h'.outgoing root).trans (h.outgoing root)
  log := List.Subset.trans h.log h'.log
  matched := by
    intro orchestratorId agentId messageId snippet hline
    rcases h'.matched _ _ _ _ hline with hline | ⟨heartbeat, htick, hfound, hids⟩
    · exact h.matched _ _ _ _ hline
    · exact .inr ⟨heartbeat, htick, h.foundBy_iff.mp hfound, hids⟩
  sent := List.Subset.trans h.sent h'.sent
  written := by
    intro heartbeat hsent
    rcases h'.written heartbeat hsent with hsent | ⟨htick, hreported⟩
    · rcases h.written heartbeat hsent with hsent | ⟨htick, hreported⟩
      · exact .inl hsent
      · exact .inr ⟨htick, fun hfound => (hreported hfound).mono h'.log⟩
    · exact .inr ⟨htick, fun hfound => hreported (h.foundBy_iff.mpr hfound)⟩

theorem Ticked.foldl {α : Type} {turn : HeartbeatWorld × List String → α →
      HeartbeatWorld × List String}
    (hturn : ∀ state a, Ticked env state.1 (turn state a).1) (items : List α)
    (state : HeartbeatWorld × List String) : Ticked env state.1 (items.foldl turn state).1 := by
  induction items generalizing state with
  | nil => exact .refl env state.1
  | cons a items ih => exact (hturn state a).trans (ih (turn state a))

/-- A line that reports no answer. -/
theorem ticked_appendLog {line : HeartbeatLog}
    (hline : ∀ o a m s, line ≠ .matched o a m s) : Ticked env world (world.appendLog line) where
  outgoing _ := rfl
  log := List.subset_append_left _ _
  matched orchestratorId agentId messageId snippet h := by
    rcases List.mem_append.mp h with h | h
    · exact .inl h
    · exact absurd (List.mem_singleton.mp h).symm (hline _ _ _ _)
  sent := List.Subset.refl _
  written _ h := .inl h

theorem outgoing_enqueue (world : HeartbeatWorld) (heartbeat : Heartbeat) (now : ℕ)
    (message : IncomingMessage) (root : String) :
    ((world.enqueue heartbeat now message).queues root).outgoing =
      (world.queues root).outgoing := by
  show (Function.update world.queues heartbeat.root _ root).outgoing = _
  by_cases hroot : root = heartbeat.root
  · rw [hroot, Function.update_self]
  · rw [Function.update_of_ne hroot]

/-- `match_heartbeat_responses` finds an answer if there is one, and the directory can be
listed. -/
theorem matchHeartbeatResponses_some_iff {heartbeat : Heartbeat} :
    (∃ response, matchHeartbeatResponses env heartbeat.root
        (world.queues heartbeat.root).outgoing heartbeat.messageId heartbeat.correlation =
          .ok (some response)) ↔ heartbeat.FoundBy env world := by
  rw [matchHeartbeatResponses, Heartbeat.FoundBy, Heartbeat.AnsweredIn]
  cases hlist : env.listOutgoing (joinPath heartbeat.root "queue/outgoing") with
  | error err => exact iff_of_false (by nofun) (by nofun)
  | ok _ =>
    simp only [Except.ok.injEq, and_true]
    rw [← Option.isSome_iff_exists, Option.isSome_map, List.findSome?_isSome_iff]

theorem ticked_written {heartbeat : Heartbeat} {now : ℕ} {message : IncomingMessage}
    {line : List HeartbeatLog} (htick : heartbeat.OfTick env)
    (hline : (∃ snippet, line = [.matched heartbeat.orchestratorId heartbeat.agentId
        heartbeat.messageId snippet] ∧ heartbeat.FoundBy env world) ∨
      (∀ o a m s, .matched o a m s ∉ line) ∧ ¬ heartbeat.FoundBy env world) :
    Ticked env world { world.enqueue heartbeat now message with log := world.log ++ line } where
  outgoing root := outgoing_enqueue world heartbeat now message root
  log := List.subset_append_left _ _
  matched := by
    intro orchestratorId agentId messageId snippet h
    rcases List.mem_append.mp h with h | h
    · exact .inl h
    · rcases hline with ⟨text, rfl, hfound⟩ | ⟨hnone, -⟩
      · obtain ⟨rfl, rfl, rfl, -⟩ := HeartbeatLog.matched.inj (List.mem_singleton.mp h)
        exact .inr ⟨heartbeat, htick, hfound, rfl, rfl, rfl⟩
      · exact absurd h (hnone _ _ _ _)
  sent := List.subset_append_left _ _
  written := by
    intro other h
    rcases List.mem_append.mp h with h | h
    · exact .inl h
    · obtain rfl := List.mem_singleton.mp h
      refine .inr ⟨htick, fun hfound => ?_⟩
      rcases hline with ⟨snippet, rfl, -⟩ | ⟨-, hnot⟩
      · exact ⟨snippet, List.mem_append_right _ (List.mem_singleton.mpr rfl)⟩
      · exact absurd hfound hnot

theorem ticked_agentTurn {root orchestratorId : String} (workspace : String)
    (state : HeartbeatWorld × List String) (agentId : String)
    (hroot : env.settings.resolveOrchestratorRuntimeRoot orchestratorId = .ok root) :
    Ticked env state.1 (agentTurn env root workspace orchestratorId state agentId).1 := by
  obtain ⟨world, failures⟩ := state
  rw [agentTurn]
  cases resolveHeartbeatPrompt env workspace agentId with
  | error err => exact .refl env world
  | ok prompt =>
    cases prompt with
    | none => exact ticked_appendLog fun o a m s => HeartbeatLog.noConfusion
    | some prompt =>
      cases hbuilt : buildHeartbeatIncomingMessage orchestratorId agentId prompt env.tickAt with
      | error err =>
        simp only [hbuilt]
        exact .refl env world
      | ok message =>
        obtain ⟨hid, hcorrelation⟩ := built_ids hbuilt
        simp only [hbuilt, hid, hcorrelation, Option.getD_some]
        split
        · exact .refl env world
        · have htick : Heartbeat.OfTick ⟨orchestratorId, agentId, env.tickAt, root⟩ env :=
            ⟨rfl, hroot⟩
          have hfound := @matchHeartbeatResponses_some_iff env world
            ⟨orchestratorId, agentId, env.tickAt, root⟩
          simp only [Heartbeat.messageId, Heartbeat.correlation] at hfound
          rw [outgoing_enqueue]
          cases hmatch : matchHeartbeatResponses env root (world.queues root).outgoing
              (heartbeatMessageId orchestratorId agentId env.tickAt)
              (heartbeatCorrelation orchestratorId agentId env.tickAt) with
          | error err =>
            have hnot : ¬ Heartbeat.FoundBy ⟨orchestratorId, agentId, env.tickAt, root⟩ env
                world := by
              intro h
              obtain ⟨response, hresponse⟩ := hfound.mpr h
              rw [hmatch] at hresponse
              cases hresponse
            have hnone : Ticked env world { world.enqueue
                ⟨orchestratorId, agentId, env.tickAt, root⟩ env.now message with
                  log := world.log ++ [] } :=
              ticked_written htick (.inr ⟨fun o a m s => List.not_mem_nil, hnot⟩)
            rwa [List.append_nil] at hnone
          | ok response =>
            cases response with
            | none =>
              refine ticked_written htick (.inr ⟨fun o a m s h => ?_, fun h => ?_⟩)
              · cases List.mem_singleton.mp h
              · obtain ⟨response, hresponse⟩ := hfound.mpr h
                rw [hmatch] at hresponse
                cases hresponse
            | some response =>
              exact ticked_written htick (.inl ⟨response, rfl, hfound.mp ⟨response, hmatch⟩⟩)

theorem ticked_orchestratorTurn (state : HeartbeatWorld × List String) (orchestratorId : String) :
    Ticked env state.1 (orchestratorTurn env state orchestratorId).1 := by
  rw [orchestratorTurn]
  split
  · exact .refl env state.1
  · next orchestrator hload =>
    split
    · exact .refl env state.1
    · next root hroot =>
      split
      · exact .refl env state.1
      · split
        · exact .refl env state.1
        · split
          · exact .refl env state.1
          · next workspace hworkspace =>
            exact .foldl (fun state agentId => ticked_agentTurn workspace state agentId hroot) _
              state

/-- **A tick**: what it leaves, writes and reports. -/
theorem ticked_tickHeartbeatWorker (env : TickEnv) (world : HeartbeatWorld) :
    Ticked env world (tickHeartbeatWorker env world).1 := by
  rw [tickHeartbeatWorker]
  split
  · exact .refl env world
  · exact .foldl ticked_orchestratorTurn _ (world, [])

end Tick

/-! ## Runs -/

section Run

variable {start : HeartbeatWorld} {events before : List HeartbeatEvent} {env : TickEnv}
  {heartbeat : Heartbeat}

/-- What the log and the record of heartbeats hold after a run. -/
structure Recorded (start : HeartbeatWorld) (events : List HeartbeatEvent) : Prop where
  times : ∀ heartbeat ∈ (run heartbeatStep start events).sent,
    heartbeat.tickAt ∈ tickTimes events
  matched : ∀ orchestratorId agentId messageId snippet,
    .matched orchestratorId agentId messageId snippet ∈ (run heartbeatStep start events).log →
      ∃ tickAt ∈ tickTimes events, messageId = heartbeatMessageId orchestratorId agentId tickAt
  reported : ∀ heartbeat ∈ (run heartbeatStep start events).sent,
    heartbeat.ReportedIn (run heartbeatStep start events).log ↔
      AnsweredBeforehand start events heartbeat

theorem run_concat (start : HeartbeatWorld) (events : List HeartbeatEvent) (e : HeartbeatEvent) :
    run heartbeatStep start (events ++ [e]) =
      heartbeatStep (run heartbeatStep start events) e := by
  rw [run_append, run_cons, run_nil]

theorem tickTimes_concat_tick :
    tickTimes (events ++ [.tick env]) = tickTimes events ++ [env.tickAt] := by
  rw [tickTimes, List.filterMap_append]
  rfl

theorem tickTimes_concat_processing (queues : String → HeartbeatQueues) :
    tickTimes (events ++ [.processing queues]) = tickTimes events := by
  rw [tickTimes, List.filterMap_append]
  exact List.append_nil _

theorem tick_mem_times {after : List HeartbeatEvent} (h : events = before ++ .tick env :: after) :
    env.tickAt ∈ tickTimes events := by
  rw [h, tickTimes, List.filterMap_append]
  exact List.mem_append_right _ List.mem_cons_self

/-- The last event is no tick of the heartbeat. -/
theorem answeredBeforehand_concat (e : HeartbeatEvent)
    (he : ∀ env, e = .tick env → env.tickAt ≠ heartbeat.tickAt) :
    AnsweredBeforehand start (events ++ [e]) heartbeat ↔
      AnsweredBeforehand start events heartbeat := by
  constructor
  · rintro ⟨before, env, after, hsplit, htime, hfound⟩
    rcases List.eq_nil_or_concat after with rfl | ⟨after, last, rfl⟩
    · obtain ⟨-, hlast⟩ := List.append_inj' hsplit rfl
      exact absurd htime (he env (List.singleton_inj.mp hlast))
    · rw [List.concat_eq_append, ← List.cons_append, ← List.append_assoc] at hsplit
      exact ⟨before, env, after, (List.append_inj' hsplit rfl).1, htime, hfound⟩
  · rintro ⟨before, env, after, rfl, htime, hfound⟩
    exact ⟨before, env, after ++ [e], by rw [List.append_assoc, List.cons_append], htime, hfound⟩

theorem answeredBeforehand_last (hnew : heartbeat.tickAt ∉ tickTimes events)
    (htime : heartbeat.tickAt = env.tickAt) :
    AnsweredBeforehand start (events ++ [.tick env]) heartbeat ↔
      heartbeat.FoundBy env (run heartbeatStep start events) := by
  constructor
  · rintro ⟨before, other, after, hsplit, hother, hfound⟩
    rcases List.eq_nil_or_concat after with rfl | ⟨after, last, rfl⟩
    · obtain ⟨rfl, hlast⟩ := List.append_inj' hsplit rfl
      obtain rfl := HeartbeatEvent.tick.inj (List.singleton_inj.mp hlast)
      exact hfound
    · rw [List.concat_eq_append, ← List.cons_append, ← List.append_assoc] at hsplit
      exact absurd (hother ▸ tick_mem_times (List.append_inj' hsplit rfl).1) hnew
  · exact fun hfound => ⟨events, env, [], rfl, htime.symm, hfound⟩

theorem recorded_tick (h : Recorded start events)
    (hlater : env.tickAt ∉ tickTimes events) : Recorded start (events ++ [.tick env]) := by
  have hticked := ticked_tickHeartbeatWorker env (run heartbeatStep start events)
  have hrun : run heartbeatStep start (events ++ [.tick env]) =
      (tickHeartbeatWorker env (run heartbeatStep start events)).1 := run_concat start events _
  rw [← hrun] at hticked
  refine ⟨fun heartbeat hsent => ?_, fun o a m s hline => ?_, fun heartbeat hsent => ?_⟩
  · rw [tickTimes_concat_tick, List.mem_append, List.mem_singleton]
    exact (hticked.written heartbeat hsent).imp (h.times heartbeat) fun hnew => hnew.1.1
  · rw [tickTimes_concat_tick]
    rcases hticked.matched o a m s hline with hline | ⟨heartbeat, htick, -, rfl, rfl, rfl⟩
    · obtain ⟨tickAt, hmem, hid⟩ := h.matched o a m s hline
      exact ⟨tickAt, List.mem_append_left _ hmem, hid⟩
    · exact ⟨heartbeat.tickAt, List.mem_append_right _ (List.mem_singleton.mpr htick.1), rfl⟩
  · rcases hticked.written heartbeat hsent with hold | ⟨htick, hreported⟩
    · -- lines of this tick bear another time
      have hother : env.tickAt ≠ heartbeat.tickAt := fun heq => hlater (heq ▸ h.times _ hold)
      rw [answeredBeforehand_concat _ fun _ heq => HeartbeatEvent.tick.inj heq ▸ hother,
        ← h.reported heartbeat hold]
      refine ⟨fun ⟨snippet, hline⟩ => ?_, fun hlog => hlog.mono hticked.log⟩
      rcases hticked.matched _ _ _ _ hline with hline | ⟨new, hnew, -, horch, hagent, hid⟩
      · exact ⟨snippet, hline⟩
      · rw [Heartbeat.messageId, Heartbeat.messageId, horch, hagent] at hid
        exact absurd (hnew.1.symm.trans (heartbeatMessageId_injective _ _ hid)) hother
    · have hnew : heartbeat.tickAt ∉ tickTimes events := htick.1 ▸ hlater
      rw [answeredBeforehand_last hnew htick.1]
      refine ⟨fun ⟨snippet, hline⟩ => ?_, hreported⟩
      rcases hticked.matched _ _ _ _ hline with hline | ⟨other, hother, hfound, horch, hagent, hid⟩
      · obtain ⟨tickAt, hmem, hid⟩ := h.matched _ _ _ _ hline
        exact absurd (heartbeatMessageId_injective _ _ hid ▸ hmem) hnew
      · -- the same orchestrator at the same tick: the same queue
        have hsame : other = heartbeat := by
          obtain ⟨o, a, t, r⟩ := other
          obtain ⟨o', a', t', r'⟩ := heartbeat
          obtain rfl : o = o' := horch
          obtain rfl : a = a' := hagent
          obtain rfl : t = t' := hother.1.trans htick.1.symm
          obtain rfl : r = r' := Except.ok.inj (hother.2.symm.trans htick.2)
          rfl
        exact hsame ▸ hfound

theorem recorded_processing (queues : String → HeartbeatQueues) (h : Recorded start events) :
    Recorded start (events ++ [.processing queues]) := by
  have hrun : run heartbeatStep start (events ++ [.processing queues]) =
      { run heartbeatStep start events with queues := queues } := run_concat start events _
  refine ⟨fun heartbeat hsent => ?_, fun o a m s hline => ?_, fun heartbeat hsent => ?_⟩
  · rw [tickTimes_concat_processing]
    exact h.times heartbeat (by rwa [hrun] at hsent)
  · rw [tickTimes_concat_processing]
    exact h.matched o a m s (by rwa [hrun] at hline)
  · rw [answeredBeforehand_concat _ fun _ => HeartbeatEvent.noConfusion, hrun]
    exact h.reported heartbeat (by rwa [hrun] at hsent)

/-- Only an answer that lies there beforehand is reported. -/
theorem recorded_run (hlog : start.log = []) (hsent : start.sent = [])
    (events : List HeartbeatEvent) (htimes : (tickTimes events).Pairwise (· < ·)) :
    Recorded start events := by
  induction events using List.reverseRecOn with
  | nil =>
    refine ⟨fun heartbeat h => ?_, fun o a m s h => ?_, fun heartbeat h => ?_⟩
    · rw [run_nil, hsent] at h
      cases h
    · rw [run_nil, hlog] at h
      cases h
    · rw [run_nil, hsent] at h
      cases h
  | append_singleton events e ih =>
    cases e with
    | tick env =>
      rw [tickTimes_concat_tick, List.pairwise_append] at htimes
      refine recorded_tick (ih htimes.1) fun hmem => ?_
      exact Int64.lt_irrefl (htimes.2.2 _ hmem _ (List.mem_singleton.mpr rfl))
    | processing queues =>
      rw [tickTimes_concat_processing] at htimes
      exact recorded_processing queues (ih htimes)

end Run

/-- For every run whose ticks are at increasing times: the replies are observed if and only if
every heartbeat that has a reply in the outgoing directory at some later tick had one before its
own tick began, which could list the directory. And no tick touches an outgoing file. -/
theorem repliesObserved_iff (start : HeartbeatWorld) (events : List HeartbeatEvent)
    (hlog : start.log = []) (hsent : start.sent = [])
    (htimes : (tickTimes events).Pairwise (· < ·)) :
    (RepliesObserved start events ↔
      ∀ before env after, events = before ++ .tick env :: after →
        ∀ heartbeat ∈ (run heartbeatStep start before).sent,
          heartbeat.AnsweredIn (run heartbeatStep start before) →
            AnsweredBeforehand start before heartbeat) ∧
    ∀ (env : TickEnv) (world : HeartbeatWorld) (root : String),
      ((tickHeartbeatWorker env world).1.queues root).outgoing = (world.queues root).outgoing := by
  refine ⟨forall₄_congr fun before env after hsplit => forall₃_congr fun heartbeat hmem _ => ?_,
    fun env world root => (ticked_tickHeartbeatWorker env world).outgoing root⟩
  have hthrough : events = (before ++ [.tick env]) ++ after := by
    rw [List.append_assoc]
    exact hsplit
  have hbefore : (tickTimes (before ++ [.tick env])).Pairwise (· < ·) := by
    rw [hthrough, tickTimes, List.filterMap_append] at htimes
    exact (List.pairwise_append.mp htimes).1
  have hrecorded := recorded_run hlog hsent (before ++ [.tick env]) hbefore
  rw [tickTimes_concat_tick, List.pairwise_append] at hbefore
  have hlater : env.tickAt ≠ heartbeat.tickAt := by
    intro heq
    have htime := (recorded_run hlog hsent before hbefore.1).times heartbeat hmem
    exact Int64.lt_irrefl (hbefore.2.2 _ (heq ▸ htime) _ (List.mem_singleton.mpr rfl))
  have hstill : heartbeat ∈ (run heartbeatStep start (before ++ [.tick env])).sent := by
    rw [run_concat]
    exact (ticked_tickHeartbeatWorker env _).sent hmem
  rw [hrecorded.reported heartbeat hstill]
  exact answeredBeforehand_concat _ fun _ heq => HeartbeatEvent.tick.inj heq ▸ hlater

/-! ### A reply between two ticks -/

def workerTick (nowSecs : Int64) : TickEnv where
  nowSecs := nowSecs
  settings := heartbeatSettings
  loadOrchestratorConfig _ := .ok
    { id := "eng", selectorAgent := "worker", defaultWorkflow := "flow",
      agents := [("worker", { model := "sonnet" })], workflows := [] }
  readToString _ := .ok (some "check the queue\n")

def workerReply : OutgoingMessage where
  channel := "heartbeat"
  sender := "heartbeat:eng"
  message := "all quiet"
  originalMessage := "check the queue"
  timestamp := 1
  messageId := "heartbeat-eng-worker-1"
  agent := "worker"
  conversationId := some "hb:eng:worker:1"

def repliedQueues (_root : String) : HeartbeatQueues where
  outgoing := (∅ : Directory).insert "heartbeat-eng-worker-1.json".toList
    { modified := 1, content := .json workerReply.encode }

def quietQueues : HeartbeatWorld where
  queues _ := {}

/-- A reply to the heartbeat of the first tick lies there before this tick. -/
def earlyReplyRun : List HeartbeatEvent :=
  [.processing repliedQueues, .tick (workerTick 1), .tick (workerTick 2)]

theorem early_reply_observed :
    RepliesObserved quietQueues earlyReplyRun ∧
      (run heartbeatStep quietQueues earlyReplyRun).log =
        [.matched "eng" "worker" "heartbeat-eng-worker-1" "all quiet",
          .missing "eng" "worker" "heartbeat-eng-worker-2"] := by
  refine ⟨?_, by decide⟩
  apply (repliesObserved_iff quietQueues earlyReplyRun rfl rfl (by decide)).1.mpr
  intro before env after hsplit heartbeat hmem hanswered
  have hname : "heartbeat-eng-worker-1.json".toList ∈
      sortedOutgoingPaths (repliedQueues "/ws/eng").outgoing := by
    decide
  match before, hsplit with
  | [], hsplit => cases hsplit
  | [_], hsplit =>
    cases hsplit
    exact absurd hmem List.not_mem_nil
  | [_, _], hsplit =>
    cases hsplit
    have hsent : (run heartbeatStep quietQueues
        [.processing repliedQueues, .tick (workerTick 1)]).sent =
          [⟨"eng", "worker", 1, "/ws/eng"⟩] := by
      decide
    rw [hsent] at hmem
    obtain rfl := List.mem_singleton.mp hmem
    exact ⟨[.processing repliedQueues], workerTick 1, [], rfl, rfl, ⟨_, hname, by decide⟩, rfl⟩
  | _ :: _ :: _ :: before, hsplit =>
    have hlength := congrArg List.length hsplit
    simp [earlyReplyRun] at hlength

/-- The reply to the first tick is there at the second one, which reports nothing. -/
theorem late_reply_unobserved :
    (tickTimes [.tick (workerTick 1), .processing repliedQueues, .tick (workerTick 2)]).Pairwise
        (· < ·) ∧
      ¬ RepliesObserved quietQueues
        [.tick (workerTick 1), .processing repliedQueues, .tick (workerTick 2)] := by
  refine ⟨by decide, fun h => ?_⟩
  have hsent : (⟨"eng", "worker", 1, "/ws/eng"⟩ : Heartbeat) ∈ (run heartbeatStep quietQueues
      [.tick (workerTick 1), .processing repliedQueues]).sent := by
    decide
  have hlog : (run heartbeatStep quietQueues
      [.tick (workerTick 1), .processing repliedQueues, .tick (workerTick 2)]).log =
        [.missing "eng" "worker" "heartbeat-eng-worker-1",
          .missing "eng" "worker" "heartbeat-eng-worker-2"] := by
    decide
  have hname : "heartbeat-eng-worker-1.json".toList ∈
      sortedOutgoingPaths (repliedQueues "/ws/eng").outgoing := by
    decide
  obtain ⟨snippet, hline⟩ := h [.tick (workerTick 1), .processing repliedQueues] (workerTick 2) []
    rfl _ hsent ⟨_, hname, by decide⟩
  rw [List.cons_append, List.cons_append, List.nil_append, hlog] at hline
  rcases List.mem_cons.mp hline with hline | hline
  · cases hline
  · cases List.mem_singleton.mp hline

end Direclaw.Runtime
