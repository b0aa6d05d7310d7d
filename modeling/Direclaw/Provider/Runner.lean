import Direclaw.Lib.Run
import Direclaw.Provider.OutputParse

/-!
# Running a provider

`build_invocation` and `run_provider` of `provider/runner.rs`, with the process it starts
and the two pipes beside it. The process, and whoever holds its pipes, act at any time:
they write, close a pipe and end. Two threads read the pipes, and they are done when the
pipes are closed.
-/

namespace Direclaw.Provider

open Direclaw.Lib Direclaw.Orchestration

/-! ## Invocations -/

structure ProviderRequest where
  agentId : String
  provider : ProviderKind
  model : String
  cwd : String
  message : String
  promptFile : String
  contextFiles : List String
  timeoutMillis : ℕ
  resetRequested : Bool := false
  freshOnFailure : Bool := false

structure RunnerBinaries where
  anthropic : String := "claude"
  openai : String := "codex"

structure InvocationSpec where
  binary : String
  args : List String
  resolvedModel : String

def resolveAnthropicModel (model : String) : Except ProviderError String :=
  match Text.trimmed model with
  | "sonnet" | "claude-sonnet-4-5" => .ok "claude-sonnet-4-5"
  | "opus" | "claude-opus-4-6" => .ok "claude-opus-4-6"
  | "haiku" | "claude-haiku-4-5" => .ok "claude-haiku-4-5"
  | other => .error (.unsupportedAnthropicModel other)

/-- A session goes on unless a new one is asked for. -/
def ProviderRequest.continues (request : ProviderRequest) : Bool :=
  !request.resetRequested && !request.freshOnFailure

def buildInvocation (request : ProviderRequest) (binaries : RunnerBinaries) :
    Except ProviderError InvocationSpec :=
  match request.provider with
  | .anthropic => do
      let model ← resolveAnthropicModel request.model
      return {
        binary := binaries.anthropic
        args := ["--dangerously-skip-permissions", "--model", model] ++
          (if request.continues then ["-c"] else []) ++ ["-p", request.message]
        resolvedModel := model }
  | .openAi =>
    return {
      binary := binaries.openai
      args := ["exec"] ++ (if request.continues then ["resume", "--last"] else []) ++
        ["--model", request.model, "--skip-git-repo-check", "--full-auto", "--json",
          request.message]
      resolvedModel := request.model }

def baseLog (request : ProviderRequest) (spec : InvocationSpec) : InvocationLog where
  agentId := request.agentId
  provider := request.provider
  model := spec.resolvedModel
  commandForm := spec.binary ++ " " ++ " ".intercalate spec.args
  workingDirectory := request.cwd
  promptFile := request.promptFile
  contextFiles := request.contextFiles

/-! ## Processes and pipes -/

/-- A process that a signal ended has no code. -/
structure ExitStatus where
  code : Option ℤ
deriving DecidableEq, Repr

def ExitStatus.success (status : ExitStatus) : Bool := status.code == some 0

inductive Child : Type where
  | absent
  | running
  /-- Ended, and nobody has waited for it. -/
  | ended (status : ExitStatus)
  | reaped (status : ExitStatus)
deriving DecidableEq, Repr

inductive Stream : Type where
  | stdout
  | stderr
deriving DecidableEq, Repr

structure Pipe where
  bytes : List UInt8 := []
  closed : Bool := false
deriving DecidableEq

/-- `read_to_string` to the end; bytes that are no text leave the buffer empty. -/
def Pipe.text (pipe : Pipe) : String := (String.fromUTF8? ⟨pipe.bytes.toArray⟩).getD ""

def Pipe.write (pipe : Pipe) (bytes : List UInt8) : Pipe :=
  if pipe.closed then pipe else { pipe with bytes := pipe.bytes ++ bytes }

/-! ## The runner -/

inductive RunnerPhase : Type where
  | spawning (busyAttempts : ℕ)
  /-- In the loop around `try_wait`. -/
  | waiting
  /-- The process was killed and is waited for. -/
  | killed
  /-- The threads are joined, that of standard output first. -/
  | joining (timedOut : Bool) (status : ExitStatus) (stdoutDone : Bool)
  | returned (result : Except ProviderError ProviderResult)

structure ProviderRun where
  phase : RunnerPhase := .spawning 0
  child : Child := .absent
  stdout : Pipe := {}
  stderr : Pipe := {}
  /-- How often `spawn` was called. -/
  spawnCalls : ℕ := 0

inductive SpawnOutcome : Type where
  | started
  | notFound
  | busy (reason : String)
  | failed (reason : String)
deriving DecidableEq, Repr

inductive RunEvent : Type where
  | spawn (outcome : SpawnOutcome)
  /-- A turn of the loop; `late` when the timeout is over. -/
  | poll (late : Bool) (failure : Option String)
  | wait (failure : Option String)
  | join
  | exits (status : ExitStatus)
  | writes (stream : Stream) (bytes : List UInt8)
  /-- The last holder of the writing end closes it. -/
  | closes (stream : Stream)
deriving DecidableEq

def executableBusyMaxAttempts : ℕ := 50

def formatFailureDetail (stdout stderr : String) : String :=
  let stdout := Text.trimmed stdout
  let stderr := Text.trimmed stderr
  match stdout.isEmpty, stderr.isEmpty with
  | true, true => ""
  | true, false => stderr
  | false, true => stdout
  | false, false => s!"stderr:\n{stderr}\n\nstdout:\n{stdout}"

section Run

variable (json : JsonText) (request : ProviderRequest) (spec : InvocationSpec)

def parseMessage (stdout : String) : Except ProviderError String :=
  match request.provider with
  | .anthropic => parseAnthropicOutput stdout
  | .openAi => parseOpenaiJsonl json stdout

def attachLog (log : InvocationLog) : ProviderError → ProviderError
  | .parseFailure provider reason _ => .parseFailure provider reason (some log)
  | other => other

/-- What is made of a process that ended by itself. -/
def finishRun (status : ExitStatus) (stdout stderr : String) :
    Except ProviderError ProviderResult :=
  let log := { baseLog request spec with exitCode := status.code }
  if !status.success then
    .error (.nonZeroExit request.provider (status.code.getD (-1))
      (formatFailureDetail stdout stderr) log)
  else do
    let message ← (parseMessage json request stdout).mapError (attachLog log)
    return { message, log }

/-- What is made of a process that was killed. -/
def timeoutError (status : ExitStatus) : ProviderError :=
  .timeout request.provider (request.timeoutMillis % 2 ^ 64)
    { baseLog request spec with exitCode := status.code, timedOut := true }

def reportRun (s : ProviderRun) (timedOut : Bool) (status : ExitStatus) :
    Except ProviderError ProviderResult :=
  if timedOut then .error (timeoutError request spec status)
  else finishRun json request spec status s.stdout.text s.stderr.text

namespace ProviderRun

def returns (s : ProviderRun) (result : Except ProviderError ProviderResult) : ProviderRun :=
  { s with phase := .returned result }

def ioFailure (s : ProviderRun) (reason : String) : ProviderRun :=
  s.returns (.error (.io request.cwd reason))

def spawnStep (s : ProviderRun) (busyAttempts : ℕ) (outcome : SpawnOutcome) : ProviderRun :=
  let s := { s with spawnCalls := s.spawnCalls + 1 }
  match outcome with
  | .started => { s with phase := .waiting, child := .running }
  | .notFound =>
    s.returns (.error (.missingBinary request.provider spec.binary (baseLog request spec)))
  | .busy reason =>
    if executableBusyMaxAttempts ≤ busyAttempts + 1 then s.ioFailure request reason
    else { s with phase := .spawning (busyAttempts + 1) }
  | .failed reason => s.ioFailure request reason

/-- `try_wait`, and `kill` when the timeout is over. -/
def pollStep (s : ProviderRun) (late : Bool) (failure : Option String) : ProviderRun :=
  match failure, s.child with
  | some reason, _ => s.ioFailure request reason
  | none, .ended status =>
    { s with phase := .joining false status false, child := .reaped status }
  | none, _ => if late then { s with phase := .killed } else s

/-- `wait`, which blocks while the process runs. -/
def waitStep (s : ProviderRun) (failure : Option String) : ProviderRun :=
  match failure, s.child with
  | some reason, _ => s.ioFailure request reason
  | none, .ended status =>
    { s with phase := .joining true status false, child := .reaped status }
  | none, _ => s

/-- `join`, which blocks while the pipe is open. -/
def joinStep (s : ProviderRun) (timedOut : Bool) (status : ExitStatus) (stdoutDone : Bool) :
    ProviderRun :=
  if !stdoutDone then
    if s.stdout.closed then { s with phase := .joining timedOut status true } else s
  else if s.stderr.closed then s.returns (reportRun json request spec s timedOut status)
  else s

def onPipe (s : ProviderRun) (f : Pipe → Pipe) : Stream → ProviderRun
  | .stdout => { s with stdout := f s.stdout }
  | .stderr => { s with stderr := f s.stderr }

def step (s : ProviderRun) : RunEvent → ProviderRun
  | .spawn outcome =>
    match s.phase with
    | .spawning busyAttempts => s.spawnStep request spec busyAttempts outcome
    | _ => s
  | .poll late failure =>
    match s.phase with
    | .waiting => s.pollStep request late failure
    | _ => s
  | .wait failure =>
    match s.phase with
    | .killed => s.waitStep request failure
    | _ => s
  | .join =>
    match s.phase with
    | .joining timedOut status stdoutDone =>
      s.joinStep json request spec timedOut status stdoutDone
    | _ => s
  | .exits status => if s.child = .running then { s with child := .ended status } else s
  | .writes stream bytes => if s.child = .absent then s else s.onPipe (·.write bytes) stream
  | .closes stream => if s.child = .absent then s else s.onPipe ({ · with closed := true }) stream

end ProviderRun

end Run

/-- A provider call, with what happens meanwhile; `none` while it goes on. -/
def runProvider (json : JsonText) (request : ProviderRequest) (binaries : RunnerBinaries)
    (events : List RunEvent) : Option (Except ProviderError ProviderResult) :=
  match buildInvocation request binaries with
  | .error err => some (.error err)
  | .ok spec =>
    match (run (ProviderRun.step json request spec) {} events).phase with
    | .returned result => some result
    | _ => none

end Direclaw.Provider
