import Direclaw.Lib.Run

/-!
# The supervisor lock

`start`, in the foreground and detached, and the supervisor it leads to, as processes
that share the lock file and the state file: `runtime/ownership_lock.rs`,
`app/command_handlers/daemon.rs` and `run_supervisor`. A control point is named after the
operation that comes next, and each operation is one access to a file or to the process
table. An operation may fail. Process ids are given out once, and a process is alive
exactly while it is in the table.
-/

namespace Direclaw.Runtime

open Direclaw.Lib

inductive StartMode : Type where
  | foreground
  | detached
deriving DecidableEq, Repr

/-- `supervisor.lock`: whoever made the file that stands there now, and the pid in it. It
is empty between the `create_new` and the write of `reserve_start_lock`. -/
structure LockFile where
  creator : ℕ
  pid : Option ℕ
deriving DecidableEq, Repr

/-- What the ownership check reads of `supervisor.json`. -/
structure SupervisorState where
  running : Bool := false
  pid : Option ℕ := none
deriving DecidableEq, Repr

inductive StartControl : Type where
  /-- `supervisor_ownership_state`. -/
  | loadState (mode : StartMode)
  | probeState (mode : StartMode) (pid : ℕ)
  | readLock (mode : StartMode) (recorded : Bool)
  | probeLock (mode : StartMode) (pid : ℕ)
  /-- `cleanup_stale_supervisor`, with the pid that was found dead in the lock. -/
  | removeLock (mode : StartMode) (seen : Option ℕ)
  | resetState (mode : StartMode)
  /-- `reserve_start_lock`: `create_new`, then the own pid. -/
  | reserve (mode : StartMode)
  | fill (mode : StartMode)
  /-- `write_supervisor_lock_pid` in the foreground. -/
  | recordSelf
  | spawn
  /-- `write_supervisor_lock_pid` with the child's pid. -/
  | recordChild (child : ℕ)
  /-- `clear_start_lock` on the way out with an error. -/
  | abort (mode : StartMode)
  /-- `run_supervisor`: of a child with its parent, or in the foreground. -/
  | saveRunning (parent : Option ℕ)
  | supervise (parent : Option ℕ)
  | saveStopped (parent : Option ℕ)
  | clear (parent : Option ℕ)
deriving DecidableEq, Repr

structure Machine where
  procs : ℕ → Option StartControl
  next : ℕ
  lock : Option LockFile
  state : SupervisorState

namespace Machine

/-- `is_process_alive`. -/
def alive (m : Machine) (pid : ℕ) : Bool := pid != 0 && (m.procs pid).isSome

def goto (m : Machine) (pid : ℕ) (control : StartControl) : Machine :=
  { m with procs := fun p => if p = pid then some control else m.procs p }

def exit (m : Machine) (pid : ℕ) : Machine :=
  { m with procs := fun p => if p = pid then none else m.procs p }

/-- A new process. -/
def launch (m : Machine) (control : StartControl) : Machine :=
  { m.goto m.next control with next := m.next + 1 }

end Machine

def reserved : StartMode → StartControl
  | .foreground => .recordSelf
  | .detached => .spawn

/-- One operation of the process `pid`, which succeeds or fails. -/
def StartControl.advance (m : Machine) (pid : ℕ) (ok : Bool) : StartControl → Machine
  | .loadState mode =>
    if !ok then m.exit pid
    else
      match m.state.pid with
      | some recorded =>
        if m.state.running then m.goto pid (.probeState mode recorded)
        else m.goto pid (.readLock mode true)
      | none => m.goto pid (.readLock mode m.state.running)
  | .probeState mode recorded =>
    if m.alive recorded then m.exit pid else m.goto pid (.readLock mode true)
  | .readLock mode recorded =>
    if !ok then m.exit pid
    else
      match m.lock.bind (·.pid) with
      | some owner => m.goto pid (.probeLock mode owner)
      | none => if recorded then m.goto pid (.removeLock mode none) else m.goto pid (.reserve mode)
  | .probeLock mode owner =>
    if m.alive owner then m.exit pid else m.goto pid (.removeLock mode (some owner))
  | .removeLock mode _ => { m.goto pid (.resetState mode) with lock := if ok then none else m.lock }
  | .resetState mode =>
    if !ok then m.exit pid else { m.goto pid (.reserve mode) with state := {} }
  | .reserve mode =>
    if !ok || m.lock.isSome then m.exit pid
    else { m.goto pid (.fill mode) with lock := some { creator := pid, pid := none } }
  | .fill mode =>
    -- the write goes to the file that was created, if it still stands there
    if !ok then m.exit pid
    else
      { m.goto pid (reserved mode) with
        lock := m.lock.map fun lock =>
          if lock.creator = pid then { lock with pid := some pid } else lock }
  | .recordSelf =>
    if ok then { m.goto pid (.saveRunning none) with lock := some { creator := pid, pid := some pid } }
    else m.goto pid (.abort .foreground)
  | .spawn =>
    if ok then (m.goto pid (.recordChild m.next)).launch (.saveRunning (some pid))
    else m.goto pid (.abort .detached)
  | .recordChild child =>
    if ok then { m.exit pid with lock := some { creator := pid, pid := some child } }
    else m.goto pid (.abort .detached)
  | .abort _ => { m.exit pid with lock := if ok then none else m.lock }
  | .saveRunning parent =>
    if ok then
      { m.goto pid (.supervise parent) with state := { running := true, pid := some pid } }
    else
      match parent with
      | none => m.goto pid (.clear none)
      | some _ => m.exit pid
  | .supervise parent => m.goto pid (.saveStopped parent)
  | .saveStopped parent =>
    if ok then { m.goto pid (.clear parent) with state := {} }
    else
      match parent with
      | none => m.goto pid (.clear none)
      | some _ => m.exit pid
  | .clear _ => { m.exit pid with lock := if ok then none else m.lock }

inductive StartEvent : Type where
  | start (mode : StartMode)
  | op (pid : ℕ) (ok : Bool)
  | crash (pid : ℕ)

def startStep (m : Machine) : StartEvent → Machine
  | .start mode => m.launch (.loadState mode)
  | .op pid ok =>
    match m.procs pid with
    | some control => control.advance m pid ok
    | none => m
  | .crash pid => m.exit pid

/-- No process yet: the files are what earlier processes left, whose ids are not given
out again. -/
def machine (lock : Option LockFile) (state : SupervisorState) : Machine :=
  { procs := fun _ => none, next := ((lock.bind (·.pid)).getD 0) + 1, lock, state }

end Direclaw.Runtime
