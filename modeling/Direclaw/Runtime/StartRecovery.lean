import Direclaw.Runtime.SingleSupervisor

/-!
# A start after a crash

Starts, supervisors and stop commands leave a lock file and a state file behind, wherever
they die. A later `start` reads the two, cleans up what it takes for stale and makes the
lock anew. The one pair of files that it cannot tell from a lock just being made is the
empty lock beside a blank state: nothing is stale then, nothing is cleaned up, and
`create_new` finds the file there.
-/

namespace Direclaw.Runtime

open Direclaw.Lib

/-- `stop_active_supervisor`, named after the operation that comes next. -/
inductive StopControl : Type where
  | loadState
  | probeState (pid : ℕ)
  | readLock (recorded : Bool)
  | probeLock (pid : ℕ)
  /-- `signal_stop`. -/
  | signal (pid : ℕ)
  /-- Waits for the process, which the signals may end, and looks whether it is gone. -/
  | await (pid : ℕ)
  /-- `cleanup_stale_supervisor`. -/
  | removeLock
  | resetState
deriving DecidableEq, Repr

/-- The starts and supervisors, the stop commands, and the pids in use by processes that
are neither (also a pid in a file that the system has given out again). -/
structure Daemon where
  machine : Machine
  stops : ℕ → Option StopControl := fun _ => none
  others : ℕ → Bool := fun _ => false

namespace Daemon

/-- `is_process_alive`. -/
def inUse (d : Daemon) (pid : ℕ) : Bool := d.machine.alive pid || (pid != 0 && d.others pid)

def stopAt (d : Daemon) (n : ℕ) (control : Option StopControl) : Daemon :=
  { d with stops := fun i => if i = n then control else d.stops i }

end Daemon

/-- The pid that the next operation of a start looks for. -/
def StartControl.probes : StartControl → Option ℕ
  | .probeState _ pid | .probeLock _ pid => some pid
  | _ => none

/-- One event of a start or a supervisor. A start that finds the pid of a file in use
ends with `supervisor already running`. -/
def Daemon.startEvent (d : Daemon) : StartEvent → Machine
  | .op pid ok =>
    if ((d.machine.procs pid).bind StartControl.probes).any d.inUse then d.machine.exit pid
    else startStep d.machine (.op pid ok)
  | event => startStep d.machine event

/-- One operation of the stop command `n`. -/
def StopControl.advance (d : Daemon) (n : ℕ) (ok : Bool) : StopControl → Daemon
  | .loadState =>
    if !ok then d.stopAt n none
    else
      match d.machine.state.pid with
      | some recorded =>
        if d.machine.state.running then d.stopAt n (some (.probeState recorded))
        else d.stopAt n (some (.readLock true))
      | none => d.stopAt n (some (.readLock d.machine.state.running))
  | .probeState recorded =>
    if d.inUse recorded then d.stopAt n (some (.signal recorded))
    else d.stopAt n (some (.readLock true))
  | .readLock recorded =>
    if !ok then d.stopAt n none
    else
      match d.machine.lock.bind (·.pid) with
      | some owner => d.stopAt n (some (.probeLock owner))
      | none => if recorded then d.stopAt n (some .removeLock) else d.stopAt n none
  | .probeLock owner =>
    if d.inUse owner then d.stopAt n (some (.signal owner)) else d.stopAt n (some .removeLock)
  | .signal pid => if ok then d.stopAt n (some (.await pid)) else d.stopAt n none
  | .await pid => if d.inUse pid then d.stopAt n none else d.stopAt n (some .removeLock)
  | .removeLock =>
    { d.stopAt n (some .resetState) with
      machine := { d.machine with lock := if ok then none else d.machine.lock } }
  | .resetState =>
    { d.stopAt n none with
      machine := { d.machine with state := if ok then {} else d.machine.state } }

inductive DaemonEvent : Type where
  | start (event : StartEvent)
  | stop (n : ℕ)
  | stopOp (n : ℕ) (ok : Bool)
  | stopCrash (n : ℕ)
  /-- Processes that are no part of this come and go. -/
  | others (pids : ℕ → Bool)

def daemonStep (d : Daemon) : DaemonEvent → Daemon
  | .start event => { d with machine := d.startEvent event }
  | .stop n => if (d.stops n).isSome then d else d.stopAt n (some .loadState)
  | .stopOp n ok =>
    match d.stops n with
    | some control => control.advance d n ok
    | none => d
  | .stopCrash n => d.stopAt n none
  | .others pids => { d with others := pids }

/-- Nothing has been started yet. -/
def Daemon.init : Daemon := { machine := Runtime.machine none {} }

/-! ## A start that runs alone -/

/-- No start, supervisor or stop command is there. -/
def Daemon.Idle (d : Daemon) : Prop := (∀ p, d.machine.procs p = none) ∧ ∀ n, d.stops n = none

/-- The start `pid` gets past `create_new` if nothing moves but itself and no operation of
it fails. -/
def Reserves (d : Daemon) (pid : ℕ) (mode : StartMode) : Prop :=
  ∃ k, (run daemonStep d (List.replicate k (.start (.op pid true)))).machine.procs pid =
    some (.fill mode)

/-- **A later start reserves the lock**, in the foreground and detached. -/
def StartRecovers (d : Daemon) : Prop :=
  d.Idle → ∀ mode, Reserves (daemonStep d (.start (.start mode))) d.machine.next mode

/-- A lock without a pid beside a state without one. -/
def Stuck (m : Machine) : Prop :=
  m.lock.isSome = true ∧ m.lockPid = none ∧ m.state.running = false ∧ m.state.pid = none

/-- A pid in the files is that of a process which is no part of this. -/
def Daemon.Recycled (d : Daemon) : Prop :=
  (d.machine.state.running = true ∧ ∃ pid, d.machine.state.pid = some pid ∧ d.inUse pid = true) ∨
    ∃ pid, d.machine.lockPid = some pid ∧ d.inUse pid = true

section Alone

variable {d : Daemon} {pid : ℕ} {mode : StartMode}

theorem reserves_step (d : Daemon) (pid : ℕ) (mode : StartMode) :
    Reserves d pid mode ↔ d.machine.procs pid = some (.fill mode) ∨
      Reserves (daemonStep d (.start (.op pid true))) pid mode := by
  constructor
  · rintro ⟨k, hk⟩
    cases k with
    | zero => exact .inl hk
    | succ k => exact .inr ⟨k, hk⟩
  · rintro (h | ⟨k, hk⟩)
    · exact ⟨0, h⟩
    · exact ⟨k + 1, hk⟩

/-- A start that is out stays out. -/
theorem not_reserves_of_out (h : d.machine.procs pid = none) : ¬ Reserves d pid mode := by
  rintro ⟨k, hk⟩
  have hout : (run daemonStep d (List.replicate k (.start (.op pid true)))).machine.procs pid =
      none := by
    clear hk
    induction k generalizing d with
    | zero => exact h
    | succ k ih =>
      refine ih ?_
      show (d.startEvent (.op pid true)).procs pid = none
      simp only [Daemon.startEvent, h, startStep, Option.bind_none, Option.any_none,
        Bool.false_eq_true, if_false]
  rw [hout] at hk
  cases hk

/-- One operation of a start that looks for no pid in use. -/
theorem reserves_advance {control : StartControl} (hpid : d.machine.procs pid = some control)
    (hfill : control ≠ .fill mode) (hfree : control.probes.any d.inUse = false) :
    Reserves d pid mode ↔
      Reserves { d with machine := control.advance d.machine pid true } pid mode := by
  have hstep : daemonStep d (.start (.op pid true)) =
      { d with machine := control.advance d.machine pid true } := by
    simp only [daemonStep, Daemon.startEvent, hpid, Option.bind_some, hfree, startStep,
      Bool.false_eq_true, if_false]
  rw [reserves_step, hstep, hpid]
  simp [hfill]

theorem inUse_goto {before : StartControl} (hpid : d.machine.procs pid = some before)
    (control : StartControl) (q : ℕ) :
    Daemon.inUse { d with machine := d.machine.goto pid control } q = d.inUse q := by
  have hsome : ((d.machine.goto pid control).procs q).isSome = (d.machine.procs q).isSome := by
    rw [Machine.goto_procs]
    split
    · next heq => rw [heq, hpid]; rfl
    · rfl
  show ((q != 0 && ((d.machine.goto pid control).procs q).isSome) || (q != 0 && d.others q)) = _
  rw [hsome]
  rfl

theorem reserves_reserve (hpid : d.machine.procs pid = some (.reserve mode)) :
    Reserves d pid mode ↔ d.machine.lock = none := by
  rw [reserves_advance hpid (by simp) rfl]
  cases hlock : d.machine.lock with
  | none =>
    refine iff_of_true ⟨0, ?_⟩ rfl
    simp [StartControl.advance, hlock, Machine.goto_procs]
  | some lock =>
    refine iff_of_false (not_reserves_of_out ?_) (by simp)
    simp [StartControl.advance, hlock, Machine.exit_procs]

/-- A cleanup leaves nothing in the way of `create_new`. -/
theorem reserves_removeLock {seen : Option ℕ}
    (hpid : d.machine.procs pid = some (.removeLock mode seen)) : Reserves d pid mode := by
  rw [reserves_advance hpid (by simp) rfl]
  have hreset : (StartControl.advance d.machine pid true (.removeLock mode seen)).procs pid =
      some (.resetState mode) := if_pos rfl
  rw [reserves_advance hreset (by simp) rfl]
  exact (reserves_reserve (if_pos rfl)).mpr rfl

theorem reserves_probeLock {owner : ℕ} (hpid : d.machine.procs pid = some (.probeLock mode owner)) :
    Reserves d pid mode ↔ d.inUse owner = false := by
  cases huse : d.inUse owner with
  | true =>
    refine iff_of_false ?_ (by simp)
    rw [reserves_step, hpid]
    simp only [Option.some.injEq, reduceCtorEq, false_or]
    refine not_reserves_of_out ?_
    show (d.startEvent (.op pid true)).procs pid = none
    simp [Daemon.startEvent, hpid, StartControl.probes, huse, Machine.exit_procs]
  | false =>
    refine iff_of_true ?_ rfl
    rw [reserves_advance hpid (by simp) (by simp [StartControl.probes, huse])]
    have halive : d.machine.alive owner = false := (Bool.or_eq_false_iff.mp huse).1
    have hnext : (StartControl.advance d.machine pid true (.probeLock mode owner)).procs pid =
        some (.removeLock mode (some owner)) := by
      simp [StartControl.advance, halive, Machine.goto_procs]
    exact reserves_removeLock hnext

theorem reserves_readLock (recorded : Bool)
    (hpid : d.machine.procs pid = some (.readLock mode recorded)) :
    Reserves d pid mode ↔ match d.machine.lockPid with
      | some owner => d.inUse owner = false
      | none => recorded = true ∨ d.machine.lock = none := by
  rw [reserves_advance hpid (by simp) rfl]
  cases howner : d.machine.lockPid with
  | some owner =>
    have hnext : StartControl.advance d.machine pid true (.readLock mode recorded) =
        d.machine.goto pid (.probeLock mode owner) := by
      have hbind : d.machine.lock.bind (·.pid) = some owner := howner
      simp [StartControl.advance, hbind]
    rw [hnext, reserves_probeLock (if_pos rfl), inUse_goto hpid]
  | none =>
    have hnext : StartControl.advance d.machine pid true (.readLock mode recorded) =
        d.machine.goto pid (if recorded then .removeLock mode none else .reserve mode) := by
      have hbind : d.machine.lock.bind (·.pid) = none := howner
      cases recorded <;> simp [StartControl.advance, hbind]
    rw [hnext]
    cases recorded with
    | true => exact iff_of_true (reserves_removeLock (if_pos rfl)) (.inl rfl)
    | false =>
      rw [reserves_reserve (if_pos rfl)]
      simp [Machine.goto]

theorem reserves_probeState {recorded : ℕ}
    (hpid : d.machine.procs pid = some (.probeState mode recorded)) :
    Reserves d pid mode ↔ d.inUse recorded = false ∧
      ∀ owner, d.machine.lockPid = some owner → d.inUse owner = false := by
  cases huse : d.inUse recorded with
  | true =>
    refine iff_of_false ?_ (by simp)
    rw [reserves_step, hpid]
    simp only [Option.some.injEq, reduceCtorEq, false_or]
    refine not_reserves_of_out ?_
    show (d.startEvent (.op pid true)).procs pid = none
    simp [Daemon.startEvent, hpid, StartControl.probes, huse, Machine.exit_procs]
  | false =>
    rw [reserves_advance hpid (by simp) (by simp [StartControl.probes, huse])]
    have halive : d.machine.alive recorded = false := (Bool.or_eq_false_iff.mp huse).1
    have hnext : StartControl.advance d.machine pid true (.probeState mode recorded) =
        d.machine.goto pid (.readLock mode true) := by
      simp [StartControl.advance, halive]
    rw [hnext, reserves_readLock true (if_pos rfl)]
    have hlock : (d.machine.goto pid (.readLock mode true)).lockPid = d.machine.lockPid := rfl
    rw [hlock]
    cases howner : d.machine.lockPid with
    | some owner => simp [inUse_goto hpid]
    | none => simp

theorem reserves_loadState (hpid : d.machine.procs pid = some (.loadState mode)) :
    Reserves d pid mode ↔ ¬ Stuck d.machine ∧ ¬ d.Recycled := by
  rw [reserves_advance hpid (by simp) rfl]
  cases hrecorded : d.machine.state.pid with
  | some recorded =>
    cases hrunning : d.machine.state.running with
    | true =>
      have hnext : StartControl.advance d.machine pid true (.loadState mode) =
          d.machine.goto pid (.probeState mode recorded) := by
        simp [StartControl.advance, hrecorded, hrunning]
      rw [hnext, reserves_probeState (if_pos rfl)]
      simp only [inUse_goto hpid]
      have hlock : (d.machine.goto pid (.probeState mode recorded)).lockPid =
          d.machine.lockPid := rfl
      rw [hlock]
      simp [Stuck, Daemon.Recycled, hrecorded, hrunning]
    | false =>
      have hnext : StartControl.advance d.machine pid true (.loadState mode) =
          d.machine.goto pid (.readLock mode true) := by
        simp [StartControl.advance, hrecorded, hrunning]
      rw [hnext, reserves_readLock true (if_pos rfl)]
      have hlock : (d.machine.goto pid (.readLock mode true)).lockPid = d.machine.lockPid := rfl
      rw [hlock]
      cases howner : d.machine.lockPid with
      | some owner => simp [Stuck, Daemon.Recycled, hrecorded, hrunning, howner, inUse_goto hpid]
      | none => simp [Stuck, Daemon.Recycled, hrecorded, hrunning, howner]
  | none =>
    have hnext : StartControl.advance d.machine pid true (.loadState mode) =
        d.machine.goto pid (.readLock mode d.machine.state.running) := by
      simp [StartControl.advance, hrecorded]
    rw [hnext, reserves_readLock _ (if_pos rfl)]
    have hlock : (d.machine.goto pid (.readLock mode d.machine.state.running)).lockPid =
        d.machine.lockPid := rfl
    rw [hlock]
    cases howner : d.machine.lockPid with
    | some owner => simp [Stuck, Daemon.Recycled, hrecorded, howner, inUse_goto hpid]
    | none =>
      cases hrunning : d.machine.state.running with
      | true => simp [Stuck, Daemon.Recycled, hrecorded, howner, hrunning]
      | false =>
        cases hlock : d.machine.lock <;>
          simp [Stuck, Daemon.Recycled, Machine.goto, hrecorded, howner, hrunning, hlock]

end Alone

/-! ## What a crash leaves -/

/-- The lock stands there as `pid` has created it, and its pid is not in it yet. -/
def Machine.leavesEmpty (m : Machine) (pid : ℕ) : Bool :=
  (match m.procs pid with
    | some (.fill _) => true
    | _ => false) && m.lock.any (·.creator == pid)

/-- A start does not end, by a crash or by a write that fails, between the creation of its
lock and the write of its pid. -/
def StartSurvives (d : Daemon) : DaemonEvent → Prop
  | .start (.op pid ok) => (ok || !d.machine.leavesEmpty pid) = true
  | .start (.crash pid) => d.machine.leavesEmpty pid = false
  | _ => True

instance (d : Daemon) : (event : DaemonEvent) → Decidable (StartSurvives d event)
  | .start (.op pid ok) =>
    inferInstanceAs (Decidable ((ok || !d.machine.leavesEmpty pid) = true))
  | .start (.crash pid) => inferInstanceAs (Decidable (d.machine.leavesEmpty pid = false))
  | .start (.start _) | .stop _ | .stopOp _ _ | .stopCrash _ | .others _ =>
    inferInstanceAs (Decidable True)

/-- An empty lock is one that is just being made. -/
def Filling (m : Machine) : Prop :=
  ∀ lock, m.lock = some lock → lock.pid = none → ∃ mode, m.procs lock.creator = some (.fill mode)

/-- The files name no process that has not been yet. -/
structure Known (m : Machine) : Prop where
  sane : Sane m
  state : ∀ pid, m.state.pid = some pid → pid < m.next

section Steps

variable {m : Machine} {pid : ℕ}

theorem Filling.unlocked {m : Machine} (h : m.lock = none) : Filling m := by
  intro lock hlock
  rw [h] at hlock
  cases hlock

theorem Filling.named {m : Machine} {lock : LockFile} {q : ℕ} (h : m.lock = some lock)
    (hpid : lock.pid = some q) : Filling m := by
  intro found hlock hempty
  rw [h] at hlock
  cases hlock
  rw [hpid] at hempty
  cases hempty

/-- Only `pid` moves, and it leaves no empty lock. -/
theorem Filling.frame (h : Filling m) {m' : Machine} (hlock : m'.lock = m.lock)
    (hprocs : ∀ q, q ≠ pid → m'.procs q = m.procs q) (hleaves : m.leavesEmpty pid = false) :
    Filling m' := by
  intro lock hfound hempty
  rw [hlock] at hfound
  obtain ⟨mode, hmode⟩ := h lock hfound hempty
  refine ⟨mode, ?_⟩
  rw [hprocs, hmode]
  rintro rfl
  simp [Machine.leavesEmpty, hmode, hfound] at hleaves

theorem Filling.exit (h : Filling m) (hleaves : m.leavesEmpty pid = false) :
    Filling (m.exit pid) :=
  h.frame rfl (fun _ hq => if_neg hq) hleaves

theorem Filling.goto (h : Filling m) (hleaves : m.leavesEmpty pid = false) (control : StartControl)
    (state : SupervisorState) : Filling { m.goto pid control with state := state } :=
  h.frame rfl (fun _ hq => if_neg hq) hleaves

theorem Filling.removed (h : Filling m) {m' : Machine} {ok : Bool}
    (hlock : m'.lock = if ok then none else m.lock)
    (hprocs : ∀ q, q ≠ pid → m'.procs q = m.procs q) (hleaves : m.leavesEmpty pid = false) :
    Filling m' := by
  cases ok with
  | true => exact .unlocked hlock
  | false => exact h.frame hlock hprocs hleaves

theorem leavesEmpty_of_control {control : StartControl} (hpid : m.procs pid = some control)
    (hfill : ∀ mode, control ≠ .fill mode) : m.leavesEmpty pid = false := by
  rw [Machine.leavesEmpty, hpid]
  cases control <;> first | rfl | exact absurd rfl (hfill _)

theorem Filling.keepsLock (h : Filling m) {control : StartControl}
    (hpid : m.procs pid = some control) (hkeeps : control.keepsLock = true) (ok : Bool) :
    Filling (control.advance m pid ok) := by
  have hleaves : m.leavesEmpty pid = false := by
    refine leavesEmpty_of_control hpid ?_
    rintro mode rfl
    cases hkeeps
  rcases StartControl.advance_of_keepsLock hkeeps m pid ok with hexit | ⟨next, state, -, hgoto⟩
  · rw [hexit]
    exact h.exit hleaves
  · rw [hgoto]
    exact h.goto hleaves next state

theorem Filling.op (h : Filling m) (hsane : Sane m) {control : StartControl}
    (hpid : m.procs pid = some control) {ok : Bool}
    (hsafe : (ok || !m.leavesEmpty pid) = true) : Filling (control.advance m pid ok) := by
  have hstays : (∀ mode, control ≠ .fill mode) → m.leavesEmpty pid = false :=
    leavesEmpty_of_control hpid
  cases control with
  | loadState | probeState | readLock | probeLock | resetState | saveRunning | supervise
  | saveStopped => exact h.keepsLock hpid rfl ok
  | removeLock mode seen =>
    exact h.removed rfl (fun _ hq => if_neg hq) (hstays (by simp))
  | reserve mode =>
    simp only [StartControl.advance]
    split
    · exact h.exit (hstays (by simp))
    · rintro lock ⟨⟩ -
      exact ⟨mode, if_pos rfl⟩
  | fill mode =>
    cases ok with
    | false =>
      exact h.exit (by simpa using hsafe)
    | true =>
      -- only a file that another starter has made can still be empty
      intro lock hlock hempty
      obtain ⟨file, hfile, hfilled⟩ := Option.map_eq_some_iff.mp hlock
      split at hfilled
      · rw [← hfilled] at hempty
        cases hempty
      · next hne =>
          rw [← hfilled] at hempty ⊢
          obtain ⟨mode', hmode'⟩ := h file hfile hempty
          exact ⟨mode', (if_neg hne).trans hmode'⟩
  | recordSelf =>
    simp only [StartControl.advance]
    split
    · exact .named rfl rfl
    · exact h.goto (hstays (by simp)) _ _
  | spawn =>
    simp only [StartControl.advance]
    split
    · -- the one that fills the file is neither the child nor its parent
      intro lock hlock hempty
      obtain ⟨mode, hmode⟩ := h lock hlock hempty
      refine ⟨mode, ?_⟩
      rw [Machine.launch_procs, if_neg]
      · rw [Machine.goto_procs, if_neg, hmode]
        intro heq
        rw [heq, hpid] at hmode
        cases hmode
      · exact Nat.ne_of_lt (hsane.ids _ _ hmode).2
    · exact h.goto (hstays (by simp)) _ _
  | recordChild child =>
    simp only [StartControl.advance]
    split
    · exact .named rfl rfl
    · exact h.goto (hstays (by simp)) _ _
  | abort mode =>
    exact h.removed rfl (fun _ hq => if_neg hq) (hstays (by simp))
  | clear parent =>
    exact h.removed rfl (fun _ hq => if_neg hq) (hstays (by simp))

theorem Known.op (h : Known m) {control : StartControl} (hpid : m.procs pid = some control)
    (ok : Bool) : Known (control.advance m pid ok) := by
  refine ⟨h.sane.op hpid ok, ?_⟩
  have hstate := h.state
  have hlt := (h.sane.ids pid control hpid).2
  cases control <;> simp only [StartControl.advance] <;> repeat' split
  all_goals first
    | exact hstate
    | exact fun q hq => Nat.lt_succ_of_lt (hstate q hq)
    | (intro q hq; cases hq; done)
    | (intro q hq; cases hq; exact hlt)

end Steps

section Events

variable {d : Daemon}

theorem known_startEvent (h : Known d.machine) (event : StartEvent) :
    Known (d.startEvent event) := by
  cases event with
  | start mode => exact ⟨h.sane.launch rfl, fun q hq => Nat.lt_succ_of_lt (h.state q hq)⟩
  | op pid ok =>
    rw [Daemon.startEvent]
    split
    · exact ⟨h.sane.exit pid _ h.sane.lock, h.state⟩
    · cases hpid : d.machine.procs pid with
      | none => simpa only [startStep, hpid] using h
      | some control => simpa only [startStep, hpid] using h.op hpid ok
  | crash pid => exact ⟨h.sane.exit pid _ h.sane.lock, h.state⟩

theorem filling_startEvent (hknown : Known d.machine) (h : Filling d.machine) {event : StartEvent}
    (hsafe : StartSurvives d (.start event)) : Filling (d.startEvent event) := by
  cases event with
  | start mode =>
    intro lock hlock hempty
    obtain ⟨before, hbefore⟩ := h lock hlock hempty
    refine ⟨before, ?_⟩
    show (d.machine.launch (.loadState mode)).procs lock.creator = _
    rw [Machine.launch_procs, if_neg (Nat.ne_of_lt (hknown.sane.ids _ _ hbefore).2), hbefore]
  | op pid ok =>
    rw [Daemon.startEvent]
    split
    · next hprobes =>
        refine h.exit ?_
        cases hpid : d.machine.procs pid with
        | none => simp [Machine.leavesEmpty, hpid]
        | some control =>
          refine leavesEmpty_of_control hpid ?_
          rintro mode rfl
          simp [hpid, StartControl.probes] at hprobes
    · cases hpid : d.machine.procs pid with
      | none => simpa only [startStep, hpid] using h
      | some control => simpa only [startStep, hpid] using h.op hknown.sane hpid hsafe
  | crash pid => exact h.exit hsafe

/-- A stop command takes the lock away or blanks the state, or leaves both. -/
theorem stopControl_advance (control : StopControl) (n : ℕ) (ok : Bool) :
    (control.advance d n ok).machine = d.machine ∨
      (control.advance d n ok).machine = { d.machine with lock := none } ∨
      (control.advance d n ok).machine = { d.machine with state := {} } := by
  cases control with
  | removeLock =>
    cases ok with
    | true => exact .inr (.inl rfl)
    | false => exact .inl rfl
  | resetState =>
    cases ok with
    | true => exact .inr (.inr rfl)
    | false => exact .inl rfl
  | loadState | probeState | readLock | probeLock | signal | await =>
    simp only [StopControl.advance]
    repeat' split
    all_goals exact .inl rfl

theorem known_daemonStep (h : Known d.machine) (event : DaemonEvent) :
    Known (daemonStep d event).machine := by
  cases event with
  | start event => exact known_startEvent h event
  | stop n =>
    simp only [daemonStep]
    split <;> exact h
  | stopOp n ok =>
    simp only [daemonStep]
    split
    · next control _ =>
        have hsane := h.sane
        rcases stopControl_advance (d := d) control n ok with heq | heq | heq <;> rw [heq]
        · exact h
        · exact ⟨⟨hsane.ids, nofun, hsane.mentioned, hsane.dead, hsane.next⟩, h.state⟩
        · exact ⟨⟨hsane.ids, hsane.lock, hsane.mentioned, hsane.dead, hsane.next⟩, nofun⟩
    · exact h
  | stopCrash n => exact h
  | others pids => exact h

theorem filling_daemonStep (hknown : Known d.machine) (h : Filling d.machine)
    {event : DaemonEvent} (hsafe : StartSurvives d event) :
    Filling (daemonStep d event).machine := by
  cases event with
  | start event => exact filling_startEvent hknown h hsafe
  | stop n =>
    simp only [daemonStep]
    split <;> exact h
  | stopOp n ok =>
    simp only [daemonStep]
    split
    · next control _ =>
        rcases stopControl_advance (d := d) control n ok with heq | heq | heq <;> rw [heq]
        · exact h
        · exact .unlocked rfl
        · exact h
    · exact h
  | stopCrash n => exact h
  | others pids => exact h

end Events

theorem known_init : Known Daemon.init.machine :=
  ⟨⟨nofun, nofun, nofun, nofun, Nat.succ_pos _⟩, nofun⟩

theorem known_run (events : List DaemonEvent) :
    Known (run daemonStep Daemon.init events).machine :=
  @run_invariant' _ _ daemonStep (fun d => Known d.machine)
    (fun _ event h => known_daemonStep h event) _ events known_init

theorem filling_run {events : List DaemonEvent}
    (hsafe : Meets daemonStep StartSurvives Daemon.init events) :
    Filling (run daemonStep Daemon.init events).machine := by
  have hboth : Known (run daemonStep Daemon.init events).machine ∧
      Filling (run daemonStep Daemon.init events).machine :=
    run_invariant (I := fun d => Known d.machine ∧ Filling d.machine)
      (fun _ event h hok => ⟨known_daemonStep h.1 event, filling_daemonStep h.1 h.2 hok⟩)
      ⟨known_init, .unlocked rfl⟩ hsafe
  exact hboth.2

/-! ## Every crash point -/

section Reached

variable {d : Daemon}

/-- The start that is launched now finds the same pids in use, and its own. -/
theorem recycled_launch (h : Known d.machine) (mode : StartMode) :
    (daemonStep d (.start (.start mode))).Recycled ↔ d.Recycled := by
  have huse : ∀ q, q < d.machine.next →
      (daemonStep d (.start (.start mode))).inUse q = d.inUse q := by
    intro q hq
    show ((q != 0 && ((d.machine.launch (.loadState mode)).procs q).isSome) || _) = _
    rw [Machine.launch_procs, if_neg (Nat.ne_of_lt hq)]
    rfl
  refine or_congr (and_congr_right fun _ => exists_congr fun q => and_congr_right fun hq => ?_)
    (exists_congr fun q => and_congr_right fun hq => ?_)
  · rw [huse q (h.state q hq)]
  · rw [huse q (h.sane.lock q hq)]

/-- What keeps a start that runs alone from reserving the lock: the lock without a pid
beside a blank state, and a recorded pid in use. -/
theorem startRecovers_iff (h : Known d.machine) (hidle : d.Idle) :
    StartRecovers d ↔ ¬ Stuck d.machine ∧ ¬ d.Recycled := by
  have hone : ∀ mode, Reserves (daemonStep d (.start (.start mode))) d.machine.next mode ↔
      ¬ Stuck d.machine ∧ ¬ d.Recycled := by
    intro mode
    rw [reserves_loadState (if_pos rfl), recycled_launch h mode]
    rfl
  constructor
  · intro hrecovers
    exact (hone .foreground).mp (hrecovers hidle .foreground)
  · intro hfree _ mode
    exact (hone mode).mpr hfree

theorem Filling.not_stuck {m : Machine} (h : Filling m) (hdead : ∀ p, m.procs p = none) :
    ¬ Stuck m := by
  rintro ⟨hsome, hempty, -⟩
  obtain ⟨lock, hlock⟩ := Option.isSome_iff_exists.mp hsome
  rw [Machine.lockPid, hlock] at hempty
  obtain ⟨before, hbefore⟩ := h lock hlock hempty
  rw [hdead] at hbefore
  cases hbefore

end Reached

/-- Wherever earlier starts, supervisors and stop commands have died, a later start that
runs alone reserves the lock, if and only if no pid in the files is in use again. -/
theorem start_recovers {events : List DaemonEvent}
    (hsafe : Meets daemonStep StartSurvives Daemon.init events)
    (hidle : (run daemonStep Daemon.init events).Idle) :
    StartRecovers (run daemonStep Daemon.init events) ↔
      ¬ (run daemonStep Daemon.init events).Recycled := by
  rw [startRecovers_iff (known_run events) hidle]
  exact and_iff_right ((filling_run hsafe).not_stuck hidle.1)

/-! ## One start that dies -/

/-- A start in the foreground of which the first `n` operations are done when it dies. -/
def diesAfter (n : ℕ) : List DaemonEvent :=
  .start (.start .foreground) :: List.replicate n (.start (.op 1 true)) ++ [.start (.crash 1)]

theorem idle_of_one (events : List DaemonEvent)
    (hnext : (run daemonStep Daemon.init events).machine.next = 2)
    (hdead : (run daemonStep Daemon.init events).machine.procs 1 = none)
    (hstops : ∀ n, (run daemonStep Daemon.init events).stops n = none) :
    (run daemonStep Daemon.init events).Idle := by
  refine ⟨fun p => ?_, hstops⟩
  cases hp : (run daemonStep Daemon.init events).machine.procs p with
  | none => rfl
  | some control =>
    obtain ⟨hpos, hlt⟩ := (known_run events).sane.ids p control hp
    obtain rfl : p = 1 := by omega
    rw [hdead] at hp
    cases hp

/-- The supervisor has died: its pid is in both files. -/
theorem start_recovers_supervisor_died :
    (run daemonStep Daemon.init (diesAfter 6)).machine.state = { running := true, pid := some 1 } ∧
      StartRecovers (run daemonStep Daemon.init (diesAfter 6)) := by
  have hidle := idle_of_one (diesAfter 6) (by decide) (by decide) (fun _ => rfl)
  refine ⟨by decide, (start_recovers (by decide) hidle).mpr ?_⟩
  rintro (⟨-, pid, hpid, huse⟩ | ⟨pid, hpid, huse⟩)
  · cases hpid
    cases huse
  · cases hpid
    cases huse

/-- The lock is there and its pid is not: every later start finds nothing to clean up. -/
theorem start_stuck : ¬ StartRecovers (run daemonStep Daemon.init (diesAfter 3)) := by
  have hidle := idle_of_one (diesAfter 3) (by decide) (by decide) (fun _ => rfl)
  rw [startRecovers_iff (known_run _) hidle]
  rintro ⟨hstuck, -⟩
  exact hstuck ⟨rfl, rfl, rfl, rfl⟩

end Direclaw.Runtime
