import Direclaw.Lib.Replacing
import Direclaw.Runtime.Supervision

/-!
# The state file

`atomic_write_file` (`shared/fs_atomic.rs`) in the daemon directory, under
`save_supervisor_state`, `load_supervisor_state` (`runtime/supervisor.rs`) and
`write_supervisor_lock_pid` (`runtime/ownership_lock.rs`). Any number of processes save at
any time, any of their operations may fail, processes are killed and the power goes.
-/

namespace Direclaw.Runtime.Health

open Direclaw.Lib

/-! ## Names -/

/-- The name `atomic_write_file` writes under, for a file name that is UTF-8 or not. -/
def tmpName (fileName : Option String) (pid nanos : ℕ) : String :=
  "." ++ fileName.getD "state" ++ ".tmp-" ++ toString pid ++ "-" ++ toString nanos

def isTmpName (name : String) : Bool := name.toList.head? == some '.'

/-- `supervisor_state_path`, `supervisor_lock_path` and `stop_signal_path`. -/
inductive DaemonFile : Type where
  | state
  | lock
  | stop
deriving DecidableEq, Repr

def DaemonFile.fileName : DaemonFile → String
  | .state => "runtime.json"
  | .lock => "supervisor.lock"
  | .stop => "stop"

theorem isTmpName_tmpName (fileName : Option String) (pid nanos : ℕ) :
    isTmpName (tmpName fileName pid nanos) = true := by
  simp only [isTmpName, tmpName, String.toList_append]
  rfl

theorem isTmpName_fileName (file : DaemonFile) : isTmpName file.fileName = false := by
  cases file <;> decide

/-! ## The daemon directory -/

/-- A call of `atomic_write_file` in the daemon directory. -/
def atomicWriteFile (file : DaemonFile) (pid nanos : ℕ) (content : List UInt8) :
    ReplaceEvent String UInt8 :=
  .begin file.fileName (tmpName (some file.fileName) pid nanos) content

inductive DaemonEvent : Type where
  | saveSupervisorState (state : SupervisorState) (pid nanos : ℕ)
  | writeSupervisorLockPid (lockPid pid nanos : ℕ)
  /-- The next operation of a call. -/
  | op (call : ℕ) (ok : Bool) (count : ℕ)
  | kill (call : ℕ)
  /-- `reserve_start_lock`, `clear_start_lock`, `signal_stop` and the removal of the stop
  file: what they leave of the other files. -/
  | lockFile (content : Option (List UInt8))
  | stopFile (content : Option (List UInt8))
  | powerLoss (pick : String → ℕ) (left : ℕ → List UInt8)

/-- `to_string` as bytes. -/
def pidBytes (pid : ℕ) : List UInt8 := (toString pid).toUTF8.toList

section Directory

variable (encode : SupervisorState → List UInt8) (decode : List UInt8 → Option SupervisorState)

/-- The file is written over or removed, not by `atomic_write_file`. -/
def overwrite (file : DaemonFile) : Option (List UInt8) → ReplaceEvent String UInt8
  | some content => .put file.fileName content
  | none => .remove file.fileName

def DaemonEvent.replace : DaemonEvent → ReplaceEvent String UInt8
  | .saveSupervisorState state pid nanos => atomicWriteFile .state pid nanos (encode state)
  | .writeSupervisorLockPid lockPid pid nanos =>
    atomicWriteFile .lock pid nanos (pidBytes lockPid)
  | .op call ok count => .op call ok count
  | .kill call => .kill call
  | .lockFile content => overwrite .lock content
  | .stopFile content => overwrite .stop content
  | .powerLoss pick left => .powerLoss pick left

def daemonRun (v : Volume String UInt8) (es : List DaemonEvent) : Replacing String UInt8 :=
  run Replacing.step { volume := v } (es.map (·.replace encode))

inductive LoadError : Type where
  | readState
  | parseState
deriving DecidableEq, Repr

/-- `load_supervisor_state`: a look for the file, then it is opened, then it is read, which
may fail. -/
def loadSupervisorState (ok : Bool) (found opened read : Volume String UInt8) :
    Except LoadError SupervisorState :=
  if (found.names DaemonFile.state.fileName).isNone then .ok {}
  else
    match opened.names DaemonFile.state.fileName with
    | none => .error .readState
    | some file =>
      if !ok then .error .readState
      else
        match decode (read.files file).content with
        | none => .error .parseState
        | some state => .ok state

theorem admitted_replace (e : DaemonEvent) :
    Replacing.Admitted isTmpName DaemonFile.state.fileName (e.replace encode) := by
  cases e with
  | saveSupervisorState state pid nanos =>
    exact ⟨isTmpName_tmpName _ pid nanos, isTmpName_fileName .state⟩
  | writeSupervisorLockPid lockPid pid nanos =>
    exact ⟨isTmpName_tmpName _ pid nanos, isTmpName_fileName .lock⟩
  | op call ok count | kill call | powerLoss pick left => trivial
  | lockFile content =>
    cases content <;> exact ⟨isTmpName_fileName .lock, by decide⟩
  | stopFile content =>
    cases content <;> exact ⟨isTmpName_fileName .stop, by decide⟩

theorem admitted_map (es : List DaemonEvent) :
    ∀ e ∈ es.map (·.replace encode),
      Replacing.Admitted isTmpName DaemonFile.state.fileName e := by
  intro e he
  obtain ⟨e, -, rfl⟩ := List.mem_map.mp he
  exact admitted_replace encode e

variable {encode decode} {v : Volume String UInt8} {es fs gs hs : List DaemonEvent}

theorem powerLoss_not_mem_map (h : ∀ pick left, .powerLoss pick left ∉ es) (pick : String → ℕ)
    (left : ℕ → List UInt8) : .powerLoss pick left ∉ es.map (·.replace encode) := by
  intro hmem
  obtain ⟨e, he, heq⟩ := List.mem_map.mp hmem
  cases e with
  | powerLoss pick' left' => exact h pick' left' he
  | saveSupervisorState state pid nanos | writeSupervisorLockPid lockPid pid nanos =>
    cases heq
  | op call ok count | kill call => cases heq
  | lockFile content | stopFile content => cases content <;> cases heq

theorem saved_of_begin {temp : String} {content : List UInt8}
    (h : ReplaceEvent.begin DaemonFile.state.fileName temp content ∈ es.map (·.replace encode)) :
    ∃ state pid nanos, .saveSupervisorState state pid nanos ∈ es ∧ content = encode state := by
  obtain ⟨e, he, heq⟩ := List.mem_map.mp h
  cases e with
  | saveSupervisorState state pid nanos =>
    obtain ⟨-, -, rfl⟩ := ReplaceEvent.begin.inj heq
    exact ⟨state, pid, nanos, he, rfl⟩
  | writeSupervisorLockPid lockPid pid nanos =>
    obtain ⟨hname, -, -⟩ := ReplaceEvent.begin.inj heq
    exact absurd hname (by decide)
  | op call ok count | kill call | powerLoss pick left => cases heq
  | lockFile content | stopFile content => cases content <;> cases heq

theorem saved_of_call {c : Replacement String UInt8} (hc : c ∈ (daemonRun encode v es).calls)
    (htarget : c.target = DaemonFile.state.fileName) :
    ∃ state pid nanos, .saveSupervisorState state pid nanos ∈ es ∧ c.content = encode state := by
  obtain ⟨temp, hbegin⟩ := Replacing.begun_run hc
  rw [htarget] at hbegin
  exact saved_of_begin hbegin

theorem daemonRun_append (es fs : List DaemonEvent) : daemonRun encode v (es ++ fs) =
    run Replacing.step { volume := v } (es.map (·.replace encode) ++ fs.map (·.replace encode)) := by
  rw [daemonRun, List.map_append]

/-! ## What is loaded -/

/-- There at the start, or some save was called with it. -/
def Stored (initial : Option SupervisorState) (es : List DaemonEvent) (state : SupervisorState) :
    Prop :=
  initial = some state ∨ ∃ pid nanos, .saveSupervisorState state pid nanos ∈ es

/-- A load at any point of any run, with whatever else happens while it goes on, finds no
file or gets a whole state. Only its own reading fails it, the parse does not. -/
theorem loads_whole (initial : Option SupervisorState)
    (hstart : Replacing.Settled v DaemonFile.state.fileName)
    (hinitial : v.read DaemonFile.state.fileName = initial.map encode)
    (hdecode : ∀ state, Stored initial (es ++ fs ++ gs) state → decode (encode state) = some state)
    (hpower : ∀ pick left, .powerLoss pick left ∉ fs) (ok : Bool) :
    (∀ error, loadSupervisorState decode ok (daemonRun encode v es).volume
        (daemonRun encode v (es ++ fs)).volume (daemonRun encode v (es ++ fs ++ gs)).volume =
          .error error → ok = false ∧ error = .readState) ∧
      ∀ state, loadSupervisorState decode ok (daemonRun encode v es).volume
        (daemonRun encode v (es ++ fs)).volume (daemonRun encode v (es ++ fs ++ gs)).volume =
          .ok state →
        state = {} ∧ (daemonRun encode v es).volume.names DaemonFile.state.fileName = none ∨
          Stored initial (es ++ fs ++ gs) state := by
  unfold loadSupervisorState
  cases hfound : (daemonRun encode v es).volume.names DaemonFile.state.fileName with
  | none =>
    refine ⟨fun error h => ?_, fun state h => .inl ⟨?_, rfl⟩⟩
    · cases h
    · exact (Except.ok.inj h).symm
  | some old =>
    have hsome : ((daemonRun encode v (es ++ fs)).volume.names
        DaemonFile.state.fileName).isSome := by
      rw [daemonRun_append, run_append]
      refine Replacing.names_isSome_run (Replacing.tracks_run hstart (isTmpName_fileName _)
        (admitted_map encode es)).1 (isTmpName_fileName _) (admitted_map encode fs)
        (powerLoss_not_mem_map hpower) ?_
      exact Option.isSome_iff_exists.mpr ⟨old, hfound⟩
    obtain ⟨file, hopened⟩ := Option.isSome_iff_exists.mp hsome
    -- the file that was opened holds a state that was stored
    have hcontent : ∃ state, Stored initial (es ++ fs ++ gs) state ∧
        ((daemonRun encode v (es ++ fs ++ gs)).volume.files file).content = encode state := by
      have hrun := Replacing.opened_run hstart (isTmpName_fileName _)
        (admitted_map encode (es ++ fs)) (admitted_map encode gs) hopened
      rw [← daemonRun_append] at hrun
      rcases hrun with hold | ⟨c, hc, htarget, hcontent⟩
      · obtain ⟨state, rfl, hstate⟩ := Option.map_eq_some_iff.mp (hinitial.symm.trans hold)
        exact ⟨state, .inl rfl, hstate.symm⟩
      · obtain ⟨state, pid, nanos, hmem, hstate⟩ := saved_of_call hc htarget
        exact ⟨state, .inr ⟨pid, nanos, hmem⟩, hcontent.trans hstate⟩
    obtain ⟨state, hstored, hstate⟩ := hcontent
    simp only [Option.isNone_some, Bool.false_eq_true, if_false, hopened, hstate,
      hdecode state hstored]
    cases ok with
    | false => exact ⟨fun error h => ⟨rfl, (Except.error.inj h).symm⟩, fun other h => (by cases h)⟩
    | true =>
      refine ⟨fun error h => (by cases h), fun other h => .inr ?_⟩
      obtain rfl := Except.ok.inj h
      exact hstored

/-! A first save, of a supervisor that has just started. -/

def startedState : SupervisorState := { running := true, pid := some 7, startedAt := some 100 }

def startedJson : List UInt8 :=
  ("\x7b\n  \"running\": true,\n  \"pid\": 7,\n  \"started_at\": 100,\n  \"stopped_at\": null,\n" ++
    "  \"workers\": \x7b\x7d,\n  \"last_error\": null,\n  \"slack_profiles\": []\n\x7d").toList.map
      fun c => c.toNat.toUInt8

def encodeStarted (state : SupervisorState) : List UInt8 :=
  if state = startedState then startedJson else []

def decodeStarted (bytes : List UInt8) : Option SupervisorState :=
  if bytes = startedJson then some startedState else none

def emptyDirectory : Volume String UInt8 where
  files _ := ⟨[], true⟩
  next := 0
  names _ := none
  earlier _ := []

def startedSave : List DaemonEvent :=
  [.saveSupervisorState startedState 7 1, .op 0 true 0, .op 0 true 1000, .op 0 true 0,
    .op 0 true 0, .op 0 true 0]

theorem decode_startedState :
    decodeStarted (encodeStarted startedState) = some startedState := by
  simp [decodeStarted, encodeStarted]

theorem emptyDirectory_settled :
    Replacing.Settled emptyDirectory DaemonFile.state.fileName :=
  ⟨fun _ h => (by cases h), rfl⟩

theorem mem_startedSave {state : SupervisorState} {pid nanos : ℕ}
    (h : .saveSupervisorState state pid nanos ∈
      startedSave ++ [.op 0 true 0] ++ [.powerLoss (fun _ => 0) fun _ => []]) :
    state = startedState := by
  simp [startedSave] at h
  exact h.1

/-- The load begins before the directory is synced, and reads what the power loss after the
sync has left. -/
theorem loads_whole_startedSave :
    (∀ error, loadSupervisorState decodeStarted true
        (daemonRun encodeStarted emptyDirectory startedSave).volume
        (daemonRun encodeStarted emptyDirectory (startedSave ++ [.op 0 true 0])).volume
        (daemonRun encodeStarted emptyDirectory
          (startedSave ++ [.op 0 true 0] ++ [.powerLoss (fun _ => 0) fun _ => []])).volume =
          .error error → true = false ∧ error = .readState) ∧
      ∀ state, loadSupervisorState decodeStarted true
        (daemonRun encodeStarted emptyDirectory startedSave).volume
        (daemonRun encodeStarted emptyDirectory (startedSave ++ [.op 0 true 0])).volume
        (daemonRun encodeStarted emptyDirectory
          (startedSave ++ [.op 0 true 0] ++ [.powerLoss (fun _ => 0) fun _ => []])).volume =
          .ok state →
        state = {} ∧ (daemonRun encodeStarted emptyDirectory startedSave).volume.names
            DaemonFile.state.fileName = none ∨
          Stored none (startedSave ++ [.op 0 true 0] ++ [.powerLoss (fun _ => 0) fun _ => []])
            state :=
  loads_whole none emptyDirectory_settled rfl
    (by
      rintro state (h | ⟨pid, nanos, h⟩)
      · cases h
      · rw [mem_startedSave h]
        exact decode_startedState)
    (fun pick left h => by simp at h) true

/-- Once a save has returned well, nothing brings an older state back: a load that begins
later, after whatever failures, kills and power losses, gets what that save or one that
has renamed after it was called with. -/
theorem saved_stays (hstart : Replacing.Settled v DaemonFile.state.fileName)
    (hdecode : ∀ state pid nanos, .saveSupervisorState state pid nanos ∈ es ++ fs ++ gs →
      decode (encode state) = some state)
    {call : ℕ} {c : Replacement String UInt8}
    (hc : (daemonRun encode v es).calls[call]? = some c)
    (htarget : c.target = DaemonFile.state.fileName) (hok : c.phase = .returned true) :
    ∃ later ∈ Replacing.since (daemonRun encode v (es ++ fs ++ gs)).renamed call, ∃ state c',
      loadSupervisorState decode true (daemonRun encode v (es ++ fs)).volume
          (daemonRun encode v (es ++ fs ++ gs)).volume
          (daemonRun encode v (es ++ fs ++ gs ++ hs)).volume = .ok state ∧
        (daemonRun encode v (es ++ fs ++ gs)).calls[later]? = some c' ∧
        c'.target = DaemonFile.state.fileName ∧ c'.content = encode state := by
  obtain ⟨-, -, -, found, -, -, hfound, -⟩ :=
    Replacing.reported_run hstart (isTmpName_fileName _) (admitted_map encode es)
      (admitted_map encode fs) (admitted_map encode gs) hc htarget hok
  obtain ⟨later, hlater, c', file, hc', htarget', hopened, hcontent⟩ :=
    Replacing.reported_run hstart (isTmpName_fileName _) (admitted_map encode es)
      (admitted_map encode (fs ++ gs)) (admitted_map encode hs) hc
      htarget hok
  simp only [← List.map_append, ← List.append_assoc] at hfound hlater hc' hopened hcontent
  obtain ⟨state, pid, nanos, hmem, hstate⟩ := saved_of_call (List.mem_of_getElem? hc') htarget'
  refine ⟨later, hlater, state, c', ?_, hc', htarget', hstate⟩
  have hfound' : (daemonRun encode v (es ++ fs)).volume.names DaemonFile.state.fileName =
    some found := hfound
  have hopened' : (daemonRun encode v (es ++ fs ++ gs)).volume.names
    DaemonFile.state.fileName = some file := hopened
  have hread : ((daemonRun encode v (es ++ fs ++ gs ++ hs)).volume.files file).content =
    encode state := hcontent.trans hstate
  simp only [loadSupervisorState, hfound', hopened', hread, hdecode state pid nanos hmem,
    Option.isNone_some, Bool.false_eq_true, if_false, Bool.not_true]

set_option maxRecDepth 2000 in
theorem saved_stays_startedSave :
    ∃ later ∈ Replacing.since (daemonRun encodeStarted emptyDirectory
        (startedSave ++ [.op 0 true 0] ++ [.powerLoss (fun _ => 0) fun _ => []] ++ [])).renamed 0,
      ∃ state c',
      loadSupervisorState decodeStarted true
          (daemonRun encodeStarted emptyDirectory
            (startedSave ++ [.op 0 true 0] ++ [.powerLoss (fun _ => 0) fun _ => []])).volume
          (daemonRun encodeStarted emptyDirectory
            (startedSave ++ [.op 0 true 0] ++ [.powerLoss (fun _ => 0) fun _ => []] ++ [])).volume
          (daemonRun encodeStarted emptyDirectory
            (startedSave ++ [.op 0 true 0] ++ [.powerLoss (fun _ => 0) fun _ => []] ++ [] ++
              [])).volume = .ok state ∧
        (daemonRun encodeStarted emptyDirectory
          (startedSave ++ [.op 0 true 0] ++ [.powerLoss (fun _ => 0) fun _ => []] ++
            [])).calls[later]? = some c' ∧
        c'.target = DaemonFile.state.fileName ∧ c'.content = encodeStarted state :=
  saved_stays emptyDirectory_settled
    (fun state pid nanos h => by
      rw [List.append_nil] at h
      rw [mem_startedSave h]
      exact decode_startedState)
    (show (daemonRun encodeStarted emptyDirectory (startedSave ++ [.op 0 true 0])).calls[0]? =
      some ⟨"runtime.json", ".runtime.json.tmp-7-1", startedJson, .returned true⟩ from rfl) rfl rfl

end Directory

end Direclaw.Runtime.Health
