import Direclaw.Lib.Run
import Direclaw.Runtime.Supervision

/-!
# The record of a stopped runtime

Over every interleaving of the workers and the supervisor: the start lock outlives every
worker, and what the state file says after the supervisor has returned.
-/

namespace Direclaw.Runtime.Health

open Direclaw.Lib Direclaw.Config

/-! ## What a worker has reported -/

/-- A stop is the last report, and comes from a thread that has ended. -/
structure Wrote (thread : WorkerThread) (reports : List WorkerEvent) : Prop where
  last : ∀ e ∈ reports.dropLast, e.isStopped = false
  ended : ∀ e ∈ reports, e.isStopped = true → thread.phase = .ended ∧ thread.beating = false
  quiet : thread.phase = .created ∨ thread.phase = .starting ∨ thread.phase = .refused →
    thread.beating = false

variable {thread : WorkerThread} {reports : List WorkerEvent}

/-- A report that is not a stop, from a thread that may still report. -/
theorem Wrote.report (h : Wrote thread reports) {next : WorkerThread} {event : WorkerEvent}
    (hopen : ¬ (thread.phase = .ended ∧ thread.beating = false)) (hevent : event.isStopped = false)
    (hquiet : next.phase = .created ∨ next.phase = .starting ∨ next.phase = .refused →
      next.beating = false) : Wrote next (reports ++ [event]) where
  last e he := by
    rw [List.dropLast_concat] at he
    cases hstopped : e.isStopped with
    | false => rfl
    | true => exact absurd (h.ended e he hstopped) hopen
  ended e he hstopped := by
    rcases List.mem_append.mp he with hold | hnew
    · exact absurd (h.ended e hold hstopped) hopen
    · rw [List.mem_singleton.mp hnew, hevent] at hstopped
      cases hstopped
  quiet := hquiet

theorem Wrote.silent (h : Wrote thread reports) {next : WorkerThread}
    (hended : thread.phase = .ended ∧ thread.beating = false →
      next.phase = .ended ∧ next.beating = false)
    (hquiet : next.phase = .created ∨ next.phase = .starting ∨ next.phase = .refused →
      next.beating = false) : Wrote next reports :=
  ⟨h.last, fun e he hstopped => hended (h.ended e he hstopped), hquiet⟩

theorem Wrote.stop (h : Wrote thread reports) {event : WorkerEvent} (hopen : thread.phase ≠ .ended)
    (hnext : next.phase = .ended ∧ next.beating = false) : Wrote next (reports ++ [event]) where
  last e he := by
    rw [List.dropLast_concat] at he
    cases hstopped : e.isStopped with
    | false => rfl
    | true => exact absurd (h.ended e he hstopped).1 hopen
  ended _ _ _ := hnext
  quiet _ := hnext.2

/-- What a turn of a thread keeps. -/
structure Turn (thread : WorkerThread) (result : WorkerThread × List WorkerEvent) : Prop where
  spec : result.1.spec = thread.spec
  reports : ∀ e ∈ result.2, e.workerId = thread.spec.id
  wrote : ∀ {reports : List WorkerEvent}, Wrote thread reports →
    Wrote result.1 (reports ++ result.2)
  ended : thread.phase = .ended → result.1.phase = .ended

theorem Turn.idle (thread : WorkerThread) : Turn thread (thread, []) where
  spec := rfl
  reports _ he := absurd he List.not_mem_nil
  wrote h := by rwa [List.append_nil]
  ended h := h

theorem turn_act (thread : WorkerThread) (stop : Bool) (time : ℤ) (act : ThreadAct) :
    Turn thread (thread.act stop time act) := by
  cases act with
  | start =>
    simp only [WorkerThread.act]
    split
    · next hphase =>
        refine ⟨rfl, by simp [WorkerEvent.workerId], fun h => h.report ?_ rfl ?_, ?_⟩
        · simp [hphase]
        · exact fun _ => h.quiet (.inl hphase)
        · simp [hphase]
    · exact .idle thread
  | refuse message =>
    simp only [WorkerThread.act]
    split
    · next hphase =>
        refine ⟨rfl, by simp [WorkerEvent.workerId], fun h => h.report ?_ rfl ?_, ?_⟩
        · simp [hphase]
        · exact fun _ => h.quiet (.inr (.inl hphase))
        · simp [hphase]
    · exact .idle thread
  | enter =>
    simp only [WorkerThread.act]
    split
    · next hphase =>
        refine ⟨rfl, by simp, fun h => ?_, by simp [hphase]⟩
        rw [List.append_nil]
        exact h.silent (by simp [hphase]) (by simp)
    · exact .idle thread
  | giveUp message =>
    simp only [WorkerThread.act]
    split
    · next hphase =>
        refine ⟨rfl, by simp [WorkerEvent.workerId], fun h => h.report ?_ rfl ?_, ?_⟩
        · simp [hphase.1]
        · simp
        · simp [hphase.1]
    · exact .idle thread
  | tick failure =>
    cases failure with
    | some message =>
      simp only [WorkerThread.act]
      split
      · next hphase =>
          refine ⟨rfl, by simp [WorkerEvent.workerId], fun h => h.report ?_ rfl h.quiet, id⟩
          simp [hphase]
      · exact .idle thread
    | none =>
      simp only [WorkerThread.act]
      split
      · next hphase =>
          refine ⟨rfl, by simp [WorkerEvent.workerId], fun h => h.report ?_ rfl h.quiet, id⟩
          simp [hphase.1]
      · exact .idle thread
  | leave =>
    simp only [WorkerThread.act]
    split
    · next hphase =>
        refine ⟨rfl, by simp, fun h => ?_, by simp [hphase.1]⟩
        rw [List.append_nil]
        exact h.silent (by simp [hphase.1]) (by simp)
    · exact .idle thread
  | stop =>
    simp only [WorkerThread.act]
    split
    · next hphase =>
        refine ⟨rfl, by simp [WorkerEvent.workerId], fun h => h.stop ?_ ⟨rfl, ?_⟩, fun _ => rfl⟩
        · rcases hphase with hrefused | ⟨hfinishing, -⟩
          · simp [hrefused]
          · simp [hfinishing]
        · rcases hphase with hrefused | ⟨-, hquiet⟩
          · exact h.quiet (.inr (.inr hrefused))
          · exact hquiet
    · exact .idle thread
  | panic =>
    refine ⟨rfl, by simp [WorkerThread.act], fun h => ?_, fun _ => rfl⟩
    rw [show (thread.act stop time .panic).2 = [] from rfl, List.append_nil]
    exact h.silent (fun hended => ⟨rfl, hended.2⟩) (by simp [WorkerThread.act])

theorem turn_beat (thread : WorkerThread) (stop ends : Bool) (time : ℤ) :
    Turn thread (thread.beat stop ends time) := by
  simp only [WorkerThread.beat]
  split
  · exact .idle thread
  · next hbeating =>
      split
      · split
        · refine ⟨rfl, by simp, fun h => ?_, id⟩
          rw [List.append_nil]
          exact h.silent (fun hended => ⟨hended.1, rfl⟩) (fun _ => rfl)
        · exact .idle thread
      · refine ⟨rfl, by simp [WorkerEvent.workerId], fun h => h.report ?_ rfl h.quiet, id⟩
        exact fun hended => hbeating hended.2

/-! ## The invariant -/

namespace Supervision

/-- All that the workers have reported so far. -/
def sent (d : Supervision) : List WorkerEvent := d.received ++ d.channel

/-- The supervisor has received the stop of the worker. -/
def HeardStop (d : Supervision) (id : String) : Prop :=
  ∃ e ∈ own id d.received, e.isStopped = true

/-- What the reports that were received amount to. -/
def told (d : Supervision) (id : String) : WorkerHealth :=
  (own id d.received).foldl WorkerHealth.after {}

structure Reported (specs : List WorkerSpec) (d : Supervision) : Prop where
  specs : d.threads.map (·.spec) = specs
  wrote : ∀ {index : ℕ} {thread : WorkerThread}, d.threads[index]? = some thread →
    Wrote thread (own thread.spec.id d.sent)

/-- The record keeps up with the reports. -/
structure Recorded (specs : List WorkerSpec) (d : Supervision) : Prop where
  active : ∀ id, id ∈ d.active.ids ↔ id ∈ specs.map (·.id) ∧ ¬ d.HeardStop id
  entries : ∀ id ∈ specs.map (·.id), d.state.workers.lookup id = some (d.told id)

/-- A worker whose stop was not heard in time. -/
def timedOut (health : WorkerHealth) : WorkerHealth :=
  { health with state := .error, lastError := some "shutdown timeout" }

/-- The record after the wait for the workers. -/
def Marked (specs : List WorkerSpec) (d : Supervision) : Prop :=
  ∀ id ∈ specs.map (·.id), ∃ health, d.state.workers.lookup id = some health ∧
    (d.HeardStop id → health = d.told id) ∧ (¬ d.HeardStop id → health = timedOut (d.told id))

/-- The lock is held, and the record and its file say so. -/
structure Holding (pid : ℕ) (d : Supervision) : Prop where
  locked : d.locked = true
  state : d.state.running = true ∧ d.state.pid = some pid
  file : d.file.running = true ∧ d.file.pid = some pid

def Ended (d : Supervision) : Prop := ∀ thread ∈ d.threads, thread.phase = .ended

instance (d : Supervision) : Decidable d.Ended :=
  inferInstanceAs (Decidable (∀ thread ∈ d.threads, thread.phase = .ended))

/-- The last save. -/
structure Saved (specs : List WorkerSpec) (d : Supervision) : Prop where
  file : d.file = d.state
  stopped : d.state.running = false ∧ d.state.pid = none
  marked : d.Marked specs

def PhaseHolds (specs : List WorkerSpec) (pid : ℕ) (d : Supervision) : SupervisorPhase → Prop
  | .polling | .looking | .receiving | .waiting | .marking => d.Recorded specs ∧ d.Holding pid
  | .joining handle => d.Marked specs ∧ d.Holding pid ∧
      ∀ thread ∈ d.threads.take handle, thread.phase = .ended
  | .saving => d.Marked specs ∧ d.Holding pid ∧ d.Ended
  | .failed => d.locked = true ∧ d.Ended
  | .clearing | .removing | .returned => d.Saved specs ∧ d.Ended

/-! ## Turns of the workers -/

section Turns

variable {specs : List WorkerSpec} {pid : ℕ} {d : Supervision} {index : ℕ}
  {act : WorkerThread → WorkerThread × List WorkerEvent}

theorem Reported.turn (hnodup : (specs.map (·.id)).Nodup) (h : d.Reported specs)
    (hact : ∀ thread, Turn thread (act thread)) : (d.turn index act).Reported specs := by
  unfold Supervision.turn
  split
  · exact h
  · next thread hthread =>
      have hlt : index < d.threads.length := (List.getElem?_eq_some_iff.mp hthread).1
      refine ⟨?_, fun {i other} hi => ?_⟩
      · rw [← h.specs]
        refine List.ext_getElem? fun i => ?_
        show ((d.threads.set index (act thread).1).map _)[i]? = _
        rw [List.getElem?_map, List.getElem?_map, List.getElem?_set]
        by_cases hi : index = i
        · subst hi
          rw [if_pos rfl, if_pos hlt, hthread, Option.map_some, Option.map_some, (hact thread).spec]
        · rw [if_neg hi]
      · have hi' : (d.threads.set index (act thread).1)[i]? = some other := hi
        have hsent : d.received ++ (d.channel ++ (act thread).2) = d.sent ++ (act thread).2 := by
          rw [sent, List.append_assoc]
        show Wrote other (own other.spec.id (d.received ++ (d.channel ++ (act thread).2)))
        rw [hsent, own_append]
        rw [List.getElem?_set] at hi'
        by_cases hindex : index = i
        · subst hindex
          rw [if_pos rfl, if_pos hlt] at hi'
          cases hi'
          rw [(hact thread).spec]
          have hown : own thread.spec.id (act thread).2 = (act thread).2 :=
            List.filter_eq_self.mpr fun e he => decide_eq_true ((hact thread).reports e he)
          rw [hown]
          exact (hact thread).wrote (h.wrote hthread)
        · rw [if_neg hindex] at hi'
          -- another worker has another id
          have hne : thread.spec.id ≠ other.spec.id := by
            intro heq
            have hids : ((d.threads.map (·.spec)).map (·.id))[index]? =
                ((d.threads.map (·.spec)).map (·.id))[i]? := by
              simp only [List.getElem?_map, hthread, hi', Option.map_some, heq]
            rw [h.specs] at hids
            refine hindex ((List.getElem?_inj ?_ hnodup).mp hids)
            rw [← h.specs, List.length_map, List.length_map]
            exact hlt
          have hown : own other.spec.id (act thread).2 = [] :=
            List.filter_eq_nil_iff.mpr fun e he => by
              rw [(hact thread).reports e he]
              simpa using hne
          rw [hown, List.append_nil]
          exact h.wrote hi'

theorem ended_turn {threads : List WorkerThread} {thread next : WorkerThread}
    (hall : ∀ other ∈ threads, other.phase = .ended) (hthread : threads[index]? = some thread)
    (hnext : thread.phase = .ended → next.phase = .ended) :
    ∀ other ∈ threads.set index next, other.phase = .ended := by
  intro other hother
  rcases List.mem_or_eq_of_mem_set hother with hold | rfl
  · exact hall other hold
  · exact hnext (hall thread (List.mem_of_getElem? hthread))

/-- Workers change nothing that the supervisor keeps, and stay ended. -/
theorem PhaseHolds.turn (h : PhaseHolds specs pid d d.phase)
    (hact : ∀ thread, Turn thread (act thread)) :
    PhaseHolds specs pid (d.turn index act) (d.turn index act).phase := by
  unfold Supervision.turn
  split
  · exact h
  · next thread hthread =>
      have hended := (hact thread).ended
      show PhaseHolds specs pid { d with
        threads := d.threads.set index (act thread).1
        channel := d.channel ++ (act thread).2 } d.phase
      cases hphase : d.phase with
      | polling | looking | receiving | waiting | marking =>
        rw [hphase] at h
        exact ⟨⟨h.1.active, h.1.entries⟩, ⟨h.2.locked, h.2.state, h.2.file⟩⟩
      | joining handle =>
        rw [hphase] at h
        refine ⟨h.1, ⟨h.2.1.locked, h.2.1.state, h.2.1.file⟩, ?_⟩
        show ∀ other ∈ (d.threads.set index (act thread).1).take handle, other.phase = .ended
        rw [List.take_set]
        by_cases hlt : index < handle
        · exact ended_turn h.2.2 (by rw [List.getElem?_take_of_lt hlt]; exact hthread) hended
        · rw [List.set_eq_of_length_le (by simp; omega)]
          exact h.2.2
      | saving =>
        rw [hphase] at h
        exact ⟨h.1, ⟨h.2.1.locked, h.2.1.state, h.2.1.file⟩, ended_turn h.2.2 hthread hended⟩
      | failed =>
        rw [hphase] at h
        exact ⟨h.1, ended_turn h.2 hthread hended⟩
      | clearing | removing | returned =>
        rw [hphase] at h
        exact ⟨⟨h.1.file, h.1.stopped, h.1.marked⟩, ended_turn h.2 hthread hended⟩

end Turns

/-! ## Steps of the supervisor -/

section Steps

variable {specs : List WorkerSpec} {pid : ℕ} {d : Supervision}

theorem mem_ids {active : Active} {id : String} : id ∈ active.ids ↔ ∃ u, (id, u) ∈ active := by
  simp [Active.ids]

theorem mem_ids_apply {workers : Workers} {active : Active} {event : WorkerEvent} {id : String} :
    id ∈ (applyWorkerEvent workers active event).2.1.ids ↔
      id ∈ active.ids ∧ ¬ (event.workerId = id ∧ event.isStopped = true) := by
  cases event with
  | started other time | heartbeat other time | error other time message fatal =>
    simp [applyWorkerEvent, WorkerEvent.isStopped]
  | stopped other time =>
    simp only [applyWorkerEvent, mem_ids, OrderedMap.remove, List.mem_filter, WorkerEvent.workerId,
      WorkerEvent.isStopped, and_true]
    constructor
    · rintro ⟨u, hmem, hne⟩
      exact ⟨⟨u, hmem⟩, fun heq => by simp [heq] at hne⟩
    · rintro ⟨⟨u, hmem⟩, hne⟩
      exact ⟨u, hmem, by simpa using Ne.symm hne⟩

theorem Recorded.handle (h : d.Recorded specs) (event : WorkerEvent) (saved : Bool) :
    (d.handleWorkerEvent event saved).Recorded specs where
  active id := by
    have hheard : (d.handleWorkerEvent event saved).HeardStop id ↔
        d.HeardStop id ∨ (event.workerId = id ∧ event.isStopped = true) := by
      show (∃ e ∈ own id (d.received ++ [event]), _) ↔ _
      by_cases hid : id = event.workerId
      · subst hid
        rw [own_append, own_self]
        simp [HeardStop, or_and_right, exists_or]
      · rw [own_append, own_of_ne hid, List.append_nil]
        simp [HeardStop, Ne.symm hid]
    show id ∈ (applyWorkerEvent d.state.workers d.active event).2.1.ids ↔ _
    rw [mem_ids_apply, h.active id, hheard]
    tauto
  entries id hid := by
    show (applyWorkerEvent d.state.workers d.active event).1.lookup id =
      some ((own id (d.received ++ [event])).foldl WorkerHealth.after {})
    rw [own_append, List.foldl_append]
    by_cases heq : id = event.workerId
    · subst heq
      rw [lookup_applyWorkerEvent_self, own_self, Workers.entry, h.entries _ hid]
      rfl
    · rw [lookup_applyWorkerEvent_of_ne _ _ heq, own_of_ne heq]
      exact h.entries id hid

theorem Holding.handle (h : d.Holding pid) (event : WorkerEvent) (saved : Bool) :
    (d.handleWorkerEvent event saved).Holding pid where
  locked := h.locked
  state := h.state
  file := by
    show (if saved = true then _ else d.file : SupervisorState).running = true ∧
      (if saved = true then _ else d.file : SupervisorState).pid = some pid
    split
    · exact h.state
    · exact h.file

/-- The workers that are marked, each once or more often. -/
theorem lookup_mark (ids : List String) (workers : Workers) (id : String) :
    (ids.foldl markTimeout workers).lookup id =
      if id ∈ ids then (workers.lookup id).map timedOut else workers.lookup id := by
  induction ids generalizing workers with
  | nil => rfl
  | cons first rest ih =>
    rw [List.foldl_cons, ih, markTimeout]
    by_cases hfirst : id = first
    · subst hfirst
      cases hlookup : workers.lookup id with
      | none => simp [hlookup]
      | some health => simp [timedOut]
    · cases hlookup : workers.lookup first with
      | none => simp [hfirst]
      | some health => simp [hfirst, OrderedMap.lookup_insert_of_ne hfirst]

theorem Recorded.mark (h : d.Recorded specs) : d.markTimeouts.Marked specs := by
  intro id hid
  have hentry := h.entries id hid
  unfold markTimeouts
  split
  · next hnone =>
      have hheard : d.HeardStop id := by
        by_contra hnot
        have hactive := (h.active id).mpr ⟨hid, hnot⟩
        rw [hnone] at hactive
        cases hactive
      exact ⟨_, hentry, fun _ => rfl, fun hnot => absurd hheard hnot⟩
  · show ∃ health, (d.active.ids.foldl markTimeout d.state.workers).lookup id = some health ∧ _
    rw [lookup_mark]
    by_cases hheard : d.HeardStop id
    · have hnot : id ∉ d.active.ids := fun hactive => ((h.active id).mp hactive).2 hheard
      rw [if_neg hnot, hentry]
      exact ⟨_, rfl, fun _ => rfl, fun hnot => absurd hheard hnot⟩
    · rw [if_pos ((h.active id).mpr ⟨hid, hheard⟩), hentry]
      exact ⟨_, rfl, fun hyes => absurd hyes hheard, fun _ => rfl⟩

/-- What a step of the supervisor can lead to, by the phase it is taken in. -/
inductive Moves (d : Supervision) : SupervisorPhase → Supervision → Prop
  | poll (next : SupervisorPhase) : next = .waiting ∨ next = .looking →
      Moves d .polling { d with phase := next }
  | look : Moves d .looking { d with stop := d.stop || d.stopFile, phase := .receiving }
  | receive (event : WorkerEvent) (rest : List WorkerEvent) (saved : Bool) :
      d.channel = event :: rest →
      Moves d .receiving
        { ({ d with channel := rest }).handleWorkerEvent event saved with phase := .polling }
  | nothing (next : SupervisorPhase) : next = .waiting ∨ next = .polling →
      Moves d .receiving { d with phase := next }
  | wait (event : WorkerEvent) (rest : List WorkerEvent) (saved : Bool) :
      d.phase = .waiting → d.channel = event :: rest →
      Moves d .waiting (({ d with channel := rest }).handleWorkerEvent event saved)
  | waited (next : SupervisorPhase) : next = .marking ∨ next = .waiting →
      Moves d .waiting { d with phase := next }
  | mark : Moves d .marking { d.markTimeouts with phase := .joining 0 }
  | join (handle : ℕ) (thread : WorkerThread) : d.threads[handle]? = some thread →
      thread.phase = .ended → Moves d (.joining handle) { d with phase := .joining (handle + 1) }
  | blocked (handle : ℕ) : Moves d (.joining handle) d
  | joined (handle : ℕ) : d.threads[handle]? = none →
      Moves d (.joining handle) { d with phase := .saving }
  | saved (time : ℤ) :
      Moves d .saving
        { d with
          state := { d.state with running := false, pid := none, stoppedAt := some time }
          file := { d.state with running := false, pid := none, stoppedAt := some time }
          phase := .clearing }
  | unsaved (time : ℤ) :
      Moves d .saving
        { d with
          state := { d.state with running := false, pid := none, stoppedAt := some time }
          phase := .failed }
  | failed : Moves d .failed d
  | clear : Moves d .clearing { d with locked := false, phase := .removing }
  | remove : Moves d .removing { d with stopFile := false, phase := .returned }
  | returned : Moves d .returned d

theorem supervisorStep_moves (saved late : Bool) (time : ℤ) :
    Moves d d.phase (d.supervisorStep saved late time) := by
  cases hphase : d.phase with
  | polling =>
    simp only [supervisorStep, hphase]
    split
    · exact .poll .waiting (.inl rfl)
    · exact .poll .looking (.inr rfl)
  | looking =>
    simp only [supervisorStep, hphase]
    exact .look
  | receiving =>
    simp only [supervisorStep, hphase]
    split
    · next event rest hchannel => exact .receive event rest saved hchannel
    · split
      · exact .nothing .waiting (.inl rfl)
      · exact .nothing .polling (.inr rfl)
  | waiting =>
    simp only [supervisorStep, hphase]
    split
    · exact .waited .marking (.inl rfl)
    · split
      · next event rest hchannel =>
          exact hphase ▸ .wait event rest saved hphase hchannel
      · split
        · exact .waited .marking (.inl rfl)
        · exact .waited .waiting (.inr rfl)
  | marking =>
    simp only [supervisorStep, hphase]
    exact .mark
  | joining handle =>
    simp only [supervisorStep, hphase]
    split
    · next thread hthread =>
        split
        · next hended => exact .join handle thread hthread hended
        · exact .blocked handle
    · next hnone => exact .joined handle hnone
  | saving =>
    simp only [supervisorStep, hphase]
    cases saved with
    | true => exact .saved time
    | false => exact .unsaved time
  | failed =>
    simp only [supervisorStep, hphase]
    exact .failed
  | clearing =>
    simp only [supervisorStep, hphase]
    exact .clear
  | removing =>
    simp only [supervisorStep, hphase]
    exact .remove
  | returned =>
    simp only [supervisorStep, hphase]
    exact .returned

/-- The supervisor changes no thread, and takes the reports in their order. -/
theorem Moves.frame {phase : SupervisorPhase} {d' : Supervision} (h : Moves d phase d') :
    d'.threads = d.threads ∧ d'.sent = d.sent := by
  have hreceive : ∀ {event : WorkerEvent} {rest : List WorkerEvent},
      d.channel = event :: rest → d.received ++ [event] ++ rest = d.received ++ d.channel := by
    intro event rest hchannel
    rw [hchannel, List.append_assoc, List.singleton_append]
  cases h with
  | receive event rest saved hchannel | wait event rest saved _ hchannel =>
    exact ⟨rfl, hreceive hchannel⟩
  | mark =>
    unfold Supervision.markTimeouts
    split <;> exact ⟨rfl, rfl⟩
  | poll | look | nothing | waited | join | blocked | joined | saved | unsaved | failed | clear
  | remove | returned => exact ⟨rfl, rfl⟩

/-- A report comes in. -/
theorem Recorded.receive (h : d.Recorded specs ∧ d.Holding pid) (event : WorkerEvent)
    (rest : List WorkerEvent) (saved : Bool) :
    (({ d with channel := rest }).handleWorkerEvent event saved).Recorded specs ∧
      (({ d with channel := rest }).handleWorkerEvent event saved).Holding pid := by
  have hrecorded : ({ d with channel := rest }).Recorded specs := ⟨h.1.active, h.1.entries⟩
  have hholding : ({ d with channel := rest }).Holding pid := ⟨h.2.locked, h.2.state, h.2.file⟩
  exact ⟨hrecorded.handle event saved, hholding.handle event saved⟩

theorem Holding.markTimeouts (h : d.Holding pid) : d.markTimeouts.Holding pid := by
  unfold Supervision.markTimeouts
  split
  · exact h
  · exact ⟨h.locked, h.state, h.file⟩

theorem Moves.holds {d' : Supervision} (hmoves : Moves d d.phase d')
    (h : PhaseHolds specs pid d d.phase) : PhaseHolds specs pid d' d'.phase := by
  generalize hphase : d.phase = phase at hmoves h
  cases hmoves with
  | poll next hnext | nothing next hnext | waited next hnext =>
    rcases hnext with rfl | rfl <;>
      exact ⟨⟨h.1.active, h.1.entries⟩, ⟨h.2.locked, h.2.state, h.2.file⟩⟩
  | look => exact ⟨⟨h.1.active, h.1.entries⟩, ⟨h.2.locked, h.2.state, h.2.file⟩⟩
  | receive event rest saved hchannel =>
    obtain ⟨hrecorded, hholding⟩ := Recorded.receive h event rest saved
    exact ⟨⟨hrecorded.active, hrecorded.entries⟩,
      ⟨hholding.locked, hholding.state, hholding.file⟩⟩
  | wait event rest saved hwaiting hchannel =>
    have hstays : (({ d with channel := rest }).handleWorkerEvent event saved).phase =
        .waiting := hwaiting
    rw [hstays]
    exact Recorded.receive h event rest saved
  | mark =>
    have hholding := h.2.markTimeouts
    exact ⟨h.1.mark, ⟨hholding.locked, hholding.state, hholding.file⟩, by simp⟩
  | join handle thread hthread hended =>
    refine ⟨h.1, ⟨h.2.1.locked, h.2.1.state, h.2.1.file⟩, fun other hother => ?_⟩
    have htake : d.threads.take (handle + 1) = d.threads.take handle ++ [thread] := by
      rw [List.take_add_one, hthread, Option.toList_some]
    rcases List.mem_append.mp (htake ▸ hother) with hold | hlast
    · exact h.2.2 other hold
    · rw [List.mem_singleton.mp hlast]
      exact hended
  | blocked handle =>
    rw [hphase]
    exact h
  | joined handle hnone =>
    refine ⟨h.1, ⟨h.2.1.locked, h.2.1.state, h.2.1.file⟩, fun other hother => ?_⟩
    refine h.2.2 other ?_
    rw [List.take_of_length_le (List.getElem?_eq_none_iff.mp hnone)]
    exact hother
  | saved time => exact ⟨⟨rfl, ⟨rfl, rfl⟩, h.1⟩, h.2.2⟩
  | unsaved time => exact ⟨h.2.1.locked, h.2.2⟩
  | failed =>
    rw [hphase]
    exact h
  | clear | remove => exact ⟨⟨h.1.file, h.1.stopped, h.1.marked⟩, h.2⟩
  | returned =>
    rw [hphase]
    exact h

end Steps

/-! ## Runs -/

section Runs

variable {specs : List WorkerSpec} {pid : ℕ} {time : ℤ}
  {profiles : List Slack.SlackProfileCredentialHealth}

theorem lookup_foldl_insert {α : Type} (value : α) (specs : List WorkerSpec)
    (entries : List (String × α)) (id : String) :
    (specs.foldl (fun entries spec => OrderedMap.insert spec.id value entries) entries).lookup id =
      if id ∈ specs.map (·.id) then some value else entries.lookup id := by
  induction specs generalizing entries with
  | nil => rfl
  | cons spec rest ih =>
    rw [List.foldl_cons, ih]
    by_cases hid : id = spec.id
    · subst hid
      simp
    · simp [hid, OrderedMap.lookup_insert_of_ne hid]

variable {id : String}

theorem mem_ids_iff_lookup {active : Active} : id ∈ active.ids ↔ active.lookup id = some () := by
  induction active with
  | nil => simp [Active.ids]
  | cons entry rest ih =>
    rw [show Active.ids (entry :: rest) = entry.1 :: Active.ids rest from rfl, List.mem_cons, ih,
      List.lookup_cons]
    by_cases hid : id = entry.1
    · simp [hid]
    · simp [hid, show (id == entry.1) = false by simpa using hid]

theorem reported_start : (start specs pid time profiles).Reported specs where
  specs := by
    show (specs.map fun spec => ({ spec } : WorkerThread)).map (·.spec) = specs
    rw [List.map_map]
    exact List.map_id specs
  wrote {index thread} hthread := by
    obtain ⟨spec, -, rfl⟩ := List.mem_map.mp (List.mem_of_getElem? hthread)
    exact ⟨by simp [start, sent, own], by simp [start, sent, own], fun _ => rfl⟩

theorem phaseHolds_start :
    PhaseHolds specs pid (start specs pid time profiles) (start specs pid time profiles).phase := by
  refine ⟨⟨fun id => ?_, fun id hid => ?_⟩, ⟨rfl, ⟨rfl, rfl⟩, rfl, rfl⟩⟩
  · rw [mem_ids_iff_lookup]
    show (specs.foldl (fun entries spec => OrderedMap.insert spec.id () entries) []).lookup id =
      some () ↔ _
    rw [lookup_foldl_insert]
    have hheard : ¬ (start specs pid time profiles).HeardStop id := by
      rintro ⟨e, he, -⟩
      cases he
    by_cases hid : id ∈ specs.map (·.id)
    · simp [hid, hheard]
    · simp [hid]
  · show (specs.foldl (fun entries spec =>
      OrderedMap.insert spec.id ({} : WorkerHealth) entries) []).lookup id = _
    rw [lookup_foldl_insert, if_pos hid]
    rfl

theorem holds_step (hnodup : (specs.map (·.id)).Nodup) (d : Supervision) (e : SupervisionEvent)
    (h : d.Reported specs ∧ PhaseHolds specs pid d d.phase) :
    (step d e).Reported specs ∧ PhaseHolds specs pid (step d e) (step d e).phase := by
  cases e with
  | thread index act time =>
    exact ⟨h.1.turn hnodup fun thread => turn_act thread d.stop time act,
      h.2.turn fun thread => turn_act thread d.stop time act⟩
  | beat index ends time =>
    exact ⟨h.1.turn hnodup fun thread => turn_beat thread d.stop ends time,
      h.2.turn fun thread => turn_beat thread d.stop ends time⟩
  | signalStop =>
    refine ⟨⟨h.1.specs, h.1.wrote⟩, ?_⟩
    obtain ⟨-, hphase⟩ := h
    show PhaseHolds specs pid { d with stopFile := true } d.phase
    cases hd : d.phase with
    | polling | looking | receiving | waiting | marking =>
      rw [hd] at hphase
      exact ⟨⟨hphase.1.active, hphase.1.entries⟩,
        ⟨hphase.2.locked, hphase.2.state, hphase.2.file⟩⟩
    | joining handle | saving =>
      rw [hd] at hphase
      exact ⟨hphase.1, ⟨hphase.2.1.locked, hphase.2.1.state, hphase.2.1.file⟩, hphase.2.2⟩
    | failed =>
      rw [hd] at hphase
      exact hphase
    | clearing | removing | returned =>
      rw [hd] at hphase
      exact ⟨⟨hphase.1.file, hphase.1.stopped, hphase.1.marked⟩, hphase.2⟩
  | supervisor saved late time =>
    have hmoves := supervisorStep_moves (d := d) saved late time
    obtain ⟨hthreads, hsent⟩ := hmoves.frame
    refine ⟨⟨?_, fun {index thread} hthread => ?_⟩, hmoves.holds h.2⟩
    · show (d.supervisorStep saved late time).threads.map _ = specs
      rw [hthreads]
      exact h.1.specs
    · show Wrote thread (own thread.spec.id (d.supervisorStep saved late time).sent)
      rw [hsent]
      exact h.1.wrote (hthreads ▸ hthread)

theorem holds_run (pid : ℕ) (time : ℤ) (profiles : List Slack.SlackProfileCredentialHealth)
    (hnodup : (specs.map (·.id)).Nodup) (es : List SupervisionEvent) :
    (run step (start specs pid time profiles) es).Reported specs ∧
      PhaseHolds specs pid (run step (start specs pid time profiles) es)
        (run step (start specs pid time profiles) es).phase :=
  run_invariant' (holds_step hnodup) es ⟨reported_start, phaseHolds_start⟩

theorem PhaseHolds.holding {d : Supervision} (h : PhaseHolds specs pid d d.phase)
    (halive : ¬ d.Ended) : d.Holding pid := by
  cases hphase : d.phase with
  | polling | looking | receiving | waiting | marking =>
    rw [hphase] at h
    exact h.2
  | joining handle =>
    rw [hphase] at h
    exact h.2.1
  | saving =>
    rw [hphase] at h
    exact absurd h.2.2 halive
  | failed | clearing | removing | returned =>
    rw [hphase] at h
    exact absurd h.2 halive

theorem PhaseHolds.saved {d : Supervision} (h : PhaseHolds specs pid d d.phase)
    (hreleased : d.locked = false) : d.Saved specs ∧ d.Ended := by
  cases hphase : d.phase with
  | polling | looking | receiving | waiting | marking =>
    rw [hphase] at h
    cases h.2.locked.symm.trans hreleased
  | joining handle | saving =>
    rw [hphase] at h
    cases h.2.1.locked.symm.trans hreleased
  | failed =>
    rw [hphase] at h
    cases h.1.symm.trans hreleased
  | clearing | removing | returned =>
    rw [hphase] at h
    exact h

/-- A stop that was heard is the last report that was. -/
theorem Reported.state_told {d : Supervision} (h : d.Reported specs) (hid : id ∈ specs.map (·.id))
    (hheard : d.HeardStop id) : (d.told id).state ≠ .running := by
  rw [told, Ne, (describes_fold (own id d.received)).running]
  obtain ⟨spec, hspec, rfl⟩ := List.mem_map.mp hid
  obtain ⟨thread, hthread, rfl⟩ := List.mem_map.mp (h.specs ▸ hspec)
  obtain ⟨index, hindex⟩ := List.mem_iff_getElem?.mp hthread
  have hlast := (h.wrote hindex).last
  rw [sent, own_append] at hlast
  obtain ⟨e, he, hstopped⟩ := hheard
  rintro ⟨before, x, after, hsplit, ⟨-, hx⟩, hafter⟩
  obtain rfl : after = [] := List.eq_nil_iff_forall_not_mem.mpr fun y hy => hafter y hy
  rw [hsplit] at he hlast
  rcases List.mem_append.mp he with hbefore | hx'
  · -- a stop before the last report
    have hfalse := hlast e (by
      rw [List.append_assoc, List.dropLast_append_of_ne_nil (by simp)]
      exact List.mem_append_left _ hbefore)
    rw [hstopped] at hfalse
    cases hfalse
  · rw [List.mem_singleton.mp hx', hx] at hstopped
    cases hstopped

/-- What the record of a worker is in the end. -/
theorem Saved.health {d : Supervision} (h : d.Saved specs) (hreported : d.Reported specs)
    (hid : id ∈ specs.map (·.id)) :
    ∃ health, d.file.workers.lookup id = some health ∧ health.state ≠ .running ∧
      (health.state = .stopped ↔
        d.HeardStop id ∧ ¬ Last (·.text?.isSome) (·.isStopped) (own id d.received)) := by
  obtain ⟨health, hlookup, hheard, htimedOut⟩ := h.marked id hid
  refine ⟨health, by rw [h.file]; exact hlookup, ?_⟩
  by_cases hstop : d.HeardStop id
  · obtain rfl := hheard hstop
    have hnot := hreported.state_told hid hstop
    refine ⟨hnot, ?_⟩
    have herror := (describes_fold (own id d.received)).error
    rw [and_iff_right hstop, ← herror]
    show (d.told id).state = .stopped ↔ ¬ (d.told id).state = .error
    cases hstate : (d.told id).state with
    | stopped => simp
    | running => exact absurd hstate hnot
    | error => simp
  · obtain rfl := htimedOut hstop
    exact ⟨by simp [timedOut], by simp [timedOut, hstop]⟩

end Runs

end Supervision

/-! ## The workers of the settings -/

theorem channelSpecs_of_ne {channel : String} (h : channel ≠ "slack") (config : ChannelConfig) :
    channelSpecs channel config = [] := by
  simp [channelSpecs, h]

/-- The ids of the workers for Slack, in their order. -/
def slackIds : List String := ["channel:slack-socket", "channel:slack-backfill"]

theorem channelSpecs_sublist (channel : String) (config : ChannelConfig) :
    ((channelSpecs channel config).map (·.id)).Sublist slackIds := by
  unfold channelSpecs
  split
  · exact List.nil_sublist _
  · split
    · split
      · simp [slackIds, slackSocketSpec]
      · simp [slackIds, slackBackfillSpec]
      · split <;> simp [slackIds, slackSocketSpec, slackBackfillSpec]
    · exact List.nil_sublist _

theorem channels_sublist {channels : List (String × ChannelConfig)}
    (hchannels : (channels.map (·.1)).Nodup) :
    ((channels.flatMap fun entry => channelSpecs entry.1 entry.2).map (·.id)).Sublist slackIds := by
  induction channels with
  | nil => exact List.nil_sublist _
  | cons entry rest ih =>
    obtain ⟨hfresh, hrest⟩ := List.nodup_cons.mp hchannels
    rw [List.flatMap_cons, List.map_append]
    by_cases hslack : entry.1 = "slack"
    · -- the channels after it have other names
      have hnone : (rest.flatMap fun entry => channelSpecs entry.1 entry.2) = [] := by
        refine List.flatMap_eq_nil_iff.mpr fun other hother => channelSpecs_of_ne ?_ other.2
        intro hother'
        refine hfresh (List.mem_map.mpr ⟨other, hother, ?_⟩)
        exact hother'.trans hslack.symm
      rw [hnone, List.map_nil, List.append_nil]
      exact channelSpecs_sublist entry.1 entry.2
    · rw [channelSpecs_of_ne hslack, List.map_nil, List.nil_append]
      exact ih hrest

theorem nodup_buildWorkerSpecs {settings : GlobalSettings}
    (hchannels : (settings.channels.map (·.1)).Nodup) :
    ((buildWorkerSpecs settings).map (·.id)).Nodup := by
  have hsub : ((buildWorkerSpecs settings).map (·.id)).Sublist
      (["queue_processor", "orchestrator_dispatcher", "memory_worker", "scheduler", "heartbeat"] ++
        slackIds) := by
    unfold buildWorkerSpecs
    rw [List.map_append]
    refine List.Sublist.append ?_ (channels_sublist hchannels)
    split <;> split <;> simp
  exact hsub.nodup (by decide)

/-! ## The runtime -/

section Runtime

variable {settings : GlobalSettings} {pid : ℕ} {time : ℤ}
  {profiles : List Slack.SlackProfileCredentialHealth}

/-- `run_supervisor` with the workers that the settings ask for. -/
def runtime (settings : GlobalSettings) (pid : ℕ) (time : ℤ)
    (profiles : List Slack.SlackProfileCredentialHealth) : Supervision :=
  .start (buildWorkerSpecs settings) pid time profiles

/-- **The lock outlives the workers.** As long as a thread of a worker is alive the start
lock is held, and the state file says that the runtime runs, with its pid. -/
theorem lock_outlives_workers (hchannels : (settings.channels.map (·.1)).Nodup)
    (es : List SupervisionEvent)
    (halive : ¬ (run Supervision.step (runtime settings pid time profiles) es).Ended) :
    (run Supervision.step (runtime settings pid time profiles) es).locked = true ∧
      (run Supervision.step (runtime settings pid time profiles) es).file.running = true ∧
        (run Supervision.step (runtime settings pid time profiles) es).file.pid = some pid := by
  have hholds := Supervision.holds_run pid time profiles (nodup_buildWorkerSpecs hchannels) es
  have hholding := hholds.2.holding halive
  exact ⟨hholding.locked, hholding.file⟩

def slackWorkers : GlobalSettings where
  workspacesPath := "/srv"
  heartbeatInterval := some 0
  memory := { enabled := false }
  channels := [("local", { enabled := true }), ("slack", { enabled := true, inboundMode := .hybrid })]

/-- All are at work when the stop comes, and all but the Slack socket end in time; the supervisor
waits for its thread. -/
def oneWorkerLeft : List SupervisionEvent :=
  ([0, 1, 2, 3, 4].flatMap fun index => [.thread index .start 1, .thread index .enter 1]) ++
    .signalStop :: List.replicate 3 (.supervisor true false 2) ++
    ([0, 1, 2, 4].flatMap fun index => [.thread index .leave 3, .thread index .stop 3]) ++
    List.replicate 20 (.supervisor true true 9)

theorem lock_outlives_one_worker :
    (run Supervision.step (runtime slackWorkers 7 0 []) oneWorkerLeft).locked = true ∧
      (run Supervision.step (runtime slackWorkers 7 0 []) oneWorkerLeft).file.running = true ∧
        (run Supervision.step (runtime slackWorkers 7 0 []) oneWorkerLeft).file.pid = some 7 :=
  lock_outlives_workers (by decide) oneWorkerLeft (by decide)

/-- **The last record.** Once the lock is released, every worker has ended and the state
file says that the runtime has stopped. No worker is on record as running, and one is on
record as stopped exactly if its stop was received and what it had reported before that was
not an error. -/
theorem last_record (hchannels : (settings.channels.map (·.1)).Nodup)
    (es : List SupervisionEvent)
    (hreleased : (run Supervision.step (runtime settings pid time profiles) es).locked = false) :
    let d := run Supervision.step (runtime settings pid time profiles) es
    d.Ended ∧ d.file.running = false ∧ d.file.pid = none ∧
      ∀ spec ∈ buildWorkerSpecs settings, ∃ health,
        d.file.workers.lookup spec.id = some health ∧ health.state ≠ .running ∧
          (health.state = .stopped ↔ d.HeardStop spec.id ∧
            ¬ Last (·.text?.isSome) (·.isStopped) (own spec.id d.received)) := by
  intro d
  obtain ⟨hreported, hphase⟩ := Supervision.holds_run pid time profiles
    (nodup_buildWorkerSpecs hchannels) es
  obtain ⟨hsaved, hended⟩ := hphase.saved hreleased
  refine ⟨hended, ?_, ?_, fun spec hspec => ?_⟩
  · exact (congrArg _ hsaved.file).trans hsaved.stopped.1
  · exact (congrArg _ hsaved.file).trans hsaved.stopped.2
  · exact hsaved.health hreported (List.mem_map_of_mem hspec)

/-- Without memory and heartbeat there are three workers. The first gives up, the second
stops in time, the third dies. -/
def threeWorkers : GlobalSettings :=
  { workspacesPath := "/srv", heartbeatInterval := some 0, memory := { enabled := false } }

def threeEnds : List SupervisionEvent :=
  [.thread 0 .start 1, .thread 0 (.giveUp "no queue") 1, .thread 1 .start 2, .thread 1 .enter 2,
      .thread 2 .start 2, .thread 2 .panic 3, .signalStop] ++
    List.replicate 3 (.supervisor true false 4) ++
    [.thread 1 .leave 4, .thread 1 .stop 5] ++ List.replicate 5 (.supervisor true false 6) ++
    List.replicate 8 (.supervisor true true 9)

theorem last_record_of_threeEnds :
    let d := run Supervision.step (runtime threeWorkers 7 0 []) threeEnds
    d.Ended ∧ d.file.running = false ∧ d.file.pid = none ∧
      ∀ spec ∈ buildWorkerSpecs threeWorkers, ∃ health,
        d.file.workers.lookup spec.id = some health ∧ health.state ≠ .running ∧
          (health.state = .stopped ↔ d.HeardStop spec.id ∧
            ¬ Last (·.text?.isSome) (·.isStopped) (own spec.id d.received)) :=
  last_record (by decide) threeEnds (by decide)

end Runtime

end Direclaw.Runtime.Health
