import Direclaw.Provider.Runner

/-!
# Every process is accounted for

What a provider call returns, whatever the process does meanwhile. The process has been
waited for and both pipes are closed. If it ended by itself the result is read from its exit
status and the texts of the pipes, which are empty where they are no UTF-8; a process that was
killed is reported with its exit status, and what it printed is dropped.
-/

namespace Direclaw.Provider

open Direclaw.Lib Direclaw.Orchestration

variable {json : JsonText} {request : ProviderRequest} {spec : InvocationSpec}

/-- Started, and nobody has waited for it. -/
def Child.Unreaped (child : Child) : Prop := child = .running ∨ ∃ status, child = .ended status

namespace ProviderRun

def PipesClosed (s : ProviderRun) : Prop := s.stdout.closed = true ∧ s.stderr.closed = true

variable (json request spec)

/-- What a result says of the process. -/
inductive Reported (s : ProviderRun) : Except ProviderError ProviderResult → Prop where
  | notFound (hchild : s.child = .absent) :
      Reported s (.error (.missingBinary request.provider spec.binary (baseLog request spec)))
  | notStarted (reason : String) (hchild : s.child = .absent) :
      Reported s (.error (.io request.cwd reason))
  /-- Waiting itself failed. -/
  | lost (reason : String) (hchild : s.child.Unreaped) :
      Reported s (.error (.io request.cwd reason))
  /-- The process has ended by itself. -/
  | finished (status : ExitStatus) (hchild : s.child = .reaped status) (hclosed : s.PipesClosed) :
      Reported s (finishRun json request spec status s.stdout.text s.stderr.text)
  /-- The process was killed, and nothing is said of its output. -/
  | timedOut (status : ExitStatus) (hchild : s.child = .reaped status) (hclosed : s.PipesClosed) :
      Reported s (.error (timeoutError request spec status))

def PhaseHolds (s : ProviderRun) : Prop :=
  match s.phase with
  | .spawning busyAttempts =>
    s.child = .absent ∧ s.spawnCalls = busyAttempts ∧ busyAttempts < executableBusyMaxAttempts
  | .waiting | .killed => s.child.Unreaped
  | .joining _ status stdoutDone =>
    s.child = .reaped status ∧ (stdoutDone = true → s.stdout.closed = true)
  | .returned result => Reported json request spec s result

structure Accounted (s : ProviderRun) : Prop where
  phase : PhaseHolds json request spec s
  spawnCalls : s.spawnCalls ≤ executableBusyMaxAttempts

variable {json request spec}

theorem accounted_init : Accounted json request spec {} :=
  ⟨⟨rfl, rfl, by decide⟩, by decide⟩

/-! ## Steps of the process -/

theorem Reported.of_pipe {s t : ProviderRun} {result : Except ProviderError ProviderResult}
    (h : Reported json request spec s result) (hchild : t.child = s.child)
    (hpipes : s.PipesClosed → t.stdout = s.stdout ∧ t.stderr = s.stderr) :
    Reported json request spec t result := by
  cases h with
  | notFound habsent => exact .notFound (hchild.trans habsent)
  | notStarted reason habsent => exact .notStarted reason (hchild.trans habsent)
  | lost reason hunreaped => exact .lost reason (hchild ▸ hunreaped)
  | finished status hreaped hclosed =>
    obtain ⟨hout, herr⟩ := hpipes hclosed
    rw [← hout, ← herr]
    exact .finished status (hchild.trans hreaped) (by rwa [PipesClosed, hout, herr])
  | timedOut status hreaped hclosed =>
    obtain ⟨hout, herr⟩ := hpipes hclosed
    exact .timedOut status (hchild.trans hreaped) (by rwa [PipesClosed, hout, herr])

variable {s : ProviderRun}

theorem Accounted.onPipe (h : Accounted json request spec s) {f : Pipe → Pipe}
    (hf : ∀ pipe : Pipe, pipe.closed = true → f pipe = pipe) (stream : Stream) :
    Accounted json request spec (s.onPipe f stream) := by
  have hout : s.stdout.closed = true → (s.onPipe f stream).stdout = s.stdout := fun hclosed => by
    cases stream with
    | stdout => exact hf _ hclosed
    | stderr => rfl
  have herr : s.stderr.closed = true → (s.onPipe f stream).stderr = s.stderr := fun hclosed => by
    cases stream with
    | stdout => rfl
    | stderr => exact hf _ hclosed
  have hphase : (s.onPipe f stream).phase = s.phase := by cases stream <;> rfl
  have hchild : (s.onPipe f stream).child = s.child := by cases stream <;> rfl
  have hcalls : (s.onPipe f stream).spawnCalls = s.spawnCalls := by cases stream <;> rfl
  refine ⟨?_, hcalls ▸ h.spawnCalls⟩
  have hs := h.phase
  unfold PhaseHolds at hs ⊢
  rw [hphase]
  cases hat : s.phase with
  | spawning busyAttempts =>
    rw [hat] at hs
    exact ⟨hchild.trans hs.1, hcalls.trans hs.2.1, hs.2.2⟩
  | waiting | killed =>
    rw [hat] at hs
    exact hchild ▸ hs
  | joining timedOut status stdoutDone =>
    rw [hat] at hs
    exact ⟨hchild.trans hs.1, fun hdone => by rw [hout (hs.2 hdone), hs.2 hdone]⟩
  | returned result =>
    rw [hat] at hs
    exact hs.of_pipe hchild fun hclosed => ⟨hout hclosed.1, herr hclosed.2⟩

theorem Accounted.exits (h : Accounted json request spec s) (hrunning : s.child = .running)
    (status : ExitStatus) : Accounted json request spec { s with child := .ended status } := by
  refine ⟨?_, h.spawnCalls⟩
  have hs := h.phase
  unfold PhaseHolds at hs ⊢
  have hunreaped : (Child.ended status).Unreaped := .inr ⟨status, rfl⟩
  cases hat : s.phase with
  | spawning busyAttempts =>
    rw [hat, hrunning] at hs
    cases hs.1
  | waiting | killed => exact hunreaped
  | joining timedOut held stdoutDone =>
    rw [hat, hrunning] at hs
    cases hs.1
  | returned result =>
    rw [hat] at hs
    cases hs with
    | notFound habsent => cases hrunning.symm.trans habsent
    | notStarted reason habsent => cases hrunning.symm.trans habsent
    | lost reason _ => exact .lost reason hunreaped
    | finished held hreaped _ => cases hrunning.symm.trans hreaped
    | timedOut held hreaped _ => cases hrunning.symm.trans hreaped

/-! ## Steps of the runner -/

theorem Accounted.spawnStep {busyAttempts : ℕ} (h : Accounted json request spec s)
    (hat : s.phase = .spawning busyAttempts) (outcome : SpawnOutcome) :
    Accounted json request spec (s.spawnStep request spec busyAttempts outcome) := by
  have hs := h.phase
  unfold PhaseHolds at hs
  rw [hat] at hs
  obtain ⟨habsent, hcalls, hlt⟩ := hs
  have hle : s.spawnCalls + 1 ≤ executableBusyMaxAttempts := hcalls ▸ hlt
  cases outcome with
  | started => exact ⟨.inl rfl, hle⟩
  | notFound => exact ⟨.notFound habsent, hle⟩
  | failed reason => exact ⟨.notStarted reason habsent, hle⟩
  | busy reason =>
    unfold ProviderRun.spawnStep
    simp only
    split
    · exact ⟨.notStarted reason habsent, hle⟩
    · next hmore => exact ⟨⟨habsent, congrArg (· + 1) hcalls, not_le.mp hmore⟩, hle⟩

theorem Accounted.pollStep (h : Accounted json request spec s) (hat : s.phase = .waiting)
    (late : Bool) (failure : Option String) :
    Accounted json request spec (s.pollStep request late failure) := by
  have hs := h.phase
  unfold PhaseHolds at hs
  rw [hat] at hs
  cases failure with
  | some reason => exact ⟨.lost reason hs, h.spawnCalls⟩
  | none =>
    rcases hs with hrunning | ⟨status, hended⟩
    · simp only [ProviderRun.pollStep, hrunning]
      split
      · exact ⟨.inl rfl, h.spawnCalls⟩
      · exact h
    · simp only [ProviderRun.pollStep, hended]
      exact ⟨⟨rfl, fun hdone => by cases hdone⟩, h.spawnCalls⟩

theorem Accounted.waitStep (h : Accounted json request spec s) (hat : s.phase = .killed)
    (failure : Option String) : Accounted json request spec (s.waitStep request failure) := by
  have hs := h.phase
  unfold PhaseHolds at hs
  rw [hat] at hs
  cases failure with
  | some reason => exact ⟨.lost reason hs, h.spawnCalls⟩
  | none =>
    rcases hs with hrunning | ⟨status, hended⟩
    · simp only [ProviderRun.waitStep, hrunning]
      exact h
    · simp only [ProviderRun.waitStep, hended]
      exact ⟨⟨rfl, fun hdone => by cases hdone⟩, h.spawnCalls⟩

theorem Accounted.joinStep {timedOut stdoutDone : Bool} {status : ExitStatus}
    (h : Accounted json request spec s) (hat : s.phase = .joining timedOut status stdoutDone) :
    Accounted json request spec (s.joinStep json request spec timedOut status stdoutDone) := by
  have hs := h.phase
  unfold PhaseHolds at hs
  rw [hat] at hs
  obtain ⟨hreaped, hdone⟩ := hs
  unfold ProviderRun.joinStep
  cases stdoutDone with
  | false =>
    rw [if_pos (by rfl)]
    split
    · next hclosed => exact ⟨⟨hreaped, fun _ => hclosed⟩, h.spawnCalls⟩
    · exact h
  | true =>
    rw [if_neg (by decide)]
    split
    · next hclosed =>
        refine ⟨?_, h.spawnCalls⟩
        have hpipes : s.PipesClosed := ⟨hdone rfl, hclosed⟩
        cases timedOut with
        | false => exact .finished status hreaped hpipes
        | true => exact .timedOut status hreaped hpipes
    · exact h

theorem Accounted.step (h : Accounted json request spec s) (event : RunEvent) :
    Accounted json request spec (s.step json request spec event) := by
  cases event with
  | spawn outcome =>
    simp only [ProviderRun.step]
    split
    · next busyAttempts hat => exact h.spawnStep hat outcome
    · exact h
  | poll late failure =>
    simp only [ProviderRun.step]
    split
    · next hat => exact h.pollStep hat late failure
    · exact h
  | wait failure =>
    simp only [ProviderRun.step]
    split
    · next hat => exact h.waitStep hat failure
    · exact h
  | join =>
    simp only [ProviderRun.step]
    split
    · next timedOut status stdoutDone hat => exact h.joinStep hat
    · exact h
  | exits status =>
    simp only [ProviderRun.step]
    split
    · next hrunning => exact h.exits hrunning status
    · exact h
  | writes stream bytes =>
    simp only [ProviderRun.step]
    split
    · exact h
    · exact h.onPipe (fun pipe hclosed => if_pos hclosed) stream
  | closes stream =>
    simp only [ProviderRun.step]
    split
    · exact h
    · refine h.onPipe (fun pipe hclosed => ?_) stream
      rw [← hclosed]

/-! ## The end of a call -/

/-- The process is over, and so is what it prints. -/
structure Over (s : ProviderRun) : Prop where
  child : ∃ status, s.child = .ended status ∨ s.child = .reaped status
  pipes : s.PipesClosed

/-- What the runner still has to do then. -/
def lastTurns : List RunEvent := [.poll false none, .wait none, .join, .join]

theorem joins_return (json : JsonText) (request : ProviderRequest) (spec : InvocationSpec)
    (hpipes : s.PipesClosed) {timedOut stdoutDone : Bool} {status : ExitStatus}
    (hat : s.phase = .joining timedOut status stdoutDone) :
    ∃ result,
      (run (ProviderRun.step json request spec) s [.join, .join]).phase = .returned result := by
  obtain ⟨hout, herr⟩ := hpipes
  cases stdoutDone with
  | false => simp [run_cons, step, hat, joinStep, hout, herr, returns]
  | true => simp [run_cons, step, hat, joinStep, herr, returns]

theorem Accounted.lastTurns_return (h : Accounted json request spec s) (hover : s.Over) :
    ∃ result, (run (ProviderRun.step json request spec) s lastTurns).phase = .returned result := by
  obtain ⟨⟨status, hchild⟩, hpipes⟩ := hover
  have hended : s.child.Unreaped → s.child = .ended status := by
    rintro (hrunning | ⟨held, hheld⟩)
    · rcases hchild with hchild | hchild <;> cases hrunning.symm.trans hchild
    · rcases hchild with hchild | hchild
      · exact hchild
      · cases hheld.symm.trans hchild
  have hs := h.phase
  unfold PhaseHolds at hs
  cases hat : s.phase with
  | spawning busyAttempts =>
    rw [hat] at hs
    rcases hchild with hchild | hchild <;> cases hs.1.symm.trans hchild
  | returned result => exact ⟨result, by simp [lastTurns, run_cons, ProviderRun.step, hat]⟩
  | joining timedOut held stdoutDone =>
    have hjoins := joins_return json request spec hpipes hat
    simpa only [lastTurns, run_cons, ProviderRun.step, hat] using hjoins
  | waiting =>
    rw [hat] at hs
    have hjoins := joins_return json request spec
      (s := { s with phase := .joining false status false, child := .reaped status }) hpipes rfl
    simpa only [lastTurns, run_cons, ProviderRun.step, hat, ProviderRun.pollStep, hended hs]
      using hjoins
  | killed =>
    rw [hat] at hs
    have hjoins := joins_return json request spec
      (s := { s with phase := .joining true status false, child := .reaped status }) hpipes rfl
    simpa only [lastTurns, run_cons, ProviderRun.step, hat, ProviderRun.waitStep, hended hs]
      using hjoins

theorem accounted_run (json : JsonText) (request : ProviderRequest) (spec : InvocationSpec)
    (events : List RunEvent) :
    (run (ProviderRun.step json request spec) {} events).Accounted json request spec :=
  run_invariant' (I := Accounted json request spec) (fun _ event hs => hs.step event) events
    accounted_init

end ProviderRun

/-- What a process that ended by itself must be like for a message. -/
theorem finishRun_eq_ok {status : ExitStatus} {stdout stderr : String} {result : ProviderResult}
    (h : finishRun json request spec status stdout stderr = .ok result) :
    status = ⟨some 0⟩ ∧ parseMessage json request stdout = .ok result.message := by
  unfold finishRun at h
  simp only at h
  split at h
  · cases h
  · next hsuccess =>
      obtain ⟨message, hmessage, h⟩ := bind_eq_ok h
      cases h
      refine ⟨?_, mapError_eq_ok hmessage⟩
      obtain ⟨code⟩ := status
      simpa [ExitStatus.success] using hsuccess

/-- A message comes from a process that ended well, and from the whole of its output. -/
theorem message_of_runProvider {binaries : RunnerBinaries} {events : List RunEvent}
    {result : ProviderResult}
    (h : runProvider json request binaries events = some (.ok result)) :
    ∃ spec s, buildInvocation request binaries = .ok spec ∧
      s = run (ProviderRun.step json request spec) {} events ∧ s.child = .reaped ⟨some 0⟩ ∧
      s.PipesClosed ∧ parseMessage json request s.stdout.text = .ok result.message := by
  unfold runProvider at h
  split at h
  · cases h
  · next spec hspec =>
      have hphase := (ProviderRun.accounted_run json request spec events).phase
      refine ⟨spec, _, hspec, rfl, ?_⟩
      generalize run (ProviderRun.step json request spec) {} events = s at h hphase ⊢
      unfold ProviderRun.PhaseHolds at hphase
      split at h
      · next held hat =>
          rw [hat] at hphase
          cases h
          generalize hresult : Except.ok result = reported at hphase
          cases hphase with
          | notFound _ | notStarted _ _ | lost _ _ | timedOut _ _ _ => cases hresult
          | finished status hreaped hclosed =>
            obtain ⟨rfl, hmessage⟩ := finishRun_eq_ok hresult.symm
            exact ⟨hreaped, hclosed, hmessage⟩
      · cases h

end Direclaw.Provider
