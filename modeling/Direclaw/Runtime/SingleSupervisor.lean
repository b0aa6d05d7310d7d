import Direclaw.Runtime.SupervisorLock

/-!
# A single supervisor

The lock is held by one start at a time: by the starter itself, by a detached starter
and the child it has spawned, or by the child alone. As long as the file names a live one
of them nobody else gets past `create_new`, and what could take the name out of the file
are a cleanup that is late, a parent that dies before it has written the child's pid, and
a child that is done before.
-/

namespace Direclaw.Runtime

open Direclaw.Lib

namespace StartControl

/-- Past `reserve_start_lock` and not yet out. -/
def owns : StartControl → Bool
  | .fill _ | .recordSelf | .spawn | .recordChild _ | .abort _ | .saveRunning _ | .supervise _
  | .saveStopped _ | .clear _ => true
  | _ => false

def parent : StartControl → Option ℕ
  | .saveRunning parent | .supervise parent | .saveStopped parent | .clear parent => parent
  | _ => none

/-- A supervisor process past lock acquisition: the child of a detached start, or a
foreground start itself. -/
def supervises : StartControl → Bool
  | .fill .foreground | .recordSelf | .abort .foreground | .saveRunning _ | .supervise _
  | .saveStopped _ | .clear _ => true
  | _ => false

theorem owns_of_supervises {control : StartControl} (h : control.supervises = true) :
    control.owns = true := by
  cases control <;> first | rfl | cases h

theorem owns_of_parent {control : StartControl} {p : ℕ} (h : control.parent = some p) :
    control.owns = true := by
  cases control <;> first | rfl | cases h

end StartControl

def Machine.lockPid (m : Machine) : Option ℕ := m.lock.bind (·.pid)

def AtMostOneSupervisor (m : Machine) : Prop :=
  ∀ p q control control', m.procs p = some control → m.procs q = some control' →
    control.supervises = true → control'.supervises = true → p = q

/-- A cleanup takes the lock away only while it names the dead pid that was read from it;
a detached starter does not fail to write the child's pid, and the child is not done
before that. -/
def StartControl.safe (m : Machine) (pid : ℕ) (ok : Bool) : StartControl → Bool
  | .removeLock _ seen => m.lock.isNone || (seen.isSome && m.lockPid == seen)
  | .recordChild child => ok || (m.procs child).isNone
  | .clear (some parent) => m.procs parent != some (.recordChild pid)
  | _ => true

/-- A starter that dies has no live child left to record. -/
def StartControl.mayDie (m : Machine) : StartControl → Bool
  | .recordChild child => (m.procs child).isNone
  | _ => true

def StartSafe (m : Machine) : StartEvent → Prop
  | .start _ => True
  | .op pid ok => (m.procs pid).all (StartControl.safe m pid ok) = true
  | .crash pid => (m.procs pid).all (StartControl.mayDie m) = true

instance (m : Machine) : (event : StartEvent) → Decidable (StartSafe m event)
  | .start _ => inferInstanceAs (Decidable True)
  | .op pid ok => inferInstanceAs (Decidable ((m.procs pid).all (StartControl.safe m pid ok) = true))
  | .crash pid => inferInstanceAs (Decidable ((m.procs pid).all (StartControl.mayDie m) = true))

/-! ## Process ids -/

/-- The pid of another process that a control point carries. -/
def StartControl.mentions : StartControl → Option ℕ
  | .probeLock _ pid | .recordChild pid => some pid
  | .removeLock _ seen => seen
  | _ => none

/-- Ids are given out once, and a pid that was found dead stays dead. -/
structure Sane (m : Machine) : Prop where
  ids : ∀ p control, m.procs p = some control → 0 < p ∧ p < m.next
  lock : ∀ q, m.lockPid = some q → q < m.next
  mentioned : ∀ p control, m.procs p = some control → ∀ q, control.mentions = some q → q < m.next
  dead : ∀ p mode q, m.procs p = some (.removeLock mode (some q)) → m.procs q = none
  next : 0 < m.next

section Steps

variable {m : Machine} {pid : ℕ}

theorem Machine.goto_procs (m : Machine) (pid : ℕ) (control : StartControl) (q : ℕ) :
    (m.goto pid control).procs q = if q = pid then some control else m.procs q := rfl

theorem Machine.exit_procs (m : Machine) (pid q : ℕ) :
    (m.exit pid).procs q = if q = pid then none else m.procs q := rfl

theorem Machine.launch_procs (m : Machine) (control : StartControl) (q : ℕ) :
    (m.launch control).procs q = if q = m.next then some control else m.procs q := rfl

theorem Machine.launch_goto {pid : ℕ} (m : Machine) (hpid : pid ≠ m.next)
    (control child : StartControl) :
    (m.goto pid control).launch child = (m.launch child).goto pid control := by
  have hprocs : ((m.goto pid control).launch child).procs =
      ((m.launch child).goto pid control).procs := by
    funext q
    show (if q = m.next then some child else if q = pid then some control else m.procs q) =
      if q = pid then some control else if q = m.next then some child else m.procs q
    by_cases hq : q = pid
    · subst hq
      simp [hpid]
    · simp [hq]
  show Machine.mk _ _ _ _ = Machine.mk _ _ _ _
  rw [Machine.mk.injEq]
  exact ⟨hprocs, rfl, rfl, rfl⟩

theorem Sane.exit (h : Sane m) (pid : ℕ) (lock : Option LockFile)
    (hlock : ∀ q, lock.bind (·.pid) = some q → q < m.next) :
    Sane { m.exit pid with lock := lock } := by
  refine ⟨?_, hlock, ?_, ?_, h.next⟩
  · intro p control hp
    simp only [Machine.exit_procs] at hp
    split at hp
    · cases hp
    · exact h.ids p control hp
  · intro p control hp
    simp only [Machine.exit_procs] at hp
    split at hp
    · cases hp
    · exact h.mentioned p control hp
  · intro p mode q hp
    simp only [Machine.exit_procs] at hp ⊢
    split at hp
    · cases hp
    · split
      · rfl
      · exact h.dead p mode q hp

theorem Sane.goto (h : Sane m) {before : StartControl} (hpid : m.procs pid = some before)
    {control : StartControl} {lock : Option LockFile} {state : SupervisorState}
    (hlock : ∀ q, lock.bind (·.pid) = some q → q < m.next)
    (hmentions : ∀ q, control.mentions = some q → q < m.next)
    (hdead : ∀ mode q, control = .removeLock mode (some q) → m.procs q = none) :
    Sane { m.goto pid control with lock := lock, state := state } := by
  -- a dead process is not the one that moves
  have hother : ∀ q, m.procs q = none → (m.goto pid control).procs q = none := by
    intro q hq
    rw [Machine.goto_procs, if_neg]
    · exact hq
    · rintro rfl
      rw [hpid] at hq
      cases hq
  refine ⟨?_, hlock, ?_, ?_, h.next⟩
  · intro p found hp
    simp only [Machine.goto_procs] at hp
    split at hp
    · next heq =>
        rw [heq]
        exact h.ids pid before hpid
    · exact h.ids p found hp
  · intro p found hp
    simp only [Machine.goto_procs] at hp
    split at hp
    · cases hp
      exact hmentions
    · exact h.mentioned p found hp
  · intro p mode q hp
    simp only [Machine.goto_procs] at hp
    split at hp
    · cases hp
      exact hother q (hdead mode q rfl)
    · exact hother q (h.dead p mode q hp)

theorem Sane.goto_plain (h : Sane m) {before : StartControl} (hpid : m.procs pid = some before)
    {control : StartControl} {lock : Option LockFile} {state : SupervisorState}
    (hlock : ∀ q, lock.bind (·.pid) = some q → q < m.next) (hplain : control.mentions = none) :
    Sane { m.goto pid control with lock := lock, state := state } := by
  refine h.goto hpid hlock (fun q hq => by rw [hplain] at hq; cases hq) ?_
  rintro mode q rfl
  cases hplain

theorem Sane.launch (h : Sane m) {control : StartControl} (hplain : control.mentions = none) :
    Sane (m.launch control) := by
  refine ⟨?_, fun q hq => Nat.lt_succ_of_lt (h.lock q hq), ?_, ?_, Nat.succ_pos _⟩
  · intro p found hp
    simp only [Machine.launch, Machine.goto_procs] at hp
    split at hp
    · next heq =>
        rw [heq]
        exact ⟨h.next, Nat.lt_succ_self _⟩
    · obtain ⟨hpos, hlt⟩ := h.ids p found hp
      exact ⟨hpos, Nat.lt_succ_of_lt hlt⟩
  · intro p found hp q hq
    simp only [Machine.launch, Machine.goto_procs] at hp
    split at hp
    · cases hp
      rw [hplain] at hq
      cases hq
    · exact Nat.lt_succ_of_lt (h.mentioned p found hp q hq)
  · intro p mode q hp
    simp only [Machine.launch, Machine.goto_procs] at hp ⊢
    split at hp
    · cases hp
      cases hplain
    · have hlt := h.mentioned p _ hp q rfl
      rw [if_neg (Nat.ne_of_lt hlt)]
      exact h.dead p mode q hp

theorem Sane.dead_of_not_alive (h : Sane m) {q : ℕ} (hq : m.alive q ≠ true) :
    m.procs q = none := by
  cases hproc : m.procs q with
  | none => rfl
  | some control =>
    obtain ⟨hpos, -⟩ := h.ids q control hproc
    refine absurd ?_ hq
    simp only [Machine.alive, hproc, Option.isSome_some, Bool.and_true, bne_iff_ne]
    omega

/-- Up to the cleanup of the lock and while the state is written the lock is left alone. -/
def StartControl.keepsLock : StartControl → Bool
  | .loadState _ | .probeState _ _ | .readLock _ _ | .probeLock _ _ | .resetState _
  | .saveRunning _ | .supervise _ | .saveStopped _ => true
  | _ => false

/-- The point that a process goes on to when it leaves the lock alone. -/
structure StartControl.Goes (m : Machine) (control next : StartControl) : Prop where
  owns : next.owns = control.owns
  parent : next.parent = control.parent
  mentioned : ∀ q, next.mentions = some q → m.lockPid = some q ∨ control.mentions = some q
  dead : ∀ mode q, next = .removeLock mode (some q) → m.alive q ≠ true

/-- A point that carries no pid. -/
theorem StartControl.Goes.plain {control next : StartControl} (howns : next.owns = control.owns)
    (hparent : next.parent = control.parent) (hplain : next.mentions = none) :
    control.Goes m next := by
  refine ⟨howns, hparent, fun q hq => ?_, ?_⟩
  · rw [hplain] at hq
    cases hq
  · rintro mode q rfl
    cases hplain

/-- What leaves the lock alone ends its process or takes it to the next point. -/
theorem StartControl.advance_of_keepsLock {control : StartControl}
    (h : control.keepsLock = true) (m : Machine) (pid : ℕ) (ok : Bool) :
    control.advance m pid ok = m.exit pid ∨
      ∃ next state, control.Goes m next ∧
        control.advance m pid ok = { m.goto pid next with state := state } := by
  cases control with
  | loadState mode =>
    simp only [advance]
    split
    · exact .inl rfl
    right
    split
    · next recorded _ =>
        split
        · exact ⟨.probeState mode recorded, m.state, .plain rfl rfl rfl, rfl⟩
        · exact ⟨.readLock mode true, m.state, .plain rfl rfl rfl, rfl⟩
    · exact ⟨.readLock mode m.state.running, m.state, .plain rfl rfl rfl, rfl⟩
  | probeState mode recorded =>
    simp only [advance]
    split
    · exact .inl rfl
    · exact .inr ⟨.readLock mode true, m.state, .plain rfl rfl rfl, rfl⟩
  | readLock mode recorded =>
    simp only [advance]
    split
    · exact .inl rfl
    right
    split
    · next owner howner =>
        refine ⟨.probeLock mode owner, m.state, ⟨rfl, rfl, ?_, nofun⟩, rfl⟩
        rintro q ⟨⟩
        exact .inl howner
    · split
      · exact ⟨.removeLock mode none, m.state, .plain rfl rfl rfl, rfl⟩
      · exact ⟨.reserve mode, m.state, .plain rfl rfl rfl, rfl⟩
  | probeLock mode owner =>
    simp only [advance]
    split
    · exact .inl rfl
    · next hdead =>
        refine .inr ⟨.removeLock mode (some owner), m.state,
          ⟨rfl, rfl, fun q hq => .inr hq, ?_⟩, rfl⟩
        rintro _ q ⟨⟩
        exact hdead
  | resetState mode =>
    simp only [advance]
    split
    · exact .inl rfl
    · exact .inr ⟨.reserve mode, {}, .plain rfl rfl rfl, rfl⟩
  | saveRunning parent =>
    simp only [advance]
    split
    · exact .inr ⟨.supervise parent, { running := true, pid := some pid }, .plain rfl rfl rfl,
        rfl⟩
    · cases parent with
      | none => exact .inr ⟨.clear none, m.state, .plain rfl rfl rfl, rfl⟩
      | some p => exact .inl rfl
  | supervise parent => exact .inr ⟨.saveStopped parent, m.state, .plain rfl rfl rfl, rfl⟩
  | saveStopped parent =>
    simp only [advance]
    split
    · exact .inr ⟨.clear parent, {}, .plain rfl rfl rfl, rfl⟩
    · cases parent with
      | none => exact .inr ⟨.clear none, m.state, .plain rfl rfl rfl, rfl⟩
      | some p => exact .inl rfl
  | removeLock | reserve | fill | recordSelf | spawn | recordChild | abort | clear => cases h

theorem Sane.keepsLock (h : Sane m) {control : StartControl} (hpid : m.procs pid = some control)
    (hkeeps : control.keepsLock = true) (ok : Bool) : Sane (control.advance m pid ok) := by
  rcases StartControl.advance_of_keepsLock hkeeps m pid ok with
    hexit | ⟨next, state, hnext, hgoto⟩
  · rw [hexit]
    exact h.exit pid m.lock h.lock
  · rw [hgoto]
    refine h.goto hpid h.lock (fun q hq => ?_) fun mode q heq => ?_
    · rcases hnext.mentioned q hq with hlock | hmentions
      · exact h.lock q hlock
      · exact h.mentioned pid control hpid q hmentions
    · exact h.dead_of_not_alive (hnext.dead mode q heq)

theorem Sane.op (h : Sane m) {control : StartControl} (hpid : m.procs pid = some control)
    (ok : Bool) : Sane (control.advance m pid ok) := by
  have hlt := (h.ids pid control hpid).2
  have hexit := h.exit pid m.lock h.lock
  have hnone : ∀ q, (none : Option LockFile).bind (·.pid) = some q → q < m.next := by simp
  have hremoved : ∀ q, (if ok then none else m.lock).bind (·.pid) = some q → q < m.next := by
    cases ok with
    | true => exact hnone
    | false => exact h.lock
  have hself : ∀ q, (some (LockFile.mk pid (some pid))).bind (·.pid) = some q → q < m.next := by
    rintro q ⟨⟩
    exact hlt
  cases control with
  | loadState | probeState | readLock | probeLock | resetState | saveRunning | supervise
  | saveStopped => exact h.keepsLock hpid rfl ok
  | removeLock mode seen => exact h.goto_plain hpid hremoved rfl
  | reserve mode =>
    simp only [StartControl.advance]
    split
    · exact hexit
    · exact h.goto_plain hpid (by simp) rfl
  | fill mode =>
    simp only [StartControl.advance]
    split
    · exact hexit
    · refine h.goto_plain hpid ?_ (by cases mode <;> rfl)
      intro q hq
      cases hlock : m.lock with
      | none => simp [hlock] at hq
      | some lock =>
        simp only [hlock, Option.map_some, Option.bind_some] at hq
        split at hq
        · cases hq
          exact hlt
        · exact h.lock q (by rw [Machine.lockPid, hlock]; exact hq)
  | recordSelf =>
    simp only [StartControl.advance]
    split
    · exact h.goto_plain hpid hself rfl
    · exact h.goto_plain hpid h.lock rfl
  | spawn =>
    simp only [StartControl.advance]
    split
    · -- as if the child had been made before its parent moves on
      rw [Machine.launch_goto _ (Nat.ne_of_lt hlt)]
      have hlaunched := @Sane.launch m h (.saveRunning (some pid)) rfl
      have hparent : (m.launch (.saveRunning (some pid))).procs pid = some .spawn := by
        rw [Machine.launch_procs, if_neg (Nat.ne_of_lt hlt)]
        exact hpid
      refine hlaunched.goto hparent hlaunched.lock ?_ (by simp)
      rintro q ⟨⟩
      exact Nat.lt_succ_self _
    · exact h.goto_plain hpid h.lock rfl
  | recordChild child =>
    simp only [StartControl.advance]
    split
    · refine h.exit pid _ ?_
      rintro q ⟨⟩
      exact h.mentioned pid _ hpid child rfl
    · exact h.goto_plain hpid h.lock rfl
  | abort mode => exact h.exit pid _ hremoved
  | clear parent => exact h.exit pid _ hremoved

/-! ## Who holds the lock -/

/-- The lock is held by nobody, by a starter, by a starter that has spawned its child, or
by a child on its own; the file names a live holder, or the starter has just made it. -/
inductive Held (m : Machine) : Prop where
  | nobody (only : ∀ q found, m.procs q = some found → found.owns = false)
  | starter (p : ℕ) (control : StartControl) (hp : m.procs p = some control)
      (howns : control.owns = true) (hroot : control.parent = none)
      (only : ∀ q found, m.procs q = some found → found.owns = true → q = p)
      (hlock : m.lockPid = some p ∨
        (∃ mode, control = .fill mode) ∧ m.lock = some { creator := p, pid := none })
  | handing (p c : ℕ) (control : StartControl) (hp : m.procs p = some (.recordChild c))
      (hc : m.procs c = some control) (hparent : control.parent = some p)
      (only : ∀ q found, m.procs q = some found → found.owns = true → q = p ∨ q = c)
      (hlock : m.lockPid = some p)
  | child (c p : ℕ) (control : StartControl) (hc : m.procs c = some control)
      (hparent : control.parent = some p)
      (only : ∀ q found, m.procs q = some found → found.owns = true → q = c)
      (hlock : m.lockPid = some c)

theorem Held.atMostOne (h : Held m) : AtMostOneSupervisor m := by
  intro p q control control' hp hq hsup hsup'
  have howns := StartControl.owns_of_supervises hsup
  have howns' := StartControl.owns_of_supervises hsup'
  cases h with
  | nobody only =>
    rw [only p control hp] at howns
    cases howns
  | starter r _ _ _ _ only _ => rw [only p control hp howns, only q control' hq howns']
  | child c _ _ _ _ only _ => rw [only p control hp howns, only q control' hq howns']
  | handing r c found hr hc _ only _ =>
    -- the starter that waits to record its child is no supervisor
    have hchild : ∀ x current, m.procs x = some current → current.supervises = true →
        x = c := by
      intro x current hx hcurrent
      rcases only x current hx (StartControl.owns_of_supervises hcurrent) with rfl | rfl
      · rw [hr] at hx
        cases hx
        cases hcurrent
      · rfl
    rw [hchild p control hp hsup, hchild q control' hq hsup']

/-- What no owner has done leaves the lock where it is. -/
theorem Held.frame {m' : Machine} (h : Held m) (hlock : m'.lock = m.lock)
    (hprocs : ∀ q control, control.owns = true →
      (m'.procs q = some control ↔ m.procs q = some control)) : Held m' := by
  have hpid : m'.lockPid = m.lockPid := by rw [Machine.lockPid, hlock]; rfl
  cases h with
  | nobody only =>
    refine .nobody fun q found hq => ?_
    cases howns : found.owns with
    | false => rfl
    | true => rw [← howns, only q found ((hprocs q found howns).mp hq)]
  | starter p control hp howns hroot only hl =>
    exact .starter p control ((hprocs p control howns).mpr hp) howns hroot
      (fun q found hq ho => only q found ((hprocs q found ho).mp hq) ho)
      (by rw [hpid, hlock]; exact hl)
  | handing p c control hp hc hparent only hl =>
    exact .handing p c control ((hprocs p _ rfl).mpr hp)
      ((hprocs c control (StartControl.owns_of_parent hparent)).mpr hc) hparent
      (fun q found hq ho => only q found ((hprocs q found ho).mp hq) ho) (hpid.trans hl)
  | child c p control hc hparent only hl =>
    exact .child c p control
      ((hprocs c control (StartControl.owns_of_parent hparent)).mpr hc) hparent
      (fun q found hq ho => only q found ((hprocs q found ho).mp hq) ho) (hpid.trans hl)

/-- A process that owns nothing goes on, and still owns nothing. -/
theorem Held.goto_free (h : Held m) {before control : StartControl}
    (hpid : m.procs pid = some before) (hbefore : before.owns = false)
    (hcontrol : control.owns = false) (state : SupervisorState) :
    Held { m.goto pid control with state := state } := by
  refine h.frame rfl fun q found howns => ?_
  simp only [Machine.goto_procs]
  by_cases hq : q = pid
  · subst hq
    rw [if_pos rfl, hpid]
    constructor
    · rintro ⟨⟩
      rw [hcontrol] at howns
      cases howns
    · rintro ⟨⟩
      rw [hbefore] at howns
      cases howns
  · rw [if_neg hq]

/-- A process goes, unless it has a child to record. -/
theorem Held.exit (h : Held m) (pid : ℕ)
    (hsafe : ∀ c, m.procs pid = some (.recordChild c) → m.procs c = none) :
    Held (m.exit pid) := by
  have hmem : ∀ q found, (m.exit pid).procs q = some found → q ≠ pid ∧ m.procs q = some found := by
    intro q found hq
    simp only [Machine.exit_procs] at hq
    split at hq
    · cases hq
    · next hne => exact ⟨hne, hq⟩
  have hstays : ∀ q found, m.procs q = some found → q ≠ pid → (m.exit pid).procs q = some found := by
    intro q found hq hne
    rw [Machine.exit_procs, if_neg hne, hq]
  cases h with
  | nobody only => exact .nobody fun q found hq => only q found (hmem q found hq).2
  | starter p control hp howns hroot only hlock =>
    by_cases heq : p = pid
    · refine .nobody fun q found hq => ?_
      obtain ⟨hne, hold⟩ := hmem q found hq
      cases ho : found.owns with
      | false => rfl
      | true => exact absurd ((only q found hold ho).trans heq) hne
    · exact .starter p control (hstays p control hp heq) howns hroot
        (fun q found hq ho => only q found (hmem q found hq).2 ho) hlock
  | handing p c control hp hc hparent only hlock =>
    have hne : p ≠ pid := by
      rintro rfl
      rw [hsafe c hp] at hc
      cases hc
    by_cases heq : c = pid
    · refine .starter p (.recordChild c) (hstays p _ hp hne) rfl rfl ?_ (.inl hlock)
      intro q found hq ho
      obtain ⟨hq', hold⟩ := hmem q found hq
      exact (only q found hold ho).resolve_right fun hqc => hq' (hqc.trans heq)
    · exact .handing p c control (hstays p _ hp hne) (hstays c control hc heq) hparent
        (fun q found hq ho => only q found (hmem q found hq).2 ho) hlock
  | child c p control hc hparent only hlock =>
    by_cases heq : c = pid
    · refine .nobody fun q found hq => ?_
      obtain ⟨hne, hold⟩ := hmem q found hq
      cases ho : found.owns with
      | false => rfl
      | true => exact absurd ((only q found hold ho).trans heq) hne
    · exact .child c p control (hstays c control hc heq) hparent
        (fun q found hq ho => only q found (hmem q found hq).2 ho) hlock

/-- A lock that is away, or names a dead process, is held by nobody. -/
theorem Held.nobody_of_dead (h : Held m)
    (hdead : m.lock = none ∨ ∃ q, m.lockPid = some q ∧ m.procs q = none) :
    ∀ q found, m.procs q = some found → found.owns = false := by
  have hlive : ∀ p control, m.procs p = some control → m.lockPid ≠ some p := by
    intro p control hp hlock
    rcases hdead with hnone | ⟨q, hq, hdead⟩
    · rw [Machine.lockPid, hnone] at hlock
      cases hlock
    · rw [hlock] at hq
      cases hq
      rw [hp] at hdead
      cases hdead
  cases h with
  | nobody only => exact only
  | starter p control hp howns hroot only hlock =>
    rcases hlock with hlock | ⟨-, hlock⟩
    · exact absurd hlock (hlive p control hp)
    · rcases hdead with hnone | ⟨q, hq, -⟩
      · rw [hlock] at hnone
        cases hnone
      · rw [Machine.lockPid, hlock] at hq
        cases hq
  | handing p c control hp hc hparent only hlock => exact absurd hlock (hlive p _ hp)
  | child c p control hc hparent only hlock => exact absurd hlock (hlive c _ hc)

/-- Nobody is left when the only owner goes, whatever becomes of the file. -/
theorem Held.exit_only (only : ∀ q found, m.procs q = some found → found.owns = true → q = pid)
    (lock : Option LockFile) : Held { m.exit pid with lock := lock } := by
  refine .nobody fun q found hq => ?_
  simp only [Machine.exit_procs] at hq
  split at hq
  · cases hq
  · next hne =>
      cases ho : found.owns with
      | false => rfl
      | true => exact absurd (only q found hq ho) hne

/-- The only owner goes on as a starter. -/
theorem Held.goto_starter
    (only : ∀ q found, m.procs q = some found → found.owns = true → q = pid)
    {control : StartControl} (howns : control.owns = true) (hroot : control.parent = none)
    {lock : Option LockFile} {state : SupervisorState}
    (hlock : lock.bind (·.pid) = some pid ∨
      (∃ mode, control = .fill mode) ∧ lock = some { creator := pid, pid := none }) :
    Held { m.goto pid control with lock := lock, state := state } := by
  refine .starter pid control (if_pos rfl) howns hroot ?_ hlock
  intro q found hq ho
  simp only [Machine.goto_procs] at hq
  split at hq
  · assumption
  · exact only q found hq ho

/-- A starter that has no child holds the lock alone. -/
theorem Held.of_starter (h : Held m) {control : StartControl} (hpid : m.procs pid = some control)
    (howns : control.owns = true) (hroot : control.parent = none)
    (hchild : ∀ c, control ≠ .recordChild c) :
    (∀ q found, m.procs q = some found → found.owns = true → q = pid) ∧
      (m.lockPid = some pid ∨
        (∃ mode, control = .fill mode) ∧ m.lock = some { creator := pid, pid := none }) := by
  cases h with
  | nobody only =>
    rw [only pid control hpid] at howns
    cases howns
  | starter p found hp _ _ only hlock =>
    obtain rfl := only pid control hpid howns
    rw [hpid] at hp
    cases hp
    exact ⟨only, hlock⟩
  | handing p c found hp hc hparent only hlock =>
    rcases only pid control hpid howns with rfl | rfl
    · rw [hpid] at hp
      cases hp
      exact absurd rfl (hchild c)
    · rw [hpid] at hc
      cases hc
      rw [hroot] at hparent
      cases hparent
  | child c p found hc hparent only hlock =>
    obtain rfl := only pid control hpid howns
    rw [hpid] at hc
    cases hc
    rw [hroot] at hparent
    cases hparent

/-- A child holds the lock alone, or its parent has yet to record it. -/
theorem Held.of_child (h : Held m) {control : StartControl} {p : ℕ}
    (hpid : m.procs pid = some control) (hparent : control.parent = some p) :
    (m.procs p = some (.recordChild pid) ∧ m.lockPid = some p ∧
        ∀ q found, m.procs q = some found → found.owns = true → q = p ∨ q = pid) ∨
      m.lockPid = some pid ∧
        ∀ q found, m.procs q = some found → found.owns = true → q = pid := by
  have howns := StartControl.owns_of_parent hparent
  cases h with
  | nobody only =>
    rw [only pid control hpid] at howns
    cases howns
  | starter r found hr _ hroot only hlock =>
    obtain rfl := only pid control hpid howns
    rw [hpid] at hr
    cases hr
    rw [hroot] at hparent
    cases hparent
  | handing r c found hr hc hfound only hlock =>
    rcases only pid control hpid howns with rfl | rfl
    · rw [hpid] at hr
      cases hr
      cases hparent
    · rw [hpid] at hc
      cases hc
      rw [hparent] at hfound
      cases hfound
      exact .inl ⟨hr, hlock, only⟩
  | child c r found hc hfound only hlock =>
    obtain rfl := only pid control hpid howns
    exact .inr ⟨hlock, only⟩

/-- A starter about to record its child holds the lock with it, or alone if it is gone. -/
theorem Held.of_recording (h : Held m) {c : ℕ} (hpid : m.procs pid = some (.recordChild c)) :
    ((∀ q found, m.procs q = some found → found.owns = true → q = pid) ∧ m.lockPid = some pid) ∨
      ∃ control, m.procs c = some control ∧ control.parent = some pid ∧
        (∀ q found, m.procs q = some found → found.owns = true → q = pid ∨ q = c) ∧
          m.lockPid = some pid := by
  cases h with
  | nobody only => cases only pid _ hpid
  | starter p found hp _ _ only hlock =>
    obtain rfl := only pid _ hpid rfl
    rw [hpid] at hp
    cases hp
    exact .inl ⟨only, hlock.resolve_right (by simp)⟩
  | handing p child found hp hc hparent only hlock =>
    rcases only pid _ hpid rfl with rfl | rfl
    · rw [hpid] at hp
      cases hp
      exact .inr ⟨found, hc, hparent, only, hlock⟩
    · rw [hpid] at hc
      cases hc
      cases hparent
  | child child p found hc hparent only hlock =>
    obtain rfl := only pid _ hpid rfl
    rw [hpid] at hc
    cases hc
    cases hparent

theorem Held.goto_supervisor (h : Held m) {control : StartControl}
    (hpid : m.procs pid = some control) (after : StartControl) (state : SupervisorState)
    (howns : control.owns = true) (hafter : after.owns = true)
    (hparent : after.parent = control.parent) (hchild : ∀ c, control ≠ .recordChild c)
    (hfill : ∀ mode, control ≠ .fill mode) : Held { m.goto pid after with state := state } := by
  cases hp : control.parent with
  | none =>
    obtain ⟨only, hlock⟩ := h.of_starter hpid howns hp hchild
    refine Held.goto_starter only hafter (hparent.trans hp) (.inl ?_)
    rcases hlock with hlock | ⟨⟨mode, heq⟩, -⟩
    · exact hlock
    · exact absurd heq (hfill mode)
  | some p =>
    have hne : ∀ q found, (m.goto pid after).procs q = some found → found.owns = true →
        q = pid ∨ m.procs q = some found := by
      intro q found hq _
      simp only [Machine.goto_procs] at hq
      split at hq
      · next heq => exact .inl heq
      · exact .inr hq
    rcases h.of_child hpid hp with ⟨hrecord, hlock, only⟩ | ⟨hlock, only⟩
    · refine .handing p pid after ?_ (if_pos rfl) (hparent.trans hp) ?_ hlock
      · show (m.goto pid after).procs p = some (.recordChild pid)
        rw [Machine.goto_procs, if_neg]
        · exact hrecord
        · rintro rfl
          rw [hpid] at hrecord
          cases hrecord
          cases hp
      · intro q found hq ho
        rcases hne q found hq ho with heq | hold
        · exact .inr heq
        · exact only q found hold ho
    · refine .child pid p after (if_pos rfl) (hparent.trans hp) ?_ hlock
      intro q found hq ho
      rcases hne q found hq ho with heq | hold
      · exact heq
      · exact only q found hold ho

/-! ## One operation -/

/-- What is removed belongs to nobody that runs. -/
theorem Held.removeLock (h : Held m) (hsane : Sane m) {mode : StartMode} {seen : Option ℕ}
    (hpid : m.procs pid = some (.removeLock mode seen)) {ok : Bool}
    (hsafe : StartSafe m (.op pid ok)) :
    Held ((StartControl.removeLock mode seen).advance m pid ok) := by
  simp only [StartSafe, hpid, Option.all_some] at hsafe
  have hdead : m.lock = none ∨ ∃ q, m.lockPid = some q ∧ m.procs q = none := by
    simp only [StartControl.safe, Bool.or_eq_true, Option.isNone_iff_eq_none,
      Bool.and_eq_true, beq_iff_eq] at hsafe
    rcases hsafe with hnone | ⟨hsome, hlock⟩
    · exact .inl hnone
    · obtain ⟨q, rfl⟩ := Option.isSome_iff_exists.mp hsome
      exact .inr ⟨q, hlock, hsane.dead pid mode q hpid⟩
  have hnobody := h.nobody_of_dead hdead
  refine .nobody fun q found hq => ?_
  simp only [StartControl.advance, Machine.goto_procs] at hq
  split at hq
  · cases hq
    rfl
  · exact hnobody q found hq

/-- Who creates the lock is the only one that owns it. -/
theorem Held.reserve (h : Held m) {mode : StartMode} (hpid : m.procs pid = some (.reserve mode))
    (ok : Bool) : Held ((StartControl.reserve mode).advance m pid ok) := by
  simp only [StartControl.advance]
  split
  · refine h.exit pid fun c hc => ?_
    rw [hpid] at hc
    cases hc
  · next hfree =>
      have hnone : m.lock = none := by
        cases hlock : m.lock with
        | none => rfl
        | some lock => simp [hlock] at hfree
      refine Held.goto_starter ?_ rfl rfl (.inr ⟨⟨mode, rfl⟩, rfl⟩)
      intro q found hq ho
      rw [h.nobody_of_dead (.inl hnone) q found hq] at ho
      cases ho

/-- The starter hands over to a child, which is not known to the lock yet. -/
theorem Held.spawn (h : Held m) (hsane : Sane m) (hpid : m.procs pid = some .spawn) (ok : Bool) :
    Held (StartControl.spawn.advance m pid ok) := by
  obtain ⟨only, hlock⟩ := h.of_starter hpid rfl rfl (by simp)
  have hlock : m.lockPid = some pid := hlock.resolve_right (by simp)
  have hlt := (hsane.ids pid _ hpid).2
  simp only [StartControl.advance]
  split
  · refine .handing pid m.next (.saveRunning (some pid)) ?_ (if_pos rfl) rfl ?_ hlock
    · rw [Machine.launch_goto _ (Nat.ne_of_lt hlt)]
      exact if_pos rfl
    · intro q found hq ho
      simp only [Machine.launch_procs] at hq
      split at hq
      · next heq => exact .inr heq
      · left
        simp only [Machine.goto_procs] at hq
        split at hq
        · assumption
        · exact only q found hq ho
  · exact Held.goto_starter only rfl rfl (.inl hlock)

theorem Held.recordChild (h : Held m) {c : ℕ} (hpid : m.procs pid = some (.recordChild c))
    {ok : Bool} (hsafe : StartSafe m (.op pid ok)) :
    Held ((StartControl.recordChild c).advance m pid ok) := by
  simp only [StartSafe, hpid, Option.all_some] at hsafe
  simp only [StartControl.advance]
  rcases h.of_recording hpid with ⟨only, hlock⟩ | ⟨child, hc, hparent, only, hlock⟩
  · split
    · exact Held.exit_only only _
    · exact Held.goto_starter only rfl rfl (.inl hlock)
  · split
    · have hne : c ≠ pid := by
        rintro rfl
        rw [hpid] at hc
        cases hc
        cases hparent
      refine .child c pid child ?_ hparent ?_ rfl
      · show (m.exit pid).procs c = some child
        rw [Machine.exit_procs, if_neg hne, hc]
      · intro q found hq ho
        simp only [Machine.exit_procs] at hq
        split at hq
        · cases hq
        · next hne => exact (only q found hq ho).resolve_left hne
    · next hfailed =>
        -- a failed write is safe only without the child
        simp only [StartControl.safe, hc, Option.isNone_some, Bool.or_false] at hsafe
        exact absurd hsafe hfailed

/-- Who owns the lock still does, and who does not still does not. -/
theorem Held.keepsLock (h : Held m) {control : StartControl} (hpid : m.procs pid = some control)
    (hkeeps : control.keepsLock = true) (ok : Bool) : Held (control.advance m pid ok) := by
  have hchild : ∀ c, control ≠ .recordChild c := by
    rintro c rfl
    cases hkeeps
  have hfill : ∀ mode, control ≠ .fill mode := by
    rintro mode rfl
    cases hkeeps
  rcases StartControl.advance_of_keepsLock hkeeps m pid ok with
    hexit | ⟨next, state, hnext, hgoto⟩
  · rw [hexit]
    refine h.exit pid fun c hc => ?_
    rw [hpid] at hc
    cases hc
    exact absurd rfl (hchild c)
  · rw [hgoto]
    cases howns : control.owns with
    | false => exact h.goto_free hpid howns (hnext.owns.trans howns) state
    | true =>
      exact h.goto_supervisor hpid next state howns (hnext.owns.trans howns) hnext.parent hchild
        hfill

theorem Held.op (h : Held m) (hsane : Sane m) {control : StartControl}
    (hpid : m.procs pid = some control) {ok : Bool} (hsafe : StartSafe m (.op pid ok)) :
    Held (control.advance m pid ok) := by
  cases control with
  | loadState | probeState | readLock | probeLock | resetState | saveRunning | supervise
  | saveStopped => exact h.keepsLock hpid rfl ok
  | removeLock mode seen => exact h.removeLock hsane hpid hsafe
  | reserve mode => exact h.reserve hpid ok
  | fill mode =>
    simp only [StartControl.advance]
    split
    · refine h.exit pid fun c hc => ?_
      rw [hpid] at hc
      cases hc
    · obtain ⟨only, hlock⟩ := h.of_starter hpid rfl rfl (by simp)
      refine Held.goto_starter only (by cases mode <;> rfl) (by cases mode <;> rfl) (.inl ?_)
      rcases hlock with hlock | ⟨-, hlock⟩
      · obtain ⟨file, hfile, hfilePid⟩ := Option.bind_eq_some_iff.mp hlock
        rw [hfile, Option.map_some, Option.bind_some]
        split
        · rfl
        · exact hfilePid
      · rw [hlock]
        simp
  | recordSelf =>
    obtain ⟨only, hlock⟩ := h.of_starter hpid rfl rfl (by simp)
    simp only [StartControl.advance]
    split
    · exact Held.goto_starter only rfl rfl (.inl rfl)
    · refine Held.goto_starter only rfl rfl (.inl ?_)
      exact hlock.resolve_right (by simp)
  | spawn => exact h.spawn hsane hpid ok
  | recordChild c => exact h.recordChild hpid hsafe
  | abort mode =>
    obtain ⟨only, -⟩ := h.of_starter hpid rfl rfl (by simp)
    exact Held.exit_only only _
  | clear parent =>
    cases parent with
    | none =>
      obtain ⟨only, -⟩ := h.of_starter hpid rfl rfl (by simp)
      exact Held.exit_only only _
    | some p =>
      rcases h.of_child hpid rfl with ⟨hrecord, -⟩ | ⟨-, only⟩
      · simp [StartSafe, hpid, StartControl.safe, hrecord] at hsafe
      · exact Held.exit_only only _

end Steps

/-! ## Every interleaving -/

theorem held_startStep {m : Machine} (h : Sane m ∧ Held m) {event : StartEvent}
    (hsafe : StartSafe m event) : Sane (startStep m event) ∧ Held (startStep m event) := by
  obtain ⟨hsane, hheld⟩ := h
  cases event with
  | start mode =>
    refine ⟨hsane.launch rfl, hheld.frame rfl fun q control howns => ?_⟩
    simp only [startStep, Machine.launch_procs]
    by_cases hq : q = m.next
    · subst hq
      rw [if_pos rfl]
      constructor
      · rintro ⟨⟩
        cases howns
      · intro hfound
        exact absurd (hsane.ids _ _ hfound).2 (Nat.lt_irrefl _)
    · rw [if_neg hq]
  | op pid ok =>
    simp only [startStep]
    split
    · next control hpid => exact ⟨hsane.op hpid ok, hheld.op hsane hpid hsafe⟩
    · exact ⟨hsane, hheld⟩
  | crash pid =>
    refine ⟨hsane.exit pid m.lock hsane.lock, hheld.exit pid fun c hc => ?_⟩
    simpa [StartSafe, hc, StartControl.mayDie] using hsafe

/-- Whatever starts are made, however their steps and those of the supervisors interleave,
and wherever processes die: at most one supervisor is past lock acquisition. -/
theorem single_supervisor (lock : Option LockFile) (state : SupervisorState)
    {events : List StartEvent} (hsafe : Meets startStep StartSafe (machine lock state) events) :
    AtMostOneSupervisor (run startStep (machine lock state) events) := by
  have hinit : Sane (machine lock state) ∧ Held (machine lock state) := by
    refine ⟨⟨?_, ?_, ?_, ?_, Nat.succ_pos _⟩, .nobody ?_⟩
    · intro p control hp
      cases hp
    · intro q hq
      show q < (lock.bind (·.pid)).getD 0 + 1
      have hpid : lock.bind (·.pid) = some q := hq
      rw [hpid]
      exact Nat.lt_succ_self q
    · intro p control hp
      cases hp
    · intro p mode q hp
      cases hp
    · intro q found hq
      cases hq
  have hrun : Sane (run startStep (machine lock state) events) ∧
      Held (run startStep (machine lock state) events) :=
    run_invariant (I := fun m => Sane m ∧ Held m) (fun _ _ h hok => held_startStep h hok) hinit hsafe
  exact hrun.2.atMostOne

/-! ## Two starts after a crash -/

/-- What a supervisor with the id 1 has left that did not stop by itself. -/
def afterCrash : Machine :=
  machine (some { creator := 1, pid := some 1 }) { running := true, pid := some 1 }

def ops (pid n : ℕ) : List StartEvent := List.replicate n (.op pid true)

/-- Two starts, one after the other: the stale lock is cleaned up, and the second start
finds a supervisor running. -/
def oneByOne : List StartEvent := .start .foreground :: ops 2 10 ++ .start .detached :: ops 3 2

theorem single_supervisor_one_by_one :
    (run startStep afterCrash oneByOne).procs 2 = some (.supervise none) ∧
      (run startStep afterCrash oneByOne).procs 3 = none ∧
      AtMostOneSupervisor (run startStep afterCrash oneByOne) :=
  ⟨by decide, by decide, single_supervisor _ _ (by decide)⟩

/-- Both find the lock stale, and the second takes away the lock that the first has made. -/
def bothStale : List StartEvent :=
  [.start .foreground, .start .foreground] ++ ops 2 4 ++ ops 3 4 ++ ops 2 6 ++ ops 3 6

theorem two_supervisors :
    (run startStep afterCrash bothStale).procs 2 = some (.supervise none) ∧
      (run startStep afterCrash bothStale).procs 3 = some (.supervise none) ∧
      ¬ AtMostOneSupervisor (run startStep afterCrash bothStale) := by
  have hfirst : (run startStep afterCrash bothStale).procs 2 = some (.supervise none) := by decide
  have hsecond : (run startStep afterCrash bothStale).procs 3 = some (.supervise none) := by
    decide
  refine ⟨hfirst, hsecond, fun hone => ?_⟩
  exact absurd (hone 2 3 _ _ hfirst hsecond rfl rfl) (by decide)

end Direclaw.Runtime
