import Direclaw.Lib.Run
import Mathlib.Logic.Function.Basic

/-!
# Serial orders of concurrent programs

Programs that share a store and make one access to it at a time. When the accesses that
conflict come in the order of the programs, running them concurrently does what running
them one after the other does.

Of each program the proof keeps what it has read of others and what it has written. What
it has read is what the programs before it leave, because none of those can write there
any more.
-/

namespace Direclaw.Lib

section Serial

variable {K : Type*} {V : K → Type*}

/-! ## What the programs before leave -/

/-- A store with some values replaced. -/
def overlay (written : ∀ k, Option (V k)) (σ : ∀ k, V k) : ∀ k, V k :=
  fun k => (written k).getD (σ k)

/-- The store with what the first `n` programs have written. -/
def leftBy (written : ℕ → ∀ k, Option (V k)) (σ : ∀ k, V k) : ℕ → ∀ k, V k
  | 0 => σ
  | n + 1 => overlay (written n) (leftBy written σ n)

variable {written written' : ℕ → ∀ k, Option (V k)} {σ : ∀ k, V k} {k : K}

theorem leftBy_of_none {i n : ℕ} (hle : i ≤ n)
    (h : ∀ j, i ≤ j → j < n → written j k = none) :
    leftBy written σ n k = leftBy written σ i k := by
  induction n with
  | zero => rw [Nat.le_zero.mp hle]
  | succ n ih =>
    rcases Nat.lt_or_eq_of_le hle with hlt | rfl
    · show (written n k).getD (leftBy written σ n k) = _
      rw [h n (Nat.le_of_lt_succ hlt) (Nat.lt_succ_self n)]
      exact ih (Nat.le_of_lt_succ hlt) fun j hij hjn => h j hij (Nat.lt_succ_of_lt hjn)
    · rfl

theorem leftBy_congr {n : ℕ} (h : ∀ j, j < n → written j k = written' j k) :
    leftBy written σ n k = leftBy written' σ n k := by
  induction n with
  | zero => rfl
  | succ n ih =>
    show (written n k).getD (leftBy written σ n k) = (written' n k).getD (leftBy written' σ n k)
    rw [h n (Nat.lt_succ_self n), ih fun j hj => h j (Nat.lt_succ_of_lt hj)]

/-! ## Programs -/

/-- A program that reads and writes one key at a time. A write may depend on the value it
replaces. -/
inductive Program (V : K → Type*) where
  | done
  | read (key : K) (next : V key → Program V)
  | write (key : K) (change : V key → V key) (rest : Program V)

variable [DecidableEq K]

namespace Program

/-- The program runs alone. -/
def exec : Program V → (∀ k, V k) → ∀ k, V k
  | .done, σ => σ
  | .read key next, σ => (next (σ key)).exec σ
  | .write key change rest, σ => rest.exec (Function.update σ key (change (σ key)))

/-- The key of the next access, and whether it writes. -/
def access : Program V → Option (K × Bool)
  | .done => none
  | .read key _ => some (key, false)
  | .write key _ _ => some (key, true)

end Program

structure Access (K : Type*) where
  program : ℕ
  key : K
  writes : Bool

/-- The store, what is left of every program, and the accesses so far. -/
structure Concurrent (V : K → Type*) where
  store : ∀ k, V k
  programs : ℕ → Program V
  log : List (Access K)

namespace Concurrent

/-- The program `i` makes its next access. -/
def step (s : Concurrent V) (i : ℕ) : Concurrent V :=
  match s.programs i with
  | .done => s
  | .read key next =>
    { s with
      programs := Function.update s.programs i (next (s.store key))
      log := s.log ++ [⟨i, key, false⟩] }
  | .write key change rest =>
    { store := Function.update s.store key (change (s.store key))
      programs := Function.update s.programs i rest
      log := s.log ++ [⟨i, key, true⟩] }

/-- No later program has made an access that conflicts with the next one of `i`. -/
def InOrder (s : Concurrent V) (i : ℕ) : Prop :=
  ∀ next ∈ (s.programs i).access, ∀ access ∈ s.log,
    access.key = next.1 → (access.writes = true ∨ next.2 = true) → access.program ≤ i

instance InOrder.decidable (s : Concurrent V) (i : ℕ) : Decidable (s.InOrder i) :=
  inferInstanceAs (Decidable (∀ next ∈ (s.programs i).access, ∀ access ∈ s.log,
    access.key = next.1 → (access.writes = true ∨ next.2 = true) → access.program ≤ i))

def start (store : ∀ k, V k) (programs : List (Program V)) : Concurrent V where
  store := store
  programs i := (programs[i]?).getD .done
  log := []

end Concurrent

/-! ## The invariant -/

/-- `seen i` is what program `i` has read of others, `written i` what it has written. -/
structure SerialInv (σ : ∀ k, V k) (programs : List (Program V)) (s : Concurrent V)
    (written seen : ℕ → ∀ k, Option (V k)) : Prop where
  /-- Alone, in a store with what it has seen, the program gets as far as it did here. -/
  progress : ∀ i τ, (∀ k v, seen i k = some v → τ k = v) →
    ((programs[i]?).getD .done).exec τ = (s.programs i).exec (overlay (written i) τ)
  store : s.store = leftBy written σ programs.length
  found : ∀ i k v, seen i k = some v → leftBy written σ i k = v
  logged_write : ∀ i k, (written i k).isSome → ⟨i, k, true⟩ ∈ s.log
  logged_seen : ∀ i k, (seen i k).isSome → ∃ access ∈ s.log, access.program = i ∧ access.key = k
  ended : ∀ i, programs.length ≤ i → s.programs i = .done

section Steps

variable {programs : List (Program V)} {s : Concurrent V} {seen : ℕ → ∀ k, Option (V k)} {i : ℕ}

/-- What an access in order finds is what its program and those before it leave. -/
theorem SerialInv.finds (h : SerialInv σ programs s written seen) (horder : s.InOrder i) {key : K}
    {writes : Bool} (hnext : (s.programs i).access = some (key, writes)) :
    s.store key = overlay (written i) (leftBy written σ i) key := by
  have hi : i < programs.length := by
    by_contra hge
    rw [h.ended i (Nat.not_lt.mp hge)] at hnext
    cases hnext
  rw [h.store]
  exact leftBy_of_none hi fun j hij _ => by
    by_contra hsome
    have hlogged := h.logged_write j key (Option.isSome_iff_ne_none.mpr hsome)
    exact absurd (horder _ hnext _ hlogged rfl (.inl rfl)) (by simp only; omega)

/-- What the program has seen, once it has found `v`. -/
def seeing (written seen : ℕ → ∀ k, Option (V k)) (i : ℕ) (key : K) (v : V key) :
    ℕ → ∀ k, Option (V k) :=
  if (written i key).isSome then seen
  else Function.update seen i (Function.update (seen i) key (some v))

variable {j : ℕ}

theorem seeing_other {key k : K} {v : V key} (hne : j ≠ i ∨ k ≠ key) :
    seeing written seen i key v j k = seen j k := by
  unfold seeing
  split
  · rfl
  · by_cases hj : j = i
    · subst hj
      rw [Function.update_self, Function.update_of_ne (hne.resolve_left fun h => h rfl)]
    · rw [Function.update_of_ne hj]

theorem seeing_self {key : K} {v w : V key} (hnone : written i key = none) :
    seeing written seen i key v i key = some w ↔ v = w := by
  unfold seeing
  rw [hnone, Option.isSome_none, if_neg Bool.false_ne_true, Function.update_self,
    Function.update_self, Option.some.injEq]

theorem seeing_own {key : K} {v : V key} (hsome : (written i key).isSome) :
    seeing written seen i key v = seen := if_pos hsome

variable {key : K}

/-- A store that agrees with what was seen agrees with what is found. -/
theorem SerialInv.agrees (h : SerialInv σ programs s written seen)
    (hfinds : s.store key = overlay (written i) (leftBy written σ i) key) {τ : ∀ k, V k}
    (hτ : ∀ k v, seeing written seen i key (s.store key) i k = some v → τ k = v) :
    (∀ k v, seen i k = some v → τ k = v) ∧ overlay (written i) τ key = s.store key := by
  cases hown : written i key with
  | some v =>
    have hsome : (written i key).isSome := by rw [hown]; rfl
    rw [seeing_own hsome] at hτ
    refine ⟨hτ, ?_⟩
    rw [hfinds]
    simp only [overlay, hown, Option.getD_some]
  | none =>
    have hkey : τ key = s.store key := hτ key _ ((seeing_self hown).mpr rfl)
    refine ⟨fun k v hv => ?_, by simp only [overlay, hown, Option.getD_none, hkey]⟩
    by_cases hk : k = key
    · subst hk
      rw [hkey, hfinds]
      simp only [overlay, hown, Option.getD_none]
      exact h.found i k v hv
    · exact hτ k v ((seeing_other (.inr hk)).trans hv)

theorem SerialInv.seen_seeing (h : SerialInv σ programs s written seen)
    (hfinds : s.store key = overlay (written i) (leftBy written σ i) key) {k : K} {v : V k}
    (hv : seeing written seen i key (s.store key) j k = some v) : leftBy written σ j k = v := by
  by_cases hother : j ≠ i ∨ k ≠ key
  · rw [seeing_other hother] at hv
    exact h.found j k v hv
  · simp only [ne_eq, not_or, not_not] at hother
    obtain ⟨rfl, rfl⟩ := hother
    cases hown : written j k with
    | some w =>
      rw [seeing_own (by rw [hown]; rfl)] at hv
      exact h.found j k v hv
    | none =>
      rw [← (seeing_self hown).mp hv, hfinds]
      simp only [overlay, hown, Option.getD_none]

theorem SerialInv.logged_seeing (h : SerialInv σ programs s written seen) {writes : Bool} {k : K}
    (hsome : (seeing written seen i key (s.store key) j k).isSome) :
    ∃ access ∈ s.log ++ [⟨i, key, writes⟩], access.program = j ∧ access.key = k := by
  by_cases hother : j ≠ i ∨ k ≠ key
  · rw [seeing_other hother] at hsome
    obtain ⟨access, hmem, haccess⟩ := h.logged_seen j k hsome
    exact ⟨access, List.mem_append_left _ hmem, haccess⟩
  · simp only [ne_eq, not_or, not_not] at hother
    obtain ⟨rfl, rfl⟩ := hother
    exact ⟨_, List.mem_append_right _ (List.mem_singleton_self _), rfl, rfl⟩

theorem SerialInv.ended_update (h : SerialInv σ programs s written seen) {rest : Program V}
    (hrunning : s.programs i ≠ .done) (hj : programs.length ≤ j) :
    Function.update s.programs i rest j = .done := by
  have hne : j ≠ i := by
    rintro rfl
    exact hrunning (h.ended j hj)
  rw [Function.update_of_ne hne]
  exact h.ended j hj

theorem SerialInv.read (h : SerialInv σ programs s written seen) (horder : s.InOrder i)
    {next : V key → Program V} (hprogram : s.programs i = .read key next) :
    SerialInv σ programs
      { s with
        programs := Function.update s.programs i (next (s.store key))
        log := s.log ++ [⟨i, key, false⟩] }
      written (seeing written seen i key (s.store key)) := by
  have hfinds := h.finds horder (by rw [hprogram]; rfl)
  refine ⟨?_, h.store, fun j k v hv => h.seen_seeing hfinds hv,
    fun j k hsome => List.mem_append_left _ (h.logged_write j k hsome),
    fun j k hsome => h.logged_seeing hsome,
    fun j hj => h.ended_update (by rw [hprogram]; rintro ⟨⟩) hj⟩
  intro j τ hτ
  by_cases hj : j = i
  · subst hj
    obtain ⟨hseen, hvalue⟩ := h.agrees hfinds hτ
    rw [h.progress j τ hseen, hprogram]
    show (next (overlay (written j) τ key)).exec _ = (Function.update s.programs j _ j).exec _
    rw [Function.update_self, hvalue]
  · show _ = (Function.update s.programs i _ j).exec _
    rw [Function.update_of_ne hj]
    exact h.progress j τ fun k v hv => hτ k v ((seeing_other (.inl hj)).trans hv)

/-- What is written, once the program has written `v`. -/
def writing (written : ℕ → ∀ k, Option (V k)) (i : ℕ) (key : K) (v : V key) :
    ℕ → ∀ k, Option (V k) :=
  Function.update written i (Function.update (written i) key (some v))

theorem writing_other {key k : K} {v : V key} (hne : j ≠ i ∨ k ≠ key) :
    writing written i key v j k = written j k := by
  unfold writing
  by_cases hj : j = i
  · subst hj
    rw [Function.update_self, Function.update_of_ne (hne.resolve_left fun h => h rfl)]
  · rw [Function.update_of_ne hj]

theorem writing_self {key : K} {v : V key} : writing written i key v i key = some v := by
  unfold writing
  rw [Function.update_self, Function.update_self]

theorem overlay_writing {key : K} {v : V key} {τ : ∀ k, V k} :
    overlay (writing written i key v i) τ = Function.update (overlay (written i) τ) key v := by
  funext k
  by_cases hk : k = key
  · subst hk
    simp only [overlay, writing_self, Option.getD_some, Function.update_self]
  · rw [Function.update_of_ne hk]
    simp only [overlay, writing_other (.inr hk)]

theorem SerialInv.write (h : SerialInv σ programs s written seen) (horder : s.InOrder i)
    {change : V key → V key} {rest : Program V}
    (hprogram : s.programs i = .write key change rest) :
    SerialInv σ programs
      { store := Function.update s.store key (change (s.store key))
        programs := Function.update s.programs i rest
        log := s.log ++ [⟨i, key, true⟩] }
      (writing written i key (change (s.store key)))
      (seeing written seen i key (s.store key)) := by
  have hnext : (s.programs i).access = some (key, true) := by rw [hprogram]; rfl
  have hfinds := h.finds horder hnext
  have hi : i < programs.length := by
    by_contra hge
    rw [h.ended i (Nat.not_lt.mp hge)] at hprogram
    cases hprogram
  -- nobody after `i` has touched the key
  have hafter : ∀ access ∈ s.log, access.key = key → access.program ≤ i := fun access hmem hkey =>
    horder _ hnext access hmem hkey (.inr rfl)
  refine ⟨?_, ?_, ?_, ?_, fun j k hsome => h.logged_seeing hsome,
    fun j hj => h.ended_update (by rw [hprogram]; rintro ⟨⟩) hj⟩
  · intro j τ hτ
    by_cases hj : j = i
    · subst hj
      obtain ⟨hseen, hvalue⟩ := h.agrees hfinds hτ
      rw [h.progress j τ hseen, hprogram, overlay_writing]
      show rest.exec (Function.update _ key (change (overlay (written j) τ key))) =
        (Function.update s.programs j rest j).exec _
      rw [Function.update_self, hvalue]
    · show _ = (Function.update s.programs i rest j).exec _
      rw [Function.update_of_ne hj]
      have hsame : writing written i key (change (s.store key)) j = written j :=
        funext fun k => writing_other (.inl hj)
      rw [hsame]
      exact h.progress j τ fun k v hv => hτ k v ((seeing_other (.inl hj)).trans hv)
  · funext k
    show Function.update s.store key _ k = _
    by_cases hk : k = key
    · subst hk
      rw [Function.update_self]
      have hlater : ∀ j, i + 1 ≤ j → j < programs.length →
          writing written i k (change (s.store k)) j k = none := by
        intro j hij _
        rw [writing_other (.inl (by omega))]
        by_contra hsome
        have hlogged := h.logged_write j k (Option.isSome_iff_ne_none.mpr hsome)
        exact absurd (hafter _ hlogged rfl) (by simp only; omega)
      rw [leftBy_of_none hi hlater]
      show _ = (writing written i k _ i k).getD _
      rw [writing_self]
      rfl
    · rw [Function.update_of_ne hk, h.store]
      exact leftBy_congr fun j _ => (writing_other (.inr hk)).symm
  · intro j k v hv
    have hold := h.seen_seeing hfinds hv
    by_cases hjk : i < j ∧ k = key
    · -- a later program would have seen the key
      obtain ⟨hij, rfl⟩ := hjk
      rw [seeing_other (.inl (by omega))] at hv
      obtain ⟨access, hmem, hprog, hkey⟩ := h.logged_seen j k (by rw [hv]; rfl)
      have := hafter access hmem hkey
      omega
    · rw [← hold]
      refine leftBy_congr fun l hl => writing_other ?_
      rcases not_and_or.mp hjk with hle | hne
      · exact .inl (by omega)
      · exact .inr hne
  · intro j k hsome
    by_cases hother : j ≠ i ∨ k ≠ key
    · rw [writing_other hother] at hsome
      exact List.mem_append_left _ (h.logged_write j k hsome)
    · simp only [ne_eq, not_or, not_not] at hother
      obtain ⟨rfl, rfl⟩ := hother
      exact List.mem_append_right _ (List.mem_singleton_self _)

theorem serialInv_step (h : ∃ written seen, SerialInv σ programs s written seen)
    (horder : s.InOrder i) : ∃ written seen, SerialInv σ programs (s.step i) written seen := by
  obtain ⟨written, seen, h⟩ := h
  unfold Concurrent.step
  split
  · exact ⟨written, seen, h⟩
  · next hprogram => exact ⟨_, _, h.read horder hprogram⟩
  · next hprogram => exact ⟨_, _, h.write horder hprogram⟩

theorem serialInv_start (σ : ∀ k, V k) (programs : List (Program V)) :
    SerialInv σ programs (.start σ programs) (fun _ _ => none) (fun _ _ => none) := by
  have hleft : ∀ n, leftBy (fun _ _ => none) σ n = σ := by
    intro n
    induction n with
    | zero => rfl
    | succ n ih =>
      show overlay _ (leftBy _ σ n) = σ
      rw [ih]
      rfl
  refine ⟨fun i τ _ => rfl, (hleft _).symm, ?_, ?_, ?_, ?_⟩
  · intro i k v hv
    cases hv
  · intro i k hsome
    cases hsome
  · intro i k hsome
    cases hsome
  · intro i hi
    show (programs[i]?).getD .done = .done
    rw [List.getElem?_eq_none hi]
    rfl

/-- When all programs have ended, each has done what it does alone after those before it. -/
theorem SerialInv.serial (h : SerialInv σ programs s written seen)
    (hdone : ∀ i, s.programs i = .done) (n : ℕ) :
    (programs.take n).foldl (fun τ program => program.exec τ) σ =
      leftBy written σ (min n programs.length) := by
  induction n with
  | zero =>
    rw [Nat.zero_min]
    rfl
  | succ n ih =>
    by_cases hn : n < programs.length
    · have hexec := h.progress n _ (h.found n)
      rw [hdone n, List.getElem?_eq_getElem hn] at hexec
      rw [List.take_succ_eq_append_getElem hn, List.foldl_append, ih,
        Nat.min_eq_left (Nat.le_of_lt hn), Nat.min_eq_left hn]
      exact hexec
    · have hle := Nat.not_lt.mp hn
      rw [List.take_of_length_le (Nat.le_succ_of_le hle),
        Nat.min_eq_right (Nat.le_succ_of_le hle)]
      rw [List.take_of_length_le hle, Nat.min_eq_right hle] at ih
      exact ih

end Steps

omit [DecidableEq K] in
theorem done_of_access {program : Program V} (h : program.access = none) : program = .done := by
  cases program with
  | done => rfl
  | read key next => cases h
  | write key change rest => cases h

/-- **Serialisability.** Where conflicting accesses come in the order of the programs, the
programs leave what they leave one after the other. -/
theorem run_eq_serial (σ : ∀ k, V k) (programs : List (Program V)) {events : List ℕ}
    (horder : Meets Concurrent.step Concurrent.InOrder (.start σ programs) events)
    (hended : ∀ i < programs.length,
      ((run Concurrent.step (.start σ programs) events).programs i).access = none) :
    (run Concurrent.step (.start σ programs) events).store =
      programs.foldl (fun τ program => program.exec τ) σ := by
  obtain ⟨written, seen, h⟩ :=
    run_invariant (I := fun s => ∃ written seen, SerialInv σ programs s written seen)
      (fun _ _ h horder => serialInv_step h horder) ⟨_, _, serialInv_start σ programs⟩ horder
  have hdone : ∀ i, (run Concurrent.step (.start σ programs) events).programs i = .done := by
    intro i
    by_cases hi : i < programs.length
    · exact done_of_access (hended i hi)
    · exact h.ended i (Nat.not_lt.mp hi)
  have hserial := h.serial hdone programs.length
  rw [List.take_length, Nat.min_self] at hserial
  rw [h.store, hserial]

end Serial

end Direclaw.Lib
