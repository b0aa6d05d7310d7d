/-!
# Fallible computations

A successful `do` block of `Except` is taken apart from the front: each bind that
is known to succeed gives the value of its first part and the success of the rest.
-/

namespace Direclaw.Lib

variable {ε ε' α β : Type}

variable {f : α → Except ε β} {x : Except ε α} {xs : List α} {b : β} {e : ε} {a : α}

theorem bind_eq_ok (h : x >>= f = .ok b) : ∃ a, x = .ok a ∧ f a = .ok b := by
  cases x with
  | error e => cases h
  | ok a => exact ⟨a, rfl, h⟩

theorem bind_ok_iff : x >>= f = .ok b ↔ ∃ a, x = .ok a ∧ f a = .ok b := by
  constructor
  · exact bind_eq_ok
  · rintro ⟨a, rfl, h⟩
    exact h

theorem bind_eq_error {x : Except ε α} {f : α → Except ε β} {e : ε}
    (h : x >>= f = .error e) : x = .error e ∨ ∃ a, x = .ok a ∧ f a = .error e := by
  cases x with
  | error e' =>
    cases h
    exact .inl rfl
  | ok a => exact .inr ⟨a, rfl, h⟩

theorem map_eq_ok {f : α → β} (h : x.map f = .ok b) : ∃ a, x = .ok a ∧ f a = b := by
  cases x with
  | error e => cases h
  | ok a => exact ⟨a, rfl, Except.ok.inj h⟩

theorem map_eq_error {f : α → β} (h : x.map f = .error e) : x = .error e := by
  cases x with
  | error e' =>
    cases h
    rfl
  | ok a => cases h

theorem mapError_eq_ok {f : ε → ε'} (h : x.mapError f = .ok a) : x = .ok a := by
  cases x with
  | error e => cases h
  | ok b =>
    cases h
    rfl

theorem mapM_congr {f g : α → Except ε β} (h : ∀ x ∈ xs, f x = g x) : xs.mapM f = xs.mapM g := by
  induction xs with
  | nil => rfl
  | cons x xs ih =>
    rw [List.mapM_cons, List.mapM_cons, h x List.mem_cons_self,
      ih fun y hy => h y (List.mem_cons_of_mem _ hy)]

theorem exists_of_mapM_error (h : xs.mapM f = .error e) : ∃ x ∈ xs, f x = .error e := by
  induction xs with
  | nil => cases h
  | cons x xs ih =>
    rw [List.mapM_cons] at h
    rcases bind_eq_error h with h | ⟨b, -, h⟩
    · exact ⟨x, List.mem_cons_self, h⟩
    · rcases bind_eq_error h with h | ⟨bs, -, h⟩
      · obtain ⟨y, hy, hfy⟩ := ih h
        exact ⟨y, List.mem_cons_of_mem _ hy, hfy⟩
      · cases h

theorem exists_of_mapM_ok {f : α → Except ε β} {xs : List α} {ys : List β}
    (h : xs.mapM f = .ok ys) : ∀ x ∈ xs, ∃ y ∈ ys, f x = .ok y := by
  induction xs generalizing ys with
  | nil => exact List.forall_mem_nil _
  | cons x xs ih =>
    rw [List.mapM_cons] at h
    obtain ⟨b, hx, h⟩ := bind_eq_ok h
    obtain ⟨bs, hxs, h⟩ := bind_eq_ok h
    cases h
    refine List.forall_mem_cons.mpr ⟨⟨b, List.mem_cons_self, hx⟩, fun y hy => ?_⟩
    obtain ⟨c, hc, hfy⟩ := ih hxs y hy
    exact ⟨c, List.mem_cons_of_mem _ hc, hfy⟩

/-- What every step that succeeds preserves, a fold that succeeds preserves. -/
theorem foldlM_invariant {P : β → Prop} {f : β → α → Except ε β}
    (hstep : ∀ b x b', P b → f b x = .ok b' → P b') : ∀ {xs : List α} {b b' : β},
    P b → xs.foldlM f b = .ok b' → P b'
  | [], b, b', hb, h => by
      cases h
      exact hb
  | x :: xs, b, b', hb, h => by
      rw [List.foldlM_cons] at h
      obtain ⟨mid, hx, hxs⟩ := bind_eq_ok h
      exact foldlM_invariant hstep (hstep b x mid hb hx) hxs

/-! ## Guards -/

/-- A guard of a check. -/
theorem throw_if_ok_iff {c : Prop} [Decidable c] {err : ε} {rest : Except ε α} :
    (if c then ((throw err : Except ε PUnit) >>= fun _ => rest) else rest) = .ok a ↔
      ¬ c ∧ rest = .ok a := by
  by_cases hc : c
  · simp [hc, throw, throwThe, MonadExceptOf.throw, bind, Except.bind]
  · simp [hc]

theorem seq_ok_iff {first : Except ε PUnit} {rest : Except ε α} :
    (first >>= fun _ => rest) = .ok a ↔ first = .ok ⟨⟩ ∧ rest = .ok a := by
  cases first with
  | ok u => simp [bind, Except.bind]
  | error err => simp [bind, Except.bind]

theorem forM_ok_iff {f : α → Except ε Unit} : xs.forM f = .ok () ↔ ∀ x ∈ xs, f x = .ok () := by
  induction xs with
  | nil => exact iff_of_true rfl (List.forall_mem_nil _)
  | cons x xs ih =>
    rw [List.forall_mem_cons, ← ih]
    exact seq_ok_iff

/-- A loop of guards. -/
theorem forIn_throw_ok_iff {c : α → Prop} [DecidablePred c] {err : α → ε}
    (items : List α) :
    (forIn items PUnit.unit fun item _ =>
        if c item then ((throw (err item) : Except ε PUnit) >>= fun _ =>
          pure (ForInStep.yield PUnit.unit))
        else pure (ForInStep.yield PUnit.unit)) = .ok PUnit.unit ↔ ∀ item ∈ items, ¬ c item := by
  induction items with
  | nil => simp [pure, Except.pure]
  | cons item items ih =>
    rw [List.forIn_cons, List.forall_mem_cons, ← ih]
    by_cases hc : c item
    · simp [hc, throw, throwThe, MonadExceptOf.throw, bind, Except.bind]
    · simp [hc, pure, Except.pure, bind, Except.bind]

theorem throw_bind_not_ok {err : ε} : ¬ ((throw err : Except ε α) >>= f) = .ok b := by
  intro h
  cases h

end Direclaw.Lib
