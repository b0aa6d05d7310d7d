import Mathlib.Data.List.Basic

/-!
# Runs of a step function

A system is a step function `σ → ε → σ`; a run is a list of events. Most
results here hold only of runs whose steps all meet some side condition in
the state they are taken from (a crash outside a bad window, a completion of
an outstanding item), so the induction is packaged once with that condition
as a parameter. The unconditional rule is the instance `fun _ _ => True`.
-/

namespace Direclaw.Lib

section Runs

variable {σ ε : Type*} (step : σ → ε → σ)

/-- The state a run of the events `es` ends in. -/
def run (s : σ) (es : List ε) : σ := es.foldl step s

/-- Every step of the run meets `ok` in the state it is taken from. -/
def Meets (ok : σ → ε → Prop) : σ → List ε → Prop
  | _, [] => True
  | s, e :: es => ok s e ∧ Meets ok (step s e) es

instance Meets.decidable (ok : σ → ε → Prop) [∀ s e, Decidable (ok s e)] :
    ∀ (s : σ) (es : List ε), Decidable (Meets step ok s es)
  | _, [] => inferInstanceAs (Decidable True)
  | s, e :: es =>
    have := Meets.decidable ok (step s e) es
    inferInstanceAs (Decidable (ok s e ∧ Meets step ok (step s e) es))

@[simp] theorem run_nil (s : σ) : run step s [] = s := rfl

@[simp] theorem run_cons (s : σ) (e : ε) (es : List ε) :
    run step s (e :: es) = run step (step s e) es := rfl

theorem run_append (s : σ) (es fs : List ε) :
    run step s (es ++ fs) = run step (run step s es) fs := by
  simp [run, List.foldl_append]

variable {step}

variable {ok : σ → ε → Prop} {s : σ} {es : List ε} {I : σ → Prop}

theorem meets_append {es fs : List ε} :
    Meets step ok s (es ++ fs) ↔ Meets step ok s es ∧ Meets step ok (run step s es) fs := by
  induction es generalizing s with
  | nil => simp [Meets]
  | cons e es ih => simp [Meets, ih, and_assoc]

/-- **The invariant rule.** What every admitted step preserves, every admitted
run preserves. -/
theorem run_invariant (hstep : ∀ s e, I s → ok s e → I (step s e)) (hs : I s)
    (hm : Meets step ok s es) : I (run step s es) := by
  induction es generalizing s with
  | nil => exact hs
  | cons e es ih => exact ih (hstep s e hs hm.1) hm.2

/-- The invariant rule for steps that need no side condition. -/
theorem run_invariant' {I : σ → Prop} (hstep : ∀ s e, I s → I (step s e)) {s : σ} (es : List ε)
    (hs : I s) : I (run step s es) := by
  induction es generalizing s with
  | nil => exact hs
  | cons e es ih => exact ih (hstep s e hs)

/-- An invariant that admits the steps of a run makes it an admitted one. -/
theorem meets_of_invariant (hstep : ∀ s, ∀ e ∈ es, I s → ok s e ∧ I (step s e)) (hs : I s) :
    Meets step ok s es := by
  induction es generalizing s with
  | nil => trivial
  | cons e es ih =>
    obtain ⟨hok, hnext⟩ := hstep s e (by simp) hs
    exact ⟨hok, ih (fun t f hf => hstep t f (List.mem_cons_of_mem e hf)) hnext⟩

/-- Where an invariant makes two conditions on a step the same, they admit the same
runs. -/
theorem meets_congr {I : σ → Prop} {ok ok' : σ → ε → Prop}
    (hstep : ∀ s e, I s → I (step s e)) (h : ∀ s e, I s → (ok s e ↔ ok' s e)) {s : σ} (es : List ε)
    (hs : I s) : Meets step ok s es ↔ Meets step ok' s es := by
  induction es generalizing s with
  | nil => exact Iff.rfl
  | cons e es ih => exact and_congr (h s e hs) (ih (hstep s e hs))

/-- **The termination rule.** With a measure that goes down at every step until the
system is done, more events than the measure says get it there, whatever they are. -/
theorem run_done {I done : σ → Prop} {m : σ → ℕ} (hstep : ∀ s e, I s → I (step s e))
    (hdown : ∀ s e, I s → ¬ done s → m (step s e) < m s) (hstay : ∀ s e, done s → done (step s e))
    (hs : I s) (hlen : m s < es.length) : done (run step s es) := by
  induction es generalizing s with
  | nil => cases hlen
  | cons e es ih =>
    by_cases hdone : done s
    · exact run_invariant' hstay es (hstay s e hdone)
    · have hlt := hdown s e hs hdone
      simp only [List.length_cons] at hlen
      exact ih (hstep s e hs) (by omega)

/-- **The exactness rule.** Where what goes wrong stays wrong, and a step goes wrong
exactly if it does not meet the condition, a run ends well exactly if it is an admitted
one. -/
theorem run_sound_iff (I bad : σ → Prop) {ok : σ → ε → Prop}
    (hstep : ∀ s e, I s → I (step s e)) (hstay : ∀ s e, I s → bad s → bad (step s e))
    (hok : ∀ s e, I s → ¬ bad s → (¬ bad (step s e) ↔ ok s e)) {s : σ} {es : List ε} (hs : I s)
    (hgood : ¬ bad s) : ¬ bad (run step s es) ↔ Meets step ok s es := by
  induction es generalizing s with
  | nil => exact iff_of_true hgood trivial
  | cons e es ih =>
    by_cases hnext : bad (step s e)
    · have hend : I (run step (step s e) es) ∧ bad (run step (step s e) es) :=
        @run_invariant' _ _ step (fun t => I t ∧ bad t)
          (fun t f h => ⟨hstep t f h.1, hstay t f h.1 h.2⟩) _ es ⟨hstep s e hs, hnext⟩
      refine iff_of_false (not_not_intro hend.2) fun hmeets => ?_
      exact (hok s e hs hgood).mpr hmeets.1 hnext
    · show ¬ bad (run step (step s e) es) ↔ ok s e ∧ Meets step ok (step s e) es
      rw [ih (hstep s e hs) hnext]
      exact (and_iff_right ((hok s e hs hgood).mp hnext)).symm

/-- **The rule for every state on the way.** Where the invariant says what is asked, an
admitted step keeps it and any other step breaks what is asked, all states of a run have
what is asked exactly if the run is an admitted one. -/
theorem run_prefixes_iff (I Good : σ → Prop) (hgood : ∀ s, I s → Good s)
    (hkeep : ∀ s e, I s → ok s e → I (step s e))
    (hbreak : ∀ s e, I s → ¬ ok s e → ¬ Good (step s e)) (hs : I s) :
    (∀ before, before <+: es → Good (run step s before)) ↔ Meets step ok s es := by
  induction es generalizing s with
  | nil =>
    refine iff_of_true (fun before hbefore => ?_) trivial
    rw [List.prefix_nil.mp hbefore]
    exact hgood s hs
  | cons e es ih =>
    constructor
    · intro h
      have hok : ok s e := by
        by_contra hnot
        exact hbreak s e hs hnot (h [e] ⟨es, rfl⟩)
      refine ⟨hok, (ih (hkeep s e hs hok)).mp fun before hbefore => ?_⟩
      exact h (e :: before) (List.cons_prefix_cons.mpr ⟨rfl, hbefore⟩)
    · rintro ⟨hok, hmeets⟩ before hbefore
      cases before with
      | nil => exact hgood s hs
      | cons first before =>
        obtain ⟨rfl, hrest⟩ := List.cons_prefix_cons.mp hbefore
        exact (ih (hkeep s first hs hok)).mpr hmeets before hrest

/-- **The unwinding rule.** Where kept events preserve a relation and dropped events
do not disturb it, a run stays related to the run without the dropped events. -/
theorem run_filter {R : σ → σ → Prop} {keep : ε → Bool}
    (hkeep : ∀ s t e, keep e = true → R s t → R (step s e) (step t e))
    (hdrop : ∀ s t e, keep e = false → R s t → R (step s e) t) {s t : σ} (es : List ε)
    (hst : R s t) : R (run step s es) (run step t (es.filter keep)) := by
  induction es generalizing s t with
  | nil => exact hst
  | cons e es ih =>
    cases hk : keep e with
    | true =>
      rw [List.filter_cons_of_pos hk]
      exact ih (hkeep s t e hk hst)
    | false =>
      rw [List.filter_cons_of_neg (by simp [hk])]
      exact ih (hdrop s t e hk hst)

end Runs

end Direclaw.Lib
