import Mathlib.Data.List.Induction

/-!
# The last entry of a kind

What a state machine remembers of its history is often the last event of some kind, as
long as nothing has come after it that makes it forget.
-/

namespace Direclaw.Lib

variable {α : Type*}

/-- An entry with `P`, and since then only entries with `Q`. -/
def Last (P Q : α → Prop) (history : List α) : Prop :=
  ∃ before x after, history = before ++ x :: after ∧ P x ∧ ∀ y ∈ after, Q y

variable {P Q : α → Prop} {history : List α} {x : α}

@[simp] theorem not_last_nil : ¬ Last P Q ([] : List α) := by
  rintro ⟨before, x, after, h, -⟩
  simp at h

/-- One more entry either is the one, or leaves the one there was. -/
theorem last_append_singleton :
    Last P Q (history ++ [x]) ↔ P x ∨ (Q x ∧ Last P Q history) := by
  constructor
  · rintro ⟨before, y, after, h, hP, hQ⟩
    rcases List.eq_nil_or_concat after with rfl | ⟨after, z, rfl⟩
    · rw [List.append_inj_right' h rfl |> List.singleton_inj.mp]
      exact .inl hP
    · rw [List.concat_eq_append, ← List.cons_append, ← List.append_assoc] at h
      obtain rfl : x = z := List.singleton_inj.mp (List.append_inj_right' h rfl)
      refine .inr ⟨hQ x (by simp), before, y, after, List.append_inj_left' h rfl, hP, ?_⟩
      intro w hw
      exact hQ w (by simp [hw])
  · rintro (hP | ⟨hQ, before, y, after, rfl, hP, hafter⟩)
    · exact ⟨history, x, [], rfl, hP, by simp⟩
    · refine ⟨before, y, after ++ [x], by simp, hP, ?_⟩
      intro w hw
      rcases List.mem_append.mp hw with hold | hlast
      · exact hafter w hold
      · rwa [List.mem_singleton.mp hlast]

end Direclaw.Lib
