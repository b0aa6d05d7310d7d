import Mathlib.Data.List.Forall2
import Mathlib.Data.List.Infix

/-!
# Lists that are alike

Two lists that come from one template: the same but for blocks, where the one has `d` and
the other `d'`. What does not look into the blocks cannot tell them apart.
-/

namespace Direclaw.Lib

/-! ## Pieces -/

section Pieces

variable {α : Type} [BEq α] [LawfulBEq α] {sep : α}

/-- The first piece grows by what has no separator. -/
theorem splitOn_append {block : List α} (h : sep ∉ block) (rest : List α) :
    (block ++ rest).splitOn sep = (rest.splitOn sep).modifyHead (block ++ ·) := by
  induction block with
  | nil => exact (congrFun List.modifyHead_id _).symm
  | cons c block ih =>
    rw [List.mem_cons, not_or] at h
    rw [List.cons_append, List.splitOn_cons_eq_if_modifyHead, if_neg (by simpa using Ne.symm h.1),
      ih h.2, List.modifyHead_modifyHead]
    rfl

theorem not_mem_of_mem_splitOn {s piece : List α} (h : piece ∈ s.splitOn sep) : sep ∉ piece := by
  induction s generalizing piece with
  | nil =>
    rw [List.splitOn_nil, List.mem_singleton] at h
    rw [h]
    exact List.not_mem_nil
  | cons c s ih =>
    rw [List.splitOn_cons_eq_if_modifyHead] at h
    split at h
    · rcases List.mem_cons.mp h with rfl | h
      · exact List.not_mem_nil
      · exact ih h
    · next hc =>
        generalize s.splitOn sep = pieces at ih h
        cases pieces with
        | nil => cases h
        | cons first pieces =>
          rcases List.mem_cons.mp h with rfl | h
          · rw [List.mem_cons, not_or]
            exact ⟨by simpa using Ne.symm (by simpa using hc), ih List.mem_cons_self⟩
          · exact ih (List.mem_cons_of_mem _ h)

end Pieces

/-! ## Two lists from one template -/

inductive Alike {α : Type} (d d' : List α) : List α → List α → Prop where
  | nil : Alike d d' [] []
  | same {s t : List α} (c : α) (rest : Alike d d' s t) : Alike d d' (c :: s) (c :: t)
  | block {s t : List α} (rest : Alike d d' s t) : Alike d d' (d ++ s) (d' ++ t)

namespace Alike

variable {α : Type} {d d' s t : List α}

/-- Without a block the lists are equal. -/
theorem eq_or_infix (h : Alike d d' s t) : s = t ∨ d <:+: s ∧ d' <:+: t := by
  induction h with
  | nil => exact .inl rfl
  | same c rest ih =>
    refine ih.imp (congrArg (c :: ·)) ?_
    exact And.imp List.infix_cons List.infix_cons
  | block rest ih => exact .inr ⟨(List.prefix_append _ _).isInfix, (List.prefix_append _ _).isInfix⟩

theorem head?_eq_some_iff {c : α} (hne : d ≠ []) (hne' : d' ≠ []) (hc : c ∉ d) (hc' : c ∉ d')
    (h : Alike d d' s t) : s.head? = some c ↔ t.head? = some c := by
  have hblock : ∀ {block rest : List α}, block ≠ [] → c ∉ block →
      (block ++ rest).head? ≠ some c := by
    intro block rest hblock hmem hhead
    rw [List.head?_append_of_ne_nil _ hblock] at hhead
    exact hmem (List.mem_of_mem_head? hhead)
  cases h with
  | nil => rfl
  | same => rfl
  | block rest => exact iff_of_false (hblock hne hc) (hblock hne' hc')

/-- Separators outside the blocks cut both lists at the same places. -/
theorem splitOn [BEq α] [LawfulBEq α] {sep : α} (hsep : sep ∉ d) (hsep' : sep ∉ d')
    (h : Alike d d' s t) :
    List.Forall₂ (Alike d d') (s.splitOn sep) (t.splitOn sep) := by
  induction h with
  | nil =>
    rw [List.splitOn_nil]
    exact .cons .nil .nil
  | @same s t c rest ih =>
    rw [List.splitOn_cons_eq_if_modifyHead, List.splitOn_cons_eq_if_modifyHead]
    split
    · exact .cons .nil ih
    · generalize s.splitOn sep = pieces, t.splitOn sep = pieces' at ih ⊢
      cases ih with
      | nil => exact .nil
      | cons hfirst hpieces => exact .cons (hfirst.same c) hpieces
  | @block s t rest ih =>
    rw [splitOn_append hsep, splitOn_append hsep']
    generalize s.splitOn sep = pieces, t.splitOn sep = pieces' at ih ⊢
    cases ih with
    | nil => exact .nil
    | cons hfirst hpieces => exact .cons hfirst.block hpieces

end Alike

end Direclaw.Lib
