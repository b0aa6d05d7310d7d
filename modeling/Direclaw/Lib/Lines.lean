import Direclaw.Lib.Occurrences
import Mathlib.Algebra.Order.BigOperators.Group.List
import Mathlib.Algebra.Order.Group.Nat

/-!
# Lines

`str::lines` and texts joined by a character. A pattern without that character lies in the
joined text exactly if it lies in one of its parts.
-/

namespace Direclaw.Lib.Text

/-- `str::lines`, where the `\r` of a line ending stays with its line. -/
def splitLines : List Char → List (List Char)
  | [] => []
  | c :: s =>
    if c = '\n' then [] :: splitLines s
    else
      match splitLines s with
      | [] => [[c]]
      | line :: rest => (c :: line) :: rest

/-- `join` with a separator of one character. -/
def joinWith (c : Char) (parts : List (List Char)) : List Char := List.intercalate [c] parts

section Joined

variable {c : Char} {pat part : List Char} {parts parts' : List (List Char)}

@[simp] theorem joinWith_singleton (c : Char) (part : List Char) : joinWith c [part] = part :=
  List.intercalate_singleton

theorem joinWith_cons_cons (c : Char) (part next : List Char) (parts : List (List Char)) :
    joinWith c (part :: next :: parts) = part ++ c :: joinWith c (next :: parts) := by
  rw [joinWith, joinWith, List.intercalate_cons_cons, List.append_assoc, List.singleton_append]

theorem joinWith_append_singleton (hne : parts ≠ []) (last : List Char) :
    joinWith c (parts ++ [last]) = joinWith c parts ++ c :: last := by
  induction parts with
  | nil => exact absurd rfl hne
  | cons part parts ih =>
    cases parts with
    | nil => rw [List.singleton_append, joinWith_cons_cons, joinWith_singleton, joinWith_singleton]
    | cons next parts =>
      rw [List.cons_append, List.cons_append, joinWith_cons_cons, ← List.cons_append,
        ih (List.cons_ne_nil _ _), joinWith_cons_cons, List.append_assoc, List.cons_append]

theorem infix_append_cons_iff (hc : c ∉ pat) {s t : List Char} :
    pat <:+: s ++ c :: t ↔ pat <:+: s ∨ pat <:+: t := by
  constructor
  · rintro ⟨before, after, h⟩
    rcases occurrence_around hc h.symm with ⟨more, hs, -⟩ | ⟨before', -, ht⟩
    · exact .inl ⟨before, more, hs.symm⟩
    · exact .inr ⟨before', after, ht.symm⟩
  · rintro (h | h)
    · exact h.trans (List.prefix_append _ _).isInfix
    · exact h.trans ((List.suffix_cons _ _).trans (List.suffix_append _ _)).isInfix

/-- What has no separator in it lies in one part. -/
theorem infix_joinWith_iff (hc : c ∉ pat) (hne : pat ≠ []) :
    pat <:+: joinWith c parts ↔ ∃ part ∈ parts, pat <:+: part := by
  induction parts with
  | nil =>
    refine iff_of_false (fun h => hne (List.infix_nil.mp h)) ?_
    rintro ⟨part, hmem, -⟩
    cases hmem
  | cons part parts ih =>
    rw [List.exists_mem_cons_iff]
    cases parts with
    | nil =>
      rw [joinWith_singleton]
      refine (or_iff_left ?_).symm
      rintro ⟨part, hmem, -⟩
      cases hmem
    | cons next parts => rw [joinWith_cons_cons, infix_append_cons_iff hc, ih]

theorem length_joinWith (c : Char) (parts : List (List Char)) :
    (joinWith c parts).length = (parts.map List.length).sum + (parts.length - 1) := by
  induction parts with
  | nil => rfl
  | cons part parts ih =>
    cases parts with
    | nil => simp
    | cons next parts =>
      rw [joinWith_cons_cons, List.length_append, List.length_cons, ih]
      simp only [List.map_cons, List.sum_cons, List.length_cons]
      omega

theorem length_joinWith_le_of_sublist (h : parts.Sublist parts') :
    (joinWith c parts).length ≤ (joinWith c parts').length := by
  rw [length_joinWith, length_joinWith]
  have hsum : (parts.map List.length).sum ≤ (parts'.map List.length).sum :=
    (h.map List.length).sum_le_sum fun n _ => Nat.zero_le n
  have hlength := h.length_le
  omega

theorem length_joinWith_map_le {f : List Char → List Char}
    (hf : ∀ part, (f part).length ≤ part.length) (parts : List (List Char)) :
    (joinWith c (parts.map f)).length ≤ (joinWith c parts).length := by
  rw [length_joinWith, length_joinWith, List.map_map, List.length_map]
  gcongr
  exact List.sum_le_sum fun part _ => hf part

end Joined

section Lines

theorem newline_not_mem_splitLines {line s : List Char} (h : line ∈ splitLines s) :
    '\n' ∉ line := by
  induction s generalizing line with
  | nil => cases h
  | cons c s ih =>
    rw [splitLines] at h
    split at h
    · rcases List.mem_cons.mp h with rfl | h
      · exact List.not_mem_nil
      · exact ih h
    · next hc =>
      have hnot : ∀ line, '\n' ∉ line → '\n' ∉ c :: line :=
        fun line hline => List.not_mem_cons_of_ne_of_not_mem (Ne.symm hc) hline
      split at h
      · rw [List.mem_singleton.mp h]
        exact hnot [] List.not_mem_nil
      · next first rest heq =>
        rcases List.mem_cons.mp h with rfl | h
        · exact hnot first (ih (heq ▸ List.mem_cons_self))
        · exact ih (heq ▸ List.mem_cons_of_mem _ h)

theorem length_joinWith_splitLines_le (s : List Char) :
    (joinWith '\n' (splitLines s)).length ≤ s.length := by
  induction s with
  | nil => exact le_rfl
  | cons c s ih =>
    rw [splitLines, List.length_cons]
    split
    · cases hlines : splitLines s with
      | nil => exact Nat.zero_le _
      | cons line rest =>
        rw [hlines] at ih
        rw [joinWith_cons_cons, List.nil_append, List.length_cons]
        exact Nat.succ_le_succ ih
    · cases hlines : splitLines s with
      | nil => exact Nat.succ_le_succ (Nat.zero_le _)
      | cons line rest =>
        rw [hlines, length_joinWith] at ih
        rw [length_joinWith]
        simp only [List.map_cons, List.sum_cons, List.length_cons] at ih ⊢
        omega

end Lines

end Direclaw.Lib.Text
