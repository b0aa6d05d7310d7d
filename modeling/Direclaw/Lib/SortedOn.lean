import Mathlib.Data.List.Sort
import Mathlib.Data.Prod.Lex

/-!
# Sorting by a key

A stable sort by a key into a linear order. If the key tells the elements apart, the result
depends on what the list holds and not on its order, and one element stands before another
exactly if its key is smaller.
-/

namespace Direclaw.Lib

section SortedOn

variable {α κ : Type*} [LinearOrder κ] (key : α → κ)

def sortOn (l : List α) : List α := l.insertionSort fun a b => key a ≤ key b

variable {key} {l l' : List α}

theorem sortOn_perm (l : List α) : (sortOn key l).Perm l := List.perm_insertionSort _ l

@[simp] theorem mem_sortOn {a : α} : a ∈ sortOn key l ↔ a ∈ l := (sortOn_perm l).mem_iff

theorem sortOn_pairwise (l : List α) : (sortOn key l).Pairwise fun a b => key a ≤ key b := by
  have htotal : Std.Total fun a b : α => key a ≤ key b := ⟨fun a b => le_total (key a) (key b)⟩
  have htrans : IsTrans α fun a b => key a ≤ key b := ⟨fun a b c hab hbc => hab.trans hbc⟩
  exact List.pairwise_insertionSort _ l

/-- Lists that hold the same are sorted to the same list. -/
theorem sortOn_eq_of_perm (hinj : ∀ a ∈ l, ∀ b ∈ l, key a = key b → a = b) (h : l.Perm l') :
    sortOn key l = sortOn key l' := by
  refine List.Perm.eq_of_pairwise ?_ (sortOn_pairwise l) (sortOn_pairwise l')
    ((sortOn_perm l).trans (h.trans (sortOn_perm l').symm))
  intro a b ha hb hab hba
  apply hinj a (mem_sortOn.mp ha) b (h.mem_iff.mpr (mem_sortOn.mp hb))
  exact le_antisymm hab hba

variable {a b : α}

theorem le_of_sublist_sortOn (h : [a, b].Sublist (sortOn key l)) : key a ≤ key b :=
  List.rel_of_pairwise_cons ((sortOn_pairwise l).sublist h) List.mem_cons_self

/-- Of two different members one stands before the other. -/
theorem sublist_or_sublist (hne : a ≠ b) (ha : a ∈ l) (hb : b ∈ l) :
    [a, b].Sublist l ∨ [b, a].Sublist l := by
  obtain ⟨before, after, rfl⟩ := List.append_of_mem ha
  rcases List.mem_append.mp hb with hb | hb
  · right
    exact List.Sublist.append (List.singleton_sublist.mpr hb)
      (List.singleton_sublist.mpr List.mem_cons_self)
  · left
    have hafter := (List.mem_cons.mp hb).resolve_left (Ne.symm hne)
    exact List.Sublist.trans (List.Sublist.cons_cons a (List.singleton_sublist.mpr hafter))
      (List.sublist_append_right before (a :: after))

theorem sublist_sortOn_of_lt (ha : a ∈ l) (hb : b ∈ l) (h : key a < key b) :
    [a, b].Sublist (sortOn key l) := by
  have hne : a ≠ b := by
    rintro rfl
    exact lt_irrefl _ h
  rcases sublist_or_sublist (l := sortOn key l) hne (mem_sortOn.mpr ha) (mem_sortOn.mpr hb)
    with hab | hba
  · exact hab
  · exact absurd (le_of_sublist_sortOn hba) (not_le.mpr h)

end SortedOn

end Direclaw.Lib
