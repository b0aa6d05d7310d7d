import Mathlib.Data.Finset.Card
import Mathlib.Data.Finset.Lattice.Basic
import Mathlib.Data.Finset.Dedup
import Mathlib.Algebra.Order.Monoid.Unbundled.Basic
import Mathlib.Data.List.Perm.Basic

/-!
# Picking one item per free key

A scan over a list of keyed items that takes an item when its key is free and
there is room, and leaves it otherwise. A key is taken by the first item that
gets it, so of each key at most one item is taken, and it is the first one.
-/

namespace Direclaw.Lib

section KeyedScan

variable {α κ : Type*} [DecidableEq κ] (key : α → κ)

/-- The items taken and the items left, both in their old order. -/
def pick : Finset κ → ℕ → List α → List α × List α
  | _, _, [] => ([], [])
  | busy, room, x :: xs =>
    if key x ∉ busy ∧ 0 < room then
      ((x :: (pick (insert (key x) busy) (room - 1) xs).1),
        (pick (insert (key x) busy) (room - 1) xs).2)
    else ((pick busy room xs).1, x :: (pick busy room xs).2)

/-- The keys that occur and are not busy. -/
def freeKeys (busy : Finset κ) (items : List α) : Finset κ := (items.map key).toFinset \ busy

variable {key} {busy : Finset κ} {room : ℕ} {x : α} {xs : List α}

theorem pick_cons_take (h : key x ∉ busy ∧ 0 < room) :
    pick key busy room (x :: xs) =
      ((x :: (pick key (insert (key x) busy) (room - 1) xs).1),
        (pick key (insert (key x) busy) (room - 1) xs).2) := by
  rw [pick, if_pos h]

theorem pick_cons_leave (h : ¬ (key x ∉ busy ∧ 0 < room)) :
    pick key busy room (x :: xs) = ((pick key busy room xs).1, x :: (pick key busy room xs).2) := by
  rw [pick, if_neg h]

/-- Nothing is lost and nothing is duplicated. -/
theorem pick_perm (busy : Finset κ) (room : ℕ) (items : List α) :
    ((pick key busy room items).1 ++ (pick key busy room items).2).Perm items := by
  induction items generalizing busy room with
  | nil => exact List.Perm.refl _
  | cons x xs ih =>
    by_cases h : key x ∉ busy ∧ 0 < room
    · rw [pick_cons_take h]
      exact (ih _ _).cons x
    · rw [pick_cons_leave h]
      exact List.perm_middle.trans ((ih _ _).cons x)

theorem pick_zero (busy : Finset κ) (items : List α) : pick key busy 0 items = ([], items) := by
  induction items with
  | nil => rfl
  | cons x xs ih => rw [pick_cons_leave (by simp), ih]

/-- An item that is taken had a free key. -/
theorem not_mem_busy_of_mem_pick {items : List α} (h : x ∈ (pick key busy room items).1) :
    key x ∉ busy := by
  induction items generalizing busy room with
  | nil => cases h
  | cons y ys ih =>
    by_cases hy : key y ∉ busy ∧ 0 < room
    · rw [pick_cons_take hy] at h
      rcases List.mem_cons.mp h with rfl | h
      · exact hy.1
      · exact fun hx => ih h (Finset.mem_insert_of_mem hx)
    · rw [pick_cons_leave hy] at h
      exact ih h

theorem pick_keys_nodup (busy : Finset κ) (room : ℕ) (items : List α) :
    ((pick key busy room items).1.map key).Nodup := by
  induction items generalizing busy room with
  | nil => exact List.nodup_nil
  | cons x xs ih =>
    by_cases h : key x ∉ busy ∧ 0 < room
    · rw [pick_cons_take h, List.map_cons, List.nodup_cons]
      refine ⟨?_, ih _ _⟩
      intro hx
      obtain ⟨y, hy, hkey⟩ := List.mem_map.mp hx
      exact not_mem_busy_of_mem_pick hy (hkey ▸ Finset.mem_insert_self _ _)
    · rw [pick_cons_leave h]
      exact ih _ _

/-- Of each key, what is taken comes before what is left. -/
theorem pick_filter (busy : Finset κ) (room : ℕ) (items : List α) (k : κ) :
    (pick key busy room items).1.filter (key · = k) ++
      (pick key busy room items).2.filter (key · = k) = items.filter (key · = k) := by
  induction items generalizing busy room with
  | nil => rfl
  | cons x xs ih =>
    by_cases h : key x ∉ busy ∧ 0 < room
    · rw [pick_cons_take h]
      by_cases hk : key x = k
      · simp only [List.filter_cons, hk, decide_true, if_true, List.cons_append, ih]
      · simp only [List.filter_cons, hk, decide_false, Bool.false_eq_true, if_false, ih]
    · rw [pick_cons_leave h]
      by_cases hk : key x = k
      · -- the key was busy, or there was no room: no later item of it is taken
        have hnone : (pick key busy room xs).1.filter (key · = k) = [] := by
          rw [List.filter_eq_nil_iff]
          intro y hy hyk
          rw [not_and_or, not_not] at h
          rcases h with hbusy | hroom
          · have hfree := not_mem_busy_of_mem_pick hy
            rw [of_decide_eq_true hyk, ← hk] at hfree
            exact hfree hbusy
          · rw [Nat.eq_zero_of_not_pos hroom, pick_zero] at hy
            cases hy
        have hrest := ih busy room
        rw [hnone, List.nil_append] at hrest ⊢
        simp only [List.filter_cons, hk, decide_true, if_true, hrest]
      · simp only [List.filter_cons, hk, decide_false, Bool.false_eq_true, if_false, ih]

/-- As many items are taken as there are free keys, up to the room. -/
theorem pick_length (busy : Finset κ) (room : ℕ) (items : List α) :
    (pick key busy room items).1.length = min room (freeKeys key busy items).card := by
  induction items generalizing busy room with
  | nil => simp [pick, freeKeys]
  | cons x xs ih =>
    by_cases h : key x ∉ busy ∧ 0 < room
    · -- taking `x` makes its key busy, so later items of the same key add nothing
      have hfree : freeKeys key busy (x :: xs) =
          insert (key x) (freeKeys key (insert (key x) busy) xs) := by
        ext k
        simp only [freeKeys, List.map_cons, List.toFinset_cons, Finset.mem_sdiff,
          Finset.mem_insert, List.mem_toFinset]
        constructor
        · rintro ⟨rfl | hk, hb⟩
          · exact .inl rfl
          · by_cases hkx : k = key x
            · exact .inl hkx
            · exact .inr ⟨hk, fun hor => hor.elim hkx hb⟩
        · rintro (rfl | ⟨hk, hb⟩)
          · exact ⟨.inl rfl, h.1⟩
          · exact ⟨.inr hk, fun hbk => hb (.inr hbk)⟩
      have hnew : key x ∉ freeKeys key (insert (key x) busy) xs := by
        simp [freeKeys]
      rw [pick_cons_take h, List.length_cons, ih, hfree, Finset.card_insert_of_notMem hnew]
      omega
    · rw [pick_cons_leave h]
      rw [not_and_or, not_not] at h
      rcases h with hbusy | hroom
      · have hfree : freeKeys key busy (x :: xs) = freeKeys key busy xs := by
          ext k
          simp only [freeKeys, List.map_cons, List.toFinset_cons, Finset.mem_sdiff,
            Finset.mem_insert, List.mem_toFinset]
          constructor
          · rintro ⟨rfl | hk, hb⟩
            · exact absurd hbusy hb
            · exact ⟨hk, hb⟩
          · rintro ⟨hk, hb⟩
            exact ⟨.inr hk, hb⟩
        rw [hfree]
        exact ih busy room
      · rw [Nat.eq_zero_of_not_pos hroom, pick_zero]
        simp

/-- A scan that did not use up its room leaves only items whose key is now taken. -/
theorem pick_exhausts {items : List α} (hroom : (pick key busy room items).1.length < room) :
    ∀ y ∈ (pick key busy room items).2,
      key y ∈ busy ∨ ∃ x ∈ (pick key busy room items).1, key x = key y := by
  induction items generalizing busy room with
  | nil => simp [pick]
  | cons x xs ih =>
    intro y hy
    by_cases h : key x ∉ busy ∧ 0 < room
    · rw [pick_cons_take h] at hroom hy ⊢
      rw [List.length_cons] at hroom
      rcases ih (by omega) y hy with hbusy | ⟨z, hz, hzy⟩
      · rcases Finset.mem_insert.mp hbusy with hyx | hbusy
        · exact .inr ⟨x, List.mem_cons_self, hyx.symm⟩
        · exact .inl hbusy
      · exact .inr ⟨z, List.mem_cons_of_mem _ hz, hzy⟩
    · rw [pick_cons_leave h] at hroom hy ⊢
      rcases List.mem_cons.mp hy with rfl | hy
      · rw [not_and_or, not_not] at h
        exact .inl (h.resolve_right fun hz => hz (by omega))
      · exact ih hroom y hy

end KeyedScan

end Direclaw.Lib
