import Mathlib.Data.List.AList

/-!
# Registers

Members are entered one after the other under a key each; a table keeps the last member of
every key. What is displaced at an entry says who shares a key.
-/

namespace Direclaw.Lib

variable {ι κ : Type} {key : ι → Option κ} {seen : List ι} {x p : ι} {k : κ}

def Shares (key : ι → Option κ) (x y : ι) : Prop := ∃ k, key x = some k ∧ key y = some k

theorem Shares.symm {y : ι} : Shares key x y → Shares key y x
  | ⟨k, hx, hy⟩ => ⟨k, hy, hx⟩

/-- No other member of `seen` has the key of `p`. -/
def Alone (key : ι → Option κ) (seen : List ι) (p : ι) : Prop :=
  ∀ q ∈ seen, q ≠ p → ¬ Shares key q p

theorem alone_append_of_none (hkey : key x = none) :
    Alone key (seen ++ [x]) p ↔ Alone key seen p := by
  constructor
  · intro halone q hq
    exact halone q (List.mem_append_left _ hq)
  · intro halone q hq hne
    rcases List.mem_append.mp hq with hq | hq
    · exact halone q hq hne
    · cases List.mem_singleton.mp hq
      rintro ⟨k, hq', -⟩
      rw [hkey] at hq'
      cases hq'

/-- Distinct members are alone exactly when no two of them share a key. -/
theorem forall_alone_iff_pairwise (h : seen.Nodup) :
    (∀ p ∈ seen, Alone key seen p) ↔ seen.Pairwise fun q p => ¬ Shares key q p := by
  constructor
  · intro halone
    exact h.pairwise_of_forall_ne fun q hq p hp hne => halone p hp q hq hne
  · intro hpairs p hp q hq hne
    have hsymm : Std.Symm fun q p => ¬ Shares key q p := ⟨fun _ _ hqp hpq => hqp hpq.symm⟩
    exact hpairs.forall hq hp hne

/-! ## The table -/

variable [DecidableEq κ] {owners : AList fun _ : κ => ι}

/-- `owners` keeps a member for every key of `seen`. -/
structure Registers (key : ι → Option κ) (seen : List ι) (owners : AList fun _ : κ => ι) :
    Prop where
  sound : ∀ {k i}, owners.lookup k = some i → i ∈ seen ∧ key i = some k
  complete : ∀ {i k}, i ∈ seen → key i = some k → owners.lookup k ≠ none

theorem Registers.nil : Registers key [] (∅ : AList fun _ : κ => ι) where
  sound h := by simp at h
  complete h := by cases h

theorem Registers.insert (h : Registers key seen owners) (hkey : key x = some k) :
    Registers key (seen ++ [x]) (owners.insert k x) := by
  constructor
  · intro k' i hlookup
    by_cases hk : k' = k
    · subst hk
      rw [AList.lookup_insert] at hlookup
      cases hlookup
      exact ⟨by simp, hkey⟩
    · rw [AList.lookup_insert_ne hk] at hlookup
      obtain ⟨hseen, hi⟩ := h.sound hlookup
      exact ⟨List.mem_append_left _ hseen, hi⟩
  · intro i k' hi hk'
    by_cases hk : k' = k
    · subst hk
      simp
    · rw [AList.lookup_insert_ne hk]
      rcases List.mem_append.mp hi with hseen | hx
      · exact h.complete hseen hk'
      · cases List.mem_singleton.mp hx
        exact absurd (Option.some.inj (hk'.symm.trans hkey)) hk

/-- A member without a key is not entered. -/
theorem Registers.skip (h : Registers key seen owners) (hkey : key x = none) :
    Registers key (seen ++ [x]) owners := by
  constructor
  · intro k i hlookup
    obtain ⟨hseen, hi⟩ := h.sound hlookup
    exact ⟨List.mem_append_left _ hseen, hi⟩
  · intro i k hi hk
    rcases List.mem_append.mp hi with hseen | hx
    · exact h.complete hseen hk
    · cases List.mem_singleton.mp hx
      rw [hkey] at hk
      cases hk

/-- Nothing is displaced exactly when the key is new. -/
theorem Registers.lookup_eq_none_iff (h : Registers key seen owners) (hkey : key x = some k) :
    owners.lookup k = none ↔ ∀ q ∈ seen, ¬ Shares key q x := by
  constructor
  · rintro hnone q hq ⟨k', hq', hx'⟩
    cases hkey.symm.trans hx'
    exact h.complete hq hq' hnone
  · intro hnew
    cases hlookup : owners.lookup k with
    | none => rfl
    | some i =>
      obtain ⟨hseen, hi⟩ := h.sound hlookup
      exact absurd ⟨k, hi, hkey⟩ (hnew i hseen)

theorem Registers.alone_self_iff (h : Registers key seen owners) (hx : x ∉ seen)
    (hkey : key x = some k) : Alone key (seen ++ [x]) x ↔ owners.lookup k = none := by
  rw [h.lookup_eq_none_iff hkey]
  constructor
  · intro halone q hq
    have hne : q ≠ x := by
      rintro rfl
      exact hx hq
    exact halone q (List.mem_append_left _ hq) hne
  · intro hnew q hq hne
    rcases List.mem_append.mp hq with hq | hq
    · exact hnew q hq
    · exact absurd (List.mem_singleton.mp hq) hne

/-- Who was alone stays alone unless it is the one displaced. -/
theorem Registers.alone_append_iff (h : Registers key seen owners) (hx : x ∉ seen)
    (hkey : key x = some k) (hp : p ∈ seen) :
    Alone key (seen ++ [x]) p ↔ Alone key seen p ∧ owners.lookup k ≠ some p := by
  have hxp : x ≠ p := by
    rintro rfl
    exact hx hp
  constructor
  · intro halone
    refine ⟨fun q hq => halone q (List.mem_append_left _ hq), fun hlookup => ?_⟩
    exact halone x (by simp) hxp ⟨k, hkey, (h.sound hlookup).2⟩
  · rintro ⟨halone, hkept⟩ q hq hne
    rcases List.mem_append.mp hq with hq | hq
    · exact halone q hq hne
    · cases List.mem_singleton.mp hq
      rintro ⟨k', hq', hp'⟩
      cases hkey.symm.trans hq'
      cases hlookup : owners.lookup k with
      | none => exact h.complete hp hp' hlookup
      | some i =>
        obtain ⟨hseen, hi⟩ := h.sound hlookup
        have hip : i ≠ p := by
          rintro rfl
          exact hkept hlookup
        exact halone i hseen hip ⟨k, hi, hp'⟩

end Direclaw.Lib
