import Mathlib.Data.List.Pairwise

/-!
# Tokens in places

A ledger lists every token ever created, with its content and the place it is in
now; one place, `gone`, is for tokens that are no longer kept. The world says
which content is at which place. The ledger is in order when every kept token is
really at its place, no two kept tokens share a place, and nothing is at a place
without a token.
-/

namespace Direclaw.Lib

section Custody

variable {π γ : Type*} [DecidableEq π]

/-- The ledger agrees with the world `holds`. -/
structure InCustody (gone : π) (holds : π → γ → Prop) (ledger : List (γ × π)) : Prop where
  located : ∀ t ∈ ledger, t.2 ≠ gone → holds t.2 t.1
  apart : ledger.Pairwise fun a b => a.2 ≠ gone → a.2 ≠ b.2
  owned : ∀ p c, holds p c → ∃ t ∈ ledger, t.2 = p

/-- Every token at `src` moves to `dst`. -/
def moveTokens (src dst : π) (ledger : List (γ × π)) : List (γ × π) :=
  ledger.map fun t => (t.1, if t.2 = src then dst else t.2)

theorem moveTokens_fst (src dst : π) (ledger : List (γ × π)) :
    (moveTokens src dst ledger).map Prod.fst = ledger.map Prod.fst := by
  simp [moveTokens]

variable {gone src dst : π} {holds holds' : π → γ → Prop} {ledger : List (γ × π)}

omit [DecidableEq π] in
/-- A new token at a place that was empty. -/
theorem InCustody.add (h : InCustody gone holds ledger) {p : π} {c : γ}
    (hfree : ∀ d, ¬ holds p d) (hnew : holds' p c)
    (hother : ∀ q d, q ≠ p → (holds' q d ↔ holds q d)) :
    InCustody gone holds' (ledger ++ [(c, p)]) := by
  have hnone : ∀ t ∈ ledger, t.2 ≠ gone → t.2 ≠ p := by
    intro t ht hg heq
    exact hfree t.1 (heq ▸ h.located t ht hg)
  refine ⟨?_, ?_, ?_⟩
  · intro t ht hg
    rcases List.mem_append.mp ht with hold | hlast
    · exact (hother _ _ (hnone t hold hg)).mpr (h.located t hold hg)
    · rw [List.mem_singleton.mp hlast]
      exact hnew
  · refine List.pairwise_append.mpr ⟨h.apart, List.pairwise_singleton _ _, ?_⟩
    intro t ht u hu hg
    rw [List.mem_singleton.mp hu]
    exact hnone t ht hg
  · intro q d hq
    by_cases hqp : q = p
    · exact ⟨(c, p), by simp, hqp.symm⟩
    · obtain ⟨t, ht, hp'⟩ := h.owned q d ((hother q d hqp).mp hq)
      exact ⟨t, List.mem_append_left _ ht, hp'⟩

/-- The token at `src` moves to `dst`, which was empty or is `gone`. -/
theorem InCustody.move (h : InCustody gone holds ledger) (hsrc : src ≠ gone)
    (hocc : ∃ c, holds src c) (hfree : dst = gone ∨ ∀ d, ¬ holds dst d)
    (harrive : ∀ c, holds src c → dst = gone ∨ holds' dst c) (hleave : ∀ c, ¬ holds' src c)
    (hother : ∀ q d, q ≠ src → q ≠ dst → (holds' q d ↔ holds q d)) :
    InCustody gone holds' (moveTokens src dst ledger) := by
  have hnone : ∀ t ∈ ledger, t.2 ≠ gone → t.2 ≠ dst := by
    intro t ht hg heq
    rcases hfree with hd | hd
    · exact hg (heq.trans hd)
    · exact hd t.1 (heq ▸ h.located t ht hg)
  refine ⟨?_, ?_, ?_⟩
  · intro t ht hg
    obtain ⟨u, hu, rfl⟩ := List.mem_map.mp ht
    by_cases hus : u.2 = src
    · simp only [hus, if_true] at hg ⊢
      exact (harrive u.1 (hus ▸ h.located u hu (hus ▸ hsrc))).resolve_left hg
    · simp only [hus, if_false] at hg ⊢
      exact (hother _ _ hus (hnone u hu hg)).mpr (h.located u hu hg)
  · refine List.pairwise_map.mpr (h.apart.imp_of_mem ?_)
    intro t u ht hu hdiff
    -- only one token was at `src`, and none of the kept ones at `dst`
    by_cases hts : t.2 = src <;> by_cases hus : u.2 = src <;>
      simp only [hts, hus, if_true, if_false]
    · exact absurd (hts.trans hus.symm) (hdiff (hts ▸ hsrc))
    · intro hg heq
      exact hnone u hu (heq ▸ hg) heq.symm
    · exact hnone t ht
    · exact hdiff
  · intro q d hq
    by_cases hqs : q = src
    · exact absurd (hqs ▸ hq) (hleave d)
    · by_cases hqd : q = dst
      · obtain ⟨c, hc⟩ := hocc
        obtain ⟨t, ht, hts⟩ := h.owned src c hc
        exact ⟨(t.1, dst), List.mem_map.mpr ⟨t, ht, by simp [hts]⟩, hqd.symm⟩
      · obtain ⟨t, ht, htq⟩ := h.owned q d ((hother q d hqs hqd).mp hq)
        refine ⟨(t.1, q), List.mem_map.mpr ⟨t, ht, ?_⟩, rfl⟩
        simp [htq, hqs]

end Custody

end Direclaw.Lib
