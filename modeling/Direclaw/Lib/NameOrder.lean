import Direclaw.Lib.Text
import Mathlib.Data.List.Sort
import Mathlib.Data.Nat.Nth

/-!
# Numbered names in the order of a listing

A directory listing sorts names as texts. Numbers in them are in order as long as they have
equally many digits; a number followed by a character below all digits compares like its
digits alone. The names that are free for numbering are counted by `Nat.nth`.
-/

namespace Direclaw.Lib

/-! ## Texts with a common ending -/

namespace Text

variable {s t : List Char}

/-- Texts of one length differ before anything that is behind them counts. -/
theorem append_lt_append (h : s < t) (hlen : s.length = t.length) (u v : List Char) :
    s ++ u < t ++ v := by
  induction s generalizing t with
  | nil =>
    rw [List.length_nil, eq_comm, List.length_eq_zero_iff] at hlen
    rw [hlen] at h
    exact absurd h (lt_irrefl _)
  | cons x s ih =>
    cases t with
    | nil => cases hlen
    | cons y t =>
      rw [List.cons_append, List.cons_append, List.cons_lt_cons_iff]
      rcases List.cons_lt_cons_iff.mp h with hxy | ⟨rfl, hst⟩
      · exact .inl hxy
      · exact .inr ⟨rfl, ih hst (Nat.succ.inj hlen)⟩

theorem append_lt_append_left_iff (pre : List Char) : pre ++ s < pre ++ t ↔ s < t := by
  induction pre with
  | nil => rfl
  | cons x pre ih =>
    rw [List.cons_append, List.cons_append, List.cons_lt_cons_iff, ih]
    simp

/-- A terminator below every character in front of it changes nothing. -/
theorem append_terminator_lt_iff {c : Char} (hs : ∀ x ∈ s, c < x) (ht : ∀ x ∈ t, c < x)
    (rest : List Char) : s ++ c :: rest < t ++ c :: rest ↔ s < t := by
  induction s generalizing t with
  | nil =>
    cases t with
    | nil => simp
    | cons y t =>
      have hy : c < y := ht y List.mem_cons_self
      rw [List.nil_append, List.cons_append, List.cons_lt_cons_iff]
      exact iff_of_true (.inl hy) (List.nil_lt_cons y t)
  | cons x s ih =>
    cases t with
    | nil =>
      have hx : c < x := hs x List.mem_cons_self
      rw [List.nil_append, List.cons_append, List.cons_lt_cons_iff]
      refine iff_of_false ?_ (List.not_lt_nil _)
      rintro (h | ⟨rfl, _⟩)
      · exact lt_asymm h hx
      · exact lt_irrefl _ hx
    | cons y t =>
      rw [List.cons_append, List.cons_append, List.cons_lt_cons_iff, List.cons_lt_cons_iff,
        ih (fun z hz => hs z (List.mem_cons_of_mem _ hz))
          (fun z hz => ht z (List.mem_cons_of_mem _ hz))]

/-! ## Decimal numbers -/

theorem digitChar_lt {m n : ℕ} (h : m < n) (hn : n < 10) : m.digitChar < n.digitChar := by
  have hall : ∀ b < 10, ∀ a < b, a.digitChar < b.digitChar := by decide
  exact hall n hn m h

variable {n : ℕ}

theorem decimal_of_lt (h : n < 10) : decimal n = [n.digitChar] :=
  Nat.toDigits_of_lt_base h

theorem decimal_of_le (h : 10 ≤ n) : decimal n = decimal (n / 10) ++ [(n % 10).digitChar] :=
  Nat.toDigits_of_base_le (by decide) h

theorem length_decimal_eq_one_iff : (decimal n).length = 1 ↔ n < 10 := by
  rcases lt_or_ge n 10 with h | h
  · rw [decimal_of_lt h]
    exact iff_of_true rfl h
  · have hpos := List.length_pos_of_ne_nil (decimal_ne_nil (n / 10))
    rw [decimal_of_le h, List.length_append, List.length_singleton]
    omega

/-- Numbers with equally many digits are in the order of their texts. -/
theorem decimal_lt_decimal {m n : ℕ} (h : m < n)
    (hlen : (decimal m).length = (decimal n).length) : decimal m < decimal n := by
  induction n using Nat.strong_induction_on generalizing m with
  | _ n ih =>
    rcases lt_or_ge n 10 with hn | hn
    · rw [decimal_of_lt hn, decimal_of_lt (h.trans hn), List.cons_lt_cons_iff]
      exact .inl (digitChar_lt h hn)
    · have hm : 10 ≤ m := by
        by_contra hm
        have hone := length_decimal_eq_one_iff.mpr (not_le.mp hm)
        rw [hlen, length_decimal_eq_one_iff] at hone
        omega
      rw [decimal_of_le hm, decimal_of_le hn] at hlen ⊢
      simp only [List.length_append, List.length_singleton, Nat.add_right_cancel_iff] at hlen
      rcases lt_or_eq_of_le (Nat.div_le_div_right h.le) with hdiv | hdiv
      · -- the leading digits decide
        exact append_lt_append (ih (n / 10) (by omega) hdiv hlen) hlen _ _
      · rw [hdiv, append_lt_append_left_iff, List.cons_lt_cons_iff]
        exact .inl (digitChar_lt (by omega) (by omega))

end Text

/-! ## Some names in a sorted listing -/

section Listing

variable {α : Type*} [LinearOrder α] {listed names : List α}

/-- Some names come in a given order in the listing of all. -/
theorem filter_insertionSort_eq_iff [∀ n, Decidable (n ∈ names)] (hlisted : listed.Nodup) :
    (listed.insertionSort (· ≤ ·)).filter (· ∈ names) = names ↔
      (∀ n ∈ names, n ∈ listed) ∧ names.Pairwise (· < ·) := by
  have hsorted : (listed.insertionSort (· ≤ ·)).Pairwise (· < ·) := by
    have hle : (listed.insertionSort (· ≤ ·)).Pairwise (· ≤ ·) := List.pairwise_insertionSort _ _
    have hnodup : (listed.insertionSort (· ≤ ·)).Nodup :=
      (List.perm_insertionSort _ _).nodup_iff.mpr hlisted
    exact (hle.and hnodup).imp fun h => lt_of_le_of_ne h.1 h.2
  have hfilter : ((listed.insertionSort (· ≤ ·)).filter (· ∈ names)).Pairwise (· < ·) :=
    hsorted.sublist List.filter_sublist
  constructor
  · intro h
    rw [h] at hfilter
    refine ⟨fun n hn => ?_, hfilter⟩
    rw [← h, List.mem_filter, List.mem_insertionSort] at hn
    exact hn.1
  · rintro ⟨hsub, hlt⟩
    refine List.Perm.eq_of_pairwise
      (fun a b _ _ (hab : a < b) hba => absurd hba (lt_asymm hab)) hfilter hlt ?_
    apply (List.perm_ext_iff_of_nodup (hfilter.imp ne_of_lt) (hlt.imp ne_of_lt)).mpr
    intro n
    rw [List.mem_filter, List.mem_insertionSort]
    simp only [decide_eq_true_eq, and_iff_right_iff_imp]
    exact hsub n

end Listing

/-! ## The numbers that are free -/

section Free

variable {free : ℕ → Prop}

/-- The free numbers from the `k`-th on, without it, are those from the next one on. -/
theorem nth_succ_le_iff (hfree : (Set.ofPred free).Infinite) {k i : ℕ} (hi : free i) :
    Nat.nth free (k + 1) ≤ i ↔ Nat.nth free k ≤ i ∧ i ≠ Nat.nth free k := by
  constructor
  · intro h
    have hlt : Nat.nth free k < i := lt_of_lt_of_le (Nat.nth_strictMono hfree k.lt_succ_self) h
    exact ⟨hlt.le, hlt.ne'⟩
  · rintro ⟨hle, hne⟩
    by_contra h
    exact hne (le_antisymm (Nat.le_nth_of_lt_nth_succ (not_le.mp h) hi) hle)

end Free

end Direclaw.Lib
