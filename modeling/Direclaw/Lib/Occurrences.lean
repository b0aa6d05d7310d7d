import Direclaw.Lib.Text

/-!
# Occurrences of a pattern

Where a text holds a pattern, as pairs of the text before and after it; the first
occurrence, which `find` and `split_once` go by; and patterns that begin with a character
they do not hold again, whose occurrences are apart from each other.
-/

namespace Direclaw.Lib.Text

/-- The first occurrence of the pattern lies between `before` and `after`. -/
structure FirstAt (pat s before after : List Char) : Prop where
  text : s = before ++ pat ++ after
  first : ∀ before' after', s = before' ++ pat ++ after' → before.length ≤ before'.length

variable {pat s : List Char}

theorem isPrefixOf_append (h : pat.isPrefixOf s = true) : pat ++ s.drop pat.length = s := by
  obtain ⟨rest, rfl⟩ := List.isPrefixOf_iff_prefix.mp h
  rw [List.drop_left]

theorem firstAt_nil_iff {pat s after : List Char} : FirstAt pat s [] after ↔ s = pat ++ after :=
  ⟨fun h => h.text, fun h => ⟨h, fun _ _ _ => Nat.zero_le _⟩⟩

/-- A later first occurrence: the text does not begin with the pattern, and the occurrence is
the first one of the rest. -/
theorem firstAt_cons_iff {pat xs before after : List Char} {x y : Char} :
    FirstAt pat (x :: xs) (y :: before) after ↔
      ¬ pat <+: x :: xs ∧ y = x ∧ FirstAt pat xs before after := by
  constructor
  · intro h
    obtain ⟨rfl, hxs⟩ := List.cons.inj h.text
    refine ⟨?_, rfl, hxs, fun before' after' htext => ?_⟩
    · rintro ⟨rest, hrest⟩
      exact absurd (h.first [] rest hrest.symm) (Nat.not_succ_le_zero _)
    · exact Nat.le_of_succ_le_succ (h.first (x :: before') after' (congrArg _ htext))
  · rintro ⟨hpat, rfl, hrest⟩
    refine ⟨congrArg (y :: ·) hrest.text, fun before' after' htext => ?_⟩
    cases before' with
    | nil => exact absurd ⟨after', htext.symm⟩ hpat
    | cons z before' => exact Nat.succ_le_succ (hrest.first before' after' (List.cons.inj htext).2)

theorem splitOnceStr_eq_some_iff {pat s before after : List Char} :
    splitOnceStr pat s = some (before, after) ↔ FirstAt pat s before after := by
  induction s generalizing before with
  | nil =>
    unfold splitOnceStr
    constructor
    · intro h
      split at h
      · next hpat =>
          cases h
          rw [hpat]
          exact firstAt_nil_iff.mpr rfl
      · cases h
    · intro h
      have htext := h.text.symm
      simp only [List.append_eq_nil_iff] at htext
      obtain ⟨⟨rfl, rfl⟩, rfl⟩ := htext
      rfl
  | cons x xs ih =>
    unfold splitOnceStr
    cases before with
    | nil =>
      -- the pattern is at the start
      rw [firstAt_nil_iff]
      constructor
      · intro h
        split at h
        · next hpat =>
            cases h
            exact (isPrefixOf_append hpat).symm
        · obtain ⟨found, -, hfound⟩ := Option.map_eq_some_iff.mp h
          cases hfound
      · intro h
        rw [if_pos (List.isPrefixOf_iff_prefix.mpr ⟨after, h.symm⟩), h, List.drop_left]
    | cons y before =>
      rw [firstAt_cons_iff, ← ih, ← List.isPrefixOf_iff_prefix]
      split
      · next hpat =>
          refine iff_of_false ?_ fun h => h.1 hpat
          intro h
          cases h
      · next hpat =>
          rw [and_iff_right hpat]
          constructor
          · intro h
            obtain ⟨⟨first, rest⟩, hsplit, heq⟩ := Option.map_eq_some_iff.mp h
            cases heq
            exact ⟨rfl, hsplit⟩
          · rintro ⟨rfl, hsplit⟩
            rw [hsplit]
            rfl

theorem splitOnceStr_eq_none_iff : splitOnceStr pat s = none ↔ ¬ pat <:+: s := by
  constructor
  · rintro h ⟨before, after, htext⟩
    induction s generalizing before with
    | nil =>
      simp only [List.append_eq_nil_iff] at htext
      simp [splitOnceStr, htext.1.2] at h
    | cons x xs ih =>
      unfold splitOnceStr at h
      split at h
      · cases h
      · next hpat =>
          cases before with
          | nil => exact hpat (List.isPrefixOf_iff_prefix.mpr ⟨after, htext⟩)
          | cons y before =>
            exact ih (Option.map_eq_none_iff.mp h) before (List.cons.inj htext).2
  · intro h
    cases hsplit : splitOnceStr pat s with
    | none => rfl
    | some found =>
      have hfirst := splitOnceStr_eq_some_iff.mp hsplit
      exact absurd ⟨found.1, found.2, hfirst.text.symm⟩ h

/-- A text that holds the pattern holds it first somewhere. -/
theorem exists_firstAt (h : pat <:+: s) : ∃ before after, FirstAt pat s before after := by
  cases hsplit : splitOnceStr pat s with
  | none => exact absurd h (splitOnceStr_eq_none_iff.mp hsplit)
  | some found => exact ⟨found.1, found.2, splitOnceStr_eq_some_iff.mp hsplit⟩

theorem FirstAt.isInfix {pat s before after : List Char} (h : FirstAt pat s before after) :
    pat <:+: s := ⟨before, after, h.text.symm⟩

/-- Nothing before the first occurrence is one. -/
theorem FirstAt.not_infix_before {pat s before after : List Char} (hpat : pat ≠ [])
    (h : FirstAt pat s before after) : ¬ pat <:+: before := by
  rintro ⟨left, right, rfl⟩
  have hle := h.first left (right ++ pat ++ after) (by rw [h.text]; simp)
  have hpos := List.length_pos_iff.mpr hpat
  simp only [List.length_append] at hle
  omega

theorem FirstAt.unique {pat s before after before' after' : List Char}
    (h : FirstAt pat s before after) (h' : FirstAt pat s before' after') :
    before = before' ∧ after = after' := by
  have heq := (splitOnceStr_eq_some_iff.mpr h).symm.trans (splitOnceStr_eq_some_iff.mpr h')
  cases heq
  exact ⟨rfl, rfl⟩

/-- The first occurrence stays the first one if the text goes on. -/
theorem FirstAt.append {pat s before after : List Char} (h : FirstAt pat s before after)
    (t : List Char) : FirstAt pat (s ++ t) before (after ++ t) := by
  refine ⟨by rw [h.text, List.append_assoc], fun before' after' htext => ?_⟩
  by_contra hearlier
  have hlength : (before' ++ pat).length ≤ s.length := by
    have hs := congrArg List.length h.text
    simp only [List.length_append] at hs ⊢
    omega
  obtain ⟨rest, hrest⟩ := List.prefix_of_prefix_length_le
    ⟨after', htext.symm⟩ (List.prefix_append s t) hlength
  exact hearlier (h.first before' rest hrest.symm)

/-- An occurrence lies before or behind a character that the pattern does not hold. -/
theorem occurrence_around {pat gap t before after : List Char} {c : Char} (hc : c ∉ pat)
    (h : gap ++ c :: t = before ++ pat ++ after) :
    (∃ more, gap = before ++ pat ++ more ∧ after = more ++ c :: t) ∨
      ∃ before', before = gap ++ c :: before' ∧ t = before' ++ pat ++ after := by
  rcases List.append_eq_append_iff.mp h with ⟨more, hlong, hrest⟩ | ⟨more, hgap, hafter⟩
  · cases more with
    | nil => exact .inl ⟨[], by simpa using hlong.symm, by simpa using hrest.symm⟩
    | cons d more =>
      obtain ⟨rfl, rfl⟩ := List.cons.inj hrest
      rcases List.append_eq_append_iff.mp hlong with ⟨tail, -, hpat⟩ | ⟨tail, hbefore, htail⟩
      · exact absurd (hpat ▸ List.mem_append_right _ List.mem_cons_self) hc
      · cases tail with
        | nil =>
          rw [List.nil_append] at htail
          rw [← htail] at hc
          exact absurd List.mem_cons_self hc
        | cons d tail =>
          obtain ⟨rfl, rfl⟩ := List.cons.inj htail
          exact .inr ⟨tail, hbefore, by simp⟩
  · exact .inl ⟨more, hgap, hafter⟩

/-- A gap in front, up to a character of its own, moves the first occurrence. -/
theorem FirstAt.behind_gap {pat gap t before after : List Char} {c : Char} (hc : c ∉ pat)
    (hgap : ¬ pat <:+: gap) (h : FirstAt pat t before after) :
    FirstAt pat (gap ++ c :: t) (gap ++ c :: before) after := by
  refine ⟨by rw [h.text]; simp, fun before' after' htext => ?_⟩
  obtain ⟨inner, rfl, hinner⟩ := (occurrence_around hc htext).resolve_left
    fun ⟨more, hmore, _⟩ => hgap ⟨before', more, hmore.symm⟩
  have hle := h.first inner after' hinner
  simp only [List.length_append, List.length_cons]
  omega

/-- The beginning of a text holds the pattern where an occurrence ends within it. -/
theorem infix_take_iff {n : ℕ} : pat <:+: s.take n ↔
    ∃ before after, s = before ++ pat ++ after ∧ before.length + pat.length ≤ n := by
  constructor
  · rintro ⟨before, after, htake⟩
    refine ⟨before, after ++ s.drop n, ?_, ?_⟩
    · rw [← List.append_assoc, htake, List.take_append_drop]
    · have hlength := congrArg List.length htake
      simp only [List.length_append, List.length_take] at hlength
      omega
  · rintro ⟨before, after, rfl, hle⟩
    have hlength : (before ++ pat).length ≤ n := by
      rw [List.length_append]
      exact hle
    refine ⟨before, after.take (n - (before ++ pat).length), ?_⟩
    rw [List.take_append, List.take_of_length_le hlength]

theorem firstAt_singleton {c : Char} {s before after : List Char} :
    FirstAt [c] s before after ↔ s = before ++ c :: after ∧ c ∉ before := by
  constructor
  · intro h
    refine ⟨by simpa using h.text, fun hmem => ?_⟩
    obtain ⟨left, right, rfl⟩ := List.append_of_mem hmem
    have hle := h.first left (right ++ c :: after) (by simpa using h.text)
    rw [List.length_append, List.length_cons] at hle
    omega
  · rintro ⟨rfl, hnot⟩
    refine ⟨by simp, fun before' after' htext => ?_⟩
    by_contra hlt
    -- the earlier occurrence would be in `before`
    have hmem : c ∈ before := by
      have htext' : before ++ c :: after = before' ++ c :: after' := by simpa using htext
      rcases List.append_eq_append_iff.mp htext' with ⟨mid, rfl, -⟩ | ⟨mid, rfl, hmid⟩
      · simp at hlt
      · cases mid with
        | nil => simp at hlt
        | cons d mid =>
          cases hmid
          simp
    exact hnot hmem

/-- `split_once` at a character is `split_once` at its text. -/
theorem splitOnce_eq_splitOnceStr (c : Char) (s : List Char) :
    splitOnce c s = splitOnceStr [c] s := by
  cases hsplit : splitOnce c s with
  | none =>
    refine (splitOnceStr_eq_none_iff.mpr fun hmem => ?_).symm
    exact splitOnce_eq_none_iff.mp hsplit (hmem.subset List.mem_cons_self)
  | some found =>
    refine (splitOnceStr_eq_some_iff.mpr ?_).symm
    exact firstAt_singleton.mpr (splitOnce_eq_some_iff.mp hsplit)

/-! ## Patterns that begin afresh -/

section Fresh

variable {c : Char} {p q before after before' after' : List Char}

/-- A later occurrence of a pattern with the same first character begins behind the
earlier one. -/
theorem later_of_fresh (hfresh : c ∉ p)
    (h : before ++ c :: p ++ after = before' ++ c :: q ++ after')
    (hlater : before.length < before'.length) :
    ∃ between, before' = before ++ c :: p ++ between ∧ after = between ++ c :: q ++ after' := by
  rw [List.append_assoc, List.append_assoc] at h
  rcases List.append_eq_append_iff.mp h with ⟨mid, rfl, hmid⟩ | ⟨mid, rfl, -⟩
  · cases mid with
    | nil => simp at hlater
    | cons d mid =>
      obtain ⟨rfl, hrest⟩ := List.cons.inj hmid
      rcases List.append_eq_append_iff.mp hrest with ⟨between, rfl, hafter⟩ | ⟨cut, hp, hcut⟩
      · exact ⟨between, by simp, by simpa using hafter⟩
      · cases cut with
        | nil => exact ⟨[], by simpa using hp.symm, by simpa using hcut.symm⟩
        | cons e cut =>
          obtain ⟨rfl, -⟩ := List.cons.inj hcut
          exact absurd (by rw [hp]; simp) hfresh
  · rw [List.length_append] at hlater
    omega

end Fresh

end Direclaw.Lib.Text
