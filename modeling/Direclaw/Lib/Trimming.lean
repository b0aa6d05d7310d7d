import Direclaw.Lib.Text

/-!
# Trimming

What `trim` leaves: a text that neither begins nor ends with a blank.
-/

namespace Direclaw.Lib.Text

variable {p : Char → Bool} {s t : List Char}

/-- Neither end of the text satisfies `p`. -/
structure Bare (p : Char → Bool) (s : List Char) : Prop where
  head : ∀ c ∈ s.head?, p c = false
  last : ∀ c ∈ s.getLast?, p c = false

theorem dropWhile_of_head (h : ∀ c ∈ s.head?, p c = false) : s.dropWhile p = s := by
  cases s with
  | nil => rfl
  | cons c s => rw [List.dropWhile_cons_of_neg]; simp [h c rfl]

theorem head_dropWhile : ∀ c ∈ (s.dropWhile p).head?, p c = false := by
  intro c hc
  have hnot := List.head?_dropWhile_not p s
  rwa [Option.mem_def.mp hc] at hnot

theorem trimMatches_of_bare (h : Bare p s) : trimMatches p s = s := by
  unfold trimMatches
  rw [dropWhile_of_head h.head, dropWhile_of_head (by rw [List.head?_reverse]; exact h.last),
    List.reverse_reverse]

theorem bare_trimMatches (p : Char → Bool) (s : List Char) : Bare p (trimMatches p s) := by
  unfold trimMatches
  refine ⟨fun c hc => ?_, fun c hc => ?_⟩
  · -- what is left begins where the text without its leading part begins
    rw [List.head?_reverse] at hc
    have hsuffix := List.dropWhile_suffix p (l := (s.dropWhile p).reverse)
    have hlast : c ∈ ((s.dropWhile p).reverse).getLast? := by
      obtain ⟨front, hfront⟩ := hsuffix
      rw [← hfront, Option.mem_def, List.getLast?_append, hc]
      rfl
    rw [List.getLast?_reverse] at hlast
    exact head_dropWhile c hlast
  · rw [List.getLast?_reverse] at hc
    exact head_dropWhile c hc

@[simp] theorem trim_trim (s : List Char) : trim (trim s) = trim s :=
  trimMatches_of_bare (bare_trimMatches isWhitespace s)

variable {c : Char}

theorem trim_cons_of_isWhitespace (h : isWhitespace c = true) (s : List Char) :
    trim (c :: s) = trim s := by
  unfold trim trimMatches
  rw [List.dropWhile_cons_of_pos h]

/-- What trimming leaves is part of the text. -/
theorem trim_sublist (s : List Char) : (trim s).Sublist s := by
  have hfront : (s.dropWhile isWhitespace).Sublist s := List.dropWhile_sublist _
  have hback := List.dropWhile_sublist isWhitespace (l := (s.dropWhile isWhitespace).reverse)
  have hreverse := hback.reverse
  rw [List.reverse_reverse] at hreverse
  exact hreverse.trans hfront

theorem mem_of_mem_trim (h : c ∈ trim s) : c ∈ s := (trim_sublist s).subset h

/-- A text without blanks is left as it is. -/
theorem trim_of_no_blank (h : ∀ c ∈ s, isWhitespace c = false) : trim s = s := by
  refine trimMatches_of_bare ⟨fun c hc => ?_, fun c hc => ?_⟩
  · exact h c (List.mem_of_mem_head? hc)
  · exact h c (List.mem_of_getLast? hc)

/-- Trimming takes only blanks away. -/
theorem count_dropWhile_of_neg (h : p c = false) (s : List Char) :
    (s.dropWhile p).count c = s.count c := by
  have hnone : c ∉ s.takeWhile p := by
    intro hmem
    rw [List.all_eq_true.mp List.all_takeWhile c hmem] at h
    cases h
  conv_rhs => rw [← List.takeWhile_append_dropWhile (p := p) (l := s)]
  rw [List.count_append, List.count_eq_zero_of_not_mem hnone, Nat.zero_add]

theorem count_trim (h : isWhitespace c = false) (s : List Char) : (trim s).count c = s.count c := by
  unfold trim trimMatches
  rw [List.count_reverse, count_dropWhile_of_neg h, List.count_reverse, count_dropWhile_of_neg h]

theorem isBlank_eq_false_iff : isBlank s = false ↔ ∃ c ∈ s, isWhitespace c = false := by
  simp [isBlank]

theorem isBlank_trim (s : List Char) : isBlank (trim s) = isBlank s := by
  rw [Bool.eq_iff_iff, ← not_iff_not, Bool.not_eq_true, Bool.not_eq_true, isBlank_eq_false_iff,
    isBlank_eq_false_iff]
  constructor
  · rintro ⟨c, hc, hblank⟩
    exact ⟨c, mem_of_mem_trim hc, hblank⟩
  · rintro ⟨c, hc, hblank⟩
    rw [← List.count_pos_iff, ← count_trim hblank, List.count_pos_iff] at hc
    exact ⟨c, hc, hblank⟩

theorem trim_eq_nil_iff : trim s = [] ↔ isBlank s = true := by
  rw [← isBlank_trim]
  constructor
  · intro h
    rw [h]
    rfl
  · intro h
    -- a trimmed text that is not empty begins with something else than a blank
    cases htrim : trim s with
    | nil => rfl
    | cons c rest =>
      have hbare : Bare isWhitespace (trim s) := bare_trimMatches isWhitespace s
      have hhead : isWhitespace c = false := hbare.head c (by rw [htrim]; rfl)
      have hall : isWhitespace c = true :=
        List.all_eq_true.mp h c (by rw [htrim]; exact List.mem_cons_self)
      rw [hhead] at hall
      cases hall

/-- What is taken away in front and behind. -/
theorem exists_trimMatches_append (p : Char → Bool) (s : List Char) :
    ∃ behind, s = s.takeWhile p ++ trimMatches p s ++ behind ∧ (s.takeWhile p).all p = true ∧
      behind.all p = true := by
  refine ⟨((s.dropWhile p).reverse.takeWhile p).reverse, ?_, List.all_takeWhile, ?_⟩
  · rw [List.append_assoc, trimMatches, ← List.reverse_append, List.takeWhile_append_dropWhile,
      List.reverse_reverse, List.takeWhile_append_dropWhile]
  · rw [List.all_reverse]
    exact List.all_takeWhile

theorem exists_trim_append (s : List Char) :
    ∃ behind, s = s.takeWhile isWhitespace ++ trim s ++ behind ∧
      isBlank (s.takeWhile isWhitespace) = true ∧ isBlank behind = true :=
  exists_trimMatches_append isWhitespace s

/-- The two ends decide whether a text is bare. -/
theorem Bare.append {u : List Char} (hs : Bare p s) (ht : Bare p t) (hs0 : s ≠ []) (ht0 : t ≠ []) :
    Bare p (s ++ u ++ t) := by
  refine ⟨fun c hc => hs.head c ?_, fun c hc => ht.last c ?_⟩
  · rwa [List.append_assoc, List.head?_append_of_ne_nil _ hs0] at hc
  · rwa [List.getLast?_append_of_ne_nil _ ht0] at hc

/-! ## Texts that are trimmed already -/

/-- Something is in the text, and nothing to be trimmed. -/
structure TrimmedText (s : String) : Prop where
  filled : isBlank s.toList = false
  trim_eq : trim s.toList = s.toList

theorem trimmedText_ofList {s : List Char} (h : isBlank s = false) :
    TrimmedText (String.ofList (trim s)) := by
  constructor
  · rw [String.toList_ofList, isBlank_trim, h]
  · rw [String.toList_ofList, trim_trim]

namespace TrimmedText

variable {s : String}

theorem trimmed_eq (h : TrimmedText s) : trimmed s = s := by
  rw [trimmed, h.trim_eq, String.ofList_toList]

theorem toList_ne_nil (h : TrimmedText s) : s.toList ≠ [] := by
  intro hnil
  have hfilled := h.filled
  rw [hnil] at hfilled
  cases hfilled

theorem bare (h : TrimmedText s) : Bare isWhitespace s.toList := by
  rw [← h.trim_eq]
  exact bare_trimMatches isWhitespace s.toList

end TrimmedText

end Direclaw.Lib.Text
