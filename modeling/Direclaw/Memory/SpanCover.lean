import Direclaw.Lib.Trimming
import Direclaw.Memory.Spans

/-!
# The spans of a memory cover its content

Sentences tile the content, and the spans of a sentence lie in it, one behind the other,
around everything that is not white space. A sentence that is too long is cut into pieces of
`max_chars` characters; a piece that falls into a run of white space becomes a span without
text.
-/

namespace Direclaw.Memory

open Direclaw.Lib

theorem utf8Len_append (left right : List Char) :
    utf8Len (left ++ right) = utf8Len left + utf8Len right := by
  rw [utf8Len, List.map_append, List.sum_append]
  rfl

/-- Spans in the text that starts at an offset: each is the trimmed text of a range, the ranges
come one behind the other, and nothing but white space lies outside of them. -/
structure SpansWithin (maxChars start : ℕ) (text : List Char) (spans : List ContentSpan) :
    Prop where
  ranges : ∀ span ∈ spans, ∃ before piece behind, text = before ++ piece ++ behind ∧
    span.startChar = start + utf8Len before ∧ span.endChar = start + utf8Len (before ++ piece) ∧
    piece ≠ [] ∧ piece.length ≤ maxChars ∧ span.text = Text.trim piece
  ordered : spans.Pairwise fun a b => a.endChar ≤ b.startChar
  covers : ∀ before c behind, text = before ++ c :: behind → Text.isWhitespace c = false →
    ∃ span ∈ spans, span.startChar ≤ start + utf8Len before ∧
      start + utf8Len (before ++ [c]) ≤ span.endChar

namespace SpansWithin

variable {maxChars start : ℕ} {text left right : List Char} {spans spans' : List ContentSpan}

theorem bounds (h : SpansWithin maxChars start text spans) {span : ContentSpan}
    (hspan : span ∈ spans) : start ≤ span.startChar ∧ span.endChar ≤ start + utf8Len text := by
  obtain ⟨before, piece, behind, rfl, hstart, hstop, -⟩ := h.ranges span hspan
  rw [hstart, hstop, utf8Len_append (before ++ piece) behind]
  omega

theorem of_blank (h : Text.isBlank text = true) : SpansWithin maxChars start text [] := by
  constructor
  · exact nofun
  · exact .nil
  · rintro before c behind rfl hc
    have hblank : Text.isWhitespace c = true :=
      List.all_eq_true.mp h c (List.mem_append_right _ List.mem_cons_self)
    rw [hc] at hblank
    cases hblank

theorem of_piece {seq : ℕ} (hne : text ≠ []) (hlen : text.length ≤ maxChars) :
    SpansWithin maxChars start text
      [{ seq, startChar := start, endChar := start + utf8Len text, text := Text.trim text }] := by
  constructor
  · intro span hspan
    obtain rfl := List.mem_singleton.mp hspan
    exact ⟨[], text, [], by simp, rfl, rfl, hne, hlen, rfl⟩
  · exact List.pairwise_singleton _ _
  · rintro before c behind rfl -
    refine ⟨_, List.mem_singleton_self _, Nat.le_add_right _ _, ?_⟩
    show start + utf8Len (before ++ [c]) ≤ start + utf8Len (before ++ c :: behind)
    rw [← List.singleton_append (l := behind), ← List.append_assoc, utf8Len_append (before ++ [c])]
    omega

/-- The spans of two adjacent texts, one behind the other. -/
theorem append (hleft : SpansWithin maxChars start left spans)
    (hright : SpansWithin maxChars (start + utf8Len left) right spans') :
    SpansWithin maxChars start (left ++ right) (spans ++ spans') := by
  constructor
  · intro span hspan
    rcases List.mem_append.mp hspan with hspan | hspan
    · obtain ⟨before, piece, behind, rfl, hrange⟩ := hleft.ranges span hspan
      exact ⟨before, piece, behind ++ right, by simp, hrange⟩
    · obtain ⟨before, piece, behind, rfl, hstart, hstop, hrange⟩ := hright.ranges span hspan
      refine ⟨left ++ before, piece, behind, by simp, ?_, ?_, hrange⟩
      · rw [hstart, utf8Len_append, Nat.add_assoc]
      · rw [hstop, List.append_assoc, utf8Len_append left, Nat.add_assoc]
  · refine List.pairwise_append.mpr ⟨hleft.ordered, hright.ordered, fun a ha b hb => ?_⟩
    exact (hleft.bounds ha).2.trans (hright.bounds hb).1
  · intro before c behind htext hc
    rcases List.append_eq_append_iff.mp htext with ⟨rest, hbefore, hrest⟩ | ⟨rest, hleftText, hrest⟩
    · obtain ⟨span, hspan, hstart, hstop⟩ := hright.covers rest c behind hrest hc
      refine ⟨span, List.mem_append_right _ hspan, ?_, ?_⟩
      · rw [hbefore, utf8Len_append, ← Nat.add_assoc]
        exact hstart
      · rw [hbefore, List.append_assoc, utf8Len_append left, ← Nat.add_assoc]
        exact hstop
    · cases rest with
      | nil =>
        -- the character is the first one of the right text
        rw [List.append_nil] at hleftText
        subst hleftText
        obtain ⟨span, hspan, hstart, hstop⟩ := hright.covers [] c behind hrest.symm hc
        refine ⟨span, List.mem_append_right _ hspan, hstart, ?_⟩
        rw [utf8Len_append, ← Nat.add_assoc]
        exact hstop
      | cons first rest =>
        obtain ⟨rfl, -⟩ := List.cons.inj hrest
        obtain ⟨span, hspan, hbounds⟩ := hleft.covers before c rest hleftText hc
        exact ⟨span, List.mem_append_left _ hspan, hbounds⟩

end SpansWithin

/-! ## One sentence -/

section Sentence

variable {maxChars : ℕ}

theorem chunks_within (hmax : 1 ≤ maxChars) : ∀ (fuel seq : ℕ) (slice : Slice),
    slice.text.length ≤ fuel →
      SpansWithin maxChars slice.start slice.text (chunks maxChars seq fuel slice) := by
  intro fuel
  induction fuel with
  | zero =>
    intro seq slice hfuel
    rw [List.length_eq_zero_iff.mp (Nat.le_zero.mp hfuel)]
    exact .of_blank rfl
  | succ fuel ih =>
    intro seq slice hfuel
    rw [chunks, max_eq_left hmax]
    by_cases hempty : slice.text = []
    · rw [hempty]
      exact .of_blank rfl
    · rw [List.isEmpty_eq_false_iff.mpr hempty, if_neg Bool.false_ne_true]
      have hpiece : slice.text.take maxChars ≠ [] := by
        rw [ne_eq, List.take_eq_nil_iff, not_or]
        exact ⟨by omega, hempty⟩
      have hrest : (slice.text.drop maxChars).length ≤ fuel := by
        rw [List.length_drop]
        omega
      let piece := slice.text.take maxChars
      have hfirst : SpansWithin maxChars slice.start piece
          [{ seq := seq + 1, startChar := slice.start, endChar := slice.start + utf8Len piece,
             text := Text.trim piece }] :=
        .of_piece hpiece (List.length_take_le _ _)
      have hboth := hfirst.append (ih (seq + 1)
        { start := slice.start + utf8Len piece, text := slice.text.drop maxChars } hrest)
      rw [List.take_append_drop] at hboth
      exact hboth

theorem sentenceSpans_within (hmax : 1 ≤ maxChars) (seq start : ℕ) {text : List Char}
    (htrim : Text.trim text = text) :
    SpansWithin maxChars start text (sentenceSpans maxChars seq { start, text }) := by
  rw [sentenceSpans]
  by_cases hempty : text = []
  · rw [hempty]
    exact .of_blank rfl
  · rw [List.isEmpty_eq_false_iff.mpr hempty, if_neg Bool.false_ne_true]
    by_cases hshort : text.length ≤ maxChars
    · rw [if_pos hshort]
      have hpiece : SpansWithin maxChars start text
          [{ seq := seq + 1, startChar := start, endChar := start + utf8Len text,
             text := Text.trim text }] :=
        .of_piece hempty hshort
      rw [htrim] at hpiece
      exact hpiece
    · rw [if_neg hshort]
      exact chunks_within hmax _ seq { start, text } (le_refl _)

/-- White space around the sentence belongs to no span. -/
theorem trimmed_within (hmax : 1 ≤ maxChars) (seq : ℕ) (slice : Slice) :
    SpansWithin maxChars slice.start slice.text (sentenceSpans maxChars seq slice.trimmed) := by
  obtain ⟨behind, hsplit, hfront, hbehind⟩ := Text.exists_trim_append slice.text
  have hsentence : SpansWithin maxChars slice.trimmed.start (Text.trim slice.text)
      (sentenceSpans maxChars seq slice.trimmed) :=
    sentenceSpans_within hmax seq slice.trimmed.start (Text.trim_trim slice.text)
  have hleading : SpansWithin maxChars slice.start _ [] := .of_blank hfront
  have hall := (hleading.append hsentence).append (.of_blank hbehind)
  rw [← hsplit, List.nil_append, List.append_nil] at hall
  exact hall

end Sentence

/-! ## All sentences -/

section Content

variable {maxChars : ℕ}

theorem spansOf_sentencesFrom_within (hmax : 1 ≤ maxChars) (rest : List Char) :
    ∀ (seq start : ℕ) (sentence : List Char),
      SpansWithin maxChars start (sentence.reverse ++ rest)
        (spansOf maxChars seq (sentencesFrom start sentence rest)) := by
  induction rest with
  | nil =>
    intro seq start sentence
    rw [sentencesFrom, List.append_nil]
    cases sentence with
    | nil => exact .of_blank rfl
    | cons ch sentence =>
      have h := trimmed_within hmax seq { start, text := (ch :: sentence).reverse }
      simpa [spansOf] using h
  | cons ch rest ih =>
    intro seq start sentence
    have hmove : sentence.reverse ++ ch :: rest = (ch :: sentence).reverse ++ rest := by simp
    rw [sentencesFrom, hmove]
    split
    · have hfirst := trimmed_within hmax seq { start, text := (ch :: sentence).reverse }
      exact hfirst.append (ih _ _ [])
    · exact ih seq start (ch :: sentence)

theorem spansOf_sentenceRanges (content : List Char) (seq : ℕ) :
    spansOf maxChars seq (sentenceRanges content) =
      spansOf maxChars seq (sentencesFrom 0 [] content) := by
  simp only [sentenceRanges]
  split
  · next hempty =>
      rw [List.isEmpty_iff.mp hempty]
      rfl
  · rfl

theorem splitContentIntoSpans_within (hmax : 1 ≤ maxChars) (content : List Char) :
    SpansWithin maxChars 0 content (splitContentIntoSpans content maxChars) := by
  rw [splitContentIntoSpans]
  split
  · next hblank => exact .of_blank hblank
  · rw [spansOf_sentenceRanges]
    exact spansOf_sentencesFrom_within hmax content 0 0 []

/-! ## Spans without text -/

/-- The pieces that a long sentence is cut into: none is white space only. -/
def NoBlankPiece (maxChars : ℕ) (sentence : List Char) : Prop :=
  maxChars < sentence.length → ∀ k, k * maxChars < sentence.length →
    Text.isBlank ((sentence.drop (k * maxChars)).take maxChars) = false

theorem trim_ne_nil_iff {text : List Char} : Text.trim text ≠ [] ↔ Text.isBlank text = false := by
  rw [ne_eq, Text.trim_eq_nil_iff, Bool.not_eq_true]

theorem chunks_filled_iff (hmax : 1 ≤ maxChars) : ∀ (fuel seq : ℕ) (slice : Slice),
    slice.text.length ≤ fuel →
      ((∀ span ∈ chunks maxChars seq fuel slice, span.text ≠ []) ↔
        ∀ k, k * maxChars < slice.text.length →
          Text.isBlank ((slice.text.drop (k * maxChars)).take maxChars) = false) := by
  intro fuel
  induction fuel with
  | zero =>
    intro seq slice hfuel
    rw [chunks]
    refine iff_of_true ?_ fun k hk => ?_
    · intro span hspan
      cases hspan
    · omega
  | succ fuel ih =>
    intro seq slice hfuel
    rw [chunks, max_eq_left hmax]
    by_cases hempty : slice.text = []
    · rw [hempty]
      refine iff_of_true ?_ ?_
      · intro span hspan
        cases hspan
      · intro k hk
        cases hk
    · rw [List.isEmpty_eq_false_iff.mpr hempty, if_neg Bool.false_ne_true, List.forall_mem_cons]
      have hrest : (slice.text.drop maxChars).length ≤ fuel := by
        rw [List.length_drop]
        omega
      rw [ih (seq + 1) { start := slice.start + utf8Len (slice.text.take maxChars)
                         text := slice.text.drop maxChars } hrest, trim_ne_nil_iff]
      have hpos := List.length_pos_of_ne_nil hempty
      -- the first piece is piece zero, the pieces of the rest are the later ones
      constructor
      · rintro ⟨hfirst, hlater⟩ k hk
        cases k with
        | zero =>
          rw [Nat.zero_mul, List.drop_zero]
          exact hfirst
        | succ k =>
          rw [Nat.succ_mul] at hk ⊢
          have hpiece := hlater k (by rw [List.length_drop]; omega)
          rw [List.drop_drop, Nat.add_comm] at hpiece
          exact hpiece
      · intro hall
        refine ⟨?_, fun k hk => ?_⟩
        · have hfirst := hall 0 (by omega)
          rw [Nat.zero_mul, List.drop_zero] at hfirst
          exact hfirst
        · rw [List.length_drop] at hk
          have hpiece := hall (k + 1) (by rw [Nat.succ_mul]; omega)
          rw [Nat.succ_mul] at hpiece
          rw [List.drop_drop, Nat.add_comm]
          exact hpiece

theorem sentenceSpans_filled_iff (hmax : 1 ≤ maxChars) (seq : ℕ) (slice : Slice) :
    (∀ span ∈ sentenceSpans maxChars seq slice, span.text ≠ []) ↔
      NoBlankPiece maxChars slice.text := by
  rw [sentenceSpans, NoBlankPiece]
  by_cases hempty : slice.text = []
  · rw [hempty]
    exact iff_of_true nofun nofun
  · rw [List.isEmpty_eq_false_iff.mpr hempty, if_neg Bool.false_ne_true]
    by_cases hshort : slice.text.length ≤ maxChars
    · rw [if_pos hshort]
      refine iff_of_true (fun span hspan => ?_) fun hlong => absurd hlong (not_lt.mpr hshort)
      rw [List.mem_singleton.mp hspan]
      exact hempty
    · rw [if_neg hshort, chunks_filled_iff hmax _ seq slice (le_refl _)]
      exact ⟨fun h _ => h, fun h => h (not_le.mp hshort)⟩

theorem spansOf_filled_iff (hmax : 1 ≤ maxChars) (slices : List Slice) : ∀ seq,
    (∀ span ∈ spansOf maxChars seq slices, span.text ≠ []) ↔
      ∀ slice ∈ slices, NoBlankPiece maxChars (Text.trim slice.text) := by
  induction slices with
  | nil => exact fun seq => iff_of_true nofun nofun
  | cons slice slices ih =>
    intro seq
    simp only [spansOf, List.mem_append, or_imp, forall_and]
    rw [sentenceSpans_filled_iff hmax, ih, List.forall_mem_cons]
    rfl

/-! ## The whole content -/

/-- The loop that cuts a long sentence is through after as many pieces as it has characters. -/
def LoopEnds (maxChars : ℕ) : Prop :=
  ∀ (seq fuel : ℕ) (slice : Slice), slice.text.length ≤ fuel →
    chunks maxChars seq fuel slice = chunks maxChars seq slice.text.length slice

theorem chunks_of_empty {slice : Slice} (h : slice.text = []) (seq fuel : ℕ) :
    chunks maxChars seq fuel slice = [] := by
  cases fuel with
  | zero => rfl
  | succ fuel => rw [chunks, h, List.isEmpty_nil, if_pos rfl]

theorem chunks_fuel : ∀ (fuel fuel' seq : ℕ) (slice : Slice),
    slice.text.length ≤ fuel → slice.text.length ≤ fuel' →
      chunks maxChars seq fuel slice = chunks maxChars seq fuel' slice := by
  intro fuel
  induction fuel with
  | zero =>
    intro fuel' seq slice hfuel _
    have hempty := List.length_eq_zero_iff.mp (Nat.le_zero.mp hfuel)
    rw [chunks_of_empty hempty, chunks_of_empty hempty]
  | succ fuel ih =>
    intro fuel' seq slice hfuel hfuel'
    by_cases hempty : slice.text = []
    · rw [chunks_of_empty hempty, chunks_of_empty hempty]
    · have hpos := List.length_pos_of_ne_nil hempty
      obtain ⟨fuel', rfl⟩ := Nat.exists_eq_succ_of_ne_zero (by omega : fuel' ≠ 0)
      -- every turn takes at least one character
      have hrest : (slice.text.drop (max maxChars 1)).length ≤ fuel ∧
          (slice.text.drop (max maxChars 1)).length ≤ fuel' := by
        rw [List.length_drop]
        omega
      simp only [chunks]
      rw [ih fuel' (seq + 1) { start := slice.start + utf8Len (slice.text.take (max maxChars 1))
                               text := slice.text.drop (max maxChars 1) } hrest.1 hrest.2]

theorem loopEnds (maxChars : ℕ) : LoopEnds maxChars :=
  fun seq fuel slice hfuel => chunks_fuel fuel _ seq slice hfuel (le_refl _)

/-- The spans are numbered, lie one behind the other on boundaries of characters, hold the trimmed
text of their ranges, are filled and bounded, and leave only white space out. -/
structure PartitionsContent (content : List Char) (maxChars : ℕ) : Prop where
  ends : LoopEnds maxChars
  numbered : (splitContentIntoSpans content maxChars).map (·.seq) =
    List.range' 1 (splitContentIntoSpans content maxChars).length
  within : SpansWithin maxChars 0 content (splitContentIntoSpans content maxChars)
  increasing : ∀ span ∈ splitContentIntoSpans content maxChars, span.startChar < span.endChar
  filled : ∀ span ∈ splitContentIntoSpans content maxChars, span.text ≠ []
  bounded : ∀ span ∈ splitContentIntoSpans content maxChars, span.text.length ≤ maxChars

theorem mem_of_mem_sentencesFrom {c : Char} (rest : List Char) :
    ∀ {start : ℕ} {sentence : List Char} {slice : Slice},
      slice ∈ sentencesFrom start sentence rest → c ∈ slice.text → c ∈ sentence ∨ c ∈ rest := by
  induction rest with
  | nil =>
    intro start sentence slice hslice hc
    rw [sentencesFrom] at hslice
    split at hslice
    · cases hslice
    · rw [List.mem_singleton.mp hslice] at hc
      exact .inl (List.mem_reverse.mp hc)
  | cons ch rest ih =>
    intro start sentence slice hslice hc
    rw [sentencesFrom] at hslice
    split at hslice
    · rcases List.mem_cons.mp hslice with rfl | hlater
      · rcases List.mem_cons.mp (List.mem_reverse.mp hc) with rfl | hmem
        · exact .inr List.mem_cons_self
        · exact .inl hmem
      · exact .inr (List.mem_cons_of_mem _ ((ih hlater hc).resolve_left List.not_mem_nil))
    · rcases ih hslice hc with hmem | hmem
      · rcases List.mem_cons.mp hmem with rfl | hmem
        · exact .inr List.mem_cons_self
        · exact .inl hmem
      · exact .inr (List.mem_cons_of_mem _ hmem)

theorem noBlankPiece_of_blank {content : List Char} (h : Text.isBlank content = true) :
    ∀ sentence ∈ sentenceRanges content, NoBlankPiece maxChars (Text.trim sentence.text) := by
  intro sentence hsentence hlong
  have hblank : Text.isBlank sentence.text = true := by
    refine List.all_eq_true.mpr fun c hc => ?_
    simp only [sentenceRanges] at hsentence
    split at hsentence
    · rw [List.mem_singleton.mp hsentence] at hc
      cases hc
    · exact List.all_eq_true.mp h c
        ((mem_of_mem_sentencesFrom content hsentence hc).resolve_left List.not_mem_nil)
  rw [Text.trim_eq_nil_iff.mpr hblank] at hlong
  cases hlong

/-- Only the text of a span can be missing, and it is when a whole piece of a long sentence is
white space. -/
theorem partitionsContent_iff (content : List Char) (hmax : 1 ≤ maxChars) :
    PartitionsContent content maxChars ↔
      ∀ sentence ∈ sentenceRanges content, NoBlankPiece maxChars (Text.trim sentence.text) := by
  have hwithin := splitContentIntoSpans_within hmax content
  have hfilled : (∀ span ∈ splitContentIntoSpans content maxChars, span.text ≠ []) ↔
      ∀ sentence ∈ sentenceRanges content, NoBlankPiece maxChars (Text.trim sentence.text) := by
    rw [splitContentIntoSpans]
    split
    · next hblank => exact iff_of_true nofun (noBlankPiece_of_blank hblank)
    · exact spansOf_filled_iff hmax _ 0
  rw [← hfilled]
  constructor
  · exact fun h => h.filled
  · intro h
    refine
      { ends := loopEnds maxChars
        numbered := splitContentIntoSpans_seq content maxChars
        within := hwithin
        increasing := fun span hspan => ?_
        filled := h
        bounded := fun span hspan => ?_ }
    · obtain ⟨before, piece, behind, -, hstart, hstop, hne, -⟩ := hwithin.ranges span hspan
      rw [hstart, hstop, utf8Len_append]
      have hpos : 0 < utf8Len piece := by
        obtain ⟨c, rest, rfl⟩ := List.exists_cons_of_ne_nil hne
        rw [utf8Len, List.map_cons, List.sum_cons]
        exact Nat.lt_of_lt_of_le c.utf8Size_pos (Nat.le_add_right _ _)
      omega
    · obtain ⟨before, piece, behind, -, -, -, -, hlen, htext⟩ := hwithin.ranges span hspan
      rw [htext]
      exact (Text.trim_sublist piece).length_le.trans hlen

theorem partitionsContent_two_sentences : PartitionsContent "Ship it. Now".toList 8 :=
  (partitionsContent_iff "Ship it. Now".toList (by decide : 1 ≤ 8)).mpr (by
    intro sentence hsentence hlong
    have hshort : ∀ slice ∈ sentenceRanges "Ship it. Now".toList,
        (Text.trim slice.text).length ≤ 8 := by decide
    exact absurd (hshort sentence hsentence) (not_le.mpr hlong))

/-- Between two words, a run of blanks as long as a piece. -/
theorem blank_run_span :
    splitContentIntoSpans "a    b".toList 2 =
        [⟨1, 0, 2, ['a']⟩, ⟨2, 2, 4, []⟩, ⟨3, 4, 6, ['b']⟩] ∧
      ¬ PartitionsContent "a    b".toList 2 := by
  have hspans : splitContentIntoSpans "a    b".toList 2 =
      [⟨1, 0, 2, ['a']⟩, ⟨2, 2, 4, []⟩, ⟨3, 4, 6, ['b']⟩] := by decide
  refine ⟨hspans, fun h => ?_⟩
  apply h.filled ⟨2, 2, 4, []⟩
  · rw [hspans]
    decide
  · rfl

end Content

end Direclaw.Memory
