import Mathlib.Data.Bool.AllAny
import Direclaw.Lib.Layers
import Direclaw.Orchestration.OutputContract

/-!
# What a review decision reads as

`normalize_review_decision` strips white space, then double quotes, then single
quotes, and looks past a `decision` label. `Reads` says the same of the text as
a whole: a decision's word, or a label and a text that reads as the decision,
inside one round of white space, double quotes and single quotes in this order.
The rounds of a nested text need not be closed where they are opened: what
stands behind the word belongs to the rounds from the outside in.
-/

namespace Direclaw.Orchestration

open Direclaw.Lib

def ReviewDecision.word : ReviewDecision → List Char
  | .approve => "approve".toList
  | .reject => "reject".toList

/-! ## The texts that read as a decision -/

/-- What is stripped, in the order of the code. -/
def reviewLayers : List (Char → Bool) := [Text.isWhitespace, (· == '"'), (· == '\'')]

def labelDelimiters : List Char := [':', '=']

/-- `decision`, up to case and surrounding white space. -/
def DecisionLabel (key : List Char) : Prop :=
  ∃ before label after, key = before ++ label ++ after ∧ Text.isBlank before = true ∧
    Text.isBlank after = true ∧ Text.toAsciiLowercase label = "decision".toList

inductive Reads (decision : ReviewDecision) : List Char → Prop where
  | word {front word back : List Char} (hlayers : Text.Layered reviewLayers front back)
      (hword : Text.toAsciiLowercase word = decision.word) :
      Reads decision (front ++ word ++ back)
  | labelled {front key value back : List Char} {delimiter : Char}
      (hlayers : Text.Layered reviewLayers front back) (hkey : DecisionLabel key)
      (hdelimiter : delimiter ∈ labelDelimiters) (hvalue : Reads decision value) :
      Reads decision (front ++ (key ++ delimiter :: value) ++ back)

/-! ## Letters are never stripped -/

def Letter (c : Char) : Prop := ('A' ≤ c ∧ c ≤ 'Z') ∨ ('a' ≤ c ∧ c ≤ 'z')

instance (c : Char) : Decidable (Letter c) := inferInstanceAs (Decidable (_ ∨ _))

variable {decision : ReviewDecision} {c : Char} {text : List Char} {raw : List Char}
  {key : List Char}

theorem letter_of_asciiLower (h : Letter (Text.asciiLower c)) : Letter c := by
  unfold Text.asciiLower at h
  split at h
  · next hupper => exact .inl hupper
  · exact h

theorem letters_of_lowercase {word text : List Char} (htext : ∀ c ∈ text, Letter c)
    (h : Text.toAsciiLowercase word = text) : ∀ c ∈ word, Letter c := by
  intro c hc
  refine letter_of_asciiLower (htext _ ?_)
  rw [← h]
  exact List.mem_map_of_mem hc

theorem not_isWhitespace_of_letter (h : Letter c) : Text.isWhitespace c = false := by
  have hbounds : (65 ≤ c.toNat ∧ c.toNat ≤ 90) ∨ (97 ≤ c.toNat ∧ c.toNat ≤ 122) := h
  simp only [Text.isWhitespace, Bool.or_eq_false_iff, Bool.and_eq_false_iff,
    decide_eq_false_iff_not, beq_eq_false_iff_ne]
  omega

theorem not_stripped_of_letter (h : Letter c) : ∀ p ∈ reviewLayers, p c = false := by
  have hother : ∀ {other : Char}, ¬ Letter other → (c == other) = false := by
    intro other hnot
    rw [beq_eq_false_iff_ne]
    rintro rfl
    exact hnot h
  simp only [reviewLayers, List.forall_mem_cons, List.not_mem_nil, false_imp_iff, implies_true,
    and_true]
  exact ⟨not_isWhitespace_of_letter h, hother (by decide), hother (by decide)⟩

theorem not_stripped_of_delimiter (h : c ∈ labelDelimiters) : ∀ p ∈ reviewLayers, p c = false := by
  have hall : ∀ c ∈ labelDelimiters, ∀ p ∈ reviewLayers, p c = false :=
    List.all_iff_forall_prop.mp (by decide)
  exact hall c h

theorem not_letter_of_delimiter : ∀ c ∈ labelDelimiters, ¬ Letter c :=
  List.all_iff_forall_prop.mp (by decide)

theorem disjoint_reviewLayers : Text.DisjointLayers reviewLayers := by
  have hquote : ∀ {c quote : Char}, (c == quote) = true →
      Text.isWhitespace quote = false → Text.isWhitespace c = false := by
    intro c quote hc hblank
    rwa [eq_of_beq hc]
  have hquotes : ∀ c : Char, (c == '\'') = true → (c == '"') = false := by
    intro c hc
    rw [eq_of_beq hc]
    rfl
  simp only [Text.DisjointLayers, reviewLayers, List.pairwise_cons, List.forall_mem_cons,
    List.not_mem_nil, false_imp_iff, implies_true, and_true, List.Pairwise.nil]
  exact ⟨⟨fun c hc => hquote hc (by decide), fun c hc => hquote hc (by decide)⟩, hquotes⟩

theorem ReviewDecision.word_letters (decision : ReviewDecision) :
    ∀ c ∈ decision.word, Letter c := by
  cases decision <;> exact List.all_iff_forall_prop.mp (by decide)

theorem label_letters : ∀ c ∈ "decision".toList, Letter c :=
  List.all_iff_forall_prop.mp (by decide)

theorem bare_of_letters (h : ∀ c ∈ text, Letter c) : ∀ p ∈ reviewLayers, Text.Bare p text := by
  intro p hp
  refine ⟨fun c hc => ?_, fun c hc => ?_⟩
  · exact not_stripped_of_letter (h c (List.mem_of_mem_head? hc)) p hp
  · exact not_stripped_of_letter (h c (List.mem_of_getLast? hc)) p hp

/-! ## What is stripped does not change the reading -/

theorem DecisionLabel.dropWhile {key : List Char} (h : DecisionLabel key) {p : Char → Bool}
    (hp : p ∈ reviewLayers) : DecisionLabel (key.dropWhile p) := by
  obtain ⟨before, label, after, rfl, hbefore, hafter, hlabel⟩ := h
  have hletters := letters_of_lowercase label_letters hlabel
  have hhead : ∀ c ∈ (label ++ after).head?, p c = false := by
    have hne : label ≠ [] := by
      rintro rfl
      cases hlabel
    rw [List.head?_append_of_ne_nil _ hne]
    exact (bare_of_letters hletters p hp).head
  refine ⟨before.dropWhile p, label, after, ?_, ?_, hafter, hlabel⟩
  · rw [List.append_assoc, Text.dropWhile_append_of_head hhead, List.append_assoc]
  · exact List.all_eq_true.mpr fun c hc =>
      List.all_eq_true.mp hbefore c ((List.dropWhile_sublist p).subset hc)

theorem Reads.dropLast (h : Reads decision (text ++ [c])) (hc : ∃ p ∈ reviewLayers, p c = true) :
    Reads decision text := by
  obtain ⟨p, hp, hpc⟩ := hc
  generalize hwhole : text ++ [c] = whole at h
  induction h generalizing text with
  | @word front word back hlayers hword =>
    rcases List.eq_nil_or_concat' back with rfl | ⟨rest, last, rfl⟩
    · -- the text ends with the word, whose letters are not stripped
      have hletters := letters_of_lowercase decision.word_letters hword
      rcases List.eq_nil_or_concat' word with rfl | ⟨start, last, rfl⟩
      · cases decision <;> cases hword
      · rw [List.append_nil, ← List.append_assoc] at hwhole
        obtain ⟨-, hlast⟩ := List.append_inj' hwhole rfl
        cases hlast
        rw [not_stripped_of_letter (hletters c (by simp)) p hp] at hpc
        cases hpc
    · rw [← List.append_assoc] at hwhole
      rw [(List.append_inj' hwhole rfl).1]
      exact .word hlayers.dropLast hword
  | @labelled front key value back delimiter hlayers hkey hdelimiter hvalue ih =>
    rcases List.eq_nil_or_concat' back with rfl | ⟨rest, last, rfl⟩
    · rcases List.eq_nil_or_concat' value with rfl | ⟨start, last, rfl⟩
      · rw [List.append_nil, ← List.append_assoc] at hwhole
        obtain ⟨-, hlast⟩ := List.append_inj' hwhole rfl
        cases hlast
        rw [not_stripped_of_delimiter hdelimiter p hp] at hpc
        cases hpc
      · -- it is the value that ends sooner
        have hsplit : text ++ [c] =
            (front ++ (key ++ delimiter :: start) ++ []) ++ [last] := by
          rw [hwhole]
          simp
        obtain ⟨htext, hlast⟩ := List.append_inj' hsplit rfl
        cases hlast
        rw [htext]
        exact .labelled hlayers hkey hdelimiter (ih rfl)
    · rw [← List.append_assoc] at hwhole
      rw [(List.append_inj' hwhole rfl).1]
      exact .labelled hlayers.dropLast hkey hdelimiter hvalue

theorem Reads.rdropWhile (h : Reads decision text) {p : Char → Bool} (hp : p ∈ reviewLayers) :
    Reads decision (text.rdropWhile p) := by
  induction text using List.reverseRecOn with
  | nil => exact h
  | append_singleton text c ih =>
    rw [List.rdropWhile_concat]
    split
    · next hpc => exact ih (h.dropLast ⟨p, hp, hpc⟩)
    · exact h

/-! ## One round -/

/-- The text without one round of what is stripped. -/
def strippedDecision (raw : List Char) : List Char :=
  Text.trimMatches (· == '\'') (Text.trimMatches (· == '"') (Text.trim raw))

theorem stripLayers_reviewLayers (raw : List Char) :
    Text.stripLayers reviewLayers raw = strippedDecision raw := rfl

theorem reads_iff :
    Reads decision raw ↔
      Text.toAsciiLowercase (strippedDecision raw) = decision.word ∨
        ∃ key value delimiter, delimiter ∈ labelDelimiters ∧
          strippedDecision raw = key ++ delimiter :: value ∧ DecisionLabel key ∧
          Reads decision value := by
  constructor
  · rintro (@⟨front, word, back, hlayers, hword⟩ |
      @⟨front, key, value, back, delimiter, hlayers, hkey, hdelimiter, hvalue⟩)
    · left
      have hletters := letters_of_lowercase decision.word_letters hword
      have hne : word ≠ [] := by
        rintro rfl
        cases decision <;> cases hword
      obtain ⟨key, value, hstrip, rfl, rfl⟩ := hlayers.strip disjoint_reviewLayers
        (bare_of_letters hletters) hne (P := (· = [])) (Q := (· = [])) (by simp) (by simp) rfl rfl
      rw [List.nil_append, List.append_nil] at hstrip
      rw [← stripLayers_reviewLayers, hstrip, hword]
    · right
      have hbare : ∀ p ∈ reviewLayers, Text.Bare p [delimiter] := by
        intro p hp
        have hnot := not_stripped_of_delimiter hdelimiter p hp
        exact ⟨by simpa using hnot, by simpa using hnot⟩
      obtain ⟨key', value', hstrip, hkey', hvalue'⟩ := hlayers.strip disjoint_reviewLayers
        hbare (List.cons_ne_nil _ _) (P := DecisionLabel) (Q := Reads decision)
        (fun p hp s hs => hs.dropWhile hp) (fun p hp s hs => hs.rdropWhile hp) hkey hvalue
      refine ⟨key', value', delimiter, hdelimiter, ?_, hkey', hvalue'⟩
      rw [List.append_assoc key, List.singleton_append] at hstrip
      rw [← stripLayers_reviewLayers, hstrip, List.append_assoc, List.singleton_append]
  · obtain ⟨front, back, hlayers, hraw⟩ := Text.exists_layered reviewLayers raw
    rw [stripLayers_reviewLayers] at hraw
    rintro (hword | ⟨key, value, delimiter, hdelimiter, hstrip, hkey, hvalue⟩)
    · rw [hraw]
      exact .word hlayers hword
    · rw [hraw, hstrip]
      exact .labelled hlayers hkey hdelimiter hvalue

/-! ## The function reads the decision -/

theorem delimiter_not_mem_label (h : DecisionLabel key) :
    ∀ delimiter ∈ labelDelimiters, delimiter ∉ key := by
  obtain ⟨before, label, after, rfl, hbefore, hafter, hlabel⟩ := h
  have hletters := letters_of_lowercase label_letters hlabel
  intro delimiter hdelimiter hmem
  have hblank : Text.isWhitespace delimiter = false :=
    not_stripped_of_delimiter hdelimiter _ List.mem_cons_self
  have hall : ∀ s : List Char, Text.isBlank s = true → delimiter ∉ s := by
    intro s hs hin
    rw [List.all_eq_true.mp hs delimiter hin] at hblank
    cases hblank
  rcases List.mem_append.mp hmem with hfront | hin
  · rcases List.mem_append.mp hfront with hin | hin
    · exact hall before hbefore hin
    · exact not_letter_of_delimiter delimiter hdelimiter (hletters delimiter hin)
  · exact hall after hafter hin

/-- The label test of the code. -/
theorem isLabel_iff :
    Text.eqIgnoreAsciiCase (Text.trim key) "decision".toList = true ↔ DecisionLabel key := by
  have hsame : Text.eqIgnoreAsciiCase (Text.trim key) "decision".toList = true ↔
      Text.toAsciiLowercase (Text.trim key) = "decision".toList := beq_iff_eq
  rw [hsame]
  constructor
  · intro h
    obtain ⟨after, hkey, hbefore, hafter⟩ := Text.exists_trim_append key
    exact ⟨_, _, after, hkey, hbefore, hafter, h⟩
  · rintro ⟨before, label, after, rfl, hbefore, hafter, hlabel⟩
    have hletters := letters_of_lowercase label_letters hlabel
    have hne : label ≠ [] := by
      rintro rfl
      cases hlabel
    have hfront : before.dropWhile Text.isWhitespace = [] :=
      List.dropWhile_eq_nil_iff.mpr (List.all_eq_true.mp hbefore)
    have hback : after.rdropWhile Text.isWhitespace = [] :=
      List.rdropWhile_eq_nil_iff.mpr (List.all_eq_true.mp hafter)
    rw [Text.trim, Text.trimMatches_append (bare_of_letters hletters _ List.mem_cons_self) hne,
      hfront, hback, List.nil_append, List.append_nil, hlabel]

/-- `split_once` with the label test. -/
def afterLabel (trimmed : List Char) (delimiter : Char) : Option (List Char) :=
  match Text.splitOnce delimiter trimmed with
  | some (key, value) =>
    if Text.eqIgnoreAsciiCase (Text.trim key) "decision".toList then some value else none
  | none => none

theorem afterLabel_eq_some_iff {trimmed value : List Char} {delimiter : Char}
    (hdelimiter : delimiter ∈ labelDelimiters) :
    afterLabel trimmed delimiter = some value ↔
      ∃ key, trimmed = key ++ delimiter :: value ∧ DecisionLabel key := by
  unfold afterLabel
  constructor
  · intro h
    split at h
    · next key rest hsplit =>
        split at h
        · next hlabel =>
            cases h
            exact ⟨key, (Text.splitOnce_eq_some_iff.mp hsplit).1, isLabel_iff.mp hlabel⟩
        · cases h
    · cases h
  · rintro ⟨key, rfl, hkey⟩
    rw [Text.splitOnce_append (delimiter_not_mem_label hkey delimiter hdelimiter)]
    exact if_pos (isLabel_iff.mpr hkey)

theorem labelled_unique {key key' value value' : List Char} {delimiter delimiter' : Char}
    (hkey : DecisionLabel key) (hkey' : DecisionLabel key')
    (hdelimiter : delimiter ∈ labelDelimiters) (hdelimiter' : delimiter' ∈ labelDelimiters)
    (h : key ++ delimiter :: value = key' ++ delimiter' :: value') : value = value' := by
  rcases List.append_eq_append_iff.mp h with ⟨rest, hlong, hrest⟩ | ⟨rest, hlong, hrest⟩
  · cases rest with
    | nil => exact (List.cons.inj hrest).2
    | cons c rest =>
      obtain ⟨rfl, -⟩ := List.cons.inj hrest
      exact absurd (by simp [hlong]) (delimiter_not_mem_label hkey' delimiter hdelimiter)
  · cases rest with
    | nil => exact (List.cons.inj hrest).2.symm
    | cons c rest =>
      obtain ⟨rfl, -⟩ := List.cons.inj hrest
      exact absurd (by simp [hlong]) (delimiter_not_mem_label hkey delimiter' hdelimiter')

theorem labelValue_iff {trimmed value : List Char} :
    (afterLabel trimmed ':').or (afterLabel trimmed '=') = some value ↔
      ∃ key delimiter, delimiter ∈ labelDelimiters ∧ trimmed = key ++ delimiter :: value ∧
        DecisionLabel key := by
  constructor
  · intro h
    rcases Option.or_eq_some_iff.mp h with hcolon | ⟨-, hequals⟩
    · obtain ⟨key, htrimmed, hkey⟩ := (afterLabel_eq_some_iff (by decide)).mp hcolon
      exact ⟨key, ':', by decide, htrimmed, hkey⟩
    · obtain ⟨key, htrimmed, hkey⟩ := (afterLabel_eq_some_iff (by decide)).mp hequals
      exact ⟨key, '=', by decide, htrimmed, hkey⟩
  · rintro ⟨key, delimiter, hdelimiter, htrimmed, hkey⟩
    have hafter := (afterLabel_eq_some_iff hdelimiter).mpr ⟨key, htrimmed, hkey⟩
    rcases List.mem_cons.mp hdelimiter with rfl | hequals
    · rw [hafter, Option.some_or]
    · cases List.mem_singleton.mp hequals
      -- the first `:` may end a longer text than the label, but not a label of its own
      cases hcolon : afterLabel trimmed ':' with
      | none => rw [Option.none_or, hafter]
      | some other =>
        obtain ⟨key', htrimmed', hkey'⟩ := (afterLabel_eq_some_iff (by decide)).mp hcolon
        rw [Option.some_or, labelled_unique hkey hkey' hdelimiter (by decide)
          (htrimmed.symm.trans htrimmed')]

theorem normalizeReviewDecisionAux_succ (fuel : ℕ) (raw : List Char) :
    normalizeReviewDecisionAux (fuel + 1) raw =
      if Text.toAsciiLowercase (strippedDecision raw) = ReviewDecision.approve.word then
        some .approve
      else if Text.toAsciiLowercase (strippedDecision raw) = ReviewDecision.reject.word then
        some .reject
      else
        ((afterLabel (strippedDecision raw) ':').or (afterLabel (strippedDecision raw) '=')).bind
          (normalizeReviewDecisionAux fuel) := by
  have happrove : ReviewDecision.approve.word = "approve".toList := rfl
  have hreject : ReviewDecision.reject.word = "reject".toList := rfl
  have hstripped : Text.trimMatches (· == '\'') (Text.trimMatches (· == '"') (Text.trim raw)) =
      strippedDecision raw := rfl
  rw [happrove, hreject, normalizeReviewDecisionAux]
  simp only [hstripped, afterLabel]
  split
  · rfl
  · split
    · rfl
    · -- the calls are on what stands behind a label
      cases Text.splitOnce ':' (strippedDecision raw) with
      | none =>
        cases Text.splitOnce '=' (strippedDecision raw) with
        | none => rfl
        | some parts =>
          obtain ⟨key, value⟩ := parts
          dsimp only
          cases Text.eqIgnoreAsciiCase (Text.trim key) "decision".toList <;> rfl
      | some parts =>
        obtain ⟨key, value⟩ := parts
        dsimp only
        cases Text.eqIgnoreAsciiCase (Text.trim key) "decision".toList with
        | true => rfl
        | false =>
          cases Text.splitOnce '=' (strippedDecision raw) with
          | none => rfl
          | some parts =>
            obtain ⟨key, value⟩ := parts
            dsimp only
            cases Text.eqIgnoreAsciiCase (Text.trim key) "decision".toList <;> rfl

theorem length_strippedDecision_le (raw : List Char) :
    (strippedDecision raw).length ≤ raw.length := by
  obtain ⟨front, back, -, hraw⟩ := Text.exists_layered reviewLayers raw
  rw [stripLayers_reviewLayers] at hraw
  have hlength := congrArg List.length hraw
  rw [List.length_append, List.length_append] at hlength
  omega

theorem not_labelled_of_word {trimmed : List Char}
    (h : Text.toAsciiLowercase trimmed = decision.word) {key value : List Char} {delimiter : Char}
    (hdelimiter : delimiter ∈ labelDelimiters) : trimmed ≠ key ++ delimiter :: value := by
  rintro rfl
  have hletters := letters_of_lowercase decision.word_letters h
  exact not_letter_of_delimiter delimiter hdelimiter (hletters delimiter (by simp))

theorem reads_iff_of_word {decision other : ReviewDecision}
    (h : Text.toAsciiLowercase (strippedDecision raw) = other.word) :
    Reads decision raw ↔ other = decision := by
  rw [reads_iff, h]
  constructor
  · rintro (hword | ⟨key, value, delimiter, hdelimiter, hstrip, -⟩)
    · cases decision <;> cases other <;> first | rfl | cases hword
    · exact absurd hstrip (not_labelled_of_word h hdelimiter)
  · rintro rfl
    exact .inl rfl

/-- One call: the text after the label is shorter, so the calls end. -/
theorem normalizeReviewDecisionAux_eq_some_iff {fuel : ℕ} (h : raw.length < fuel) :
    normalizeReviewDecisionAux fuel raw = some decision ↔ Reads decision raw := by
  induction fuel generalizing raw with
  | zero => exact absurd h (Nat.not_lt_zero _)
  | succ fuel ih =>
    rw [normalizeReviewDecisionAux_succ]
    split
    · next happrove => rw [reads_iff_of_word happrove, Option.some.injEq]
    · next happrove =>
        split
        · next hreject => rw [reads_iff_of_word hreject, Option.some.injEq]
        · next hreject =>
            have hword : Text.toAsciiLowercase (strippedDecision raw) ≠ decision.word := by
              cases decision with
              | approve => exact happrove
              | reject => exact hreject
            have hshorter : ∀ {key value : List Char} {delimiter : Char},
                strippedDecision raw = key ++ delimiter :: value → value.length < fuel := by
              intro key value delimiter hstrip
              have hlength := congrArg List.length hstrip
              rw [List.length_append, List.length_cons] at hlength
              have hle := length_strippedDecision_le raw
              omega
            rw [reads_iff, or_iff_right hword, Option.bind_eq_some_iff]
            constructor
            · rintro ⟨value, hlabel, hvalue⟩
              obtain ⟨key, delimiter, hdelimiter, hstrip, hkey⟩ := labelValue_iff.mp hlabel
              exact ⟨key, value, delimiter, hdelimiter, hstrip, hkey,
                (ih (hshorter hstrip)).mp hvalue⟩
            · rintro ⟨key, value, delimiter, hdelimiter, hstrip, hkey, hvalue⟩
              exact ⟨value, labelValue_iff.mpr ⟨key, delimiter, hdelimiter, hstrip, hkey⟩,
                (ih (hshorter hstrip)).mpr hvalue⟩

/-- A review decision is what the text reads as, and the calls end: no further call would
change it. -/
theorem normalizeReviewDecision_reads (raw : List Char) :
    (∀ decision, normalizeReviewDecision raw = some decision ↔ Reads decision raw) ∧
      ∀ fuel, raw.length < fuel →
        normalizeReviewDecisionAux fuel raw = normalizeReviewDecision raw := by
  have hreads : ∀ decision, normalizeReviewDecision raw = some decision ↔ Reads decision raw :=
    fun decision => normalizeReviewDecisionAux_eq_some_iff (Nat.lt_succ_self raw.length)
  refine ⟨hreads, ?_⟩
  intro fuel hfuel
  ext decision
  rw [normalizeReviewDecisionAux_eq_some_iff hfuel, hreads]

/-! ## What a freer reading would accept -/

/-- White space and both quotes, in any order. -/
def Loose (text : List Char) : Prop := ∀ c ∈ text, ∃ p ∈ reviewLayers, p c = true

inductive LooselyReads (decision : ReviewDecision) : List Char → Prop where
  | word {front word back : List Char} (hfront : Loose front) (hback : Loose back)
      (hword : Text.toAsciiLowercase word = decision.word) :
      LooselyReads decision (front ++ word ++ back)
  | labelled {front label after value back : List Char} {delimiter : Char} (hfront : Loose front)
      (hafter : Loose after) (hback : Loose back)
      (hlabel : Text.toAsciiLowercase label = "decision".toList)
      (hdelimiter : delimiter ∈ labelDelimiters) (hvalue : LooselyReads decision value) :
      LooselyReads decision (front ++ label ++ after ++ delimiter :: value ++ back)

/-- White space inside the quotes is kept, so a padded word in quotes is no decision. -/
theorem padded_word_in_quotes :
    normalizeReviewDecision "\" approve \"".toList = none ∧
      LooselyReads .approve "\" approve \"".toList := by
  have hloose : Loose "\" ".toList ∧ Loose " \"".toList :=
    ⟨List.all_iff_forall_prop.mp (by decide), List.all_iff_forall_prop.mp (by decide)⟩
  exact ⟨by decide, @LooselyReads.word .approve _ "approve".toList _ hloose.1 hloose.2 rfl⟩

end Direclaw.Orchestration
