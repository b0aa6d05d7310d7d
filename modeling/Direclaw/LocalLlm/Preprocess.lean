import Direclaw.Lib.ByteSlices
import Direclaw.Lib.Lines
import Direclaw.Lib.Trimming
import Mathlib.Data.List.SplitBy

/-!
# Condensing a thread context

`preprocess_thread_context` of `local_llm/preprocess.rs`. The lines of the generated text are
freed of near duplicates, the lines of the context that name a run or a step are put behind
them where they are missing, and the result is cut to its length. What the cut takes first is
what the second pass put there.
-/

namespace Direclaw.LocalLlm

open Direclaw.Lib Direclaw.Lib.Text

/-! ## The three passes -/

/-- `similar n m` is `n as f32 / m as f32 >= context_dedup_similarity_threshold`. -/
structure LocalLlmInferenceConfig where
  maxOutputChars : ℕ
  similar : ℕ → ℕ → Bool

/-- `generate` is the local model, with what it is given and how it fails. -/
structure LlamaCppRuntime where
  threadContextPromptTemplate : String
  generate : String → Except String String

/-- A `HashSet` of words, as a list without repetitions. -/
def normalizeForSimilarity (input : List Char) : List (List Char) :=
  (((toAsciiLowercase input).splitOnP fun ch => !ch.isAlphanum).filter (· ≠ [])).dedup

def jaccardSimilar (similar : ℕ → ℕ → Bool) (left right : List (List Char)) : Bool :=
  similar (left.filter right.contains).length (left ++ right).dedup.length

def nearDuplicate (similar : ℕ → ℕ → Bool) (left right : List Char) : Bool :=
  if eqIgnoreAsciiCase left right then true
  else
    let leftNorm := normalizeForSimilarity left
    let rightNorm := normalizeForSimilarity right
    if leftNorm.isEmpty || rightNorm.isEmpty then false
    else jaccardSimilar similar leftNorm rightNorm

/-- The body of the loop of `dedupe_lines`. -/
def pushLine (similar : ℕ → ℕ → Bool) (out : List (List Char)) (line : List Char) :
    List (List Char) :=
  let candidate := trim line
  if candidate.isEmpty then out
  else if out.any fun existing => nearDuplicate similar existing candidate then out
  else out ++ [candidate]

def dedupeLines (similar : ℕ → ℕ → Bool) (input : List Char) : List (List Char) :=
  (splitLines input).foldl (pushLine similar) []

/-- `Vec::dedup`: of equal neighbours the first one stays. -/
def dedupNeighbours : List (List Char) → List (List Char)
  | [] => []
  | [a] => [a]
  | a :: b :: l => if a = b then dedupNeighbours (b :: l) else a :: dedupNeighbours (b :: l)

def identifierLines (source : List Char) : List (List Char) :=
  ((splitLines source).map trim).filter fun line =>
    contains "run_id=".toList line || contains "step_id=".toList line

/-- The body of the loop of `preserve_identifiers`. -/
def reinsert (lines : List (List Char)) (marker : List Char) : List (List Char) :=
  if lines.any fun line => contains marker line then lines else lines ++ [marker]

def preserveIdentifiers (source : List Char) (lines : List (List Char)) : List (List Char) :=
  (dedupNeighbours (identifierLines source)).foldl reinsert lines

def capChars (input : List Char) (maxChars : ℕ) : List Char :=
  if input.length ≤ maxChars then input else input.take maxChars

def preprocessThreadContext (runtime : LlamaCppRuntime) (threadContext : String)
    (inference : LocalLlmInferenceConfig) : Except String String := do
  let prompt := s!"{runtime.threadContextPromptTemplate}\n\nThread Context:\n{threadContext}"
  let generated ← runtime.generate prompt
  let lines := dedupeLines inference.similar generated.toList
  let lines := preserveIdentifiers threadContext.toList lines
  return String.ofList (capChars (joinWith '\n' lines) inference.maxOutputChars)

/-! ## What is kept -/

/-- **The identifiers are kept**: the text holds every line that mentions a run or a step. -/
def KeepsIdentifiers (threadContext output : List Char) : Prop :=
  ∀ marker ∈ identifierLines threadContext, marker <:+: output

/-- A line with an identifier is in none of the condensed lines. -/
def NeedsReinsertion (threadContext : List Char) (condensed : List (List Char)) : Prop :=
  ∃ marker ∈ identifierLines threadContext, ∀ line ∈ condensed, ¬ marker <:+: line

/-- The identifiers are within the length: with the lines that have to be put back, all of the
text; without, the part up to the end of some occurrence of each. -/
structure IdentifiersFit (threadContext : List Char) (condensed : List (List Char))
    (maxChars : ℕ) : Prop where
  reinserted : NeedsReinsertion threadContext condensed →
    (joinWith '\n' (preserveIdentifiers threadContext condensed)).length ≤ maxChars
  condensed : ¬ NeedsReinsertion threadContext condensed →
    ∀ marker ∈ identifierLines threadContext, ∃ before after,
      joinWith '\n' condensed = before ++ marker ++ after ∧
        before.length + marker.length ≤ maxChars

/-! ## The identifiers -/

section Identifiers

variable {threadContext marker : List Char} {condensed markers : List (List Char)}

theorem identifier_spec (h : marker ∈ identifierLines threadContext) :
    '\n' ∉ marker ∧ marker ≠ [] := by
  obtain ⟨hline, hcontains⟩ := List.mem_filter.mp h
  obtain ⟨line, hmem, rfl⟩ := List.mem_map.mp hline
  refine ⟨fun hnewline => newline_not_mem_splitLines hmem (mem_of_mem_trim hnewline), ?_⟩
  intro hnil
  rw [hnil] at hcontains
  revert hcontains
  decide

theorem mem_dedupNeighbours {a : List Char} : ∀ {l : List (List Char)},
    a ∈ dedupNeighbours l ↔ a ∈ l
  | [] => Iff.rfl
  | [_] => Iff.rfl
  | b :: c :: l => by
      rw [dedupNeighbours]
      split
      · next heq =>
        simp only [mem_dedupNeighbours, heq, List.mem_cons, or_self_left]
      · rw [List.mem_cons, mem_dedupNeighbours, ← List.mem_cons]

/-- What putting markers back has done: nothing, since all were there; or the last line of all is
a marker that none of the lines before it holds. -/
structure Reinserted (condensed markers result : List (List Char)) : Prop where
  covers : ∀ marker ∈ markers, ∃ line ∈ result, marker <:+: line
  grown : (result = condensed ∧ ∀ marker ∈ markers, ∃ line ∈ condensed, marker <:+: line) ∨
    (∃ marker ∈ markers, ∀ line ∈ condensed, ¬ marker <:+: line) ∧
      ∃ init last, result = init ++ [last] ∧ last ∈ markers ∧ ∀ line ∈ init, ¬ last <:+: line

theorem Reinserted.step {result : List (List Char)} (h : Reinserted condensed markers result)
    (marker : List Char) : Reinserted condensed (markers ++ [marker]) (reinsert result marker) := by
  rw [reinsert]
  by_cases hany : (result.any fun line => contains marker line) = true
  · rw [if_pos hany]
    obtain ⟨held, hheld, hcontains⟩ := List.any_eq_true.mp hany
    have hmarker : ∃ line ∈ result, marker <:+: line := ⟨held, hheld, contains_iff.mp hcontains⟩
    refine ⟨fun other hother => ?_, ?_⟩
    · rcases List.mem_append.mp hother with hother | hother
      · exact h.covers other hother
      · exact List.mem_singleton.mp hother ▸ hmarker
    · rcases h.grown with ⟨rfl, hall⟩ | ⟨⟨missing, hmissing, hnone⟩, init, last, rfl, hlast, hnew⟩
      · refine .inl ⟨rfl, fun other hother => ?_⟩
        rcases List.mem_append.mp hother with hother | hother
        · exact hall other hother
        · exact List.mem_singleton.mp hother ▸ hmarker
      · exact .inr ⟨⟨missing, List.mem_append_left _ hmissing, hnone⟩, init, last, rfl,
          List.mem_append_left _ hlast, hnew⟩
  · rw [if_neg hany]
    have hnone : ∀ line ∈ result, ¬ marker <:+: line := fun line hline hinfix =>
      hany (List.any_eq_true.mpr ⟨line, hline, contains_iff.mpr hinfix⟩)
    have hlast : marker ∈ markers ++ [marker] :=
      List.mem_append_right _ (List.mem_singleton.mpr rfl)
    refine ⟨fun other hother => ?_, .inr ⟨?_, result, marker, rfl, hlast, hnone⟩⟩
    · rcases List.mem_append.mp hother with hother | hother
      · obtain ⟨line, hline, hinfix⟩ := h.covers other hother
        exact ⟨line, List.mem_append_left _ hline, hinfix⟩
      · exact ⟨marker, List.mem_append_right _ (List.mem_singleton.mpr rfl),
          List.mem_singleton.mp hother ▸ List.infix_refl _⟩
    · rcases h.grown with ⟨rfl, -⟩ | ⟨⟨missing, hmissing, hmiss⟩, -⟩
      · exact ⟨marker, hlast, hnone⟩
      · exact ⟨missing, List.mem_append_left _ hmissing, hmiss⟩

theorem reinserted_foldl (condensed markers : List (List Char)) :
    Reinserted condensed markers (markers.foldl reinsert condensed) := by
  induction markers using List.reverseRecOn with
  | nil =>
    exact ⟨fun _ h => absurd h List.not_mem_nil, .inl ⟨rfl, fun _ h => absurd h List.not_mem_nil⟩⟩
  | append_singleton markers marker ih =>
    rw [List.foldl_append]
    exact ih.step marker

theorem reinserted_preserveIdentifiers (threadContext : List Char)
    (condensed : List (List Char)) :
    Reinserted condensed (identifierLines threadContext)
      (preserveIdentifiers threadContext condensed) := by
  have h := reinserted_foldl condensed (dedupNeighbours (identifierLines threadContext))
  obtain ⟨hcovers, hgrown⟩ := h
  simp only [mem_dedupNeighbours] at hcovers hgrown
  exact ⟨hcovers, hgrown⟩

/-! ## The cut -/

theorem capChars_eq_take (input : List Char) (maxChars : ℕ) :
    capChars input maxChars = input.take maxChars := by
  rw [capChars]
  split
  · next h => exact (List.take_of_length_le h).symm
  · rfl

/-- A cut takes something of the last line. -/
theorem not_infix_take {init : List (List Char)} {last : List Char} {maxChars : ℕ}
    (hnewline : '\n' ∉ last) (hne : last ≠ []) (hnew : ∀ line ∈ init, ¬ last <:+: line)
    (hlong : maxChars < (joinWith '\n' (init ++ [last])).length) :
    ¬ last <:+: (joinWith '\n' (init ++ [last])).take maxChars := by
  intro hinfix
  have hcut : last <:+: (joinWith '\n' (init ++ [last])).dropLast := by
    rw [List.dropLast_eq_take]
    exact hinfix.trans (List.take_prefix_take_left (Nat.le_sub_one_of_lt hlong)).isInfix
  have hshort : ¬ last <:+: last.dropLast := by
    intro h
    have hle := h.length_le
    have hpos := List.length_pos_of_ne_nil hne
    rw [List.length_dropLast] at hle
    omega
  by_cases hinit : init = []
  · rw [hinit, List.nil_append, joinWith_singleton] at hcut
    exact hshort hcut
  · rw [joinWith_append_singleton hinit, List.dropLast_append_cons,
      List.dropLast_cons_of_ne_nil hne, infix_append_cons_iff hnewline] at hcut
    rcases hcut with hcut | hcut
    · obtain ⟨line, hline, hheld⟩ := (infix_joinWith_iff hnewline hne).mp hcut
      exact hnew line hline hheld
    · exact hshort hcut

theorem keepsIdentifiers_take_iff (threadContext : List Char) (condensed : List (List Char))
    (maxChars : ℕ) :
    KeepsIdentifiers threadContext
        ((joinWith '\n' (preserveIdentifiers threadContext condensed)).take maxChars) ↔
      IdentifiersFit threadContext condensed maxChars := by
  obtain ⟨hcovers, hgrown⟩ := reinserted_preserveIdentifiers threadContext condensed
  rcases hgrown with ⟨hsame, hall⟩ | ⟨hneeds, init, last, hresult, hlast, hnew⟩
  · have hnot : ¬ NeedsReinsertion threadContext condensed := by
      rintro ⟨marker, hmarker, hnone⟩
      obtain ⟨line, hline, hheld⟩ := hall marker hmarker
      exact hnone line hline hheld
    rw [hsame]
    refine ⟨fun h => ⟨fun hneeds => absurd hneeds hnot, fun _ marker hmarker =>
      infix_take_iff.mp (h marker hmarker)⟩, fun h marker hmarker => ?_⟩
    exact infix_take_iff.mpr (h.condensed hnot marker hmarker)
  · refine ⟨fun h => ⟨fun _ => ?_, fun hnot => absurd hneeds hnot⟩, fun h marker hmarker => ?_⟩
    · by_contra hlong
      obtain ⟨hnewline, hne⟩ := identifier_spec hlast
      rw [hresult] at h hlong
      exact not_infix_take hnewline hne hnew (not_le.mp hlong) (h last hlast)
    · obtain ⟨hnewline, hne⟩ := identifier_spec hmarker
      rw [List.take_of_length_le (h.reinserted hneeds)]
      exact (infix_joinWith_iff hnewline hne).mpr (hcovers marker hmarker)

/-! ## The length of the condensed lines -/

theorem pushLine_sublist (similar : ℕ → ℕ → Bool) (out : List (List Char)) (line : List Char) :
    (pushLine similar out line).Sublist (out ++ [trim line]) := by
  rw [pushLine]
  split
  · exact List.sublist_append_left _ _
  · split
    · exact List.sublist_append_left _ _
    · exact List.Sublist.refl _

theorem dedupeLines_sublist (similar : ℕ → ℕ → Bool) (input : List Char) :
    (dedupeLines similar input).Sublist ((splitLines input).map trim) := by
  rw [dedupeLines]
  induction splitLines input using List.reverseRecOn with
  | nil => exact List.Sublist.refl _
  | append_singleton lines line ih =>
    rw [List.foldl_append, List.map_append]
    exact (pushLine_sublist similar _ line).trans (ih.append_right _)

/-- Freeing a text of near duplicates does not make it longer. -/
theorem length_dedupeLines_le (similar : ℕ → ℕ → Bool) (input : List Char) :
    (joinWith '\n' (dedupeLines similar input)).length ≤ input.length :=
  calc (joinWith '\n' (dedupeLines similar input)).length
      ≤ (joinWith '\n' ((splitLines input).map trim)).length :=
        length_joinWith_le_of_sublist (dedupeLines_sublist similar input)
    _ ≤ (joinWith '\n' (splitLines input)).length :=
        length_joinWith_map_le (fun part => (trim_sublist part).length_le) _
    _ ≤ input.length := length_joinWith_splitLines_le input

/-- Where the model has cut its answer to the same length, only lines that are put back can make
the text too long. -/
theorem identifiersFit_iff_of_length_le {maxChars : ℕ}
    (h : (joinWith '\n' condensed).length ≤ maxChars) :
    IdentifiersFit threadContext condensed maxChars ↔
      (NeedsReinsertion threadContext condensed →
        (joinWith '\n' (preserveIdentifiers threadContext condensed)).length ≤ maxChars) := by
  refine ⟨fun hfit => hfit.reinserted, fun hfit => ⟨hfit, fun hnot marker hmarker => ?_⟩⟩
  obtain ⟨hnewline, hne⟩ := identifier_spec hmarker
  have hheld : ∃ line ∈ condensed, marker <:+: line := by
    by_contra hnone
    exact hnot ⟨marker, hmarker, fun line hline hinfix => hnone ⟨line, hline, hinfix⟩⟩
  have hinfix := (infix_joinWith_iff hnewline hne).mpr hheld
  rw [← List.take_of_length_le h] at hinfix
  exact infix_take_iff.mp hinfix

end Identifiers

/-! ## Condensing -/

/-- For every thread context, every text that the model generates and every length: the output
is no longer than that, and it holds every line with an identifier if and only if the
identifiers fit; and if the model's text is no longer than that itself, they fit if and only if
either none has to be put back or all of it together is not too long. -/
theorem preprocessThreadContext_keepsIdentifiers_iff (runtime : LlamaCppRuntime)
    (threadContext : String) (inference : LocalLlmInferenceConfig) (generated : String)
    (h : runtime.generate
      s!"{runtime.threadContextPromptTemplate}\n\nThread Context:\n{threadContext}" =
        .ok generated) :
    ∃ output, preprocessThreadContext runtime threadContext inference = .ok output ∧
      output.toList.length ≤ inference.maxOutputChars ∧
      (KeepsIdentifiers threadContext.toList output.toList ↔
        IdentifiersFit threadContext.toList (dedupeLines inference.similar generated.toList)
          inference.maxOutputChars) ∧
      (generated.toList.length ≤ inference.maxOutputChars →
        (IdentifiersFit threadContext.toList (dedupeLines inference.similar generated.toList)
            inference.maxOutputChars ↔
          (NeedsReinsertion threadContext.toList
              (dedupeLines inference.similar generated.toList) →
            (joinWith '\n' (preserveIdentifiers threadContext.toList
              (dedupeLines inference.similar generated.toList))).length ≤
                inference.maxOutputChars))) := by
  refine ⟨_, by rw [preprocessThreadContext, h]; rfl, ?_, ?_, fun hlength => ?_⟩
  · rw [String.toList_ofList, capChars_eq_take]
    exact List.length_take_le _ _
  · rw [String.toList_ofList, capChars_eq_take]
    exact keepsIdentifiers_take_iff _ _ _
  · exact identifiersFit_iff_of_length_le ((length_dedupeLines_le _ _).trans hlength)

/-! ### An answer as long as the limit -/

/-- A model whose answer to everything is `answer`. -/
def answering (answer : String) : LlamaCppRuntime where
  threadContextPromptTemplate := "Condense."
  generate _ := .ok answer

/-- Eight characters, and only equal words are near duplicates. -/
def eightChars : LocalLlmInferenceConfig where
  maxOutputChars := 8
  similar n m := n == m

theorem identifiers_of_short_answer :
    ∃ output, preprocessThreadContext (answering "") "run_id=1" eightChars = .ok output ∧
      output.toList.length ≤ 8 ∧
      (KeepsIdentifiers "run_id=1".toList output.toList ↔
        IdentifiersFit "run_id=1".toList (dedupeLines eightChars.similar "".toList) 8) := by
  obtain ⟨output, houtput, hlength, hkeeps, -⟩ :=
    preprocessThreadContext_keepsIdentifiers_iff (answering "") "run_id=1" eightChars "" rfl
  exact ⟨output, houtput, hlength, hkeeps⟩

/-- The identifier is put behind an answer that leaves no room for it. -/
theorem identifier_cut_off :
    preprocessThreadContext (answering "all good") "run_id=1" eightChars = .ok "all good" ∧
      (joinWith '\n' (identifierLines "run_id=1".toList)).length ≤ eightChars.maxOutputChars ∧
      ¬ KeepsIdentifiers "run_id=1".toList "all good".toList := by
  refine ⟨by decide, by decide, fun h => ?_⟩
  have hinfix := h "run_id=1".toList (by decide)
  revert hinfix
  decide +kernel

end Direclaw.LocalLlm
