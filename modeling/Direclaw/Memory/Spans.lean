import Direclaw.Lib.Text

/-!
# Spans of a memory's content

`split_content_into_spans` of `memory/repository.rs`. The source walks byte offsets
into the content; a slice here carries its text and its first offset, and its end
is found from the UTF-8 length of the text.
-/

namespace Direclaw.Memory

open Direclaw.Lib

structure ContentSpan where
  seq : ℕ
  startChar : ℕ
  endChar : ℕ
  text : List Char
deriving DecidableEq, Repr

def utf8Len (text : List Char) : ℕ := (text.map Char.utf8Size).sum

/-- A slice of the content: where it starts, and its characters. -/
structure Slice where
  start : ℕ
  text : List Char
deriving DecidableEq, Repr

def Slice.stop (slice : Slice) : ℕ := slice.start + utf8Len slice.text

def isSentenceEnd (ch : Char) : Bool := ch == '.' || ch == '!' || ch == '?' || ch == '\n'

/-- The sentences from `start` on; `sentence` is what has been read of the current
one, last character first. -/
def sentencesFrom (start : ℕ) (sentence : List Char) : List Char → List Slice
  | [] => if sentence.isEmpty then [] else [{ start, text := sentence.reverse }]
  | ch :: rest =>
    if isSentenceEnd ch then
      let text := (ch :: sentence).reverse
      { start, text } :: sentencesFrom (start + utf8Len text) [] rest
    else sentencesFrom start (ch :: sentence) rest

def sentenceRanges (content : List Char) : List Slice :=
  let ranges := sentencesFrom 0 [] content
  if ranges.isEmpty then [{ start := 0, text := [] }] else ranges

/-- Both `while` loops: white space is cut off in front, then behind. -/
def Slice.trimmed (slice : Slice) : Slice :=
  let front := slice.text.takeWhile Text.isWhitespace
  { start := slice.start + utf8Len front, text := Text.trim slice.text }

/-- The bounded pieces of a long sentence. -/
def chunks (maxChars seq : ℕ) : ℕ → Slice → List ContentSpan
  | 0, _ => []
  | fuel + 1, slice =>
    if slice.text.isEmpty then []
    else
      -- the loop takes one character before it looks at `max_chars`
      let piece := slice.text.take (max maxChars 1)
      let stop := slice.start + utf8Len piece
      { seq := seq + 1, startChar := slice.start, endChar := stop, text := Text.trim piece } ::
        chunks maxChars (seq + 1) fuel
          { start := stop, text := slice.text.drop (max maxChars 1) }

def sentenceSpans (maxChars seq : ℕ) (slice : Slice) : List ContentSpan :=
  if slice.text.isEmpty then []
  else if slice.text.length ≤ maxChars then
    [{ seq := seq + 1, startChar := slice.start, endChar := slice.stop, text := slice.text }]
  else chunks maxChars seq slice.text.length slice

def spansOf (maxChars : ℕ) : ℕ → List Slice → List ContentSpan
  | _, [] => []
  | seq, slice :: slices =>
    let spans := sentenceSpans maxChars seq slice.trimmed
    spans ++ spansOf maxChars (seq + spans.length) slices

def splitContentIntoSpans (content : List Char) (maxChars : ℕ) : List ContentSpan :=
  if Text.isBlank content then [] else spansOf maxChars 0 (sentenceRanges content)

/-! ## The spans are numbered in order -/

theorem chunks_seq (maxChars : ℕ) : ∀ (fuel seq : ℕ) (slice : Slice),
    (chunks maxChars seq fuel slice).map (·.seq) =
      List.range' (seq + 1) (chunks maxChars seq fuel slice).length := by
  intro fuel
  induction fuel with
  | zero =>
    intro seq slice
    rfl
  | succ fuel ih =>
    intro seq slice
    rw [chunks]
    split
    · rfl
    · simp only [List.map_cons, List.length_cons, List.range'_succ]
      rw [ih]

theorem sentenceSpans_seq (maxChars seq : ℕ) (slice : Slice) :
    (sentenceSpans maxChars seq slice).map (·.seq) =
      List.range' (seq + 1) (sentenceSpans maxChars seq slice).length := by
  unfold sentenceSpans
  split
  · rfl
  split
  · rfl
  · exact chunks_seq maxChars _ seq slice

theorem spansOf_seq (maxChars : ℕ) (slices : List Slice) : ∀ seq,
    (spansOf maxChars seq slices).map (·.seq) =
      List.range' (seq + 1) (spansOf maxChars seq slices).length := by
  induction slices with
  | nil =>
    intro seq
    rfl
  | cons slice slices ih =>
    intro seq
    simp only [spansOf, List.map_append, List.length_append, ih, sentenceSpans_seq]
    rw [Nat.add_right_comm, List.range'_append_1]

/-- The sequence numbers of a memory's spans are `1, 2, …`. -/
theorem splitContentIntoSpans_seq (content : List Char) (maxChars : ℕ) :
    (splitContentIntoSpans content maxChars).map (·.seq) =
      List.range' 1 (splitContentIntoSpans content maxChars).length := by
  unfold splitContentIntoSpans
  split
  · rfl
  · exact spansOf_seq maxChars _ 0

end Direclaw.Memory
