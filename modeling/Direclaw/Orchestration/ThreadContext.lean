import Direclaw.Orchestration.ConversationContext
import Mathlib.Algebra.BigOperators.Group.List.Basic
import Mathlib.Data.Prod.Lex

/-!
# The thread context as a suffix of the conversation

`render_recent_thread_context` sorts the turns of a file, keeps the last of them, and renders
from the newest one backwards while the lines fit. What it returns is the longest suffix that
fits: lines only get longer by adding older ones.
-/

namespace Direclaw.Orchestration

open Direclaw.Lib

/-! ## Files with any lines -/

/-- A line of a conversation file, as far as `BufRead::lines` gets with it. -/
inductive ContextLine : Type where
  | notUtf8 (bytes : List UInt8)
  | text (line : List Char)

def ContextLine.turn? (readJson : List Char → Option Json) : ContextLine → Option TurnRecord
  | .notUtf8 _ => none
  | .text line => if Text.isBlank line then none else (readJson line).bind TurnRecord.decode

section Lines

/-! `serde_json` is a parameter: the value it reads from a line, if it reads one. -/
variable (readJson : List Char → Option Json)

/-- The loop over `reader.lines()`: blank and unparseable lines are passed over. -/
def readTurns : List ContextLine → Except IoErrorKind (List TurnRecord)
  | [] => .ok []
  | .notUtf8 _ :: _ => .error (.other "stream did not contain valid UTF-8")
  | .text line :: lines =>
    match readTurns lines with
    | .error err => .error err
    | .ok turns => .ok ((ContextLine.turn? readJson (.text line)).toList ++ turns)

def renderTurns (limits : ThreadContextLimits) (turns : List TurnRecord) : Option (List Char) :=
  if turns.isEmpty then none
  else
    let turns := turns.mergeSort TurnRecord.le
    let turns := turns.drop (turns.length - limits.maxTurns)
    let selected := (selectLines limits.maxChars 0 true (turns.reverse.map renderTurn)).reverse
    if selected.isEmpty then none else some (List.intercalate ['\n'] selected)

/-- `render_recent_thread_context` for a file that opens. -/
def renderContextFile (limits : ThreadContextLimits) (lines : List ContextLine) :
    Except IoErrorKind (Option (List Char)) :=
  if limits.maxTurns = 0 ∨ limits.maxChars = 0 then .ok none
  else (readTurns readJson lines).map (renderTurns limits)

end Lines

/-- A file without other lines, as the tree of conversations holds it. -/
theorem renderLines_eq_renderTurns (limits : ThreadContextLimits) (lines : List Json) :
    renderLines limits lines = renderTurns limits (lines.filterMap TurnRecord.decode) := rfl

theorem readTurns_cases (readJson : List Char → Option Json) (lines : List ContextLine) :
    readTurns readJson lines = .ok (lines.filterMap (ContextLine.turn? readJson)) ∨
      (∃ bytes, .notUtf8 bytes ∈ lines) ∧
        readTurns readJson lines = .error (.other "stream did not contain valid UTF-8") := by
  induction lines with
  | nil => exact .inl rfl
  | cons line lines ih =>
    cases line with
    | notUtf8 bytes => exact .inr ⟨⟨bytes, List.mem_cons_self⟩, rfl⟩
    | text line =>
      rcases ih with hok | ⟨⟨bytes, hbytes⟩, herror⟩
      · refine .inl ?_
        rw [readTurns, hok, List.filterMap_cons]
        cases ContextLine.turn? readJson (.text line) with
        | none => rfl
        | some turn => rfl
      · refine .inr ⟨⟨bytes, List.mem_cons_of_mem _ hbytes⟩, ?_⟩
        rw [readTurns, herror]

/-! ## The order of turns -/

theorem TurnRecord.le_iff {left right : TurnRecord} :
    left.le right = true ↔
      toLex (left.timestamp.toInt, left.messageId) ≤
        toLex (right.timestamp.toInt, right.messageId) := by
  rw [TurnRecord.le, Prod.Lex.le_iff]
  simp only [Bool.or_eq_true, Bool.and_eq_true, decide_eq_true_eq, beq_iff_eq,
    Int64.lt_iff_toInt_lt, ← Int64.toInt_inj]
  rfl

theorem TurnRecord.le_trans (a b c : TurnRecord) (hab : a.le b = true) (hbc : b.le c = true) :
    a.le c = true := by
  rw [TurnRecord.le_iff] at hab hbc ⊢
  exact hab.trans hbc

theorem TurnRecord.le_total (a b : TurnRecord) : (a.le b || b.le a) = true := by
  rw [Bool.or_eq_true, TurnRecord.le_iff, TurnRecord.le_iff]
  exact Std.Total.total _ _

/-- The turns in the order of their timestamps, then of their message ids; turns that agree in
both stay in the order of the file. -/
structure SortedTurns (turns ordered : List TurnRecord) : Prop where
  perm : ordered.Perm turns
  sorted : ordered.Pairwise (TurnRecord.le · ·)
  stable : ∀ a b, a.le b = true → [a, b].Sublist turns → [a, b].Sublist ordered

theorem sortedTurns_mergeSort (turns : List TurnRecord) :
    SortedTurns turns (turns.mergeSort TurnRecord.le) where
  perm := List.mergeSort_perm turns TurnRecord.le
  sorted := List.pairwise_mergeSort TurnRecord.le_trans TurnRecord.le_total turns
  stable := fun _ _ hab => List.pair_sublist_mergeSort TurnRecord.le_trans TurnRecord.le_total hab

/-! ## Lines within a budget -/

/-- What a line, or some lines, add to the characters that are used. -/
def linesCost : Bool → List (List Char) → ℕ
  | _, [] => 0
  | first, line :: lines => (if first then 0 else 1) + line.length + linesCost false lines

theorem linesCost_false (lines : List (List Char)) :
    linesCost false lines = (lines.map List.length).sum + lines.length := by
  induction lines with
  | nil => rfl
  | cons line lines ih =>
    rw [linesCost, ih, List.map_cons, List.sum_cons, List.length_cons]
    simp only [Bool.false_eq_true, if_false]
    omega

theorem linesCost_true (lines : List (List Char)) :
    linesCost true lines = (lines.map List.length).sum + (lines.length - 1) := by
  cases lines with
  | nil => rfl
  | cons line lines =>
    rw [linesCost, linesCost_false, List.map_cons, List.sum_cons, List.length_cons]
    simp only [if_true]
    omega

theorem linesCost_reverse (lines : List (List Char)) :
    linesCost true lines.reverse = linesCost true lines := by
  rw [linesCost_true, linesCost_true, List.map_reverse, List.sum_reverse, List.length_reverse]

/-- The separators are the joining line breaks. -/
theorem length_intercalate_newline (lines : List (List Char)) :
    (List.intercalate ['\n'] lines).length = linesCost true lines := by
  induction lines with
  | nil => rfl
  | cons line lines ih =>
    cases lines with
    | nil => simp [linesCost]
    | cons next lines =>
      rw [List.intercalate_cons_cons, List.length_append, List.length_append, ih,
        linesCost_true, linesCost_true]
      simp only [List.map_cons, List.sum_cons, List.length_cons, List.length_nil]
      omega

section Selection

variable {maxChars used : ℕ} {first : Bool} {lines : List (List Char)}

theorem selectLines_cons_of_le {line : List Char}
    (h : used + (if first then 0 else 1) + line.length ≤ maxChars) :
    selectLines maxChars used first (line :: lines) = line ::
      selectLines maxChars (used + (if first then 0 else 1) + line.length) false lines :=
  if_neg (not_lt.mpr h)

theorem selectLines_cons_of_lt {line : List Char}
    (h : maxChars < used + (if first then 0 else 1) + line.length) :
    selectLines maxChars used first (line :: lines) = [] :=
  if_pos h

theorem selectLines_prefix : selectLines maxChars used first lines <+: lines := by
  induction lines generalizing used first with
  | nil => exact List.nil_prefix
  | cons line lines ih =>
    rcases lt_or_ge maxChars (used + (if first then 0 else 1) + line.length) with hfull | hfits
    · rw [selectLines_cons_of_lt hfull]
      exact List.nil_prefix
    · rw [selectLines_cons_of_le hfits]
      exact (List.prefix_cons_inj line).mpr ih

theorem linesCost_selectLines_le (h : used ≤ maxChars) :
    used + linesCost first (selectLines maxChars used first lines) ≤ maxChars := by
  induction lines generalizing used first with
  | nil => exact h
  | cons line lines ih =>
    rcases lt_or_ge maxChars (used + (if first then 0 else 1) + line.length) with hfull | hfits
    · rw [selectLines_cons_of_lt hfull]
      exact h
    · rw [selectLines_cons_of_le hfits, linesCost, ← Nat.add_assoc, ← Nat.add_assoc]
      exact ih hfits

/-- The loop stops at the first line that does not fit, and no later one would. -/
theorem selectLines_longest {other : List (List Char)} (hother : other <+: lines)
    (hfits : used + linesCost first other ≤ maxChars) :
    other.length ≤ (selectLines maxChars used first lines).length := by
  induction lines generalizing used first other with
  | nil =>
    rw [List.prefix_nil.mp hother]
    exact Nat.zero_le _
  | cons line lines ih =>
    cases other with
    | nil => exact Nat.zero_le _
    | cons line' other =>
      obtain ⟨rfl, htail⟩ := List.cons_prefix_cons.mp hother
      rw [linesCost, ← Nat.add_assoc, ← Nat.add_assoc] at hfits
      rw [selectLines_cons_of_le (le_trans (Nat.le_add_right _ _) hfits), List.length_cons,
        List.length_cons]
      exact Nat.succ_le_succ (ih htail hfits)

end Selection

/-! ## The longest recent suffix -/

/-- The turns of a context, one below the other. -/
def joinTurns (turns : List TurnRecord) : List Char :=
  List.intercalate ['\n'] (turns.map renderTurn)

/-- The result is the longest suffix of the last `maxTurns` turns, in their order, that fits into
`maxChars` characters; it is absent when that suffix is empty. -/
structure LongestRecentSuffix (limits : ThreadContextLimits) (turns : List TurnRecord)
    (result : Option (List Char)) : Prop where
  suffix : ∃ ordered kept, SortedTurns turns ordered ∧
    kept <:+ ordered.drop (ordered.length - limits.maxTurns) ∧
    (joinTurns kept).length ≤ limits.maxChars ∧
    (∀ other, other <:+ ordered.drop (ordered.length - limits.maxTurns) →
      (joinTurns other).length ≤ limits.maxChars → other.length ≤ kept.length) ∧
    result = if kept = [] then none else some (joinTurns kept)
  bound : ∀ text, result = some text → text.length ≤ limits.maxChars

theorem renderTurn_ne_nil (turn : TurnRecord) : renderTurn turn ≠ [] := by
  unfold renderTurn
  cases turn.direction with
  | inbound =>
    have htag : "[user] ".toList ≠ [] := by decide
    rw [List.append_assoc, List.append_assoc]
    exact List.append_ne_nil_of_left_ne_nil htag _
  | outbound =>
    have htag : "[assistant] ".toList ≠ [] := by decide
    rw [List.append_assoc, List.append_assoc]
    exact List.append_ne_nil_of_left_ne_nil htag _

theorem length_joinTurns (turns : List TurnRecord) :
    (joinTurns turns).length = linesCost true (turns.reverse.map renderTurn) := by
  rw [joinTurns, length_intercalate_newline, List.map_reverse, linesCost_reverse]

section Longest

variable {limits : ThreadContextLimits} {turns : List TurnRecord}

/-- The newest turns whose lines are selected, in their order. -/
def keptTurns (limits : ThreadContextLimits) (recent : List TurnRecord) : List TurnRecord :=
  (recent.reverse.take
    (selectLines limits.maxChars 0 true (recent.reverse.map renderTurn)).length).reverse

theorem map_keptTurns (recent : List TurnRecord) :
    (keptTurns limits recent).reverse.map renderTurn =
      selectLines limits.maxChars 0 true (recent.reverse.map renderTurn) := by
  have hprefix : selectLines limits.maxChars 0 true (recent.reverse.map renderTurn) <+:
      recent.reverse.map renderTurn := selectLines_prefix
  rw [keptTurns, List.reverse_reverse, List.map_take]
  exact (List.prefix_iff_eq_take.mp hprefix).symm

theorem keptTurns_suffix (recent : List TurnRecord) : keptTurns limits recent <:+ recent := by
  rw [← List.reverse_prefix, keptTurns, List.reverse_reverse]
  exact List.take_prefix _ _

theorem keptTurns_fits (recent : List TurnRecord) :
    (joinTurns (keptTurns limits recent)).length ≤ limits.maxChars := by
  rw [length_joinTurns, map_keptTurns]
  have hle : 0 + linesCost true (selectLines limits.maxChars 0 true
      (recent.reverse.map renderTurn)) ≤ limits.maxChars :=
    linesCost_selectLines_le (Nat.zero_le _)
  rwa [Nat.zero_add] at hle

theorem keptTurns_longest {recent other : List TurnRecord} (hother : other <:+ recent)
    (hfits : (joinTurns other).length ≤ limits.maxChars) :
    other.length ≤ (keptTurns limits recent).length := by
  have hprefix : other.reverse.map renderTurn <+: recent.reverse.map renderTurn :=
    (List.reverse_prefix.mpr hother).map renderTurn
  rw [length_joinTurns] at hfits
  have hlength : (other.reverse.map renderTurn).length ≤ (selectLines limits.maxChars 0 true
      (recent.reverse.map renderTurn)).length :=
    selectLines_longest hprefix (by rw [Nat.zero_add]; exact hfits)
  rw [← map_keptTurns] at hlength
  simpa only [List.length_map, List.length_reverse] using hlength

theorem renderTurns_eq (limits : ThreadContextLimits) (turns : List TurnRecord) :
    renderTurns limits turns =
      let ordered := turns.mergeSort TurnRecord.le
      let kept := keptTurns limits (ordered.drop (ordered.length - limits.maxTurns))
      if kept = [] then none else some (joinTurns kept) := by
  simp only [renderTurns]
  rw [← map_keptTurns, ← List.map_reverse, List.reverse_reverse, List.isEmpty_map, ← joinTurns]
  by_cases hempty : turns = []
  · subst hempty
    rw [List.mergeSort_nil, List.drop_nil]
    rfl
  · rw [List.isEmpty_eq_false_iff.mpr hempty, if_neg Bool.false_ne_true]
    simp only [List.isEmpty_iff]

theorem renderTurns_longest (limits : ThreadContextLimits) (turns : List TurnRecord) :
    LongestRecentSuffix limits turns (renderTurns limits turns) := by
  rw [renderTurns_eq]
  constructor
  · exact ⟨_, _, sortedTurns_mergeSort turns, keptTurns_suffix _, keptTurns_fits _,
      fun other hother hfits => keptTurns_longest hother hfits, rfl⟩
  · intro text htext
    simp only [] at htext
    split at htext
    · cases htext
    · cases htext
      exact keptTurns_fits _

/-- With a limit of zero the longest suffix that fits is empty. -/
theorem longestRecentSuffix_none (h : limits.maxTurns = 0 ∨ limits.maxChars = 0) :
    LongestRecentSuffix limits turns none := by
  refine ⟨⟨_, [], sortedTurns_mergeSort turns, List.nil_suffix, Nat.zero_le _, ?_, rfl⟩, nofun⟩
  intro other hother hfits
  rcases h with hturns | hchars
  · rw [hturns, Nat.sub_zero, List.drop_length] at hother
    rw [List.suffix_nil.mp hother]
  · cases other with
    | nil => exact le_refl _
    | cons turn other =>
      -- a line is never empty
      have hpos := List.length_pos_of_ne_nil (renderTurn_ne_nil turn)
      rw [joinTurns, length_intercalate_newline, List.map_cons, linesCost, hchars] at hfits
      omega

/-- Whatever its lines are, a file is rendered as the longest recent suffix, unless reading it
fails at a line that is not text. -/
theorem renderContextFile_longest (readJson : List Char → Option Json)
    (limits : ThreadContextLimits) (lines : List ContextLine) :
    (∃ result, renderContextFile readJson limits lines = .ok result ∧
      LongestRecentSuffix limits (lines.filterMap (ContextLine.turn? readJson)) result) ∨
    (∃ bytes, .notUtf8 bytes ∈ lines) ∧ renderContextFile readJson limits lines =
      .error (.other "stream did not contain valid UTF-8") := by
  by_cases hzero : limits.maxTurns = 0 ∨ limits.maxChars = 0
  · exact .inl ⟨none, if_pos hzero, longestRecentSuffix_none hzero⟩
  · rw [renderContextFile, if_neg hzero]
    rcases readTurns_cases readJson lines with hok | ⟨hbytes, herror⟩
    · rw [hok]
      exact .inl ⟨_, rfl, renderTurns_longest limits _⟩
    · rw [herror]
      exact .inr ⟨hbytes, rfl⟩

end Longest

end Direclaw.Orchestration
