import Direclaw.Lib.ByteSlices
import Direclaw.Orchestration.RunStore

/-!
# The result envelope

`parse_workflow_result_envelope` of `orchestration/output_contract.rs`, with the byte
offsets it searches for and slices at. A slice that would panic is `none`.
-/

namespace Direclaw.Orchestration

open Direclaw.Lib

def openTag : List Char := "[workflow_result]".toList
def closeTag : List Char := "[/workflow_result]".toList

section Parse

variable (fromStr : String → Except String Json)

/-- The object in the text between the tags; `fromStr` is `serde_json::from_str`. -/
def parseEnvelopePayload (inside : List Char) :
    Except OrchestratorError (List (String × Json)) :=
  match fromStr (String.ofList (Text.trim inside)) with
  | .error reason => .error (.workflowEnvelope s!"invalid json: {reason}")
  | .ok value =>
    match value.asObject with
    | some fields => .ok fields
    | none => .error (.workflowEnvelope "workflow_result payload must be a JSON object")

/-- `none` is a slice out of bounds. -/
def parseWorkflowResultEnvelope (output : List Char) :
    Option (Except OrchestratorError (List (String × Json))) :=
  match Text.find openTag output with
  | none => some (.error (.workflowEnvelope "missing [workflow_result] tag"))
  | some start =>
    match Text.find closeTag output with
    | none => some (.error (.workflowEnvelope "missing [/workflow_result] tag"))
    | some stop => do
        let afterOpen ← Text.sliceFrom output (start + Text.byteLen openTag)
        if Text.contains openTag afterOpen then
          return .error (.workflowEnvelope "multiple [workflow_result] tags are not allowed")
        let afterClose ← Text.sliceFrom output (stop + Text.byteLen closeTag)
        if Text.contains closeTag afterClose then
          return .error (.workflowEnvelope "multiple [/workflow_result] tags are not allowed")
        if stop ≤ start then
          return .error (.workflowEnvelope "invalid workflow_result tag ordering")
        let inside ← Text.slice output (start + Text.byteLen openTag) stop
        return parseEnvelopePayload fromStr inside

end Parse

/-- The pattern occurs once. -/
def OccursOnce (pat s : List Char) : Prop :=
  ∃! parts : List Char × List Char, s = parts.1 ++ pat ++ parts.2

/-- One opening tag, behind it one closing tag, and no more. -/
structure Envelope (output before inside after : List Char) : Prop where
  text : output = before ++ openTag ++ inside ++ closeTag ++ after
  opens : OccursOnce openTag output
  closes : OccursOnce closeTag output

/-! ## Tags do not overlap -/

def openTail : List Char := "workflow_result]".toList
def closeTail : List Char := "/workflow_result]".toList

theorem openTag_eq : openTag = '[' :: openTail := rfl
theorem closeTag_eq : closeTag = '[' :: closeTail := rfl
theorem openTail_fresh : '[' ∉ openTail := by decide
theorem closeTail_fresh : '[' ∉ closeTail := by decide

section Tags

variable {pat output before after : List Char} {tail : List Char}

/-- With nothing behind its first occurrence a tag occurs once. -/
theorem occursOnce_iff (hpat : pat = '[' :: tail) (hfresh : '[' ∉ tail)
    (h : Text.FirstAt pat output before after) : OccursOnce pat output ↔ ¬ pat <:+: after := by
  constructor
  · rintro ⟨parts, -, hunique⟩ ⟨between, rest, hagain⟩
    have hfirst := hunique (before, after) h.text
    have hsecond := hunique (before ++ pat ++ between, rest) (by
      rw [h.text, ← hagain]
      simp)
    have hbefore := congrArg (List.length ∘ Prod.fst) (hfirst.trans hsecond.symm)
    simp only [Function.comp, List.length_append, hpat, List.length_cons] at hbefore
    omega
  · intro hnone
    refine ⟨(before, after), h.text, ?_⟩
    rintro ⟨before', after'⟩ htext
    rcases (h.first before' after' htext).eq_or_lt with hlength | hlater
    · have heq : before ++ (pat ++ after) = before' ++ (pat ++ after') := by
        rw [← List.append_assoc, ← List.append_assoc, ← h.text, htext]
      obtain ⟨rfl, hrest⟩ := List.append_inj heq hlength
      rw [List.append_cancel_left hrest]
    · subst hpat
      obtain ⟨between, -, rfl⟩ := Text.later_of_fresh hfresh (h.text.symm.trans htext) hlater
      exact absurd ⟨between, after', by simp⟩ hnone

theorem firstAt_of_occursOnce (h : OccursOnce pat output) (htext : output = before ++ pat ++ after) :
    Text.FirstAt pat output before after := by
  obtain ⟨first, rest, hfirst⟩ := Text.exists_firstAt ⟨before, after, htext.symm⟩
  have heq : (first, rest) = (before, after) := h.unique hfirst.text htext
  cases heq
  exact hfirst

end Tags

/-! ## The parse -/

section Exact

variable {fromStr : String → Except String Json} {output before inside after : List Char}
  {afterOpen beforeClose afterClose : List Char}

theorem Envelope.firstOpen (h : Envelope output before inside after) :
    Text.FirstAt openTag output before (inside ++ closeTag ++ after) :=
  firstAt_of_occursOnce h.opens (by rw [h.text]; simp)

theorem Envelope.firstClose (h : Envelope output before inside after) :
    Text.FirstAt closeTag output (before ++ openTag ++ inside) after :=
  firstAt_of_occursOnce h.closes h.text

theorem parseEnvelopePayload_eq_ok {fields : List (String × Json)} :
    parseEnvelopePayload fromStr inside = .ok fields ↔
      fromStr (String.ofList (Text.trim inside)) = .ok (.object fields) := by
  unfold parseEnvelopePayload
  cases fromStr (String.ofList (Text.trim inside)) with
  | error reason => exact iff_of_false nofun nofun
  | ok value => cases value <;> simp [Json.asObject]

/-- Both tags are there: the slices that are taken, and the checks in between. -/
theorem parseWorkflowResultEnvelope_of_tags (hopen : Text.FirstAt openTag output before afterOpen)
    (hclose : Text.FirstAt closeTag output beforeClose afterClose) :
    (∃ err, parseWorkflowResultEnvelope fromStr output = some (.error err) ∧
      ¬ (OccursOnce openTag output ∧ OccursOnce closeTag output ∧
        before.length < beforeClose.length)) ∨
    ∃ inside, Envelope output before inside afterClose ∧
      parseWorkflowResultEnvelope fromStr output = some (parseEnvelopePayload fromStr inside) := by
  have hstart : Text.find openTag output = some (Text.byteLen before) :=
    Text.find_eq_some_iff.mpr ⟨before, afterOpen, hopen, rfl⟩
  have hstop : Text.find closeTag output = some (Text.byteLen beforeClose) :=
    Text.find_eq_some_iff.mpr ⟨beforeClose, afterClose, hclose, rfl⟩
  have hafterOpen : Text.sliceFrom output (Text.byteLen before + Text.byteLen openTag) =
      some afterOpen := by
    rw [← Text.byteLen_append, hopen.text]
    exact Text.sliceFrom_append _ _
  have hafterClose : Text.sliceFrom output (Text.byteLen beforeClose + Text.byteLen closeTag) =
      some afterClose := by
    rw [← Text.byteLen_append, hclose.text]
    exact Text.sliceFrom_append _ _
  have honceOpen := occursOnce_iff openTag_eq openTail_fresh hopen
  have honceClose := occursOnce_iff closeTag_eq closeTail_fresh hclose
  have horder := Text.byteLen_le_iff (hclose.text.trans (List.append_assoc _ _ _))
    (hopen.text.trans (List.append_assoc _ _ _))
  simp only [parseWorkflowResultEnvelope, hstart, hstop, hafterOpen, hafterClose, bind,
    Option.bind, pure, Text.contains_iff]
  by_cases hopens : openTag <:+: afterOpen
  · rw [if_pos hopens]
    exact .inl ⟨_, rfl, fun h => honceOpen.mp h.1 hopens⟩
  rw [if_neg hopens]
  by_cases hcloses : closeTag <:+: afterClose
  · rw [if_pos hcloses]
    exact .inl ⟨_, rfl, fun h => honceClose.mp h.2.1 hcloses⟩
  rw [if_neg hcloses]
  by_cases hle : Text.byteLen beforeClose ≤ Text.byteLen before
  · rw [if_pos hle]
    exact .inl ⟨_, rfl, fun h => absurd (horder.mp hle) h.2.2.not_ge⟩
  rw [if_neg hle]
  -- no tag begins inside the other, so the closing one is behind the whole opening one
  have hlater := not_le.mp (mt horder.mpr hle)
  obtain ⟨inside, hbetween, -⟩ :=
    Text.later_of_fresh openTail_fresh (hopen.text.symm.trans hclose.text) hlater
  refine .inr ⟨inside, ⟨?_, honceOpen.mpr hopens, honceClose.mpr hcloses⟩, ?_⟩
  · rw [hclose.text, hbetween]
    rfl
  · have hslice : Text.slice output (Text.byteLen before + Text.byteLen openTag)
        (Text.byteLen beforeClose) = some inside := by
      rw [hclose.text, hbetween, ← Text.byteLen_append, List.append_assoc _ closeTag]
      exact Text.slice_append _ _ _
    rw [hslice]

/-- An answer without both tags is refused. -/
theorem parseWorkflowResultEnvelope_of_no_tag
    (h : ¬ (openTag <:+: output ∧ closeTag <:+: output)) :
    ∃ err, parseWorkflowResultEnvelope fromStr output = some (.error err) := by
  by_cases hopens : openTag <:+: output
  · have hcloses : ¬ closeTag <:+: output := fun hcloses => h ⟨hopens, hcloses⟩
    obtain ⟨before, afterOpen, hopen⟩ := Text.exists_firstAt hopens
    rw [parseWorkflowResultEnvelope, Text.find_eq_none_iff.mpr hcloses,
      Text.find_eq_some_iff.mpr ⟨before, afterOpen, hopen, rfl⟩]
    exact ⟨_, rfl⟩
  · rw [parseWorkflowResultEnvelope, Text.find_eq_none_iff.mpr hopens]
    exact ⟨_, rfl⟩

/-- What is refused is so exactly where there is no envelope. -/
theorem parse_exact_of_error {err : OrchestratorError}
    (hparse : parseWorkflowResultEnvelope fromStr output = some (.error err))
    (hnone : ∀ before inside after, ¬ Envelope output before inside after) :
    (∃ result, parseWorkflowResultEnvelope fromStr output = some result) ∧
    ∀ fields, parseWorkflowResultEnvelope fromStr output = some (.ok fields) ↔
      ∃ before inside after, Envelope output before inside after ∧
        fromStr (String.ofList (Text.trim inside)) = .ok (.object fields) := by
  rw [hparse]
  refine ⟨⟨_, rfl⟩, fun fields => iff_of_false nofun ?_⟩
  rintro ⟨before, inside, after, henvelope, -⟩
  exact hnone before inside after henvelope

end Exact

/-- **Result envelopes.** No slice is out of bounds, and the parse yields exactly the
object between the only opening and the only closing tag. -/
theorem envelope_parse_exact (fromStr : String → Except String Json) (output : List Char) :
    (∃ result, parseWorkflowResultEnvelope fromStr output = some result) ∧
    ∀ fields, parseWorkflowResultEnvelope fromStr output = some (.ok fields) ↔
      ∃ before inside after, Envelope output before inside after ∧
        fromStr (String.ofList (Text.trim inside)) = .ok (.object fields) := by
  by_cases htags : openTag <:+: output ∧ closeTag <:+: output
  swap
  · obtain ⟨err, hparse⟩ := parseWorkflowResultEnvelope_of_no_tag htags
    refine parse_exact_of_error hparse fun before inside after henvelope => htags ?_
    exact ⟨henvelope.firstOpen.isInfix, henvelope.firstClose.isInfix⟩
  obtain ⟨before, afterOpen, hopen⟩ := Text.exists_firstAt htags.1
  obtain ⟨beforeClose, afterClose, hclose⟩ := Text.exists_firstAt htags.2
  rcases @parseWorkflowResultEnvelope_of_tags fromStr _ _ _ _ _ hopen hclose with
    ⟨err, hparse, hnot⟩ | ⟨inside, henvelope, hparse⟩
  · refine parse_exact_of_error hparse fun before' inside after henvelope => hnot ?_
    refine ⟨henvelope.opens, henvelope.closes, ?_⟩
    -- the tags of an envelope are the first ones
    obtain ⟨rfl, -⟩ := hopen.unique henvelope.firstOpen
    obtain ⟨rfl, -⟩ := hclose.unique henvelope.firstClose
    simp [openTag_eq]
  · rw [hparse]
    refine ⟨⟨_, rfl⟩, fun fields => ?_⟩
    rw [Option.some.injEq, parseEnvelopePayload_eq_ok]
    constructor
    · exact fun hobject => ⟨before, inside, afterClose, henvelope, hobject⟩
    · rintro ⟨before', inside', after', henvelope', hobject⟩
      obtain ⟨rfl, -⟩ := henvelope.firstOpen.unique henvelope'.firstOpen
      obtain ⟨hsame, -⟩ := henvelope.firstClose.unique henvelope'.firstClose
      rwa [List.append_cancel_left hsame]

end Direclaw.Orchestration
