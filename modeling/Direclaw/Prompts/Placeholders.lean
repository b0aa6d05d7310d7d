import Direclaw.Lib.Delimited
import Direclaw.Lib.Fallible
import Direclaw.Lib.Trimming

/-!
# Placeholders of prompt templates

`prompts/mod.rs`: the scan that renders a template, and the check of the placeholders of a
template, which is the same scan with a resolver that only looks at the token. A scan goes
through the template and never through a value.
-/

namespace Direclaw.Prompts

open Direclaw.Lib Direclaw.Lib.Text

/-! ## Rendering -/

def openMark : List Char := ['\x7b', '\x7b']
def closeMark : List Char := ['\x7d', '\x7d']

def unclosedPlaceholder : String := "unclosed placeholder in template"
def emptyPlaceholder : String := "empty placeholder in template"

section Render

variable (resolve : List Char → Except String (List Char))

/-- The loop over the template; the cursor gets shorter, so its length is fuel enough. -/
def renderFrom : ℕ → List Char → List Char → Except String (List Char)
  | 0, rendered, cursor => .ok (rendered ++ cursor)
  | fuel + 1, rendered, cursor =>
    match splitOnceStr openMark cursor with
    | none => .ok (rendered ++ cursor)
    | some (before, afterOpen) =>
      match splitOnceStr closeMark afterOpen with
      | none => .error unclosedPlaceholder
      | some (inside, rest) =>
        if (trim inside).isEmpty then .error emptyPlaceholder
        else
          match resolve (trim inside) with
          | .error err => .error err
          | .ok value => renderFrom fuel (rendered ++ before ++ value) rest

def renderTemplateWithPlaceholders (template : List Char) : Except String (List Char) :=
  renderFrom resolve (template.length + 1) [] template

end Render

/-! ## The check -/

def hasNonEmptyPathSegments (raw : List Char) : Bool :=
  !((raw.splitOn '.').filter fun segment => !(trim segment).isEmpty).isEmpty

/-- The tokens without a path. -/
def workflowTokens : List String :=
  ["workflow.run_id", "workflow.step_id", "workflow.attempt", "workflow.run_workspace",
    "workflow.output_schema_json", "workflow.output_paths_json", "workflow.runtime_context_json",
    "workflow.memory_context_bulletin", "workflow.memory_context_citations",
    "workflow.memory_context_json", "workflow.channel", "workflow.channel_profile_id",
    "workflow.conversation_id", "workflow.sender_id", "workflow.selector_id"]

def isSupportedStepPlaceholder (token : List Char) : Bool :=
  match stripPrefix "inputs.".toList token with
  | some path =>
    if path = "memory_bulletin".toList ∨ path = "memory_bulletin_citations".toList then false
    else hasNonEmptyPathSegments path
  | none =>
    match stripPrefix "state.".toList token with
    | some path => hasNonEmptyPathSegments path
    | none =>
      match stripPrefix "steps.".toList token with
      | some path =>
        match path.splitOn '.' with
        | stepId :: outputs :: segment :: segments =>
          outputs = "outputs".toList && !(trim stepId).isEmpty &&
            (segment :: segments).all fun segment => !(trim segment).isEmpty
        | _ => false
      | none =>
        if String.ofList token ∈ workflowTokens then true
        else
          match stripPrefix "workflow.output_paths.".toList token with
          | some key => !(trim key).isEmpty
          | none => false

def isSupportedSelectorPlaceholder (token : List Char) : Bool :=
  String.ofList token ∈ ["selector.request_json", "selector.result_path",
    "selector.orchestrator_id", "selector.agent_id", "selector.attempt"]

def marked (token : List Char) : String :=
  "`" ++ String.ofList (openMark ++ token ++ closeMark) ++ "`"

def checkToken (kind : String) (token : List Char) : Except String (List Char) :=
  let supported :=
    if kind = "selector" then isSupportedSelectorPlaceholder token
    else isSupportedStepPlaceholder token
  if supported then .ok [] else .error s!"unsupported {kind} placeholder {marked token}"

def validateTemplatePlaceholders (template : List Char) (kind : String) : Except String Unit := do
  let _ ← renderTemplateWithPlaceholders (checkToken kind) template
  return ()

/-! ## What a scan renders -/

/-- One part of the template: the text before the placeholder, and its value. -/
def renderPart (resolve : List Char → Except String (List Char)) (rendered : List Char)
    (part : List Char × List Char) : Except String (List Char) :=
  if (trim part.2).isEmpty then .error emptyPlaceholder
  else (resolve (trim part.2)).map fun value => rendered ++ part.1 ++ value

/-- What is behind the last placeholder, where an opening is one too many. -/
def renderTail (tail rendered : List Char) : Except String (List Char) :=
  if (splitOnceStr openMark tail).isSome then .error unclosedPlaceholder
  else .ok (rendered ++ tail)

section Spec

variable {resolve : List Char → Except String (List Char)} {s tail out : List Char}
variable {parts : List (List Char × List Char)}

/-- The loop makes one part after the other of what the scan of the template finds. -/
theorem renderFrom_delimited (h : Delimited openMark closeMark s parts tail) :
    ∀ fuel rendered, s.length < fuel → renderFrom resolve fuel rendered s =
      parts.foldlM (renderPart resolve) rendered >>= renderTail tail := by
  induction h with
  | @done s hop =>
    intro fuel rendered hfuel
    cases fuel with
    | zero => cases hfuel
    | succ fuel =>
      show _ = renderTail s rendered
      rw [renderFrom, renderTail, splitOnceStr_eq_none_iff.mpr hop]
      rfl
  | @unclosed s before content hop hcl =>
    intro fuel rendered hfuel
    cases fuel with
    | zero => cases hfuel
    | succ fuel =>
      show _ = renderTail s rendered
      rw [renderFrom, renderTail, splitOnceStr_eq_some_iff.mpr hop]
      dsimp only
      rw [splitOnceStr_eq_none_iff.mpr hcl]
      rfl
  | @part s before content inside rest tail parts hop hcl hrest ih =>
    intro fuel rendered hfuel
    cases fuel with
    | zero => cases hfuel
    | succ fuel =>
      have hshorter := length_rest_lt (by decide) hop hcl
      rw [renderFrom, splitOnceStr_eq_some_iff.mpr hop, List.foldlM_cons]
      dsimp only
      rw [splitOnceStr_eq_some_iff.mpr hcl, renderPart]
      dsimp only
      split
      · rfl
      · cases resolve (trim inside) with
        | error err => rfl
        | ok value => exact ih fuel _ (by omega)

theorem render_delimited (h : Delimited openMark closeMark s parts tail) :
    renderTemplateWithPlaceholders resolve s =
      parts.foldlM (renderPart resolve) [] >>= renderTail tail :=
  renderFrom_delimited h _ [] (Nat.lt_succ_self _)

/-- A part with the value that its placeholder stands for. -/
structure Fills (resolve : List Char → Except String (List Char))
    (part : List Char × List Char) (value : List Char) : Prop where
  token : trim part.2 ≠ []
  value : resolve (trim part.2) = .ok value

/-- The literal segments with the values between them. -/
def filled (parts : List (List Char × List Char)) (values : List (List Char)) : List Char :=
  (List.zipWith (fun part value => part.1 ++ value) parts values).flatten

variable {rendered : List Char}

theorem renderPart_ok_iff {part : List Char × List Char} :
    renderPart resolve rendered part = .ok out ↔
      ∃ value, Fills resolve part value ∧ out = rendered ++ part.1 ++ value := by
  unfold renderPart
  split
  · next hempty =>
      refine iff_of_false nofun ?_
      rintro ⟨value, hfills, -⟩
      exact hfills.token (List.isEmpty_iff.mp hempty)
  · next htoken =>
      rw [List.isEmpty_iff] at htoken
      constructor
      · intro h
        obtain ⟨value, hvalue, rfl⟩ := map_eq_ok h
        exact ⟨value, ⟨htoken, hvalue⟩, rfl⟩
      · rintro ⟨value, hfills, rfl⟩
        rw [hfills.value]
        rfl

theorem foldlM_renderPart_ok_iff :
    parts.foldlM (renderPart resolve) rendered = .ok out ↔
      ∃ values, List.Forall₂ (Fills resolve) parts values ∧ out = rendered ++ filled parts values := by
  induction parts generalizing rendered with
  | nil =>
    constructor
    · intro h
      cases h
      exact ⟨[], .nil, by simp [filled]⟩
    · rintro ⟨values, hvalues, rfl⟩
      cases hvalues
      simp [filled]
      rfl
  | cons part parts ih =>
    rw [List.foldlM_cons, bind_ok_iff]
    constructor
    · rintro ⟨next, hnext, hrest⟩
      obtain ⟨value, hfills, rfl⟩ := renderPart_ok_iff.mp hnext
      obtain ⟨values, hvalues, rfl⟩ := ih.mp hrest
      exact ⟨value :: values, .cons hfills hvalues, by simp [filled]⟩
    · rintro ⟨values, hvalues, rfl⟩
      cases hvalues with
      | @cons _ value _ values hfills hvalues =>
        refine ⟨_, renderPart_ok_iff.mpr ⟨value, hfills, rfl⟩, ih.mpr ⟨values, hvalues, ?_⟩⟩
        simp [filled]

theorem renderTail_ok_iff :
    renderTail tail rendered = .ok out ↔ ¬ openMark <:+: tail ∧ out = rendered ++ tail := by
  unfold renderTail
  rw [← splitOnceStr_eq_none_iff]
  cases splitOnceStr openMark tail with
  | none => exact ⟨fun h => ⟨rfl, by cases h; rfl⟩, fun h => by rw [h.2]; rfl⟩
  | some found => exact iff_of_false nofun fun h => nomatch h.1

/-- A template renders to its literal segments with the values of its placeholders between
them, each resolved from its token alone. -/
theorem render_ok_iff {template : List Char} :
    renderTemplateWithPlaceholders resolve template = .ok out ↔
      ∃ parts tail values, Delimited openMark closeMark template parts tail ∧
        ¬ openMark <:+: tail ∧ List.Forall₂ (Fills resolve) parts values ∧
          out = filled parts values ++ tail := by
  obtain ⟨parts, tail, hscan⟩ := @exists_delimited openMark closeMark (by decide) template
  rw [render_delimited hscan, bind_ok_iff]
  constructor
  · rintro ⟨rendered, hparts, htail⟩
    obtain ⟨values, hvalues, rfl⟩ := foldlM_renderPart_ok_iff.mp hparts
    obtain ⟨hclosed, rfl⟩ := renderTail_ok_iff.mp htail
    exact ⟨parts, tail, values, hscan, hclosed, hvalues, by rw [List.nil_append]⟩
  · rintro ⟨parts', tail', values, hscan', hclosed, hvalues, rfl⟩
    obtain ⟨rfl, rfl⟩ := hscan.unique hscan'
    exact ⟨_, foldlM_renderPart_ok_iff.mpr ⟨values, hvalues, rfl⟩,
      renderTail_ok_iff.mpr ⟨hclosed, by rw [List.nil_append]⟩⟩

theorem exists_fills_of_mem {values : List (List Char)}
    (h : List.Forall₂ (Fills resolve) parts values) :
    ∀ part ∈ parts, ∃ value, Fills resolve part value := by
  induction h with
  | nil => exact List.forall_mem_nil _
  | cons hfills _ ih => exact List.forall_mem_cons.mpr ⟨⟨_, hfills⟩, ih⟩

/-- Where every part has a token, only a resolver can fail. -/
theorem exists_part_of_foldlM_error {err : String} (htokens : ∀ part ∈ parts, trim part.2 ≠ [])
    (h : parts.foldlM (renderPart resolve) rendered = .error err) :
    ∃ part ∈ parts, resolve (trim part.2) = .error err := by
  induction parts generalizing rendered with
  | nil => cases h
  | cons part parts ih =>
    rw [List.foldlM_cons] at h
    cases hnext : renderPart resolve rendered part with
    | ok next =>
      rw [hnext] at h
      obtain ⟨other, hother, herr⟩ :=
        ih (fun other hother => htokens other (List.mem_cons_of_mem _ hother)) h
      exact ⟨other, List.mem_cons_of_mem _ hother, herr⟩
    | error held =>
      rw [hnext] at h
      cases h
      refine ⟨part, List.mem_cons_self, ?_⟩
      have htoken : ¬ (trim part.2).isEmpty = true := fun hempty =>
        htokens part List.mem_cons_self (List.isEmpty_iff.mp hempty)
      rw [renderPart, if_neg htoken] at hnext
      cases hvalue : resolve (trim part.2) with
      | error held =>
        rw [hvalue] at hnext
        cases hnext
        rfl
      | ok value =>
        rw [hvalue] at hnext
        cases hnext

/-- What one resolver has rendered, another fails on at a token only, which the first one
has resolved. -/
theorem render_error_of_render_ok {other : List Char → Except String (List Char)}
    {template : List Char} {err : String}
    (hother : renderTemplateWithPlaceholders other template = .ok out)
    (h : renderTemplateWithPlaceholders resolve template = .error err) :
    ∃ token value, other token = .ok value ∧ resolve token = .error err := by
  obtain ⟨parts, tail, values, hscan, hclosed, hvalues, -⟩ := render_ok_iff.mp hother
  have htokens := exists_fills_of_mem hvalues
  rw [render_delimited hscan] at h
  cases hparts : parts.foldlM (renderPart resolve) [] with
  | ok rendered =>
    rw [hparts] at h
    have hok : renderTail tail rendered = .ok (rendered ++ tail) :=
      renderTail_ok_iff.mpr ⟨hclosed, rfl⟩
    exact nomatch hok.symm.trans h
  | error held =>
    rw [hparts] at h
    cases h
    obtain ⟨part, hpart, herr⟩ := exists_part_of_foldlM_error
      (fun part hpart => (htokens part hpart).elim fun _ hfills => hfills.token) hparts
    obtain ⟨value, hfills⟩ := htokens part hpart
    exact ⟨trim part.2, value, hfills.value, herr⟩

end Spec

end Direclaw.Prompts
