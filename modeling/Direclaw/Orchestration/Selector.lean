import Direclaw.Lib.Fallible
import Direclaw.Orchestration.Routing
import Mathlib.Algebra.Group.Int.Defs

/-!
# Selector results

`parse_and_validate_selector_result` of `orchestration/selector.rs`: what the selector
writes is untrusted text, and a selected result is checked against the request.
-/

namespace Direclaw.Orchestration

open Direclaw.Lib

/-! ## Requests -/

inductive FunctionArgType : Type where
  | string
  | boolean
  | integer
  | object
deriving DecidableEq, Repr

def FunctionArgType.matchesValue : FunctionArgType → Json → Bool
  | .string, .str _ => true
  | .boolean, .bool _ => true
  -- `is_i64` or `is_u64`
  | .integer, .int n => decide (-2 ^ 63 ≤ n ∧ n < 2 ^ 64)
  | .object, .object _ => true
  | _, _ => false

def FunctionArgType.display : FunctionArgType → String
  | .string => "string"
  | .boolean => "boolean"
  | .integer => "integer"
  | .object => "object"

structure FunctionArgSchema where
  argType : FunctionArgType
  required : Bool
  description : String
deriving DecidableEq, Repr

/-- `args` is in the order of its keys. -/
structure FunctionSchema where
  functionId : String
  description : String
  args : List (String × FunctionArgSchema) := []
  readOnly : Bool
deriving DecidableEq, Repr

structure SelectorRequest where
  selectorId : String
  channelProfileId : String
  messageId : String
  conversationId : Option String := none
  userMessage : String
  threadContext : Option String := none
  memoryBulletin : Option String := none
  memoryBulletinCitations : List String := []
  availableWorkflows : List String
  defaultWorkflow : String
  availableFunctions : List String := []
  availableFunctionSchemas : List FunctionSchema := []
deriving DecidableEq, Repr

/-! ## The JSON form of a result -/

def SelectorStatus.name : SelectorStatus → String
  | .selected => "selected"
  | .failed => "failed"

def SelectorStatus.decode (value : Json) : Option SelectorStatus :=
  match value.unitVariant with
  | some "selected" => some .selected
  | some "failed" => some .failed
  | _ => none

def SelectorAction.name : SelectorAction → String
  | .workflowStart => "workflow_start"
  | .workflowStatus => "workflow_status"
  | .commandInvoke => "command_invoke"
  | .noResponse => "no_response"

def SelectorAction.decode (value : Json) : Option SelectorAction :=
  match value.unitVariant with
  | some "workflow_start" => some .workflowStart
  | some "workflow_status" => some .workflowStatus
  | some "command_invoke" => some .commandInvoke
  | some "no_response" => some .noResponse
  | _ => none

@[simp] theorem SelectorStatus.decode_name (status : SelectorStatus) :
    SelectorStatus.decode (.str status.name) = some status := by
  cases status <;> rfl

@[simp] theorem SelectorAction.decode_name (action : SelectorAction) :
    SelectorAction.decode (.str action.name) = some action := by
  cases action <;> rfl

namespace SelectorResult

def fieldNames : List String :=
  ["selectorId", "status", "action", "selectedWorkflow", "functionId", "functionArgs", "reason"]

def decodeAction : Option Json → Option (Option SelectorAction)
  | none | some .null => some none
  | some value => (SelectorAction.decode value).map some

def decode (value : Json) : Option SelectorResult := do
  let fields ← value.structFields fieldNames
  let get := Json.field fields
  return {
    selectorId := ← Json.requiredStr (get "selectorId")
    status := ← (get "status").bind SelectorStatus.decode
    action := ← decodeAction (get "action")
    selectedWorkflow := ← Json.optionalStr (get "selectedWorkflow")
    functionId := ← Json.optionalStr (get "functionId")
    functionArgs := ← Json.optionalMap (get "functionArgs")
    reason := ← Json.optionalStr (get "reason") }

theorem decode_object {fields : List (String × Json)} {result : SelectorResult}
    (h : decode (.object fields) = some result) :
    (Json.field fields "status").bind SelectorStatus.decode = some result.status ∧
      decodeAction (Json.field fields "action") = some result.action := by
  unfold decode at h
  obtain ⟨read, hread, h⟩ := Option.bind_eq_some_iff.mp h
  obtain rfl := Json.structFields_object hread
  obtain ⟨_, _, h⟩ := Option.bind_eq_some_iff.mp h
  obtain ⟨status, hstatus, h⟩ := Option.bind_eq_some_iff.mp h
  obtain ⟨action, haction, h⟩ := Option.bind_eq_some_iff.mp h
  obtain ⟨_, _, h⟩ := Option.bind_eq_some_iff.mp h
  obtain ⟨_, _, h⟩ := Option.bind_eq_some_iff.mp h
  obtain ⟨_, _, h⟩ := Option.bind_eq_some_iff.mp h
  obtain ⟨_, _, h⟩ := Option.bind_eq_some_iff.mp h
  cases h
  exact ⟨hstatus, haction⟩

/-- The members that `to_string` writes. -/
def members (result : SelectorResult) : List (String × Json) :=
  [("selectorId", .str result.selectorId), ("status", .str result.status.name),
    ("action", (result.action.map fun action => Json.str action.name).getD .null),
    ("selectedWorkflow", Json.ofOptionalStr result.selectedWorkflow),
    ("functionId", Json.ofOptionalStr result.functionId),
    ("functionArgs", (result.functionArgs.map Json.object).getD .null),
    ("reason", Json.ofOptionalStr result.reason)]

theorem members_nodup (result : SelectorResult) : (result.members.map Prod.fst).Nodup := by
  simp only [members, List.map_cons, List.map_nil]
  decide

end SelectorResult

/-! ## Slash commands -/

def isCommandIdentifierChar (c : Char) : Bool := c.isAlphanum || c == '.' || c == '_' || c == '-'

def hasExplicitSlashCommand (userMessage functionId : String) : Bool :=
  let message := Text.toAsciiLowercase userMessage.toList
  let needle := '/' :: Text.toAsciiLowercase functionId.toList
  (Text.matchesFrom needle [] 0 message).any fun (before, after) =>
    (before.head?.map fun c => !isCommandIdentifierChar c).getD true &&
      (after.head?.map fun c => !isCommandIdentifierChar c).getD true

/-- The message has the command in it, in whatever case, between characters that are not
part of an identifier. -/
def ExplicitSlashCommand (userMessage functionId : String) : Prop :=
  ∃ before after : List Char,
    Text.toAsciiLowercase userMessage.toList =
      before ++ '/' :: Text.toAsciiLowercase functionId.toList ++ after ∧
    (∀ c, before.getLast? = some c → isCommandIdentifierChar c = false) ∧
    ∀ c, after.head? = some c → isCommandIdentifierChar c = false

theorem explicitSlashCommand_of_has {userMessage functionId : String}
    (h : hasExplicitSlashCommand userMessage functionId = true) :
    ExplicitSlashCommand userMessage functionId := by
  obtain ⟨⟨before, after⟩, hmatch, hbounds⟩ := List.any_eq_true.mp h
  obtain ⟨hbefore, hafter⟩ := Bool.and_eq_true_iff.mp hbounds
  refine ⟨before.reverse, after, Text.matchesFrom_spec hmatch, ?_, ?_⟩
  · intro c hc
    rw [List.getLast?_reverse] at hc
    simpa [hc] using hbefore
  · intro c hc
    simpa [hc] using hafter

/-! ## Arguments -/

section Args

variable {ε : Type}

/-- The declared arguments, in order. -/
def checkDeclaredArgs (wrongType : String → FunctionArgType → ε) (missing : String → ε)
    (args : List (String × Json)) : List (String × FunctionArgSchema) → Except ε Unit
  | [] => .ok ()
  | (arg, schema) :: rest =>
    match Json.get args arg with
    | some value =>
      if schema.argType.matchesValue value then checkDeclaredArgs wrongType missing args rest
      else .error (wrongType arg schema.argType)
    | none =>
      if schema.required then .error (missing arg)
      else checkDeclaredArgs wrongType missing args rest

/-- The check of the selector and that of the registry, which differ in what they say. -/
def checkArgs (unknown : String → ε) (wrongType : String → FunctionArgType → ε)
    (missing : String → ε) (schema : FunctionSchema) (args : List (String × Json)) :
    Except ε Unit :=
  match (Json.mapKeys args).find? fun key => (schema.args.lookup key).isNone with
  | some key => .error (unknown key)
  | none => checkDeclaredArgs wrongType missing args schema.args

/-- Every key is declared, and every declared argument has its type or may be left out. -/
structure ArgsMatch (schema : FunctionSchema) (args : List (String × Json)) : Prop where
  known : ∀ key ∈ args.map Prod.fst, (schema.args.lookup key).isSome
  typed : ∀ entry ∈ schema.args, ∀ value, Json.get args entry.1 = some value →
    entry.2.argType.matchesValue value = true
  required : ∀ entry ∈ schema.args, entry.2.required = true → (Json.get args entry.1).isSome

theorem checkDeclaredArgs_ok {wrongType : String → FunctionArgType → ε} {missing : String → ε}
    {args : List (String × Json)} {declared : List (String × FunctionArgSchema)}
    (h : checkDeclaredArgs wrongType missing args declared = .ok ()) :
    ∀ entry ∈ declared,
      (∀ value, Json.get args entry.1 = some value → entry.2.argType.matchesValue value = true) ∧
        (entry.2.required = true → (Json.get args entry.1).isSome) := by
  induction declared with
  | nil =>
    intro entry hentry
    cases hentry
  | cons head rest ih =>
    obtain ⟨arg, schema⟩ := head
    unfold checkDeclaredArgs at h
    split at h
    · next value hvalue =>
        split at h
        · next htype =>
            intro entry hentry
            rcases List.mem_cons.mp hentry with rfl | hrest
            · refine ⟨fun other hother => ?_, fun _ => by rw [hvalue]; rfl⟩
              cases hvalue.symm.trans hother
              exact htype
            · exact ih h entry hrest
        · cases h
    · next hnone =>
        split at h
        · cases h
        · next hoptional =>
            intro entry hentry
            rcases List.mem_cons.mp hentry with rfl | hrest
            · refine ⟨fun other hother => ?_, fun hrequired => absurd hrequired hoptional⟩
              cases hnone.symm.trans hother
            · exact ih h entry hrest

theorem argsMatch_of_check {unknown : String → ε} {wrongType : String → FunctionArgType → ε}
    {missing : String → ε} {schema : FunctionSchema} {args : List (String × Json)}
    (h : checkArgs unknown wrongType missing schema args = .ok ()) : ArgsMatch schema args := by
  unfold checkArgs at h
  split at h
  · cases h
  · next hknown =>
      have hdeclared := checkDeclaredArgs_ok h
      refine ⟨?_, fun entry hentry => (hdeclared entry hentry).1,
        fun entry hentry => (hdeclared entry hentry).2⟩
      intro key hkey
      have := List.find?_eq_none.mp hknown key (Json.mem_mapKeys.mpr hkey)
      simpa [Option.isSome_iff_ne_none] using this

end Args

/-! ## Validation -/

section Validation

variable (request : SelectorRequest)

def SelectorRequest.schemaOf (functionId : String) : Option FunctionSchema :=
  request.availableFunctionSchemas.find? (·.functionId == functionId)

def validateWorkflowStart (result : SelectorResult) : Except OrchestratorError Unit :=
  match result.selectedWorkflow with
  | none => .error (.selectorValidation "workflow_start requires selectedWorkflow")
  | some selected =>
    if request.availableWorkflows.contains selected then .ok ()
    else .error (.selectorValidation s!"workflow `{selected}` is not in availableWorkflows")

def validateCommandArgs (functionId : String) (schema : FunctionSchema)
    (args : List (String × Json)) : Except OrchestratorError Unit :=
  checkArgs
    (fun key => .selectorValidation
      s!"command_invoke has unknown argument `{key}` for function `{functionId}`")
    (fun arg argType => .selectorValidation
      (s!"command_invoke argument `{arg}` for function `{functionId}` must be " ++ argType.display))
    (fun arg => .selectorValidation
      s!"command_invoke missing required argument `{arg}` for function `{functionId}`")
    schema args

def validateCommandInvoke (result : SelectorResult) : Except OrchestratorError Unit :=
  match result.functionId with
  | none => .error (.selectorValidation "command_invoke requires functionId")
  | some functionId =>
    if !hasExplicitSlashCommand request.userMessage functionId then
      .error (.selectorValidation
        s!"command_invoke requires explicit slash command `/{functionId}` in user_message")
    else if !request.availableFunctions.contains functionId then
      .error (.selectorValidation s!"function `{functionId}` is not in availableFunctions")
    else
      match result.functionArgs with
      | none => .error (.selectorValidation "command_invoke requires functionArgs object")
      | some args =>
        match request.schemaOf functionId with
        | some schema => validateCommandArgs functionId schema args
        | none => .ok ()

def validateSelected (result : SelectorResult) : Except OrchestratorError Unit :=
  match result.action with
  | none => .error (.selectorValidation "selected result requires action")
  | some .workflowStart => validateWorkflowStart request result
  | some .workflowStatus => .ok ()
  | some .commandInvoke => validateCommandInvoke request result
  | some .noResponse => .ok ()

/-- The id is checked for every result, the rest for a selected one only. -/
def validateSelectorResult (result : SelectorResult) : Except OrchestratorError SelectorResult :=
  if result.selectorId ≠ request.selectorId then .error (.selectorValidation "selectorId mismatch")
  else
    match result.status with
    | .failed => .ok result
    | .selected => do
        validateSelected request result
        return result

def parseAndValidateSelectorResult (text : JsonText) (rawJson : String) :
    Except OrchestratorError SelectorResult :=
  match (text.fromStr rawJson).bind SelectorResult.decode with
  | none => .error (.selectorJson (text.complaint rawJson))
  | some result => validateSelectorResult request result

/-! ### What a validated result has passed -/

/-- What a request grants a command. -/
structure CommandGranted (functionId : String) (args : List (String × Json)) : Prop where
  explicit : ExplicitSlashCommand request.userMessage functionId
  available : functionId ∈ request.availableFunctions
  declared : ∀ schema, request.schemaOf functionId = some schema → ArgsMatch schema args

variable {request}

theorem validateCommandInvoke_ok {result : SelectorResult}
    (h : validateCommandInvoke request result = .ok ()) :
    ∃ functionId args, result.functionId = some functionId ∧ result.functionArgs = some args ∧
      CommandGranted request functionId args := by
  unfold validateCommandInvoke at h
  split at h
  · cases h
  next functionId hid =>
    split at h
    · cases h
    next hslash =>
      split at h
      · cases h
      next havailable =>
        split at h
        · cases h
        next args hargs =>
          refine ⟨functionId, args, hid, hargs, ?_, ?_, ?_⟩
          · exact explicitSlashCommand_of_has (by simpa using hslash)
          · simpa using havailable
          · intro schema hschema
            rw [hschema] at h
            exact argsMatch_of_check h

theorem parse_spec {text : JsonText} {rawJson : String} {validated : SelectorResult}
    (h : parseAndValidateSelectorResult request text rawJson = .ok validated) :
    (text.fromStr rawJson).bind SelectorResult.decode = some validated ∧
      (validated.status = .selected → validateSelected request validated = .ok ()) := by
  unfold parseAndValidateSelectorResult at h
  split at h
  · cases h
  next result hdecode =>
    unfold validateSelectorResult at h
    split at h
    · cases h
    split at h
    · next hfailed =>
        cases h
        exact ⟨hdecode, fun hselected => by rw [hfailed] at hselected; cases hselected⟩
    · obtain ⟨_, hvalid, h⟩ := bind_eq_ok h
      cases h
      exact ⟨hdecode, fun _ => hvalid⟩

theorem validateSelected_action {result : SelectorResult}
    (h : validateSelected request result = .ok ()) : ∃ action, result.action = some action := by
  cases haction : result.action with
  | none => simp [validateSelected, haction] at h
  | some action => exact ⟨action, rfl⟩

end Validation

end Direclaw.Orchestration
