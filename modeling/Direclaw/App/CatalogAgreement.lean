import Direclaw.App.CommandDispatch
import Direclaw.Automation.JobPatches
import Direclaw.Automation.ScheduledScope

/-!
# The catalog and the planner

`app/command_catalog.rs` says which functions there are, `function_registry.rs` checks their
arguments, `app/command_dispatch.rs` plans them and `run_cli_native` takes the commands. For
each function the four are compared: a planner fits a function when it asks for what is
declared, and a planner that fits agrees on every accepted map of arguments.
-/

namespace Direclaw.App

open Direclaw.Lib Direclaw.Orchestration Direclaw.Automation

/-! ## Agreement -/

def unknownFunctionReason (functionId : String) : String := s!"unknown function id `{functionId}`"

def missingArgReason (arg : String) : String := s!"missing required function argument `{arg}`"

def illTypedArgReason (arg type : String) : String := s!"argument `{arg}` must be {type}"

/-- The call is rejected as unknown, or for a declared argument that is missing or has another
type. -/
def RejectsCall (fn : FunctionDef) (reason : String) : Prop :=
  reason = unknownFunctionReason fn.functionId ∨
    ∃ arg ∈ fn.args, reason = missingArgReason arg.name ∨
      ∃ type ∈ ["a string", "a boolean", "an integer", "an object"],
        reason = illTypedArgReason arg.name type

instance (fn : FunctionDef) (reason : String) : Decidable (RejectsCall fn reason) :=
  inferInstanceAs (Decidable (_ ∨ _))

/-- A value is among the words of a command; an object is there input by input. -/
def CarriesText (text : JsonText) (words : List String) : Json → Prop
  | .str s => s ∈ words
  | .bool b => toString b ∈ words
  | .int n => toString n ∈ words
  | .object fields => ∀ key value, Json.get fields key = some value →
      s!"{key}={encodedInput text value}" ∈ words
  | _ => False

/-- The texts of an internal function, under the names of their arguments. -/
def InternalFunction.texts : InternalFunction → List (String × String)
  | .workflowList orchestratorId => [("orchestratorId", orchestratorId)]
  | .workflowShow orchestratorId workflowId =>
    [("orchestratorId", orchestratorId), ("workflowId", workflowId)]
  | .workflowStatus runId | .workflowProgress runId | .workflowCancel runId => [("runId", runId)]
  | .orchestratorList | .channelProfileList => []
  | .orchestratorShow orchestratorId => [("orchestratorId", orchestratorId)]
  | .channelProfileShow channelProfileId => [("channelProfileId", channelProfileId)]
  | .schedule (.scheduleList orchestratorId) => [("orchestratorId", orchestratorId)]
  | .schedule (.scheduleCreate input) => [("orchestratorId", input.orchestratorId)]
  | .schedule (.scheduleShow jobId) | .schedule (.scheduleUpdate jobId _)
  | .schedule (.schedulePause jobId) | .schedule (.scheduleResume jobId)
  | .schedule (.scheduleDelete jobId) | .schedule (.scheduleRunNow jobId) => [("jobId", jobId)]

/-- The word that `scheduleType` has for a schedule. -/
def typeName : ScheduleConfig → String
  | .once _ => "once"
  | .interval _ _ => "interval"
  | .cron _ _ => "cron"

/-- The other arguments of `schedule.create`, in the job that is planned. -/
inductive JobCarries (input : NewJob) : String → Json → Prop where
  | scheduleType : JobCarries input "scheduleType" (.str (typeName input.schedule))
  | schedule {fields : List (String × Json)}
      (h : parseScheduleConfig (typeName input.schedule) fields = .ok input.schedule) :
      JobCarries input "schedule" (.object fields)
  | targetAction {fields : List (String × Json)}
      (h : parseTargetActionConfig fields = .ok input.targetAction) :
      JobCarries input "targetAction" (.object fields)
  | targetRef {value : Json} (h : input.targetRef = some value) : JobCarries input "targetRef" value
  | misfirePolicy {raw : String} (h : parseMisfirePolicyArg (some raw) = .ok input.misfirePolicy) :
      JobCarries input "misfirePolicy" (.str raw)
  | allowOverlap : JobCarries input "allowOverlap" (.bool input.allowOverlap)
  | createdBy : JobCarries input "createdBy" (.object input.createdBy)

/-- An argument is in an internal function: as its text, or as what was read of it. -/
inductive InternalFunction.Carries : InternalFunction → String → Json → Prop where
  | text {function : InternalFunction} {name value : String} (h : (name, value) ∈ function.texts) :
      Carries function name (.str value)
  | create {input : NewJob} {name : String} {value : Json} (h : JobCarries input name value) :
      Carries (.schedule (.scheduleCreate input)) name value
  | patch {jobId : String} {patch : JobPatch} {fields : List (String × Json)}
      (h : parseJobPatch fields = .ok patch) :
      Carries (.schedule (.scheduleUpdate jobId patch)) "patch" (.object fields)

def FunctionExecutionPlan.Carries (text : JsonText) (name : String) (value : Json) :
    FunctionExecutionPlan → Prop
  | .cliArgs words => CarriesText text words value
  | .internal function => function.Carries name value

/-- The catalog and the planner agree on a call. -/
structure Agrees (text : JsonText) (fn : FunctionDef) (args : List (String × Json)) : Prop where
  known : ∀ reason, planFunctionInvocation text fn.functionId args = .error reason →
    ¬ RejectsCall fn reason
  declaredOnly : ∀ args', (∀ arg ∈ fn.args, Json.get args' arg.name = Json.get args arg.name) →
    planFunctionInvocation text fn.functionId args' =
      planFunctionInvocation text fn.functionId args
  contains : ∀ plan, planFunctionInvocation text fn.functionId args = .ok plan →
    ∀ name value, Json.get args name = some value → plan.Carries text name value
  dispatched : ∀ words, planFunctionInvocation text fn.functionId args = .ok (.cliArgs words) →
    ∃ command ∈ nativeCommands, words.head? = some command

/-! ## Accepted arguments -/

def NonBlankStrings (args : List (String × Json)) : Prop :=
  ∀ name value, Json.get args name = some (.str value) → Text.isBlank value.toList = false

/-- What the check of the registry leaves of the arguments of a function. -/
structure Accepted (fn : FunctionDef) (args : List (String × Json)) : Prop where
  declared : ∀ name value, Json.get args name = some value → ∃ arg ∈ fn.args, arg.name = name
  typed : ∀ arg ∈ fn.args, ∀ value, Json.get args arg.name = some value →
    arg.argType.matchesValue value = true
  required : ∀ arg ∈ fn.args, arg.required = true → (Json.get args arg.name).isSome
  nonBlank : NonBlankStrings args

/-- The entries of a function's schema are its arguments, when these have names of their own. -/
theorem mem_schema_args {fn : FunctionDef} (hnames : (fn.args.map (·.name)).Nodup)
    {entry : String × FunctionArgSchema} :
    entry ∈ fn.schema.args ↔ ∃ arg ∈ fn.args, (arg.name, arg.schema) = entry :=
  OrderedMap.mem_ofEntries_map_iff hnames

theorem accepted_of_argsMatch {fn : FunctionDef} {args : List (String × Json)}
    (hnames : (fn.args.map (·.name)).Nodup) (hmatch : ArgsMatch fn.schema args)
    (hnonBlank : NonBlankStrings args) : Accepted fn args := by
  have hentry {arg : FunctionArgDef} (harg : arg ∈ fn.args) :
      (arg.name, arg.schema) ∈ fn.schema.args := (mem_schema_args hnames).mpr ⟨arg, harg, rfl⟩
  refine ⟨fun name value hvalue => ?_, fun arg harg => hmatch.typed _ (hentry harg),
    fun arg harg => hmatch.required _ (hentry harg), hnonBlank⟩
  have hname : name ∈ args.map Prod.fst :=
    List.mem_map.mpr ⟨_, List.mem_reverse.mp (OrderedMap.mem_of_lookup hvalue), rfl⟩
  obtain ⟨schema, hschema⟩ := Option.isSome_iff_exists.mp (hmatch.known name hname)
  obtain ⟨arg, harg, heq⟩ := (mem_schema_args hnames).mp (OrderedMap.mem_of_lookup hschema)
  exact ⟨arg, harg, (Prod.mk.inj heq).1⟩

/-! ## Planners that fit -/

def FunctionDef.declares (fn : FunctionDef) (name : String) (argType : FunctionArgType)
    (required : Bool) : Bool :=
  fn.args.any fun arg => arg.name == name && arg.argType == argType && (arg.required || !required)

theorem exists_of_declares {fn : FunctionDef} {name : String} {argType : FunctionArgType}
    {required : Bool} (h : fn.declares name argType required = true) :
    ∃ arg ∈ fn.args, arg.name = name ∧ arg.argType = argType ∧
      (required = true → arg.required = true) := by
  obtain ⟨arg, harg, h⟩ := List.any_eq_true.mp h
  simp only [Bool.and_eq_true, beq_iff_eq, Bool.or_eq_true, Bool.not_eq_true'] at h
  obtain ⟨⟨hname, htype⟩, hrequired⟩ := h
  exact ⟨arg, harg, hname, htype, fun heq => hrequired.resolve_right (by simp [heq])⟩

def Piece.declared (fn : FunctionDef) : Piece → Bool
  | .string name => fn.declares name .string true
  | .optionalString _ name => fn.declares name .string false
  | .optionalBool _ name => fn.declares name .boolean false
  | .u32 name => fn.declares name .integer true
  | .inputs name => fn.declares name .object false

/-- What may be wrong with a value of the declared type. -/
def Piece.reasons : Piece → List String
  | .u32 name => [s!"argument `{name}` is too large", s!"argument `{name}` must be >= 0"]
  | _ => []

/-- The arguments that a planner asks for. -/
def Planner.names : Planner → List String
  | .cli _ pieces => pieces.map Piece.name
  | .constant _ => []
  | .one name _ => [name]
  | .two first second _ => [first, second]
  | .scheduleCreate =>
    ["orchestratorId", "scheduleType", "schedule", "targetAction", "targetRef", "misfirePolicy",
      "allowOverlap", "createdBy"]
  | .scheduleUpdate => ["jobId", "patch"]

/-- A planner asks for every argument of the function, with its type, and for what is not
declared it does not ask. -/
def Planner.fits (fn : FunctionDef) (planner : Planner) : Bool :=
  fn.args.all (fun arg => decide (arg.name ∈ planner.names)) &&
    planner.names.all (fun name => fn.args.any (·.name == name)) &&
    match planner with
    | .cli words pieces =>
      words.head?.any (fun word => decide (word ∈ nativeCommands)) &&
        pieces.all fun piece =>
          piece.declared fn && piece.reasons.all fun reason => !decide (RejectsCall fn reason)
    | .constant _ => true
    | .one name _ => fn.declares name .string true
    | .two first second _ => fn.declares first .string true && fn.declares second .string true
    | .scheduleCreate =>
      fn.declares "orchestratorId" .string true && fn.declares "scheduleType" .string true &&
        fn.declares "schedule" .object true && fn.declares "targetAction" .object true &&
        fn.declares "misfirePolicy" .string false && fn.declares "allowOverlap" .boolean false &&
        fn.declares "targetRef" .object false && fn.declares "createdBy" .object false
    | .scheduleUpdate => fn.declares "jobId" .string true && fn.declares "patch" .object true

/-- The functions of the catalog that no arm plans. -/
def unplannedFunctions : List String :=
  ["daemon.chat", "channels.slack_socket_status", "channels.slack_socket_reconnect",
    "channels.slack_backfill_run"]

theorem v1Functions_fit : ∀ fn ∈ v1Functions, (fn.args.map (·.name)).Nodup ∧
    (fn.functionId ∉ unplannedFunctions →
      (planners.lookup fn.functionId).any (Planner.fits fn) = true) := by
  decide +kernel

theorem unplanned_lookup : ∀ functionId ∈ unplannedFunctions,
    planners.lookup functionId = none := by
  decide

/-! ## Reading an argument -/

section Reading

variable {fn : FunctionDef} {args : List (String × Json)} {name : String}

theorem get_of_requiredStringArg {s : String} (h : requiredStringArg args name = .ok s) :
    Json.get args name = some (.str s) := by
  unfold requiredStringArg at h
  split at h
  · next held hget =>
      unfold stringArg at h
      split at h
      · cases h
      · rw [hget, Except.ok.inj h]
  · cases h
  · cases h

theorem get_of_optionalStringArg {found : Option String}
    (h : optionalStringArg args name = .ok found) : Json.get args name = found.map Json.str := by
  unfold optionalStringArg at h
  split at h
  · next held hget =>
      obtain ⟨s, hs, rfl⟩ := map_eq_ok h
      unfold stringArg at hs
      split at hs
      · cases hs
      · rw [hget, Except.ok.inj hs]
        rfl
  · cases h
  · next hget =>
      cases h
      exact hget

theorem get_of_optionalBoolArg {found : Option Bool} (h : optionalBoolArg args name = .ok found) :
    Json.get args name = found.map Json.bool := by
  unfold optionalBoolArg at h
  split at h
  · next held hget =>
      cases h
      exact hget
  · cases h
  · next hget =>
      cases h
      exact hget

theorem get_of_requiredU32Arg {n : ℕ} (h : requiredU32Arg args name = .ok n) :
    Json.get args name = some (.int n) := by
  unfold requiredU32Arg at h
  split at h
  · next value hget =>
      split at h
      · next m hm =>
          split at h
          · rw [← Except.ok.inj h]
            exact bind_asU64_eq_some (by rw [hget]; exact hm)
          · cases h
      · split at h
        · next m hm =>
            split at h
            · next hrange =>
                rw [← Except.ok.inj h, Int.toNat_of_nonneg hrange.1]
                exact bind_asI64_eq_some (by rw [hget]; exact hm)
            · cases h
        · cases h
  · cases h

theorem get_of_requiredObjectArg {fields : List (String × Json)}
    (h : requiredObjectArg args name = .ok fields) : Json.get args name = some (.object fields) :=
  optionalObjectArg_eq_some.mp (okOr_eq_ok_iff.mp h)

theorem Accepted.exists_required {argType : FunctionArgType} (h : Accepted fn args)
    (hdeclared : fn.declares name argType true = true) :
    ∃ value, Json.get args name = some value ∧ argType.matchesValue value = true := by
  obtain ⟨arg, harg, rfl, rfl, hrequired⟩ := exists_of_declares hdeclared
  obtain ⟨value, hvalue⟩ := Option.isSome_iff_exists.mp (h.required arg harg (hrequired rfl))
  exact ⟨value, hvalue, h.typed arg harg value hvalue⟩

variable {value : Json} {required : Bool}

theorem Accepted.typed_of_declares {argType : FunctionArgType} (h : Accepted fn args)
    (hdeclared : fn.declares name argType required = true)
    (hvalue : Json.get args name = some value) : argType.matchesValue value = true := by
  obtain ⟨arg, harg, rfl, rfl, -⟩ := exists_of_declares hdeclared
  exact h.typed arg harg value hvalue

theorem eq_str_of_matches (h : FunctionArgType.string.matchesValue value = true) :
    ∃ s, value = .str s := by
  cases value with
  | str s => exact ⟨s, rfl⟩
  | null | bool | int | float | array | object => cases h

theorem eq_bool_of_matches (h : FunctionArgType.boolean.matchesValue value = true) :
    ∃ b, value = .bool b := by
  cases value with
  | bool b => exact ⟨b, rfl⟩
  | null | str | int | float | array | object => cases h

theorem eq_object_of_matches {value : Json}
    (h : FunctionArgType.object.matchesValue value = true) : ∃ fields, value = .object fields := by
  cases value with
  | object fields => exact ⟨fields, rfl⟩
  | null | str | int | float | array | bool => cases h

theorem Accepted.requiredStringArg_ok (h : Accepted fn args)
    (hdeclared : fn.declares name .string true = true) :
    ∃ s, requiredStringArg args name = .ok s := by
  obtain ⟨value, hget, htype⟩ := h.exists_required hdeclared
  obtain ⟨s, rfl⟩ := eq_str_of_matches htype
  refine ⟨s, ?_⟩
  rw [requiredStringArg, hget]
  exact if_neg (by rw [h.nonBlank name s hget]; decide)

theorem Accepted.optionalStringArg_ok (h : Accepted fn args)
    (hdeclared : fn.declares name .string required = true) :
    ∃ found, optionalStringArg args name = .ok found := by
  cases hget : Json.get args name with
  | none => exact ⟨none, by rw [optionalStringArg, hget]⟩
  | some value =>
    obtain ⟨s, rfl⟩ := eq_str_of_matches (h.typed_of_declares hdeclared hget)
    refine ⟨some s, ?_⟩
    have hs : stringArg name s = .ok s := if_neg (by rw [h.nonBlank name s hget]; decide)
    rw [optionalStringArg, hget]
    show (stringArg name s).map some = _
    rw [hs]
    rfl

theorem Accepted.optionalBoolArg_ok (h : Accepted fn args)
    (hdeclared : fn.declares name .boolean required = true) :
    ∃ found, optionalBoolArg args name = .ok found := by
  cases hget : Json.get args name with
  | none => exact ⟨none, by rw [optionalBoolArg, hget]⟩
  | some value =>
    obtain ⟨b, rfl⟩ := eq_bool_of_matches (h.typed_of_declares hdeclared hget)
    exact ⟨some b, by rw [optionalBoolArg, hget]⟩

theorem Accepted.requiredObjectArg_ok (h : Accepted fn args)
    (hdeclared : fn.declares name .object true = true) :
    ∃ fields, requiredObjectArg args name = .ok fields := by
  obtain ⟨value, hget, htype⟩ := h.exists_required hdeclared
  obtain ⟨fields, rfl⟩ := eq_object_of_matches htype
  exact ⟨fields, okOr_eq_ok_iff.mpr (optionalObjectArg_eq_some.mpr hget)⟩

/-- An integer that is accepted may still be out of range. -/
theorem Accepted.requiredU32Arg_error {reason : String} (h : Accepted fn args)
    (hdeclared : fn.declares name .integer true = true)
    (herror : requiredU32Arg args name = .error reason) : reason ∈ (Piece.u32 name).reasons := by
  obtain ⟨value, hget, htype⟩ := h.exists_required hdeclared
  cases value with
  | int n =>
    rw [requiredU32Arg, hget] at herror
    simp only at herror
    split at herror
    · split at herror
      · cases herror
      · cases herror
        exact List.mem_cons_self
    · next hnone =>
        split at herror
        · split at herror
          · cases herror
          · cases herror
            exact List.mem_cons_of_mem _ List.mem_cons_self
        · next hnone' =>
            have hrange : -2 ^ 63 ≤ n ∧ n < 2 ^ 64 := of_decide_eq_true htype
            simp only [asU64, asI64, ite_eq_right_iff, reduceCtorEq, imp_false] at hnone hnone'
            omega
  | null | str | bool | float | array | object => cases htype

end Reading

/-! ## The words of a command -/

section Words

variable {text : JsonText} {fn : FunctionDef} {args args' : List (String × Json)}

variable {piece : Piece} {value : Json}

theorem CarriesText.mono {words more : List String} (h : CarriesText text words value)
    (hsub : words ⊆ more) : CarriesText text more value := by
  cases value with
  | str s => exact hsub h
  | bool b => exact hsub h
  | int n => exact hsub h
  | object fields => exact fun key held hheld => hsub (h key held hheld)
  | null | float | array => exact h

theorem mem_inputWords {fields : List (String × Json)} {key : String}
    (h : Json.get fields key = some value) :
    s!"{key}={encodedInput text value}" ∈ inputWords text fields := by
  have hkey : key ∈ Json.mapKeys fields := Json.mem_mapKeys_iff_get.mpr ⟨value, h⟩
  refine List.mem_flatMap.mpr ⟨key, hkey, ?_⟩
  rw [h]
  exact List.mem_cons_of_mem _ List.mem_cons_self

theorem Piece.words_congr (h : Json.get args' piece.name = Json.get args piece.name) :
    piece.words text args' = piece.words text args := by
  cases piece with
  | string name =>
    rw [Piece.name] at h
    simp only [Piece.words, requiredStringArg, h]
  | optionalString flag name =>
    rw [Piece.name] at h
    simp only [Piece.words, optionalStringArg, h]
  | optionalBool flag name =>
    rw [Piece.name] at h
    simp only [Piece.words, optionalBoolArg, h]
  | u32 name =>
    rw [Piece.name] at h
    simp only [Piece.words, requiredU32Arg, h]
  | inputs name =>
    rw [Piece.name] at h
    simp only [Piece.words, optionalObjectArg, h]

/-- With accepted arguments a piece fails for the range of a number only. -/
theorem Piece.words_error {reason : String} (haccepted : Accepted fn args)
    (hdeclared : piece.declared fn = true) (h : piece.words text args = .error reason) :
    reason ∈ piece.reasons := by
  cases piece with
  | string name =>
    obtain ⟨s, hs⟩ := haccepted.requiredStringArg_ok hdeclared
    cases hs.symm.trans (map_eq_error h)
  | optionalString flag name =>
    obtain ⟨found, hfound⟩ := haccepted.optionalStringArg_ok hdeclared
    cases hfound.symm.trans (map_eq_error h)
  | optionalBool flag name =>
    obtain ⟨found, hfound⟩ := haccepted.optionalBoolArg_ok hdeclared
    cases hfound.symm.trans (map_eq_error h)
  | u32 name => exact haccepted.requiredU32Arg_error hdeclared (map_eq_error h)
  | inputs name => cases h

theorem Piece.carries {words : List String} (haccepted : Accepted fn args)
    (hdeclared : piece.declared fn = true) (h : piece.words text args = .ok words)
    (hget : Json.get args piece.name = some value) : CarriesText text words value := by
  cases piece with
  | string name =>
    obtain ⟨s, hs, rfl⟩ := map_eq_ok h
    cases hget.symm.trans (get_of_requiredStringArg hs)
    exact List.mem_cons_self
  | optionalString flag name =>
    obtain ⟨found, hfound, rfl⟩ := map_eq_ok h
    have hheld := hget.symm.trans (get_of_optionalStringArg hfound)
    cases found with
    | none => cases hheld
    | some s =>
      cases hheld
      exact List.mem_cons_of_mem _ List.mem_cons_self
  | optionalBool flag name =>
    obtain ⟨found, hfound, rfl⟩ := map_eq_ok h
    have hheld := hget.symm.trans (get_of_optionalBoolArg hfound)
    cases found with
    | none => cases hheld
    | some b =>
      cases hheld
      exact List.mem_cons_of_mem _ List.mem_cons_self
  | u32 name =>
    obtain ⟨n, hn, rfl⟩ := map_eq_ok h
    cases hget.symm.trans (get_of_requiredU32Arg hn)
    exact List.mem_cons_self
  | inputs name =>
    obtain ⟨fields, rfl⟩ := eq_object_of_matches (haccepted.typed_of_declares hdeclared hget)
    have hfields : optionalObjectArg args name = some fields := optionalObjectArg_eq_some.mpr hget
    have hwords : inputWords text fields = words := by
      simpa only [Piece.words, hfields, Except.ok.injEq] using h
    intro key held hheld
    rw [← hwords]
    exact mem_inputWords hheld

end Words

/-! ## What is said of the parts of an object -/

section Parts

variable {fn : FunctionDef} {reason : String}

theorem prefixes_of_saidOf {path path' : String} (h : SaidOf path reason)
    (h' : SaidOf path' reason) : path.toList <+: path'.toList ∨ path'.toList <+: path.toList := by
  have hstart {start : String} (hsaid : SaidOf start reason) : start.toList <+: reason.toList := by
    obtain ⟨rest, rfl⟩ := hsaid
    rw [String.toList_append]
    exact List.prefix_append _ _
  exact List.prefix_or_prefix_of_prefix (hstart h) (hstart h')

/-- The fields under which the parts of an object are complained of. -/
def partPaths : List String := ["schedule", "targetAction", "misfirePolicy", "patch"]

/-- How the reasons begin that reject a call. -/
def rejectionStarts : List String :=
  ["unknown function id `", "missing required function argument `", "argument `"]

theorem saidOf_of_rejectsCall (h : RejectsCall fn reason) :
    ∃ start ∈ rejectionStarts, SaidOf start reason := by
  rcases h with rfl | ⟨arg, -, rfl | ⟨type, -, rfl⟩⟩
  · exact ⟨_, List.mem_cons_self, (saidOf_append _ _).append _⟩
  · exact ⟨_, List.mem_cons_of_mem _ List.mem_cons_self, (saidOf_append _ _).append _⟩
  · refine ⟨_, List.mem_cons_of_mem _ (List.mem_cons_of_mem _ List.mem_cons_self), ?_⟩
    exact ((saidOf_append _ _).append _).append _

theorem partPaths_apart : ∀ path ∈ partPaths, ∀ start ∈ rejectionStarts,
    ¬ (path.toList <+: start.toList ∨ start.toList <+: path.toList) := by
  decide

/-- What is said of a part is not said of the call. -/
theorem not_rejectsCall_of_saidOf {path : String} (hpath : path ∈ partPaths)
    (h : SaidOf path reason) : ¬ RejectsCall fn reason := by
  intro hrejects
  obtain ⟨start, hstart, hsaid⟩ := saidOf_of_rejectsCall hrejects
  exact partPaths_apart path hpath start hstart (prefixes_of_saidOf h hsaid)

/-- A text that is longer than the path it is said of. -/
theorem saidOf_literal {path text : String} (h : path.toList <+: text.toList) :
    SaidOf path text := by
  obtain ⟨rest, hrest⟩ := h
  refine ⟨String.ofList rest, String.toList_injective ?_⟩
  rw [String.toList_append, String.toList_ofList, hrest]

theorem okOr_eq_error {α : Type} {found : Option α} {text : String}
    (h : okOr text found = .error reason) : text = reason := by
  cases found with
  | none => exact Except.error.inj h
  | some a => cases h

theorem parseScheduleConfig_error {scheduleType : String}
    (h : parseScheduleConfig scheduleType fields = .error reason) : SaidOf "schedule" reason := by
  unfold parseScheduleConfig at h
  split at h
  · rcases bind_eq_error h with h | ⟨_, -, h⟩
    · exact okOr_eq_error h ▸ saidOf_literal (by decide)
    · cases h
  · rcases bind_eq_error h with h | ⟨_, -, h⟩
    · exact okOr_eq_error h ▸ saidOf_literal (by decide)
    · cases h
  · rcases bind_eq_error h with h | ⟨_, -, h⟩
    · exact okOr_eq_error h ▸ saidOf_literal (by decide)
    · rcases bind_eq_error h with h | ⟨_, -, h⟩
      · exact okOr_eq_error h ▸ saidOf_literal (by decide)
      · cases h
  · cases h
    exact ((saidOf_literal (by decide)).append _).append _

theorem parseTargetActionConfig_error {fields : List (String × Json)}
    (h : parseTargetActionConfig fields = .error reason) : SaidOf "targetAction" reason := by
  unfold parseTargetActionConfig at h
  rcases bind_eq_error h with h | ⟨actionType, -, h⟩
  · exact okOr_eq_error h ▸ saidOf_literal (by decide)
  split at h
  · rcases bind_eq_error h with h | ⟨_, -, h⟩
    · exact okOr_eq_error h ▸ saidOf_literal (by decide)
    · cases h
  · rcases bind_eq_error h with h | ⟨_, -, h⟩
    · exact okOr_eq_error h ▸ saidOf_literal (by decide)
    · cases h
  · cases h
    exact ((saidOf_literal (by decide)).append _).append _

theorem parseMisfirePolicyArg_error {raw : Option String}
    (h : parseMisfirePolicyArg raw = .error reason) : SaidOf "misfirePolicy" reason := by
  unfold parseMisfirePolicyArg at h
  split at h
  · cases h
  · cases h
  · cases h
  · cases h
    exact ((saidOf_literal (by decide)).append _).append _

theorem patchPart_eq_error {α β : Type} {parse : α → Except String β} {part : Option α}
    (h : patchPart parse part = .error reason) : ∃ a, parse a = .error reason := by
  cases part with
  | none => cases h
  | some a => exact ⟨a, map_eq_error h⟩

theorem parseJobPatch_error {fields : List (String × Json)}
    (h : parseJobPatch fields = .error reason) : ∃ path ∈ partPaths, SaidOf path reason := by
  unfold parseJobPatch at h
  rcases bind_eq_error h with h | ⟨_, -, h⟩
  · obtain ⟨schedule, h⟩ := patchPart_eq_error h
    rcases bind_eq_error h with h | ⟨_, -, h⟩
    · exact ⟨"patch", by decide, okOr_eq_error h ▸ saidOf_literal (by decide)⟩
    · exact ⟨"schedule", by decide, parseScheduleConfig_error h⟩
  rcases bind_eq_error h with h | ⟨_, -, h⟩
  · obtain ⟨action, h⟩ := patchPart_eq_error h
    exact ⟨"targetAction", by decide, parseTargetActionConfig_error h⟩
  rcases bind_eq_error h with h | ⟨_, -, h⟩
  · obtain ⟨value, h⟩ := patchPart_eq_error h
    obtain ⟨rest, rfl⟩ := parseSlackTargetRef_error h
    exact ⟨"patch", by decide, (saidOf_literal (by decide)).append _⟩
  rcases bind_eq_error h with h | ⟨_, -, h⟩
  · obtain ⟨raw, h⟩ := patchPart_eq_error h
    exact ⟨"misfirePolicy", by decide, parseMisfirePolicyArg_error h⟩
  · cases h

end Parts

/-! ## Planners -/

section Planners

variable {text : JsonText} {fn : FunctionDef} {args args' : List (String × Json)}
  {planner : Planner} {reason : String}

/-- A plan reads the arguments that its planner asks for. -/
theorem Planner.plan_congr (h : ∀ name ∈ planner.names, Json.get args' name = Json.get args name) :
    planner.plan text args' = planner.plan text args := by
  cases planner with
  | cli words pieces =>
    have hpieces : pieces.mapM (Piece.words text args') = pieces.mapM (Piece.words text args) :=
      mapM_congr fun piece hpiece => Piece.words_congr (h _ (List.mem_map_of_mem hpiece))
    simp only [Planner.plan, hpieces]
  | constant function => rfl
  | one name make =>
    have hname := h name List.mem_cons_self
    simp only [Planner.plan, requiredStringArg, hname]
  | two first second make =>
    have hfirst := h first List.mem_cons_self
    have hsecond := h second (List.mem_cons_of_mem _ List.mem_cons_self)
    simp only [Planner.plan, requiredStringArg, hfirst, hsecond]
  | scheduleCreate =>
    simp only [Planner.names, List.forall_mem_cons, List.not_mem_nil, false_implies,
      implies_true, and_true] at h
    obtain ⟨h₁, h₂, h₃, h₄, h₅, h₆, h₇, h₈⟩ := h
    simp only [Planner.plan, planScheduleCreate, requiredStringArg, requiredObjectArg,
      optionalObjectArg, optionalStringArg, optionalBoolArg, h₁, h₂, h₃, h₄, h₅, h₆, h₇, h₈]
  | scheduleUpdate =>
    have hjobId := h "jobId" List.mem_cons_self
    have hpatch := h "patch" (List.mem_cons_of_mem _ List.mem_cons_self)
    simp only [Planner.plan, requiredStringArg, requiredObjectArg, optionalObjectArg, hjobId,
      hpatch]

theorem planScheduleCreate_error (haccepted : Accepted fn args)
    (hfits : Planner.fits fn .scheduleCreate = true)
    (h : planScheduleCreate args = .error reason) : ∃ path ∈ partPaths, SaidOf path reason := by
  simp only [Planner.fits, Bool.and_eq_true] at hfits
  obtain ⟨-, ⟨⟨⟨⟨⟨⟨horch, htype⟩, hschedule⟩, haction⟩, hpolicy⟩, hoverlap⟩, -⟩, -⟩ := hfits
  obtain ⟨orchestratorId, h₁⟩ := haccepted.requiredStringArg_ok horch
  obtain ⟨scheduleType, h₂⟩ := haccepted.requiredStringArg_ok htype
  obtain ⟨schedule, h₃⟩ := haccepted.requiredObjectArg_ok hschedule
  obtain ⟨action, h₄⟩ := haccepted.requiredObjectArg_ok haction
  obtain ⟨policy, h₅⟩ := haccepted.optionalStringArg_ok hpolicy
  obtain ⟨overlap, h₆⟩ := haccepted.optionalBoolArg_ok hoverlap
  unfold planScheduleCreate at h
  rw [h₁, h₂, h₃, h₄, h₅, h₆] at h
  rcases bind_eq_error (x := parseScheduleConfig scheduleType schedule) h with h | ⟨_, -, h⟩
  · exact ⟨"schedule", by decide, parseScheduleConfig_error h⟩
  rcases bind_eq_error h with h | ⟨_, -, h⟩
  · exact ⟨"targetAction", by decide, parseTargetActionConfig_error h⟩
  rcases bind_eq_error (x := parseMisfirePolicyArg policy) h with h | ⟨_, -, h⟩
  · exact ⟨"misfirePolicy", by decide, parseMisfirePolicyArg_error h⟩
  · cases h

/-- A planner that fits rejects no accepted call as one that it does not know or understand. -/
theorem Planner.plan_error (haccepted : Accepted fn args) (hfits : planner.fits fn = true)
    (h : planner.plan text args = .error reason) : ¬ RejectsCall fn reason := by
  cases planner with
  | cli words pieces =>
    simp only [Planner.fits, Bool.and_eq_true] at hfits
    obtain ⟨-, -, hpieces⟩ := hfits
    rcases bind_eq_error h with h | ⟨_, -, h⟩
    · obtain ⟨piece, hpiece, herror⟩ := exists_of_mapM_error h
      have hchecked := List.all_eq_true.mp hpieces piece hpiece
      rw [Bool.and_eq_true] at hchecked
      have hreason := List.all_eq_true.mp hchecked.2 reason
        (Piece.words_error haccepted hchecked.1 herror)
      simpa using hreason
    · cases h
  | constant function => cases h
  | one name make =>
    simp only [Planner.fits, Bool.and_eq_true] at hfits
    obtain ⟨s, hs⟩ := haccepted.requiredStringArg_ok hfits.2
    rcases bind_eq_error h with h | ⟨_, -, h⟩
    · cases hs.symm.trans h
    · cases h
  | two first second make =>
    simp only [Planner.fits, Bool.and_eq_true] at hfits
    obtain ⟨-, hfirst, hsecond⟩ := hfits
    obtain ⟨a, ha⟩ := haccepted.requiredStringArg_ok hfirst
    obtain ⟨b, hb⟩ := haccepted.requiredStringArg_ok hsecond
    rcases bind_eq_error h with h | ⟨_, -, h⟩
    · cases ha.symm.trans h
    rcases bind_eq_error h with h | ⟨_, -, h⟩
    · cases hb.symm.trans h
    · cases h
  | scheduleCreate =>
    rcases bind_eq_error h with h | ⟨_, -, h⟩
    · obtain ⟨path, hpath, hsaid⟩ := planScheduleCreate_error haccepted hfits h
      exact not_rejectsCall_of_saidOf hpath hsaid
    · cases h
  | scheduleUpdate =>
    simp only [Planner.fits, Bool.and_eq_true] at hfits
    obtain ⟨-, hjobId, hpatch⟩ := hfits
    obtain ⟨jobId, h₁⟩ := haccepted.requiredStringArg_ok hjobId
    obtain ⟨fields, h₂⟩ := haccepted.requiredObjectArg_ok hpatch
    rcases bind_eq_error h with h | ⟨_, -, h⟩
    · cases h₁.symm.trans h
    rcases bind_eq_error h with h | ⟨_, hfields, h⟩
    · cases h₂.symm.trans h
    rcases bind_eq_error h with h | ⟨_, -, h⟩
    · obtain ⟨path, hpath, hsaid⟩ := parseJobPatch_error h
      exact not_rejectsCall_of_saidOf hpath hsaid
    · cases h

theorem Planner.plan_head {words : List String} (hfits : planner.fits fn = true)
    (h : planner.plan text args = .ok (.cliArgs words)) :
    ∃ command ∈ nativeCommands, words.head? = some command := by
  cases planner with
  | cli fixed pieces =>
    simp only [Planner.fits, Bool.and_eq_true] at hfits
    obtain ⟨-, hhead, -⟩ := hfits
    obtain ⟨parts, -, h⟩ := bind_eq_ok h
    cases h
    cases fixed with
    | nil => cases hhead
    | cons command rest => exact ⟨command, of_decide_eq_true hhead, rfl⟩
  | constant function => cases h
  | one name make =>
    obtain ⟨_, -, h⟩ := bind_eq_ok h
    cases h
  | two first second make =>
    obtain ⟨_, -, h⟩ := bind_eq_ok h
    obtain ⟨_, -, h⟩ := bind_eq_ok h
    cases h
  | scheduleCreate =>
    obtain ⟨_, -, h⟩ := bind_eq_ok h
    cases h
  | scheduleUpdate =>
    obtain ⟨_, -, h⟩ := bind_eq_ok h
    obtain ⟨_, -, h⟩ := bind_eq_ok h
    obtain ⟨_, -, h⟩ := bind_eq_ok h
    cases h

/-- The internal functions of a planner hold what it read, under the names it read. -/
def Planner.Holds : Planner → Prop
  | .one name make => ∀ value, (name, value) ∈ (make value).texts
  | .two first second make =>
    ∀ a b, (first, a) ∈ (make a b).texts ∧ (second, b) ∈ (make a b).texts
  | _ => True

theorem planners_hold : ∀ entry ∈ planners, entry.2.Holds := by
  simp [planners, agentPlanner, orchestratorPlanner, jobPlanner, Planner.Holds,
    InternalFunction.texts]

theorem typeName_of_parse {scheduleType : String} {fields : List (String × Json)}
    {schedule : ScheduleConfig} (h : parseScheduleConfig scheduleType fields = .ok schedule) :
    typeName schedule = scheduleType := by
  unfold parseScheduleConfig at h
  split at h
  · obtain ⟨_, -, h⟩ := bind_eq_ok h
    cases h
    rfl
  · obtain ⟨_, -, h⟩ := bind_eq_ok h
    cases h
    rfl
  · obtain ⟨_, -, h⟩ := bind_eq_ok h
    obtain ⟨_, -, h⟩ := bind_eq_ok h
    cases h
    rfl
  · cases h

variable {value : Json}

theorem optionalObjectArg_of_matches {name : String} (haccepted : Accepted fn args)
    (hdeclared : fn.declares name .object false = true) (hget : Json.get args name = some value) :
    ∃ fields, value = .object fields ∧ optionalObjectArg args name = some fields := by
  obtain ⟨fields, rfl⟩ := eq_object_of_matches (haccepted.typed_of_declares hdeclared hget)
  exact ⟨fields, rfl, optionalObjectArg_eq_some.mpr hget⟩

theorem planScheduleCreate_carries {function : ScheduleFunction} {name : String}
    (haccepted : Accepted fn args) (hfits : Planner.fits fn .scheduleCreate = true)
    (h : planScheduleCreate args = .ok function) (hname : name ∈ Planner.scheduleCreate.names)
    (hget : Json.get args name = some value) :
    (InternalFunction.schedule function).Carries name value := by
  simp only [Planner.fits, Bool.and_eq_true] at hfits
  obtain ⟨-, ⟨-, htargetRef⟩, hcreatedBy⟩ := hfits
  unfold planScheduleCreate at h
  obtain ⟨orchestratorId, h₁, h⟩ := bind_eq_ok h
  obtain ⟨scheduleType, h₂, h⟩ := bind_eq_ok h
  obtain ⟨scheduleObj, h₃, h⟩ := bind_eq_ok h
  obtain ⟨targetActionObj, h₄, h⟩ := bind_eq_ok h
  obtain ⟨schedule, h₅, h⟩ := bind_eq_ok h
  obtain ⟨targetAction, h₆, h⟩ := bind_eq_ok h
  obtain ⟨policy, h₇, h⟩ := bind_eq_ok h
  obtain ⟨misfirePolicy, h₈, h⟩ := bind_eq_ok h
  obtain ⟨overlap, h₉, h⟩ := bind_eq_ok h
  cases h
  have htype := typeName_of_parse h₅
  simp only [Planner.names, List.mem_cons, List.not_mem_nil, or_false] at hname
  rcases hname with rfl | rfl | rfl | rfl | rfl | rfl | rfl | rfl
  · cases hget.symm.trans (get_of_requiredStringArg h₁)
    exact .text List.mem_cons_self
  · cases hget.symm.trans (get_of_requiredStringArg h₂)
    rw [← htype]
    exact .create .scheduleType
  · cases hget.symm.trans (get_of_requiredObjectArg h₃)
    rw [← htype] at h₅
    exact .create (.schedule h₅)
  · cases hget.symm.trans (get_of_requiredObjectArg h₄)
    exact .create (.targetAction h₆)
  · obtain ⟨fields, rfl, hfields⟩ := optionalObjectArg_of_matches haccepted htargetRef hget
    exact .create (.targetRef (congrArg (Option.map Json.object) hfields))
  · have hheld := hget.symm.trans (get_of_optionalStringArg h₇)
    cases policy with
    | none => cases hheld
    | some raw =>
      cases hheld
      exact .create (.misfirePolicy h₈)
  · have hheld := hget.symm.trans (get_of_optionalBoolArg h₉)
    cases overlap with
    | none => cases hheld
    | some b =>
      cases hheld
      exact .create .allowOverlap
  · obtain ⟨fields, rfl, hfields⟩ := optionalObjectArg_of_matches haccepted hcreatedBy hget
    have hcreatedBy : (optionalObjectArg args "createdBy").getD [] = fields := by
      rw [hfields]
      rfl
    rw [← hcreatedBy]
    exact .create .createdBy

/-- A plan has every argument that its planner asks for and that is there. -/
theorem Planner.plan_carries {plan : FunctionExecutionPlan} {name : String}
    (haccepted : Accepted fn args) (hfits : planner.fits fn = true) (hholds : planner.Holds)
    (h : planner.plan text args = .ok plan) (hname : name ∈ planner.names)
    (hget : Json.get args name = some value) : plan.Carries text name value := by
  cases planner with
  | cli fixed pieces =>
    simp only [Planner.fits, Bool.and_eq_true] at hfits
    obtain ⟨-, -, hpieces⟩ := hfits
    obtain ⟨parts, hparts, h⟩ := bind_eq_ok h
    cases h
    obtain ⟨piece, hpiece, rfl⟩ := List.mem_map.mp hname
    obtain ⟨words, hwords, hok⟩ := exists_of_mapM_ok hparts piece hpiece
    have hchecked := List.all_eq_true.mp hpieces piece hpiece
    rw [Bool.and_eq_true] at hchecked
    have hcarries : CarriesText text words value :=
      Piece.carries haccepted hchecked.1 hok hget
    apply hcarries.mono
    intro word hword
    exact List.mem_append_right _ (List.mem_flatten.mpr ⟨words, hwords, hword⟩)
  | constant function => cases hname
  | one held make =>
    obtain ⟨s, hs, h⟩ := bind_eq_ok h
    cases h
    obtain rfl := List.mem_singleton.mp hname
    cases hget.symm.trans (get_of_requiredStringArg hs)
    exact .text (hholds s)
  | two first second make =>
    obtain ⟨a, ha, h⟩ := bind_eq_ok h
    obtain ⟨b, hb, h⟩ := bind_eq_ok h
    cases h
    rcases List.mem_pair.mp hname with rfl | rfl
    · cases hget.symm.trans (get_of_requiredStringArg ha)
      exact .text (hholds a b).1
    · cases hget.symm.trans (get_of_requiredStringArg hb)
      exact .text (hholds a b).2
  | scheduleCreate =>
    obtain ⟨function, hfunction, h⟩ := bind_eq_ok h
    cases h
    exact planScheduleCreate_carries haccepted hfits hfunction hname hget
  | scheduleUpdate =>
    obtain ⟨jobId, hjobId, h⟩ := bind_eq_ok h
    obtain ⟨fields, hfields, h⟩ := bind_eq_ok h
    obtain ⟨patch, hpatch, h⟩ := bind_eq_ok h
    cases h
    rcases List.mem_pair.mp hname with rfl | rfl
    · cases hget.symm.trans (get_of_requiredStringArg hjobId)
      exact .text List.mem_cons_self
    · cases hget.symm.trans (get_of_requiredObjectArg hfields)
      exact .patch hpatch

end Planners

/-! ## The whole catalog -/

theorem agrees_of_fits {text : JsonText} {fn : FunctionDef} {args : List (String × Json)}
    {planner : Planner} (hplanner : planners.lookup fn.functionId = some planner)
    (hfits : planner.fits fn = true) (haccepted : Accepted fn args) : Agrees text fn args := by
  have hplan (given : List (String × Json)) :
      planFunctionInvocation text fn.functionId given = planner.plan text given := by
    rw [planFunctionInvocation, hplanner]
  have hnames := hfits
  simp only [Planner.fits, Bool.and_eq_true] at hnames
  obtain ⟨⟨hcovers, hdeclared⟩, -⟩ := hnames
  constructor
  case known =>
    intro reason h
    rw [hplan] at h
    exact Planner.plan_error haccepted hfits h
  case declaredOnly =>
    intro args' hagree
    rw [hplan, hplan]
    apply Planner.plan_congr
    intro name hname
    obtain ⟨arg, harg, heq⟩ := List.any_eq_true.mp (List.all_eq_true.mp hdeclared name hname)
    rw [← eq_of_beq heq]
    exact hagree arg harg
  case contains =>
    intro plan h name value hget
    rw [hplan] at h
    obtain ⟨arg, harg, rfl⟩ := haccepted.declared name value hget
    have hname := of_decide_eq_true (List.all_eq_true.mp hcovers arg harg)
    have hholds := planners_hold _ (OrderedMap.mem_of_lookup hplanner)
    exact Planner.plan_carries haccepted hfits hholds h hname hget
  case dispatched =>
    intro words h
    rw [hplan] at h
    exact Planner.plan_head hfits h

theorem Accepted.agrees_iff_planned (text : JsonText) {fn : FunctionDef} (hfn : fn ∈ v1Functions)
    {args : List (String × Json)} (haccepted : Accepted fn args) :
    Agrees text fn args ↔ fn.functionId ∉ unplannedFunctions := by
  constructor
  · intro hagrees hunplanned
    refine hagrees.known (unknownFunctionReason fn.functionId) ?_ (.inl rfl)
    rw [planFunctionInvocation, unplanned_lookup _ hunplanned]
    rfl
  · intro hplanned
    obtain ⟨planner, hplanner, hfits⟩ :=
      (Option.any_eq_true _ _).mp ((v1Functions_fit fn hfn).2 hplanned)
    exact agrees_of_fits hplanner hfits haccepted

/-- A call that the registry lets through is a call of a function of the catalog. -/
theorem authorized_agrees (text : JsonText) {functions : FunctionRegistry} {call : FunctionCall}
    (hcatalog : functions.catalog = v1Catalog) (h : functions.authorize call = .ok ())
    (hnonBlank : NonBlankStrings call.args) :
    ∃ fn ∈ v1Functions, fn.functionId = call.functionId ∧
      (Agrees text fn call.args ↔ call.functionId ∉ unplannedFunctions) := by
  obtain ⟨-, schema, hschema, hmatch⟩ := FunctionRegistry.grants_of_authorize h
  rw [hcatalog] at hschema
  obtain ⟨fn, hfn, hid, rfl⟩ := v1Catalog_lookup_iff.mp hschema
  have haccepted := accepted_of_argsMatch (v1Functions_fit fn hfn).1 hmatch hnonBlank
  refine ⟨fn, hfn, hid, ?_⟩
  rw [← hid]
  exact haccepted.agrees_iff_planned text hfn

/-- The catalog and the planner agree on a function, whatever its arguments, unless no arm plans
it. -/
theorem agrees_iff (text : JsonText) {fn : FunctionDef} (hfn : fn ∈ v1Functions)
    {args : List (String × Json)}
    (hargs : FunctionRegistry.validateArgs ⟨fn.functionId, args⟩ fn.schema = .ok ())
    (hnonBlank : NonBlankStrings args) :
    Agrees text fn args ↔ fn.functionId ∉ unplannedFunctions := by
  have hmatch : ArgsMatch fn.schema args := argsMatch_of_check hargs
  have haccepted := accepted_of_argsMatch (v1Functions_fit fn hfn).1 hmatch hnonBlank
  exact haccepted.agrees_iff_planned text hfn

/-- A printer of objects that are not looked into. -/
def plainText : JsonText where
  fromStr _ := none
  complaint _ := "expected value at line 1 column 1"
  toStringPretty _ := "\x7b\x7d"

def providerSet : FunctionDef where
  functionId := "provider.set"
  description := "Set provider preference and optional model"
  args := providerSetArgs
  readOnly := false

def daemonChat : FunctionDef where
  functionId := "daemon.chat"
  description := "Start local chat REPL for a local channel profile"
  args :=
    [{ name := "channelProfileId", argType := .string, required := true,
        description := "Local channel profile id" }]
  readOnly := false

theorem nonBlank_singleton {name held : String} (h : Text.isBlank held.toList = false) :
    NonBlankStrings [(name, .str held)] := by
  intro other value hget
  obtain ⟨-, rfl⟩ : other = name ∧ value = held := by
    simpa using Prod.mk.inj (List.mem_singleton.mp (OrderedMap.mem_of_lookup hget))
  exact h

theorem agrees_iff_provider_set :
    Agrees plainText providerSet [("provider", .str "openai")] ↔
      "provider.set" ∉ unplannedFunctions :=
  agrees_iff plainText (by decide) rfl (nonBlank_singleton (by decide))

/-- Started from the catalog, a chat is an unknown function. -/
theorem daemonChat_unknown :
    FunctionRegistry.validateArgs ⟨"daemon.chat", [("channelProfileId", .str "local-main")]⟩
        daemonChat.schema = .ok () ∧
      NonBlankStrings [("channelProfileId", .str "local-main")] ∧ daemonChat ∈ v1Functions ∧
      planFunctionInvocation plainText "daemon.chat" [("channelProfileId", .str "local-main")] =
        .error "unknown function id `daemon.chat`" ∧
      ¬ Agrees plainText daemonChat [("channelProfileId", .str "local-main")] := by
  have hplan : planFunctionInvocation plainText "daemon.chat"
      [("channelProfileId", .str "local-main")] = .error "unknown function id `daemon.chat`" := rfl
  refine ⟨rfl, nonBlank_singleton (by decide), by decide, hplan, fun hagrees => ?_⟩
  exact hagrees.known _ hplan (.inl rfl)

end Direclaw.App
