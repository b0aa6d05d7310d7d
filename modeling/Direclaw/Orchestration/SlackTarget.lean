import Direclaw.Lib.Json
import Direclaw.Orchestration.Settings

/-!
# Slack targets

`orchestration/slack_target.rs`: where a reply is posted. A target is read from a
`targetRef` object or from the conversation id of a Slack message.
-/

namespace Direclaw.Orchestration

open Direclaw.Lib

inductive SlackPostingMode : Type where
  | channelPost
  | threadReply
deriving DecidableEq, Repr

structure SlackTargetRef where
  channelProfileId : String
  channelId : String
  threadTs : Option String := none
  postingMode : SlackPostingMode
deriving DecidableEq, Repr

def requiredTrimmedString (obj : List (String × Json)) (key fieldPath : String) :
    Except String String :=
  match (Json.get obj key).bind Json.asStr with
  | none => .error s!"{fieldPath}.{key} is required"
  | some value =>
    if Text.isBlank value.toList then .error s!"{fieldPath}.{key} must be non-empty"
    else .ok (Text.trimmed value)

def optionalTrimmedString (obj : List (String × Json)) (key fieldPath : String) :
    Except String (Option String) :=
  match Json.get obj key with
  | none | some .null => .ok none
  | some (.str value) =>
    if Text.isBlank value.toList then
      .error s!"{fieldPath}.{key} must be non-empty when provided"
    else .ok (some (Text.trimmed value))
  | some _ => .error s!"{fieldPath}.{key} must be a string"

def parsePostingMode (value fieldPath : String) : Except String SlackPostingMode :=
  if value = "channel_post" then .ok .channelPost
  else if value = "thread_reply" then .ok .threadReply
  else .error s!"{fieldPath}.postingMode must be channel_post|thread_reply (got `{value}`)"

def SlackPostingMode.display : SlackPostingMode → String
  | .channelPost => "channel_post"
  | .threadReply => "thread_reply"

def parseSlackTargetRef (value : Json) (fieldPath : String) :
    Except String (Option SlackTargetRef) := do
  let some obj := value.asObject | throw s!"{fieldPath} must be a JSON object"
  let some channel := (Json.get obj "channel").bind Json.asStr | return none
  let channel := Text.trimmed channel
  if channel ≠ "slack" then
    throw s!"{fieldPath}.channel `{channel}` is not supported; expected `slack`"
  let channelProfileId ← requiredTrimmedString obj "channelProfileId" fieldPath
  let channelId ← requiredTrimmedString obj "channelId" fieldPath
  let postingModeRaw ← requiredTrimmedString obj "postingMode" fieldPath
  let postingMode ← parsePostingMode postingModeRaw fieldPath
  let threadTs ← optionalTrimmedString obj "threadTs" fieldPath
  match postingMode with
  | .channelPost =>
    return some { channelProfileId, channelId, threadTs := none, postingMode }
  | .threadReply =>
    match threadTs with
    | none => throw s!"{fieldPath}.threadTs is required when postingMode=thread_reply"
    | some threadTs =>
      return some { channelProfileId, channelId, threadTs := some threadTs, postingMode }

def slackTargetRefToValue (target : SlackTargetRef) : Json :=
  .object ([("channel", .str "slack"), ("channelProfileId", .str target.channelProfileId),
    ("channelId", .str target.channelId), ("postingMode", .str target.postingMode.display)] ++
    match target.threadTs with
    | some threadTs => [("threadTs", .str threadTs)]
    | none => [])

def validateProfileMapping (settings : Settings) (orchestratorId : String) :
    Option SlackTargetRef → Except String Unit
  | none => .ok ()
  | some target =>
    match settings.channelProfiles.lookup target.channelProfileId with
    | none => .error s!"targetRef.channelProfileId `{target.channelProfileId}` is not configured"
    | some profile =>
      if profile.channel ≠ .slack then
        .error (s!"targetRef.channelProfileId `{target.channelProfileId}` must reference " ++
          "a slack channel profile")
      else if profile.orchestratorId ≠ orchestratorId then
        .error (s!"targetRef.channelProfileId `{target.channelProfileId}` maps to " ++
          s!"orchestrator `{profile.orchestratorId}` (expected `{orchestratorId}`)")
      else .ok ()

def slackTargetFromConversation (channelProfileId conversationId : String) :
    Except String SlackTargetRef :=
  if Text.isBlank channelProfileId.toList then .error "channelProfileId must be non-empty"
  else
    if Text.isBlank conversationId.toList then .error "conversationId must be non-empty"
    else
      match Text.splitOnce ':' (Text.trim conversationId.toList) with
      | some (channelId, threadTs) =>
        if Text.isBlank channelId || Text.isBlank threadTs then
          .error s!"invalid conversation id `{Text.trimmed conversationId}`"
        else
          .ok { channelProfileId := Text.trimmed channelProfileId
                channelId := String.ofList (Text.trim channelId)
                threadTs := some (String.ofList (Text.trim threadTs))
                postingMode := .threadReply }
      | none =>
        .ok { channelProfileId := Text.trimmed channelProfileId
              channelId := Text.trimmed conversationId
              threadTs := none
              postingMode := .channelPost }

/-- A conversation id that a Slack target can be read from: `channel` or
`channel:thread`, with something in each part. -/
def NamesConversation (conversationId : String) : Prop :=
  Text.isBlank conversationId.toList = false ∧
    ∀ channelId threadTs,
      Text.splitOnce ':' (Text.trim conversationId.toList) = some (channelId, threadTs) →
      Text.isBlank channelId = false ∧ Text.isBlank threadTs = false

/-- The target of a conversation is known exactly when both ids are there. -/
theorem slackTargetFromConversation_ok_iff (channelProfileId conversationId : String) :
    (∃ target, slackTargetFromConversation channelProfileId conversationId = .ok target) ↔
      Text.isBlank channelProfileId.toList = false ∧ NamesConversation conversationId := by
  unfold slackTargetFromConversation NamesConversation
  cases hp : Text.isBlank channelProfileId.toList with
  | true => simp
  | false =>
    cases hc : Text.isBlank conversationId.toList with
    | true => simp
    | false =>
      cases hs : Text.splitOnce ':' (Text.trim conversationId.toList) with
      | none => simp
      | some parts =>
        obtain ⟨channelId, threadTs⟩ := parts
        cases hch : Text.isBlank channelId <;> cases hts : Text.isBlank threadTs <;>
          simp [hch, hts]

end Direclaw.Orchestration
