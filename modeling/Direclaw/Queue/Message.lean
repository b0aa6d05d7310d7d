import Direclaw.Lib.Json

/-!
# Queue messages

The payloads of `queue/message.rs` and their JSON form, as the derived `serde`
implementations read and write it (`camelCase` names).
-/

namespace Direclaw.Queue

open Direclaw.Lib

structure IncomingMessage where
  channel : String
  channelProfileId : Option String := none
  sender : String
  senderId : String
  message : String
  timestamp : Int64
  messageId : String
  conversationId : Option String := none
  isDirect : Bool := false
  isThreadReply : Bool := false
  isMentioned : Bool := false
  files : List String := []
  workflowRunId : Option String := none
  workflowStepId : Option String := none
deriving DecidableEq, Repr

structure OutgoingMessage where
  channel : String
  channelProfileId : Option String := none
  sender : String
  message : String
  originalMessage : String
  timestamp : Int64
  messageId : String
  agent : String
  conversationId : Option String := none
  targetRef : Option Json := none
  files : List String := []
  workflowRunId : Option String := none
  workflowStepId : Option String := none

namespace IncomingMessage

def fieldNames : List String :=
  ["channel", "channelProfileId", "sender", "senderId", "message", "timestamp", "messageId",
    "conversationId", "isDirect", "isThreadReply", "isMentioned", "files", "workflowRunId",
    "workflowStepId"]

def decode (value : Json) : Option IncomingMessage := do
  let fields ← value.structFields fieldNames
  let get := Json.field fields
  return {
    channel := ← Json.requiredStr (get "channel")
    channelProfileId := ← Json.optionalStr (get "channelProfileId")
    sender := ← Json.requiredStr (get "sender")
    senderId := ← Json.requiredStr (get "senderId")
    message := ← Json.requiredStr (get "message")
    timestamp := ← Json.requiredI64 (get "timestamp")
    messageId := ← Json.requiredStr (get "messageId")
    conversationId := ← Json.optionalStr (get "conversationId")
    isDirect := ← Json.defaultBool (get "isDirect")
    isThreadReply := ← Json.defaultBool (get "isThreadReply")
    isMentioned := ← Json.defaultBool (get "isMentioned")
    files := ← Json.defaultStrings (get "files")
    workflowRunId := ← Json.optionalStr (get "workflowRunId")
    workflowStepId := ← Json.optionalStr (get "workflowStepId") }

def encode (m : IncomingMessage) : Json :=
  .object [("channel", .str m.channel), ("channelProfileId", Json.ofOptionalStr m.channelProfileId),
    ("sender", .str m.sender), ("senderId", .str m.senderId), ("message", .str m.message),
    ("timestamp", .int m.timestamp.toInt), ("messageId", .str m.messageId),
    ("conversationId", Json.ofOptionalStr m.conversationId), ("isDirect", .bool m.isDirect),
    ("isThreadReply", .bool m.isThreadReply), ("isMentioned", .bool m.isMentioned),
    ("files", Json.ofStrings m.files), ("workflowRunId", Json.ofOptionalStr m.workflowRunId),
    ("workflowStepId", Json.ofOptionalStr m.workflowStepId)]

end IncomingMessage

namespace OutgoingMessage

def fieldNames : List String :=
  ["channel", "channelProfileId", "sender", "message", "originalMessage", "timestamp", "messageId",
    "agent", "conversationId", "targetRef", "files", "workflowRunId", "workflowStepId"]

def decode (value : Json) : Option OutgoingMessage := do
  let fields ← value.structFields fieldNames
  let get := Json.field fields
  return {
    channel := ← Json.requiredStr (get "channel")
    channelProfileId := ← Json.optionalStr (get "channelProfileId")
    sender := ← Json.requiredStr (get "sender")
    message := ← Json.requiredStr (get "message")
    originalMessage := ← Json.requiredStr (get "originalMessage")
    timestamp := ← Json.requiredI64 (get "timestamp")
    messageId := ← Json.requiredStr (get "messageId")
    agent := ← Json.requiredStr (get "agent")
    conversationId := ← Json.optionalStr (get "conversationId")
    targetRef := Json.optionalValue (get "targetRef")
    files := ← Json.defaultStrings (get "files")
    workflowRunId := ← Json.optionalStr (get "workflowRunId")
    workflowStepId := ← Json.optionalStr (get "workflowStepId") }

def encode (m : OutgoingMessage) : Json :=
  .object [("channel", .str m.channel), ("channelProfileId", Json.ofOptionalStr m.channelProfileId),
    ("sender", .str m.sender), ("message", .str m.message),
    ("originalMessage", .str m.originalMessage), ("timestamp", .int m.timestamp.toInt),
    ("messageId", .str m.messageId), ("agent", .str m.agent),
    ("conversationId", Json.ofOptionalStr m.conversationId), ("targetRef", m.targetRef.getD .null),
    ("files", Json.ofStrings m.files), ("workflowRunId", Json.ofOptionalStr m.workflowRunId),
    ("workflowStepId", Json.ofOptionalStr m.workflowStepId)]

end OutgoingMessage

/-- What is written is read back, up to a `targetRef` of `null`, which reads as
absent. -/
theorem OutgoingMessage.decode_encode (m : OutgoingMessage) :
    decode (encode m) =
      some { m with targetRef := Json.optionalValue (some (m.targetRef.getD .null)) } := by
  have hfields : (encode m).structFields fieldNames = (encode m).asObject := by
    simp only [encode, Json.structFields, Json.asObject, List.map_cons, List.map_nil]
    exact if_pos (by decide)
  simp only [decode, hfields]
  simp only [encode, Json.asObject, Json.field, List.lookup_cons, String.reduceBEq,
    Json.requiredStr_str, Json.requiredI64_int, Json.optionalStr_ofOptionalStr,
    Json.defaultStrings_ofStrings, bind, Option.bind, pure]

end Direclaw.Queue
