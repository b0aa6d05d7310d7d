import Direclaw.Lib.Fallible
import Direclaw.Lib.Trimming
import Direclaw.Runtime.QueueWorker
import Direclaw.Slack.Egress

/-!
# The forms of a Slack target

A target leaves as a `targetRef` object and as a conversation id, `channel` or
`channel:thread`. The object is read back as it was written. Two decoders read the
conversation id, and both take what is in front of its first colon for the channel.
-/

namespace Direclaw.Slack

open Direclaw.Lib Direclaw.Orchestration Direclaw.Runtime

/-- What both parsers promise of a target: trimmed ids, and a thread in a reply only. -/
structure WellformedTarget (target : SlackTargetRef) : Prop where
  profile : Text.TrimmedText target.channelProfileId
  channel : Text.TrimmedText target.channelId
  thread : target.postingMode = .channelPost ∧ target.threadTs = none ∨
    ∃ threadTs, target.postingMode = .threadReply ∧ target.threadTs = some threadTs ∧
      Text.TrimmedText threadTs

/-- The targets there are: read from an object or from a conversation id. -/
inductive ProducedTarget (target : SlackTargetRef) : Prop where
  | parsed (value : Json) (fieldPath : String)
      (h : parseSlackTargetRef value fieldPath = .ok (some target))
  | conversation (channelProfileId conversationId : String)
      (h : slackTargetFromConversation channelProfileId conversationId = .ok target)

/-! ## What the parsers accept -/

section Accepted

variable {obj : List (String × Json)} {key fieldPath : String}

theorem requiredTrimmedString_ok {text : String}
    (h : requiredTrimmedString obj key fieldPath = .ok text) : Text.TrimmedText text := by
  unfold requiredTrimmedString at h
  split at h
  · cases h
  · split at h
    · cases h
    · next hblank =>
        cases h
        exact Text.trimmedText_ofList (Bool.eq_false_iff.mpr hblank)

theorem optionalTrimmedString_ok {text : String}
    (h : optionalTrimmedString obj key fieldPath = .ok (some text)) : Text.TrimmedText text := by
  unfold optionalTrimmedString at h
  split at h
  · cases h
  · cases h
  · split at h
    · cases h
    · next hblank =>
        cases h
        exact Text.trimmedText_ofList (Bool.eq_false_iff.mpr hblank)
  · cases h

theorem parseSlackTargetRef_wellformed {value : Json} {target : SlackTargetRef}
    (h : parseSlackTargetRef value fieldPath = .ok (some target)) : WellformedTarget target := by
  unfold parseSlackTargetRef at h
  split at h
  · split at h
    · simp only [throw_if_ok_iff] at h
      obtain ⟨profileId, hprofile, h⟩ := bind_eq_ok h.2
      obtain ⟨channelId, hchannel, h⟩ := bind_eq_ok h
      obtain ⟨modeRaw, -, h⟩ := bind_eq_ok h
      obtain ⟨mode, -, h⟩ := bind_eq_ok h
      obtain ⟨threadTs, hthread, h⟩ := bind_eq_ok h
      have hprofile := requiredTrimmedString_ok hprofile
      have hchannel := requiredTrimmedString_ok hchannel
      cases mode with
      | channelPost =>
        cases h
        exact ⟨hprofile, hchannel, .inl ⟨rfl, rfl⟩⟩
      | threadReply =>
        cases threadTs with
        | none => cases h
        | some threadTs =>
          cases h
          exact ⟨hprofile, hchannel, .inr ⟨_, rfl, rfl, optionalTrimmedString_ok hthread⟩⟩
    · cases h
  · cases h

theorem slackTargetFromConversation_wellformed {channelProfileId conversationId : String}
    {target : SlackTargetRef}
    (h : slackTargetFromConversation channelProfileId conversationId = .ok target) :
    WellformedTarget target := by
  unfold slackTargetFromConversation at h
  split at h
  · cases h
  · next hprofile =>
      have hprofile := Text.trimmedText_ofList (Bool.eq_false_iff.mpr hprofile)
      split at h
      · cases h
      · next hconversation =>
          split at h
          · next channelId threadTs _ =>
              split at h
              · cases h
              · next hparts =>
                  rw [Bool.or_eq_true, not_or] at hparts
                  cases h
                  exact ⟨hprofile, Text.trimmedText_ofList (Bool.eq_false_iff.mpr hparts.1), .inr
                    ⟨_, rfl, rfl, Text.trimmedText_ofList (Bool.eq_false_iff.mpr hparts.2)⟩⟩
          · cases h
            exact ⟨hprofile, Text.trimmedText_ofList (Bool.eq_false_iff.mpr hconversation),
              .inl ⟨rfl, rfl⟩⟩

theorem ProducedTarget.wellformed {target : SlackTargetRef} (h : ProducedTarget target) :
    WellformedTarget target := by
  cases h with
  | parsed value fieldPath h => exact parseSlackTargetRef_wellformed h
  | conversation channelProfileId conversationId h => exact slackTargetFromConversation_wellformed h

end Accepted

/-! ## The object is read back -/

section Object

variable {target : SlackTargetRef}

theorem requiredTrimmedString_of_trimmed {obj : List (String × Json)} {key text : String}
    (hget : Json.get obj key = some (.str text)) (h : Text.TrimmedText text) (fieldPath : String) :
    requiredTrimmedString obj key fieldPath = .ok text := by
  simp only [requiredTrimmedString, hget, Option.bind_some, Json.asStr, h.filled, h.trimmed_eq,
    Bool.false_eq_true, if_false]

theorem optionalTrimmedString_of_trimmed {obj : List (String × Json)} {key text : String}
    (hget : Json.get obj key = some (.str text)) (h : Text.TrimmedText text) (fieldPath : String) :
    optionalTrimmedString obj key fieldPath = .ok (some text) := by
  simp only [optionalTrimmedString, hget, h.filled, h.trimmed_eq, Bool.false_eq_true, if_false]

theorem parsePostingMode_display (mode : SlackPostingMode) (fieldPath : String) :
    parsePostingMode mode.display fieldPath = .ok mode := by
  cases mode with
  | channelPost => rfl
  | threadReply => rfl

/-- The object is read by the keys under which it was written. -/
theorem parseSlackTargetRef_of_fields {obj : List (String × Json)} (fieldPath : String)
    (hslack : Json.get obj "channel" = some (.str "slack"))
    (hprofile : requiredTrimmedString obj "channelProfileId" fieldPath =
      .ok target.channelProfileId)
    (hchannel : requiredTrimmedString obj "channelId" fieldPath = .ok target.channelId)
    (hmode : requiredTrimmedString obj "postingMode" fieldPath = .ok target.postingMode.display)
    (hthread : optionalTrimmedString obj "threadTs" fieldPath = .ok target.threadTs)
    (hfits : target.threadTs.isSome = true ↔ target.postingMode = .threadReply) :
    parseSlackTargetRef (.object obj) fieldPath = .ok (some target) := by
  have hname : Text.trimmed "slack" = "slack" := by decide
  simp only [parseSlackTargetRef, Json.asObject, hslack, Option.bind_some, Json.asStr]
  rw [throw_if_ok_iff, hname, hprofile, hchannel, hmode]
  refine ⟨not_not_intro rfl, ?_⟩
  show (parsePostingMode target.postingMode.display fieldPath >>= _) = _
  rw [parsePostingMode_display]
  show (optionalTrimmedString obj "threadTs" fieldPath >>= _) = _
  rw [hthread]
  obtain ⟨profileId, channelId, threadTs, mode⟩ := target
  cases mode with
  | channelPost =>
    cases threadTs with
    | none => rfl
    | some threadTs => cases hfits.mp rfl
  | threadReply =>
    cases threadTs with
    | none => cases hfits.mpr rfl
    | some threadTs => rfl

theorem parseSlackTargetRef_toValue (h : WellformedTarget target) (fieldPath : String) :
    parseSlackTargetRef (slackTargetRefToValue target) fieldPath = .ok (some target) := by
  have hdisplay : Text.TrimmedText target.postingMode.display := by
    cases target.postingMode with
    | channelPost => exact ⟨by decide, by decide⟩
    | threadReply => exact ⟨by decide, by decide⟩
  unfold slackTargetRefToValue
  rcases h.thread with ⟨hmode, hthread⟩ | ⟨threadTs, hmode, hthread, htrimmed⟩
  · rw [hthread]
    apply parseSlackTargetRef_of_fields fieldPath
    · rfl
    · exact requiredTrimmedString_of_trimmed rfl h.profile fieldPath
    · exact requiredTrimmedString_of_trimmed rfl h.channel fieldPath
    · exact requiredTrimmedString_of_trimmed rfl hdisplay fieldPath
    · rw [hthread]
      rfl
    · rw [hthread, hmode]
      exact iff_of_false nofun nofun
  · rw [hthread]
    apply parseSlackTargetRef_of_fields fieldPath
    · rfl
    · exact requiredTrimmedString_of_trimmed rfl h.profile fieldPath
    · exact requiredTrimmedString_of_trimmed rfl h.channel fieldPath
    · exact requiredTrimmedString_of_trimmed rfl hdisplay fieldPath
    · rw [hthread]
      exact optionalTrimmedString_of_trimmed rfl htrimmed fieldPath
    · rw [hthread, hmode]
      exact iff_of_true rfl rfl

end Object

/-! ## The conversation id -/

section Conversation

variable {target : SlackTargetRef}

/-- The conversation id is read as the target's channel and thread by both decoders. -/
structure ConversationReadBack (target : SlackTargetRef) : Prop where
  fromConversation : ∃ read, slackTargetFromConversation target.channelProfileId
      (slackConversationId target) = .ok read ∧
    read.channelId = target.channelId ∧ read.threadTs = target.threadTs
  egress : parseConversationId (slackConversationId target) =
    .ok ⟨target.channelId, target.threadTs⟩

theorem colon_not_mem_of_parseConversationId {value : String} {read : DeliveryTarget}
    (h : parseConversationId value = .ok read) : ':' ∉ read.channelId.toList := by
  unfold parseConversationId at h
  simp only [] at h
  split at h
  · cases h
  · split at h
    · next channelId threadTs hsplit =>
        split at h
        · cases h
        · cases h
          intro hmem
          rw [String.toList_ofList] at hmem
          exact (Text.splitOnce_eq_some_iff.mp hsplit).2 (Text.mem_of_mem_trim hmem)
    · next hsplit =>
        cases h
        rw [String.toList_ofList]
        exact Text.splitOnce_eq_none_iff.mp hsplit

theorem slackConversationId_post (hmode : target.postingMode = .channelPost) :
    slackConversationId target = target.channelId := by
  rw [slackConversationId, hmode]

theorem toList_slackConversationId_reply {threadTs : String}
    (hmode : target.postingMode = .threadReply) (hthread : target.threadTs = some threadTs) :
    (slackConversationId target).toList =
      target.channelId.toList ++ ':' :: threadTs.toList := by
  rw [slackConversationId, hmode, hthread]
  simp

theorem trim_channel_thread {channelId threadTs : String} (hchannel : Text.TrimmedText channelId)
    (hthread : Text.TrimmedText threadTs) :
    Text.trim (channelId.toList ++ ':' :: threadTs.toList) =
      channelId.toList ++ ':' :: threadTs.toList := by
  have h := hchannel.bare.append (u := [':']) hthread.bare hchannel.toList_ne_nil
    hthread.toList_ne_nil
  rw [List.append_assoc, List.singleton_append] at h
  exact Text.trimMatches_of_bare h

theorem isEmpty_trim_eq_false {text : List Char} (h : Text.isBlank text = false) :
    (Text.trim text).isEmpty = false := by
  rw [List.isEmpty_eq_false_iff]
  intro hnil
  rw [← Text.isBlank_trim, hnil] at h
  cases h

theorem conversationReadBack_post (h : WellformedTarget target)
    (hmode : target.postingMode = .channelPost) (hthread : target.threadTs = none)
    (hcolon : ':' ∉ target.channelId.toList) : ConversationReadBack target := by
  have hid := slackConversationId_post hmode
  have hsplit : Text.splitOnce ':' target.channelId.toList = none :=
    Text.splitOnce_eq_none_iff.mpr hcolon
  constructor
  · refine ⟨{ channelProfileId := Text.trimmed target.channelProfileId
              channelId := Text.trimmed target.channelId
              postingMode := .channelPost }, ?_, h.channel.trimmed_eq, hthread.symm⟩
    simp only [slackTargetFromConversation, hid, h.profile.filled, h.channel.filled,
      h.channel.trim_eq, hsplit, Bool.false_eq_true, if_false]
  · have hempty := isEmpty_trim_eq_false h.channel.filled
    rw [h.channel.trim_eq] at hempty
    simp only [parseConversationId, hid, h.channel.trim_eq, hempty, hsplit, hthread,
      Bool.false_eq_true, if_false, String.ofList_toList]

/-- Without a colon in the channel id, both decoders cut where the id was put together. -/
theorem conversationReadBack_reply {threadTs : String} (h : WellformedTarget target)
    (hmode : target.postingMode = .threadReply) (hthread : target.threadTs = some threadTs)
    (htrimmed : Text.TrimmedText threadTs) (hcolon : ':' ∉ target.channelId.toList) :
    ConversationReadBack target := by
  have hid := toList_slackConversationId_reply hmode hthread
  have htrim := trim_channel_thread h.channel htrimmed
  have hsplit : Text.splitOnce ':' (target.channelId.toList ++ ':' :: threadTs.toList) =
      some (target.channelId.toList, threadTs.toList) := Text.splitOnce_append hcolon _
  have hblank : Text.isBlank (target.channelId.toList ++ ':' :: threadTs.toList) = false := by
    obtain ⟨c, hc, hfilled⟩ := Text.isBlank_eq_false_iff.mp h.channel.filled
    exact Text.isBlank_eq_false_iff.mpr ⟨c, List.mem_append_left _ hc, hfilled⟩
  constructor
  · refine ⟨{ channelProfileId := Text.trimmed target.channelProfileId
              channelId := target.channelId
              threadTs := some threadTs
              postingMode := .threadReply }, ?_, rfl, hthread.symm⟩
    simp only [slackTargetFromConversation, hid, h.profile.filled, htrim, hsplit, hblank,
      h.channel.filled, htrimmed.filled, h.channel.trim_eq, htrimmed.trim_eq, Bool.or_false,
      Bool.false_eq_true, if_false, String.ofList_toList]
  · have hempty := isEmpty_trim_eq_false hblank
    have hchannelEmpty := isEmpty_trim_eq_false h.channel.filled
    have hthreadEmpty := isEmpty_trim_eq_false htrimmed.filled
    rw [h.channel.trim_eq] at hchannelEmpty
    rw [htrimmed.trim_eq] at hthreadEmpty
    rw [htrim] at hempty
    simp only [parseConversationId, hid, htrim, hempty, hsplit, h.channel.trim_eq,
      htrimmed.trim_eq, hchannelEmpty, hthreadEmpty, hthread, Bool.or_false, Bool.false_eq_true,
      if_false, String.ofList_toList]

/-! ## All forms -/

/-- The object and the conversation id are read as what they were made of. -/
structure SurvivesEncodings (target : SlackTargetRef) : Prop where
  object : ∀ fieldPath, parseSlackTargetRef (slackTargetRefToValue target) fieldPath =
    .ok (some target)
  conversation : ConversationReadBack target

/-- The object holds every target; the conversation id holds those without a colon in the channel
id, which `parse_slack_target_ref` does not ask for. -/
theorem survivesEncodings_iff (h : ProducedTarget target) :
    SurvivesEncodings target ↔ ':' ∉ target.channelId.toList := by
  have hwell := h.wellformed
  constructor
  · intro hsurvives
    have hread := colon_not_mem_of_parseConversationId hsurvives.conversation.egress
    exact hread
  · intro hcolon
    refine ⟨parseSlackTargetRef_toValue hwell, ?_⟩
    rcases hwell.thread with ⟨hmode, hthread⟩ | ⟨threadTs, hmode, hthread, htrimmed⟩
    · exact conversationReadBack_post hwell hmode hthread hcolon
    · exact conversationReadBack_reply hwell hmode hthread htrimmed hcolon

theorem survivesEncodings_iff_thread :
    SurvivesEncodings
      { channelProfileId := "profile-1", channelId := "C1", threadTs := some "5.0"
        postingMode := .threadReply } :=
  (survivesEncodings_iff (.conversation "profile-1" " C1 : 5.0" (by rfl))).mpr (by decide)

/-- A post to the channel `C1:2` of a trigger reads as a reply in the channel `C1`. -/
def colonTargetRef : Json :=
  .object [("channel", .str "slack"), ("channelProfileId", .str "profile-1"),
    ("channelId", .str "C1:2"), ("postingMode", .str "channel_post")]

theorem colon_target_lost :
    ∃ target, parseSlackTargetRef colonTargetRef "targetRef" = .ok (some target) ∧
      parseConversationId (slackConversationId target) = .ok ⟨"C1", some "2"⟩ ∧
      ¬ SurvivesEncodings target := by
  refine ⟨{ channelProfileId := "profile-1", channelId := "C1:2", postingMode := .channelPost },
    by rfl, by rfl, fun h => ?_⟩
  have hread := colon_not_mem_of_parseConversationId h.conversation.egress
  exact hread (by decide)

end Conversation

end Direclaw.Slack
