import Direclaw.Lib.Delimited
import Direclaw.Lib.Trimming
import Direclaw.Queue.FileTags

/-!
# Outbound directives

`prepare_outbound_content` takes the `[send_file: …]` directives out of a message, sorts
their targets into files and omitted ones, and truncates what is left. When does a directive
leak? Where one is taken out, the texts around it join, and may join to an opening; and the
note that a truncated message ends in closes an opening that the message left open.
-/

namespace Direclaw.Queue

open Direclaw.Lib Direclaw.Lib.Text

/-- `"[send_file:"`. -/
def sendFileTag : List Char := ['[', 's', 'e', 'n', 'd', '_', 'f', 'i', 'l', 'e', ':']

theorem toList_sendFileTag : "[send_file:".toList = sendFileTag := by simp [sendFileTag]

theorem sendFileTag_ne_nil : sendFileTag ≠ [] := List.cons_ne_nil _ _

/-- The scan of the message finds these directives, each with the text before it, and is
left with `tail`. -/
def HasDirectives (message : List Char) (parts : List (List Char × List Char)) (tail : List Char) :
    Prop :=
  Delimited sendFileTag [']'] message parts tail

/-- The targets of the directives that name one. -/
def directiveTargets (parts : List (List Char × List Char)) : List String :=
  (parts.map fun part => String.ofList (trim part.2)).filter (!·.isEmpty)

section
variable (isFile : String → Bool)

/-- The loop leaves the text outside the directives and sorts their targets, in order. -/
theorem stripSendFileTagsAux_eq {s tail : List Char} {parts : List (List Char × List Char)}
    {rounds : ℕ} (h : HasDirectives s parts tail) (hrounds : s.length < rounds) :
    stripSendFileTagsAux isFile rounds s =
      (outside parts tail, (directiveTargets parts).filter (isAbsoluteReadableFile isFile),
        (directiveTargets parts).filter (!isAbsoluteReadableFile isFile ·)) := by
  unfold HasDirectives at h
  induction h generalizing rounds with
  | done hop =>
    obtain ⟨rounds, rfl⟩ := Nat.exists_eq_add_one_of_ne_zero (Nat.ne_zero_of_lt hrounds)
    rw [stripSendFileTagsAux, toList_sendFileTag, splitOnceStr_eq_none_iff.mpr hop]
    rfl
  | unclosed hop hcl =>
    obtain ⟨rounds, rfl⟩ := Nat.exists_eq_add_one_of_ne_zero (Nat.ne_zero_of_lt hrounds)
    rw [stripSendFileTagsAux, toList_sendFileTag, splitOnceStr_eq_some_iff.mpr hop]
    simp only [splitOnce_eq_splitOnceStr, splitOnceStr_eq_none_iff.mpr hcl, ← hop.text]
    rfl
  | @part _ before content inside rest _ parts hop hcl _ ih =>
    obtain ⟨rounds, rfl⟩ := Nat.exists_eq_add_one_of_ne_zero (Nat.ne_zero_of_lt hrounds)
    have hrest := length_rest_lt sendFileTag_ne_nil hop hcl
    rw [stripSendFileTagsAux, toList_sendFileTag, splitOnceStr_eq_some_iff.mpr hop]
    simp only [splitOnce_eq_splitOnceStr, splitOnceStr_eq_some_iff.mpr hcl]
    rw [ih (by omega), outside_cons]
    -- an empty candidate is dropped, any other one sorted
    have htargets : directiveTargets ((before, inside) :: parts) =
        if (String.ofList (trim inside)).isEmpty then directiveTargets parts
        else String.ofList (trim inside) :: directiveTargets parts := by
      rw [directiveTargets, List.map_cons, List.filter_cons]
      cases (String.ofList (trim inside)).isEmpty <;> rfl
    rw [htargets]
    split
    · rfl
    · rw [List.filter_cons, List.filter_cons]
      cases isAbsoluteReadableFile isFile (String.ofList (trim inside)) <;> rfl

theorem prepareOutboundContent_eq {rawMessage : String} {tail : List Char}
    {parts : List (List Char × List Char)} (h : HasDirectives rawMessage.toList parts tail) :
    prepareOutboundContent isFile rawMessage =
      { message := String.ofList (truncateOutboundText (outside parts tail))
        files := (directiveTargets parts).filter (isAbsoluteReadableFile isFile)
        omittedFiles := (directiveTargets parts).filter (!isAbsoluteReadableFile isFile ·) } := by
  have hstrip := stripSendFileTagsAux_eq isFile h (Nat.lt_succ_self _)
  rw [String.length_toList] at hstrip
  rw [prepareOutboundContent, hstrip]

end

/-! ## The truncated text -/

def HoldsDirective (message : List Char) : Prop := HoldsPart sendFileTag [']'] message

theorem toList_outboundTruncationSuffix : outboundTruncationSuffix.toList =
    '\n' :: '\n' :: ("[Response truncated...".toList ++ [']']) := by
  simp [outboundTruncationSuffix]

theorem truncateOutboundText_of_le {message : List Char} (h : message.length ≤ outboundMaxChars) :
    truncateOutboundText message = message := if_pos h

theorem length_truncateOutboundText_le (message : List Char) :
    (truncateOutboundText message).length ≤ outboundMaxChars := by
  unfold truncateOutboundText
  split
  · next h => exact h
  · have hsuffix : outboundTruncationSuffix.toList.length = 25 := by
      rw [String.length_toList]
      decide
    rw [List.length_append, List.length_take, hsuffix]
    unfold outboundTruncateKeepChars outboundMaxChars
    omega

/-- A long text keeps an opening that ends within the characters that are kept, and the
note behind them closes it. -/
theorem holdsDirective_truncate_iff {message : List Char} (h : outboundMaxChars < message.length) :
    HoldsDirective (truncateOutboundText message) ↔
      ∃ front after, message = front ++ sendFileTag ++ after ∧
        front.length + sendFileTag.length ≤ outboundTruncateKeepChars := by
  rw [← infix_take_iff]
  unfold HoldsDirective truncateOutboundText
  rw [if_neg (by omega), toList_outboundTruncationSuffix, holdsPart_singleton_iff]
  constructor
  · rintro ⟨front, after, htext, -⟩
    rcases occurrence_around (by decide) htext with ⟨more, hmore, -⟩ | ⟨before, -, hbehind⟩
    · exact ⟨front, more, hmore.symm⟩
    · -- the note itself holds no opening
      have hnote : ¬ sendFileTag <:+: '\n' :: ("[Response truncated...".toList ++ [']']) := by decide
      exact absurd ⟨before, after, hbehind.symm⟩ hnote
  · rintro ⟨front, more, hmore⟩
    refine ⟨front, more ++ '\n' :: '\n' :: ("[Response truncated...".toList ++ [']']), ?_, ?_⟩
    · rw [← hmore]
      simp
    · simp

/-! ## When no directive leaks -/

/-- No directive arises from what is left of the message. In a text that is kept whole an
opening can only join where a directive was taken out, and a bracket has to be behind it. In
one that is cut short an opening that joins, or the one that the message leaves open, has to
end within the characters kept: the note closes it. -/
structure NoDirectiveArises (parts : List (List Char × List Char)) (tail : List Char) : Prop where
  whole : (outside parts tail).length ≤ outboundMaxChars →
    ∀ front after, JoinsAt sendFileTag parts tail front after → ']' ∉ after
  cutJoined : outboundMaxChars < (outside parts tail).length →
    ∀ front after, JoinsAt sendFileTag parts tail front after →
      outboundTruncateKeepChars < front.length + sendFileTag.length
  cutOpen : outboundMaxChars < (outside parts tail).length →
    ∀ before after, tail = before ++ sendFileTag ++ after →
      outboundTruncateKeepChars < (outside parts before).length + sendFileTag.length

variable {message tail : List Char} {parts : List (List Char × List Char)}

theorem not_holdsDirective_iff (h : HasDirectives message parts tail) :
    ¬ HoldsDirective (truncateOutboundText (outside parts tail)) ↔
      NoDirectiveArises parts tail := by
  have houtside : ∀ {front after}, outside parts tail = front ++ sendFileTag ++ after ↔ _ :=
    h.outside_eq_iff sendFileTag_ne_nil
  by_cases hlong : outboundMaxChars < (outside parts tail).length
  · rw [holdsDirective_truncate_iff hlong]
    constructor
    · intro hnone
      refine ⟨fun hshort => absurd hlong (not_lt.mpr hshort), fun _ front after hjoins => ?_,
        fun _ before after htail => ?_⟩
      · exact not_le.mp fun hle => hnone ⟨front, after, houtside.mpr (.inl hjoins), hle⟩
      · exact not_le.mp fun hle =>
          hnone ⟨_, after, houtside.mpr (.inr ⟨before, rfl, htail⟩), hle⟩
    · rintro hnone ⟨front, after, htext, hle⟩
      rcases houtside.mp htext with hjoins | ⟨before, rfl, htail⟩
      · exact absurd hle (not_le.mpr (hnone.cutJoined hlong _ _ hjoins))
      · exact absurd hle (not_le.mpr (hnone.cutOpen hlong _ _ htail))
  · have hshort := not_lt.mp hlong
    rw [truncateOutboundText_of_le hshort, HoldsDirective, holdsPart_singleton_iff]
    constructor
    · intro hnone
      refine ⟨fun _ front after hjoins hmem => ?_, fun h => absurd h hlong, fun h => absurd h hlong⟩
      exact hnone ⟨front, after, houtside.mpr (.inl hjoins), hmem⟩
    · rintro hnone ⟨front, after, htext, hmem⟩
      rcases houtside.mp htext with hjoins | ⟨before, -, htail⟩
      · exact hnone.whole hshort _ _ hjoins hmem
      · -- what the message leaves open has no bracket behind it
        refine h.not_holdsPart_tail ?_
        exact holdsPart_singleton_iff.mpr ⟨before, after, htail, hmem⟩

section
variable (isFile : String → Bool)

/-- A message that is short enough is left alone exactly if it holds no directive. -/
theorem prepare_message_eq_self_iff {message : String} (h : message.length ≤ outboundMaxChars) :
    (prepareOutboundContent isFile message).message = message ↔
      ¬ HoldsDirective message.toList := by
  rw [← String.length_toList] at h
  obtain ⟨parts, tail, hscan⟩ : ∃ parts tail, HasDirectives message.toList parts tail :=
    exists_delimited sendFileTag_ne_nil _
  have hshort : (outside parts tail).length ≤ outboundMaxChars := hscan.length_outside_le.trans h
  rw [prepareOutboundContent_eq isFile hscan, truncateOutboundText_of_le hshort,
    HoldsDirective, ← hscan.parts_eq_nil_iff]
  constructor
  · intro hsame
    by_contra hparts
    have hlt := hscan.length_outside_lt sendFileTag_ne_nil hparts
    rw [← hsame, String.toList_ofList] at hlt
    exact lt_irrefl _ hlt
  · rintro rfl
    have htext := hscan.text
    rw [List.flatMap_nil, List.nil_append] at htext
    rw [outside_nil, ← htext, String.ofList_toList]

/-- Outbound content as it should be: the message holds no complete directive, is short
enough and is left alone when it is prepared again; and the targets of the directives that
the raw message held are its files and omitted files, in order. -/
structure DirectivesHidden (rawMessage : String) : Prop where
  hidden : ¬ HoldsDirective (prepareOutboundContent isFile rawMessage).message.toList
  bounded : (prepareOutboundContent isFile rawMessage).message.length ≤ outboundMaxChars
  settled : (prepareOutboundContent isFile
    (prepareOutboundContent isFile rawMessage).message).message =
      (prepareOutboundContent isFile rawMessage).message
  sorted : ∀ parts tail, HasDirectives rawMessage.toList parts tail →
    (prepareOutboundContent isFile rawMessage).files =
      (directiveTargets parts).filter (isAbsoluteReadableFile isFile) ∧
    (prepareOutboundContent isFile rawMessage).omittedFiles =
      (directiveTargets parts).filter (!isAbsoluteReadableFile isFile ·)

theorem prepared_length_le (rawMessage : String) :
    (prepareOutboundContent isFile rawMessage).message.length ≤ outboundMaxChars := by
  rw [← String.length_toList]
  exact (congrArg List.length String.toList_ofList).trans_le (length_truncateOutboundText_le _)

/-- What is prepared is as it should be exactly if no directive arises from what is left. -/
theorem directives_hidden_iff (rawMessage : String) : DirectivesHidden isFile rawMessage ↔
    ∀ parts tail, HasDirectives rawMessage.toList parts tail → NoDirectiveArises parts tail := by
  have hmessage : ∀ {parts tail}, HasDirectives rawMessage.toList parts tail →
      (prepareOutboundContent isFile rawMessage).message.toList =
        truncateOutboundText (outside parts tail) := fun hscan => by
    rw [prepareOutboundContent_eq isFile hscan, String.toList_ofList]
  constructor
  · intro h parts tail hscan
    exact (not_holdsDirective_iff hscan).mp (hmessage hscan ▸ h.hidden)
  · intro h
    obtain ⟨parts, tail, hscan⟩ : ∃ parts tail, HasDirectives rawMessage.toList parts tail :=
      exists_delimited sendFileTag_ne_nil _
    have hhidden : ¬ HoldsDirective (prepareOutboundContent isFile rawMessage).message.toList :=
      hmessage hscan ▸ (not_holdsDirective_iff hscan).mpr (h parts tail hscan)
    have hbounded := prepared_length_le isFile rawMessage
    refine ⟨hhidden, hbounded, (prepare_message_eq_self_iff isFile hbounded).mpr hhidden, ?_⟩
    intro parts tail hscan
    rw [prepareOutboundContent_eq isFile hscan]
    exact ⟨rfl, rfl⟩

end

/-! ## Directives that leak -/

/-- A directive inside the opening of another. -/
def nestedDirective : String := "[send[send_file:/x]_file:/y]"

/-- A directive that is not closed, in a message that is cut short. -/
def openDirective : List Char := sendFileTag ++ List.replicate 4000 'a'

theorem outbound_directives_leak : ¬ DirectivesHidden (fun _ => false) nestedDirective ∧
    ¬ DirectivesHidden (fun _ => false) (String.ofList openDirective) := by
  constructor
  · intro h
    have hmessage : (prepareOutboundContent (fun _ => false) nestedDirective).message.toList =
        sendFileTag ++ ['/', 'y', ']'] := by decide
    refine h.hidden (hmessage ▸ ?_)
    exact holdsPart_singleton_iff.mpr ⟨[], ['/', 'y', ']'], rfl, by decide⟩
  · intro h
    have hopen : FirstAt sendFileTag openDirective [] (List.replicate 4000 'a') :=
      ⟨rfl, fun _ _ _ => Nat.zero_le _⟩
    have hscan : HasDirectives (String.ofList openDirective).toList [] openDirective := by
      rw [String.toList_ofList]
      refine .unclosed hopen fun hbracket => ?_
      exact absurd (List.eq_of_mem_replicate (hbracket.subset List.mem_cons_self)) (by decide)
    have hlong : outboundMaxChars < openDirective.length := by
      rw [openDirective, List.length_append, List.length_replicate]
      decide
    refine h.hidden ?_
    rw [prepareOutboundContent_eq _ hscan, String.toList_ofList, outside_nil,
      holdsDirective_truncate_iff hlong]
    exact ⟨[], List.replicate 4000 'a', rfl, by decide⟩

end Direclaw.Queue
