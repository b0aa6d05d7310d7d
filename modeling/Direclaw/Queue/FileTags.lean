import Direclaw.Lib.Text
import Direclaw.Queue.Message

/-!
# File references in message texts

`queue/file_tags.rs` and `queue/outbound.rs`: `[file: …]` tags of inbound texts,
`[send_file: …]` tags of outbound texts, and the normalization that
`claim_oldest` and `write_outgoing_message` apply. Which paths are readable
files is up to the machine and is the parameter `isFile`.

Both tag scans go on behind a closing bracket, in a shorter text, so the length
of the text bounds the number of rounds.
-/

namespace Direclaw.Queue

open Direclaw.Lib

def isAbsolutePath (path : List Char) : Bool := path.head? == some '/'

def isAbsoluteReadableFile (isFile : String → Bool) (path : String) : Bool :=
  isAbsolutePath path.toList && isFile path

/-! ## Inbound -/

def extractAbsoluteTagsAux (tag : List Char) : ℕ → List Char → List String
  | 0, _ => []
  | rounds + 1, message =>
    match Text.splitOnceStr tag message with
    | none => []
    | some (_, content) =>
      match Text.splitOnce ']' content with
      | none => []
      | some (inside, rest) =>
        let candidate := Text.trim inside
        let tags := extractAbsoluteTagsAux tag rounds rest
        if isAbsolutePath candidate then String.ofList candidate :: tags else tags

def extractAbsoluteTags (message tag : String) : List String :=
  extractAbsoluteTagsAux tag.toList (message.length + 1) message.toList

def extractInboundFileTags (message : String) : List String := extractAbsoluteTags message "[file:"

def appendInboundFileTags (message : String) (files : List String) : String :=
  let tags := (files.filter fun path => isAbsolutePath path.toList).map fun path => s!"[file: {path}]"
  let joined := String.intercalate "\n" tags
  if tags.isEmpty then message
  else if message.isEmpty then joined
  else s!"{message}\n{joined}"

/-- Insertion into a vector guarded by a `HashSet` of what was seen. -/
def pushNew (seen : List String) (path : String) : List String :=
  if path ∈ seen then seen else seen ++ [path]

variable {paths seen : List String}

theorem mem_foldl_pushNew {path : String} :
    path ∈ paths.foldl pushNew seen ↔ path ∈ seen ∨ path ∈ paths := by
  induction paths generalizing seen with
  | nil => simp
  | cons next paths ih =>
    rw [List.foldl_cons, ih, List.mem_cons, pushNew]
    split
    · next hseen =>
        constructor
        · exact fun h => h.imp_right Or.inr
        · rintro (h | rfl | h)
          · exact .inl h
          · exact .inl hseen
          · exact .inr h
    · rw [List.mem_append, List.mem_singleton, or_assoc]

theorem nodup_foldl_pushNew (h : seen.Nodup) : (paths.foldl pushNew seen).Nodup := by
  induction paths generalizing seen with
  | nil => exact h
  | cons next paths ih =>
    apply ih
    unfold pushNew
    split
    · exact h
    · next hnew => exact h.append (List.nodup_singleton next) (by simpa using hnew)

theorem foldl_pushNew_of_nodup (h : (seen ++ paths).Nodup) :
    paths.foldl pushNew seen = seen ++ paths := by
  induction paths generalizing seen with
  | nil => rw [List.foldl_nil, List.append_nil]
  | cons next paths ih =>
    have hnew : next ∉ seen := fun hmem =>
      List.disjoint_of_nodup_append h hmem List.mem_cons_self
    rw [← List.singleton_append, ← List.append_assoc] at h
    rw [List.foldl_cons, pushNew, if_neg hnew, ih h, List.append_assoc, List.singleton_append]

theorem foldl_pushNew_of_seen (h : ∀ path ∈ paths, path ∈ seen) :
    paths.foldl pushNew seen = seen := by
  induction paths with
  | nil => rfl
  | cons next paths ih =>
    obtain ⟨hnext, hpaths⟩ := List.forall_mem_cons.mp h
    rw [List.foldl_cons, pushNew, if_pos hnext, ih hpaths]

def normalizeInboundPayload (payload : IncomingMessage) : IncomingMessage :=
  let messageTags := extractInboundFileTags payload.message
  let merged := (payload.files.filter fun path => isAbsolutePath path.toList).foldl pushNew []
  let merged := messageTags.foldl pushNew merged
  let missing := merged.filter (· ∉ messageTags)
  { payload with
    message := appendInboundFileTags payload.message missing
    files := merged }

/-- Without files and without a bracket there is nothing to normalize. -/
theorem normalizeInboundPayload_of_no_tags {payload : IncomingMessage} (hfiles : payload.files = [])
    (hmessage : '[' ∉ payload.message.toList) : normalizeInboundPayload payload = payload := by
  have htags : extractInboundFileTags payload.message = [] := by
    have hnone : Text.splitOnceStr "[file:".toList payload.message.toList = none :=
      Text.splitOnceStr_eq_none hmessage
    simp only [extractInboundFileTags, extractAbsoluteTags, extractAbsoluteTagsAux, hnone]
  cases payload
  cases hfiles
  simp only [normalizeInboundPayload, htags]
  rfl

/-! ## Outbound -/

def outboundMaxChars : ℕ := 4000
def outboundTruncateKeepChars : ℕ := 3900
def outboundTruncationSuffix : String := "\n\n[Response truncated...]"

structure OutboundContent where
  message : String
  files : List String
  omittedFiles : List String

section
variable (isFile : String → Bool)

def stripSendFileTagsAux : ℕ → List Char → List Char × List String × List String
  | 0, message => (message, [], [])
  | rounds + 1, message =>
    match Text.splitOnceStr "[send_file:".toList message with
    | none => (message, [], [])
    | some (before, content) =>
      match Text.splitOnce ']' content with
      | none => (before ++ "[send_file:".toList ++ content, [], [])
      | some (inside, rest) =>
        let candidate := String.ofList (Text.trim inside)
        let (output, files, omitted) := stripSendFileTagsAux rounds rest
        if candidate.isEmpty then (before ++ output, files, omitted)
        else if isAbsoluteReadableFile isFile candidate then
          (before ++ output, candidate :: files, omitted)
        else (before ++ output, files, candidate :: omitted)

def truncateOutboundText (message : List Char) : List Char :=
  if message.length ≤ outboundMaxChars then message
  else message.take outboundTruncateKeepChars ++ outboundTruncationSuffix.toList

def prepareOutboundContent (rawMessage : String) : OutboundContent :=
  let (stripped, referencedFiles, omittedFiles) :=
    stripSendFileTagsAux isFile (rawMessage.length + 1) rawMessage.toList
  { message := String.ofList (truncateOutboundText stripped)
    files := referencedFiles
    omittedFiles := omittedFiles }

/-- The normalized message and the files that were left out of it. -/
def normalizeOutgoingMessage (outgoing : OutgoingMessage) : OutgoingMessage × List String :=
  let prepared := prepareOutboundContent isFile outgoing.message
  let readable := outgoing.files.filter (isAbsoluteReadableFile isFile)
  let omitted := prepared.omittedFiles ++
    outgoing.files.filter fun path => !isAbsoluteReadableFile isFile path
  let files := prepared.files.foldl pushNew (readable.foldl pushNew [])
  ({ outgoing with message := prepared.message, files := files }, omitted)

end

end Direclaw.Queue
