import Direclaw.Lib.Text
import Direclaw.Lib.Json
import Mathlib.Data.Char
import Mathlib.Data.List.AList
import Mathlib.Data.List.Sort
import Mathlib.Data.Prod.Lex

/-!
# Queue directories and file names

`queue/paths.rs`, the names that `queue/lifecycle.rs` generates, and directories
of regular files. A directory maps each name to one file, and a rename or write
over an existing name replaces its file.

The hash in a generated name is the first eight bytes of a SHA-256 digest; it is
the parameter `hash`, and nothing is assumed of it. The counter is a process-wide
`u64`.
-/

namespace Direclaw.Queue

open Direclaw.Lib

/-! ## Directories -/

abbrev FileName := List Char

/-- The content of a file, as far as `read_to_string` and the JSON reader get
with it. -/
inductive Content : Type where
  | notUtf8 (bytes : List UInt8)
  | notJson (text : String)
  | json (value : Json)

structure File where
  modified : ℕ
  content : Content

/-- `fs::rename` and `fs::write` insert a file under its new name. -/
abbrev Directory := AList fun _ : FileName => File

theorem Directory.lookup_insert (d : Directory) (name other : FileName) (file : File) :
    (d.insert name file).lookup other = if other = name then some file else d.lookup other := by
  split
  · next h => rw [h, AList.lookup_insert]
  · next h => exact AList.lookup_insert_ne h

theorem Directory.lookup_erase (d : Directory) (name other : FileName) :
    (d.erase name).lookup other = if other = name then none else d.lookup other := by
  split
  · next h => rw [h, AList.lookup_erase]
  · next h => exact AList.lookup_erase_ne h

theorem Directory.mem_entries {d : Directory} {name : FileName} {file : File} :
    (name, file) ∈ d.entries.map (fun e => (e.1, e.2)) ↔ d.lookup name = some file := by
  rw [← Option.mem_def, AList.mem_lookup_iff, List.mem_map]
  constructor
  · rintro ⟨⟨n, f⟩, hmem, heq⟩
    cases heq
    exact hmem
  · exact fun hmem => ⟨_, hmem, rfl⟩

/-! ## Names -/

def sanitizeFilenameComponent (raw : List Char) : List Char :=
  raw.map fun c => if c.isAlphanum || c == '-' || c == '_' || c == '.' then c else '_'

/-- `i64` in decimal. -/
def decimalI64 (n : Int64) : List Char :=
  if n.toInt < 0 then '-' :: Text.decimal n.toInt.natAbs else Text.decimal n.toInt.natAbs

def jsonSuffix : List Char := ".json".toList

def outgoingStem (channel messageId : String) (timestamp : Int64) : List Char :=
  if channel = "heartbeat" then sanitizeFilenameComponent messageId.toList
  else
    sanitizeFilenameComponent channel.toList ++ '_' ::
      (sanitizeFilenameComponent messageId.toList ++ '_' :: decimalI64 timestamp)

def outgoingFilename (channel messageId : String) (timestamp : Int64) : FileName :=
  outgoingStem channel messageId timestamp ++ jsonSuffix

/-- `outgoing_filename` always ends in `.json`, so the suffix can be cut off. -/
def uniqueOutgoingFilename (channel messageId : String) (timestamp : Int64) (index : ℕ) :
    FileName :=
  if index = 0 then outgoingFilename channel messageId timestamp
  else outgoingStem channel messageId timestamp ++ '_' :: Text.decimal index ++ jsonSuffix

/-- Different indices give different names. -/
theorem uniqueOutgoingFilename_injective (channel messageId : String) (timestamp : Int64) :
    Function.Injective (uniqueOutgoingFilename channel messageId timestamp) := by
  intro i j h
  unfold uniqueOutgoingFilename outgoingFilename at h
  split at h <;> split at h
  · next hi hj => rw [hi, hj]
  · have := List.append_cancel_right h
    simp at this
  · have := List.append_cancel_right h
    simp at this
  · have := List.append_cancel_left (List.append_cancel_right h)
    exact Text.decimal_injective (List.cons.inj this).2

def isValidQueueJsonFilename (name : FileName) : Bool :=
  Text.extension name == some "json".toList && !Text.isBlank (Text.fileStem name)

/-- What the name of a requeued file starts with. -/
def requeueTag : List Char := ['r', 'e', 'q', 'u', 'e', 'u', 'e', '_', 'a']

section Names

variable (hash : List Char → List Char)

def uniqueRequeueName (original : FileName) (attempt counter : ℕ) : FileName :=
  let ext := (Text.extension original).getD "json".toList
  let digest := hash (original ++ ':' :: Text.decimal attempt)
  requeueTag ++ (Text.decimal attempt ++ '_' :: (digest ++ '_' :: Text.decimal counter)) ++ '.' :: ext

def deadLetterFilename (messageId : String) (counter : ℕ) : FileName :=
  "failed_".toList ++ hash messageId.toList ++ '_' :: Text.decimal counter ++ jsonSuffix

def requeueAttemptFromName (original : FileName) : ℕ :=
  match Text.stripPrefix requeueTag (Text.fileStem original) with
  | none => 0
  | some rest =>
    match Text.splitOnce '_' rest with
    | none => 0
    | some (attemptRaw, _) => (Text.parseU32 attemptRaw).getD 0

def nextFailureAttempt (processing : FileName) : ℕ := Text.u32Succ (requeueAttemptFromName processing)

/-! ### Generated names -/

variable {hash}

theorem requeueTag_isPrefix_name (original : FileName) (attempt counter : ℕ) :
    requeueTag <+: uniqueRequeueName hash original attempt counter := by
  rw [uniqueRequeueName, List.append_assoc]
  exact List.prefix_append _ _

theorem requeueDigit_isPrefix_name (original : FileName) (attempt counter : ℕ) :
    ∃ d : Char, d.isDigit = true ∧
      requeueTag ++ [d] <+: uniqueRequeueName hash original attempt counter := by
  obtain ⟨d, ds, hdigits⟩ := List.exists_cons_of_ne_nil (Text.decimal_ne_nil attempt)
  refine ⟨d, Text.isDigit_of_mem_decimal (hdigits ▸ List.mem_cons_self), ?_⟩
  rw [uniqueRequeueName, hdigits, List.append_assoc, List.prefix_append_right_inj]
  exact ⟨_, rfl⟩

def requeueExtension (original : FileName) : List Char :=
  (Text.extension original).getD "json".toList

theorem dot_not_mem_requeueExtension (original : FileName) : '.' ∉ requeueExtension original := by
  unfold requeueExtension
  cases hext : Text.extension original with
  | none => decide
  | some ext => exact (Text.extension_spec hext).1

theorem uniqueRequeueName_spec (original : FileName) (attempt counter : ℕ) :
    Text.extension (uniqueRequeueName hash original attempt counter) =
        some (requeueExtension original) ∧
      Text.fileStem (uniqueRequeueName hash original attempt counter) =
        requeueTag ++ (Text.decimal attempt ++ '_' ::
          (hash (original ++ ':' :: Text.decimal attempt) ++ '_' :: Text.decimal counter)) := by
  have hparts := Text.fileStem_extension_append (by decide : 'r' ≠ '.') (requeueTag.tail ++
    (Text.decimal attempt ++ '_' :: (hash (original ++ ':' :: Text.decimal attempt) ++
      '_' :: Text.decimal counter))) (dot_not_mem_requeueExtension original)
  exact ⟨hparts.2, hparts.1⟩

theorem requeueAttemptFromName_uniqueRequeueName (original : FileName) {attempt : ℕ}
    (hle : attempt ≤ Text.u32Max) (counter : ℕ) :
    requeueAttemptFromName (uniqueRequeueName hash original attempt counter) = attempt := by
  have hdigits : '_' ∉ Text.decimal attempt := Text.not_mem_decimal (by decide) attempt
  rw [requeueAttemptFromName, (uniqueRequeueName_spec original attempt counter).2,
    Text.stripPrefix_append]
  simp only [Text.splitOnce_append hdigits, Text.parseU32_decimal hle, Option.getD_some]

theorem extension_of_isValid {name : FileName} (h : isValidQueueJsonFilename name = true) :
    Text.extension name = some "json".toList := by
  simpa using (Bool.and_eq_true_iff.mp h).1

/-- The counter can be read off a requeue name. -/
theorem uniqueRequeueName_counter {o o' : List Char} {a a' c c' : ℕ}
    (h : uniqueRequeueName hash o a c = uniqueRequeueName hash o' a' c') : c = c' := by
  have hstem := congrArg Text.fileStem h
  rw [(uniqueRequeueName_spec o a c).2, (uniqueRequeueName_spec o' a' c').2] at hstem
  have hsplit : ∀ (n k : ℕ) (d : List Char),
      requeueTag ++ (Text.decimal n ++ '_' :: (d ++ '_' :: Text.decimal k)) =
        (requeueTag ++ Text.decimal n ++ '_' :: d) ++ '_' :: Text.decimal k := by
    intro n k d
    simp
  rw [hsplit, hsplit] at hstem
  exact Text.decimal_injective (Text.suffix_unique (Text.not_mem_decimal (by decide) c)
    (Text.not_mem_decimal (by decide) c') hstem)

theorem deadLetterFilename_counter {id id' : String} {c c' : ℕ}
    (h : deadLetterFilename hash id c = deadLetterFilename hash id' c') : c = c' := by
  have hstem := List.append_cancel_right h
  exact Text.decimal_injective (Text.suffix_unique (Text.not_mem_decimal (by decide) c)
    (Text.not_mem_decimal (by decide) c') hstem)

theorem isValid_uniqueRequeueName {original : FileName}
    (hvalid : isValidQueueJsonFilename original = true) (attempt counter : ℕ) :
    isValidQueueJsonFilename (uniqueRequeueName hash original attempt counter) = true := by
  obtain ⟨hext, hstem⟩ := @uniqueRequeueName_spec hash original attempt counter
  rw [isValidQueueJsonFilename, hext, hstem, requeueExtension, extension_of_isValid hvalid]
  rfl

end Names

end Direclaw.Queue
