import Direclaw.Lib.Delimited
import Direclaw.Lib.Trimming
import Direclaw.Queue.FileTags

/-!
# Inbound file tags and the file list

`normalize_inbound_payload` merges the listed files with the ones that tags of the message
name, and writes a tag for each that has none. When does the list agree with the tags that
are read afterwards? A file whose path no tag can hold is written all the same and not read
back, and a tag behind one that the message leaves open is taken for its content.
-/

namespace Direclaw.Queue

open Direclaw.Lib Direclaw.Lib.Text

/-! ## What the scan reads -/

/-- The file that a tag with this content names. -/
def namedFile (inside : List Char) : Option String :=
  if isAbsolutePath (trim inside) then some (String.ofList (trim inside)) else none

/-- `"[file:"`. -/
def fileTag : List Char := ['[', 'f', 'i', 'l', 'e', ':']

theorem toList_fileTag : "[file:".toList = fileTag := by simp [fileTag]

theorem extractAbsoluteTagsAux_eq {tag s tail : List Char} {parts : List (List Char × List Char)}
    {rounds : ℕ} (htag : tag ≠ []) (h : Delimited tag [']'] s parts tail)
    (hrounds : s.length < rounds) :
    extractAbsoluteTagsAux tag rounds s = parts.filterMap fun part => namedFile part.2 := by
  induction h generalizing rounds with
  | done hop =>
    obtain ⟨rounds, rfl⟩ := Nat.exists_eq_add_one_of_ne_zero (Nat.ne_zero_of_lt hrounds)
    rw [extractAbsoluteTagsAux, splitOnceStr_eq_none_iff.mpr hop]
    rfl
  | unclosed hop hcl =>
    obtain ⟨rounds, rfl⟩ := Nat.exists_eq_add_one_of_ne_zero (Nat.ne_zero_of_lt hrounds)
    rw [extractAbsoluteTagsAux, splitOnceStr_eq_some_iff.mpr hop]
    simp only [splitOnce_eq_splitOnceStr, splitOnceStr_eq_none_iff.mpr hcl, List.filterMap_nil]
  | part hop hcl _ ih =>
    obtain ⟨rounds, rfl⟩ := Nat.exists_eq_add_one_of_ne_zero (Nat.ne_zero_of_lt hrounds)
    have hrest := length_rest_lt htag hop hcl
    rw [extractAbsoluteTagsAux, splitOnceStr_eq_some_iff.mpr hop]
    simp only [splitOnce_eq_splitOnceStr, splitOnceStr_eq_some_iff.mpr hcl]
    rw [ih (by omega), List.filterMap_cons, namedFile]
    split <;> rfl

/-- The scan of the text finds these files; `rest` is what it ends in. -/
def ReadsFiles (s : List Char) (files : List String) (rest : List Char) : Prop :=
  ∃ parts, Delimited fileTag [']'] s parts rest ∧
    parts.filterMap (fun part => namedFile part.2) = files

variable {files : List String} {path : String} {message : String}

theorem extractInboundFileTags_of_reads {rest : List Char}
    (h : ReadsFiles message.toList files rest) : extractInboundFileTags message = files := by
  obtain ⟨parts, hscan, rfl⟩ := h
  unfold extractInboundFileTags extractAbsoluteTags
  rw [toList_fileTag]
  apply extractAbsoluteTagsAux_eq (by decide) hscan
  rw [String.length_toList]
  exact Nat.lt_succ_self _

theorem exists_readsFiles (message : String) :
    ∃ rest, ReadsFiles message.toList (extractInboundFileTags message) rest := by
  obtain ⟨parts, rest, hscan⟩ : ∃ parts rest, Delimited fileTag [']'] message.toList parts rest :=
    exists_delimited (by decide) _
  have hreads : ReadsFiles message.toList _ rest := ⟨parts, hscan, rfl⟩
  exact ⟨rest, extractInboundFileTags_of_reads hreads ▸ hreads⟩

/-- A path that the content of a tag can be: without the bracket that would end the tag, and
without blanks around it. -/
structure FitsTag (path : String) : Prop where
  bracket : ']' ∉ path.toList
  trimmed : trim path.toList = path.toList

theorem namedFile_eq_some_iff {inside : List Char} :
    namedFile inside = some path ↔
      trim inside = path.toList ∧ isAbsolutePath path.toList = true := by
  unfold namedFile
  split
  · next habsolute =>
      rw [Option.some.injEq]
      constructor
      · rintro rfl
        rw [String.toList_ofList]
        exact ⟨rfl, habsolute⟩
      · intro h
        rw [h.1, String.ofList_toList]
  · next hrelative => exact iff_of_false nofun fun h => hrelative (h.1 ▸ h.2)

theorem ReadsFiles.fits {s rest : List Char} (h : ReadsFiles s files rest) :
    ∀ path ∈ files, FitsTag path ∧ isAbsolutePath path.toList = true := by
  obtain ⟨parts, hscan, rfl⟩ := h
  induction hscan with
  | done => exact fun _ hmem => absurd hmem List.not_mem_nil
  | unclosed => exact fun _ hmem => absurd hmem List.not_mem_nil
  | @part _ _ _ inside _ _ _ _ hcl _ ih =>
    intro path hmem
    rw [List.filterMap_cons] at hmem
    cases hnamed : namedFile inside with
    | none =>
      rw [hnamed] at hmem
      exact ih path hmem
    | some named =>
      rw [hnamed] at hmem
      rcases List.mem_cons.mp hmem with rfl | hlater
      · obtain ⟨htrim, habsolute⟩ := namedFile_eq_some_iff.mp hnamed
        refine ⟨⟨fun hbracket => ?_, ?_⟩, habsolute⟩
        · rw [← htrim] at hbracket
          exact (firstAt_singleton.mp hcl).2 (mem_of_mem_trim hbracket)
        · rw [← htrim, trim_trim]
      · exact ih path hlater

theorem fits_of_mem_extractInboundFileTags {message path : String}
    (h : path ∈ extractInboundFileTags message) :
    FitsTag path ∧ isAbsolutePath path.toList = true :=
  (exists_readsFiles message).choose_spec.fits path h

/-! ## What is written back -/

def tagText (path : String) : List Char := fileTag ++ ' ' :: path.toList ++ [']']

def tagLines : List String → List Char
  | [] => []
  | [path] => tagText path
  | path :: files => tagText path ++ '\n' :: tagLines files

theorem tagLines_eq (files : List String) :
    tagLines files =
      (String.intercalate "\n" (files.map fun path => s!"[file: {path}]")).toList := by
  have htext : ∀ path : String, (s!"[file: {path}]").toList = tagText path := by
    intro path
    change ("[file: " ++ path ++ "]").toList = _
    simp [tagText, fileTag, String.toList_append]
  fun_induction tagLines files with
  | case1 => rfl
  | case2 path => rw [List.map_singleton, String.intercalate_singleton, htext]
  | case3 path files hmore ih =>
    rw [List.map_cons, String.intercalate_cons_of_ne_nil (by simpa using hmore), ih]
    simp [String.toList_append, ← htext]

theorem toList_appendInboundFileTags (hfiles : ∀ path ∈ files, isAbsolutePath path.toList = true)
    (hne : files ≠ []) :
    (appendInboundFileTags message files).toList =
      if message.isEmpty then tagLines files else message.toList ++ '\n' :: tagLines files := by
  unfold appendInboundFileTags
  rw [List.filter_eq_self.mpr hfiles, if_neg (by simpa using hne), tagLines_eq]
  split
  · rfl
  · change (message ++ "\n" ++ _).toList = _
    rw [String.toList_append, String.toList_append, List.append_assoc]
    rfl

/-- A text whose scan finds these files and ends without an open tag. -/
def ReadsClosed (s : List Char) (files : List String) : Prop :=
  ∃ rest, ReadsFiles s files rest ∧ ¬ fileTag <:+: rest

theorem readsClosed_nil : ReadsClosed [] [] :=
  ⟨[], ⟨[], .done (by decide), rfl⟩, by decide⟩

/-- Behind a text without an open tag a further line is read as by itself. -/
theorem ReadsClosed.line {s t : List Char} {files files' : List String}
    (hs : ReadsClosed s files) (ht : ReadsClosed t files') :
    ReadsClosed (s ++ '\n' :: t) (files ++ files') := by
  obtain ⟨rest, ⟨parts, hscan, rfl⟩, hclosed⟩ := hs
  obtain ⟨rest', ⟨parts', hscan', rfl⟩, hclosed'⟩ := ht
  obtain ⟨behind, tail, hbehind, hsame, hopen⟩ :=
    hscan'.behind_gap (c := '\n') (by decide) hclosed
  refine ⟨tail, ⟨parts ++ behind, hscan.append hbehind, ?_⟩, fun h => hclosed' (hopen.mp h)⟩
  have hnamed : ∀ parts : List (List Char × List Char),
      parts.filterMap (fun part => namedFile part.2) = (parts.map (·.2)).filterMap namedFile :=
    fun parts => by rw [List.filterMap_map]; rfl
  rw [List.filterMap_append, hnamed behind, hsame, ← hnamed]

theorem firstAt_fileTag (content : List Char) : FirstAt fileTag (fileTag ++ content) [] content :=
  ⟨rfl, fun _ _ _ => Nat.zero_le _⟩

theorem firstAt_bracket {path : String} (h : FitsTag path) (front rest : List Char)
    (hfront : ']' ∉ front) : FirstAt [']'] (front ++ path.toList ++ ']' :: rest)
      (front ++ path.toList) rest := by
  refine firstAt_singleton.mpr ⟨rfl, fun hmem => ?_⟩
  exact (List.mem_append.mp hmem).elim hfront h.bracket

theorem trim_blank_path (h : FitsTag path) :
    trim (' ' :: path.toList) = path.toList :=
  (trim_cons_of_isWhitespace (by decide) _).trans h.trimmed

theorem readsClosed_tagText {path : String} (hfits : FitsTag path)
    (habsolute : isAbsolutePath path.toList = true) : ReadsClosed (tagText path) [path] := by
  have hscan : Delimited fileTag [']'] (tagText path) [([], ' ' :: path.toList)] [] := by
    apply Delimited.part
    · unfold tagText
      rw [List.append_assoc]
      exact firstAt_fileTag _
    · exact firstAt_bracket hfits [' '] [] (by decide)
    · exact .done (by decide)
  have hnamed : namedFile (' ' :: path.toList) = some path :=
    namedFile_eq_some_iff.mpr ⟨trim_blank_path hfits, habsolute⟩
  exact ⟨[], ⟨_, hscan, by rw [List.filterMap_cons, hnamed]; rfl⟩, by decide⟩

theorem readsClosed_tagLines (h : ∀ path ∈ files, FitsTag path ∧ isAbsolutePath path.toList = true)
    : ReadsClosed (tagLines files) files := by
  fun_induction tagLines files with
  | case1 => exact readsClosed_nil
  | case2 path =>
    obtain ⟨hfits, habsolute⟩ := h path (List.mem_singleton_self path)
    exact readsClosed_tagText hfits habsolute
  | case3 path files hmore ih =>
    obtain ⟨⟨hfits, habsolute⟩, hfiles⟩ := List.forall_mem_cons.mp h
    exact (readsClosed_tagText hfits habsolute).line (ih hfiles)

/-! ## Open tags -/

/-- The message opens a tag that no bracket behind it closes. -/
def LeavesTagOpen (message : String) : Prop :=
  ∃ before after, message.toList = before ++ fileTag ++ after ∧ ']' ∉ after

theorem leavesTagOpen_iff {message : String} {files : List String} {rest : List Char}
    (h : ReadsFiles message.toList files rest) : LeavesTagOpen message ↔ fileTag <:+: rest :=
  (h.choose_spec.1.open_iff (by decide)).symm

theorem readsClosed_message (h : ¬ LeavesTagOpen message) :
    ReadsClosed message.toList (extractInboundFileTags message) := by
  obtain ⟨rest, hreads⟩ := exists_readsFiles message
  exact ⟨rest, hreads, fun hopen => h ((leavesTagOpen_iff hreads).mpr hopen)⟩

/-- If nothing is left open, the tags that are written are read behind the ones there. -/
theorem extract_appendInboundFileTags (hclosed : ¬ LeavesTagOpen message)
    (hfiles : ∀ path ∈ files, FitsTag path ∧ isAbsolutePath path.toList = true) (hne : files ≠ []) :
    extractInboundFileTags (appendInboundFileTags message files) =
      extractInboundFileTags message ++ files := by
  have htext : (appendInboundFileTags message files).toList = _ :=
    toList_appendInboundFileTags (fun path hmem => (hfiles path hmem).2) hne
  have hlines := readsClosed_tagLines hfiles
  have hmessage := readsClosed_message hclosed
  split at htext
  · next hempty =>
      obtain ⟨rest, hreads, -⟩ := hlines
      rw [extractInboundFileTags_of_reads (htext ▸ hreads), String.isEmpty_iff.mp hempty]
      rfl
  · obtain ⟨rest, hreads, -⟩ := hmessage.line hlines
    exact extractInboundFileTags_of_reads (htext ▸ hreads)

/-- What takes a tag in for its content does not name the tag's file: it holds one more
opening bracket. -/
theorem namedFile_around_tag {front : List Char} :
    namedFile (front ++ fileTag ++ ' ' :: path.toList) ≠ some path := by
  intro h
  have htrim := (namedFile_eq_some_iff.mp h).1
  have hcount := congrArg (List.count '[') htrim
  have hblank : isWhitespace '[' = false := by decide
  have hfileTag : fileTag.count '[' = 1 := by decide
  have hspace : (' ' :: path.toList).count '[' = path.toList.count '[' :=
    List.count_cons_of_ne (by decide)
  rw [count_trim hblank, List.count_append, List.count_append, hfileTag, hspace] at hcount
  omega

/-- An open tag takes the tag on the next line in for its content. -/
theorem ReadsFiles.into_open {s t rest rest' : List Char} {files files' : List String}
    (hs : ReadsFiles s files rest) (hopen : fileTag <:+: rest) (hpath : FitsTag path)
    (ht : ReadsFiles t files' rest') :
    ∃ front, ReadsFiles (s ++ '\n' :: (tagText path ++ t))
      (files ++ ((namedFile (front ++ fileTag ++ ' ' :: path.toList)).toList ++ files')) rest' := by
  obtain ⟨parts, hscan, rfl⟩ := hs
  obtain ⟨parts', hscan', rfl⟩ := ht
  obtain ⟨before, content, hfirst, hbracket⟩ := hscan.firstAt_tail hopen
  have hcontent : ']' ∉ content ++ '\n' :: fileTag ++ [' '] := by
    intro hmem
    simp only [List.append_assoc, List.mem_append] at hmem
    refine hmem.elim (fun h => hbracket ?_) (by decide)
    exact (List.singleton_infix_iff _ _).mpr h
  refine ⟨content ++ ['\n'],
    parts ++ (before, content ++ '\n' :: fileTag ++ [' '] ++ path.toList) :: parts', ?_, ?_⟩
  · apply hscan.append
    refine .part (hfirst.append _) ?_ hscan'
    have hclose := firstAt_bracket hpath _ t hcontent
    simpa [tagText] using hclose
  · rw [List.filterMap_append, List.filterMap_cons]
    have hinside : content ++ '\n' :: fileTag ++ [' '] ++ path.toList =
        content ++ ['\n'] ++ fileTag ++ ' ' :: path.toList := by simp
    rw [hinside]
    cases namedFile (content ++ ['\n'] ++ fileTag ++ ' ' :: path.toList) <;> rfl

/-- Behind a tag that is left open the first tag of the lines is not read. -/
theorem not_mem_extract_of_open {message path : String} (hopen : LeavesTagOpen message)
    (hfits : ∀ file ∈ path :: files, FitsTag file ∧ isAbsolutePath file.toList = true)
    (hmessage : path ∉ extractInboundFileTags message) (hfiles : path ∉ files) :
    path ∉ extractInboundFileTags (appendInboundFileTags message (path :: files)) := by
  obtain ⟨rest, hreads⟩ := exists_readsFiles message
  obtain ⟨⟨hpath, -⟩, hlines⟩ := List.forall_mem_cons.mp hfits
  -- the lines behind the first one
  obtain ⟨lines, htagLines, tail, hreadLines, -⟩ :
      ∃ lines, tagLines (path :: files) = tagText path ++ lines ∧ ReadsClosed lines files := by
    cases files with
    | nil => exact ⟨[], (List.append_nil _).symm, readsClosed_nil⟩
    | cons file files => exact ⟨_, rfl, readsClosed_nil.line (readsClosed_tagLines hlines)⟩
  have hnonempty : ¬ message.isEmpty = true := by
    intro hempty
    obtain ⟨front, after, hfront, -⟩ := hopen
    rw [String.isEmpty_iff.mp hempty] at hfront
    exact absurd hfront.symm (by simp [fileTag])
  have htext : (appendInboundFileTags message (path :: files)).toList =
      message.toList ++ '\n' :: (tagText path ++ lines) := by
    rw [toList_appendInboundFileTags (fun file hmem => (hfits file hmem).2) (List.cons_ne_nil _ _),
      if_neg hnonempty, htagLines]
  obtain ⟨front, hall⟩ :=
    hreads.into_open ((leavesTagOpen_iff hreads).mp hopen) hpath hreadLines
  rw [extractInboundFileTags_of_reads (htext ▸ hall), List.mem_append, List.mem_append]
  rintro (hmem | hmem | hmem)
  · exact hmessage hmem
  · exact namedFile_around_tag (Option.mem_toList.mp hmem)
  · exact hfiles hmem

/-! ## The normalized payload -/

/-- The list of files and the tags of the message name the same files. -/
structure FilesAgree (payload : IncomingMessage) : Prop where
  nodup : payload.files.Nodup
  absolute : ∀ path ∈ payload.files, isAbsolutePath path.toList = true
  tags : ∀ path, path ∈ extractInboundFileTags payload.message ↔ path ∈ payload.files

/-- The files whose tag normalizing adds. -/
def untaggedFiles (payload : IncomingMessage) : List String :=
  (normalizeInboundPayload payload).files.filter (· ∉ extractInboundFileTags payload.message)

theorem normalizeInboundPayload_message (payload : IncomingMessage) :
    (normalizeInboundPayload payload).message =
      appendInboundFileTags payload.message (untaggedFiles payload) := rfl

variable {payload : IncomingMessage}

theorem mem_normalized_files : path ∈ (normalizeInboundPayload payload).files ↔
    (path ∈ payload.files ∧ isAbsolutePath path.toList = true) ∨
      path ∈ extractInboundFileTags payload.message := by
  change path ∈ List.foldl pushNew _ _ ↔ _
  rw [mem_foldl_pushNew, mem_foldl_pushNew, List.mem_filter]
  simp

theorem nodup_normalized_files : (normalizeInboundPayload payload).files.Nodup :=
  nodup_foldl_pushNew (nodup_foldl_pushNew List.nodup_nil)

theorem absolute_normalized_files :
    ∀ path ∈ (normalizeInboundPayload payload).files, isAbsolutePath path.toList = true := by
  intro path hmem
  rcases mem_normalized_files.mp hmem with h | h
  · exact h.2
  · exact (fits_of_mem_extractInboundFileTags h).2

theorem mem_untaggedFiles : path ∈ untaggedFiles payload ↔
    (path ∈ payload.files ∧ isAbsolutePath path.toList = true) ∧
      path ∉ extractInboundFileTags payload.message := by
  rw [untaggedFiles, List.mem_filter, mem_normalized_files, decide_eq_true_iff]
  constructor
  · rintro ⟨h, hnot⟩
    exact ⟨h.resolve_right hnot, hnot⟩
  · exact fun h => ⟨.inl h.1, h.2⟩

/-- A payload whose list and tags agree is normalized already. -/
theorem normalize_of_agree (h : FilesAgree payload) :
    normalizeInboundPayload payload = payload := by
  have hfiles : (normalizeInboundPayload payload).files = payload.files := by
    have hlisted : payload.files.foldl pushNew [] = payload.files := by
      rw [foldl_pushNew_of_nodup, List.nil_append]
      exact h.nodup
    change List.foldl pushNew (List.foldl pushNew [] (payload.files.filter _)) _ = _
    rw [List.filter_eq_self.mpr h.absolute, hlisted,
      foldl_pushNew_of_seen fun path => (h.tags path).mp]
  have hmissing : untaggedFiles payload = [] := by
    rw [List.eq_nil_iff_forall_not_mem]
    intro path hmem
    obtain ⟨⟨hlisted, -⟩, hnot⟩ := mem_untaggedFiles.mp hmem
    exact hnot ((h.tags path).mpr hlisted)
  have hmessage : (normalizeInboundPayload payload).message = payload.message := by
    rw [normalizeInboundPayload_message, hmissing]
    rfl
  calc
    normalizeInboundPayload payload =
        { payload with
          message := (normalizeInboundPayload payload).message
          files := (normalizeInboundPayload payload).files } := rfl
    _ = payload := by rw [hfiles, hmessage]

/-- After normalizing, the list and the tags agree, no file that was listed or tagged is
lost, and normalizing again changes nothing. -/
structure NormalizesFiles (payload : IncomingMessage) : Prop where
  agree : FilesAgree (normalizeInboundPayload payload)
  listed : ∀ path ∈ payload.files, isAbsolutePath path.toList = true →
    path ∈ (normalizeInboundPayload payload).files
  tagged : ∀ path ∈ extractInboundFileTags payload.message,
    path ∈ (normalizeInboundPayload payload).files
  again : normalizeInboundPayload (normalizeInboundPayload payload) =
    normalizeInboundPayload payload

/-- Each listed file that the message does not name can be named by a tag, and there is none
unless the message closes its tags. -/
def TagsFit (payload : IncomingMessage) : Prop :=
  ∀ path ∈ payload.files, isAbsolutePath path.toList = true →
    path ∉ extractInboundFileTags payload.message →
    FitsTag path ∧ ¬ LeavesTagOpen payload.message

theorem agree_of_tagsFit (h : TagsFit payload) : FilesAgree (normalizeInboundPayload payload) := by
  refine ⟨nodup_normalized_files, absolute_normalized_files, fun path => ?_⟩
  have huntagged : ∀ path ∈ untaggedFiles payload,
      FitsTag path ∧ ¬ LeavesTagOpen payload.message := by
    intro path hmem
    obtain ⟨⟨hlisted, habsolute⟩, hnot⟩ := mem_untaggedFiles.mp hmem
    exact h path hlisted habsolute hnot
  have habsolute : ∀ path ∈ untaggedFiles payload, isAbsolutePath path.toList = true :=
    fun path hmem => (mem_untaggedFiles.mp hmem).1.2
  -- what is written is read behind what was there
  have htags : extractInboundFileTags (normalizeInboundPayload payload).message =
      extractInboundFileTags payload.message ++ untaggedFiles payload := by
    rw [normalizeInboundPayload_message]
    by_cases hnone : untaggedFiles payload = []
    · rw [hnone, List.append_nil]
      rfl
    · obtain ⟨file, hfile⟩ := List.exists_mem_of_ne_nil _ hnone
      exact extract_appendInboundFileTags (huntagged file hfile).2
        (fun path hmem => ⟨(huntagged path hmem).1, habsolute path hmem⟩) hnone
  rw [htags, List.mem_append, mem_normalized_files, or_comm]
  constructor
  · exact fun hread => hread.imp_left fun huntagged => (mem_untaggedFiles.mp huntagged).1
  · intro hfile
    by_cases htagged : path ∈ extractInboundFileTags payload.message
    · exact .inr htagged
    · exact .inl (mem_untaggedFiles.mpr ⟨hfile.resolve_right htagged, htagged⟩)

/-- The list and the tags agree after normalizing, for good, exactly if every tag that is
written can be read. -/
theorem inbound_files_agree_iff (payload : IncomingMessage) :
    NormalizesFiles payload ↔ TagsFit payload := by
  constructor
  · intro h
    have hread : ∀ path ∈ untaggedFiles payload, path ∈ extractInboundFileTags
        (appendInboundFileTags payload.message (untaggedFiles payload)) := fun path hmem =>
      (h.agree.tags path).mpr (List.mem_of_mem_filter hmem)
    have hfits : ∀ path ∈ untaggedFiles payload,
        FitsTag path ∧ isAbsolutePath path.toList = true := fun path hmem =>
      fits_of_mem_extractInboundFileTags (hread path hmem)
    intro path hlisted habsolute hnot
    have hmem : path ∈ untaggedFiles payload := mem_untaggedFiles.mpr ⟨⟨hlisted, habsolute⟩, hnot⟩
    refine ⟨(hfits path hmem).1, fun hopen => ?_⟩
    have hnodup : (untaggedFiles payload).Nodup := nodup_normalized_files.filter _
    have hnew : ∀ file ∈ untaggedFiles payload, file ∉ extractInboundFileTags payload.message :=
      fun file hfile => (mem_untaggedFiles.mp hfile).2
    -- the first tag that is written goes into the open one
    cases huntagged : untaggedFiles payload with
    | nil =>
      rw [huntagged] at hmem
      cases hmem
    | cons first files =>
      rw [huntagged] at hread hfits hnodup hnew
      exact not_mem_extract_of_open hopen hfits (hnew first (.head _))
        (List.nodup_cons.mp hnodup).1 (hread first (.head _))
  · intro h
    have hagree := agree_of_tagsFit h
    refine ⟨hagree, fun path hlisted habsolute => ?_, fun path htagged => ?_,
      normalize_of_agree hagree⟩
    · exact mem_normalized_files.mpr (.inl ⟨hlisted, habsolute⟩)
    · exact mem_normalized_files.mpr (.inr htagged)

/-! ## Files that are lost from the message -/

def bracketPayload : IncomingMessage :=
  { channel := "slack", sender := "Dana", senderId := "U42", message := "check this",
    timestamp := 100, messageId := "msg-1", files := ["/tmp/notes [1].txt"] }

/-- The message begins a tag and breaks off. -/
def unclosedPayload : IncomingMessage :=
  { bracketPayload with message := "see [file: /tmp/a.txt", files := ["/tmp/b.txt"] }

theorem inbound_files_disagree :
    ¬ NormalizesFiles bracketPayload ∧ ¬ NormalizesFiles unclosedPayload := by
  constructor
  · intro h
    have hread := (h.agree.tags "/tmp/notes [1].txt").mpr (by decide)
    exact absurd hread (by decide)
  · intro h
    have hread := (h.agree.tags "/tmp/b.txt").mpr (by decide)
    exact absurd hread (by decide)

end Direclaw.Queue
