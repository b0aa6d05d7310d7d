import Direclaw.Lib.NameOrder
import Direclaw.Runtime.Completion

/-!
# The answers to one message in the outgoing directory

`complete_success_many` writes each message under the first free name from its place in the
batch on, and `sorted_outgoing_paths` lists the names as texts. Timestamps with equally many
digits keep the batch in order. A heartbeat's name holds no timestamp: its messages take the
free suffix numbers one after the other, and `_10` is listed before `_2`.
-/

namespace Direclaw.Runtime

open Direclaw.Lib Direclaw.Queue Direclaw.Orchestration

def sortedOutgoingPaths (outgoing : Directory) : List FileName :=
  (outgoing.keys.filter isJsonFile).insertionSort (· ≤ ·)

/-- The answers to one message: a second apart from each other, in timestamps of equally many
digits. -/
structure Consecutive (channel messageId : String) (first : ℕ) (items : List OutgoingMessage) :
    Prop where
  channel : ∀ item ∈ items, item.channel = channel
  messageId : ∀ item ∈ items, item.messageId = messageId
  timestamp : ∀ i item, items[i]? = some item → item.timestamp.toInt = ((first + i : ℕ) : ℤ)
  digits : ∀ i < items.length, (Text.decimal (first + i)).length = (Text.decimal first).length

/-- `write_outgoing_message` leaves its loop, at the first free name from its start on. -/
def SearchEnds (outgoing : Directory) (item : OutgoingMessage) (start : ℕ) : Prop :=
  ∃ i, freeOutgoingFilename outgoing item start =
      some (uniqueOutgoingFilename item.channel item.messageId item.timestamp (start + i)) ∧
    outgoing.lookup (uniqueOutgoingFilename item.channel item.messageId item.timestamp
      (start + i)) = none ∧
    ∀ j < i, outgoing.lookup (uniqueOutgoingFilename item.channel item.messageId item.timestamp
      (start + j)) ≠ none

/-- One new file for each message of the batch, every other file as before, and a listing that
has the new files in the order of the batch. -/
structure WrittenInOrder (isFile : String → Bool) (now : ℕ) (outgoing after : Directory)
    (items : List OutgoingMessage) (written : List FileName) : Prop where
  ends : ∀ directory item start, SearchEnds directory item start
  length : written.length = items.length
  nodup : written.Nodup
  fresh : ∀ n ∈ written, outgoing.lookup n = none
  files : ∀ n f, after.lookup n = some f ↔ outgoing.lookup n = some f ∨
    ∃ (i : ℕ) (item : OutgoingMessage), items[i]? = some item ∧ written[i]? = some n ∧
      f = writtenFile isFile now item
  listed : (sortedOutgoingPaths after).filter (· ∈ written) = written

/-! ## The writes -/

section Writes

variable {isFile : String → Bool} {now : ℕ} {outgoing : Directory} {items : List OutgoingMessage}

theorem searchEnds (outgoing : Directory) (item : OutgoingMessage) (start : ℕ) :
    SearchEnds outgoing item start := by
  obtain ⟨name, hname, hfree⟩ := freeOutgoingFilename_spec outgoing item start
  have hfirst := hname
  rw [freeOutgoingFilename, List.find?_map, Option.map_eq_some_iff] at hfirst
  obtain ⟨i, hfind, rfl⟩ := hfirst
  refine ⟨i, hname, hfree, fun j hj => ?_⟩
  have hbefore := (List.find?_range_eq_some.mp hfind).2.2 j hj
  rw [Bool.not_eq_true', Function.comp_apply, Option.isNone_eq_false_iff] at hbefore
  exact Option.isSome_iff_ne_none.mp hbefore

theorem getElem?_writtenNames : ∀ {items : List OutgoingMessage} {outgoing : Directory}
    {index i : ℕ} {item : OutgoingMessage}, items[i]? = some item →
      ∃ j, (writtenNames isFile now outgoing index items)[i]? =
        some (uniqueOutgoingFilename item.channel item.messageId item.timestamp j)
  | first :: items, outgoing, index, 0, item, hitem => by
      obtain rfl : first = item := Option.some.inj hitem
      obtain ⟨j, hname, -⟩ := searchEnds outgoing first index
      exact ⟨index + j, by rw [writtenNames, hname]; rfl⟩
  | first :: items, outgoing, index, i + 1, item, hitem => by
      have hlater : items[i]? = some item := hitem
      obtain ⟨j, hj⟩ : ∃ j, (writtenNames isFile now (writeOutgoingMessage isFile outgoing first
          index now) (index + 1) items)[i]? =
            some (uniqueOutgoingFilename item.channel item.messageId item.timestamp j) :=
        getElem?_writtenNames hlater
      exact ⟨j, hj⟩

theorem keys_nodup (outgoing : Directory) : outgoing.keys.Nodup := outgoing.nodupKeys

/-- The batch is in order when its names are listed and increase. -/
theorem writtenInOrder_iff :
    WrittenInOrder isFile now outgoing (writeOutgoingFrom isFile now outgoing 0 items) items
        (writtenNames isFile now outgoing 0 items) ↔
      (∀ n ∈ writtenNames isFile now outgoing 0 items, isJsonFile n = true) ∧
        (writtenNames isFile now outgoing 0 items).Pairwise (· < ·) := by
  have hkeys : ∀ n ∈ writtenNames isFile now outgoing 0 items,
      n ∈ (writeOutgoingFrom isFile now outgoing 0 items).keys := by
    intro n hn
    obtain ⟨i, hi⟩ := List.getElem?_of_mem hn
    have hlt := (List.getElem?_eq_some_iff.mp hi).1
    rw [length_writtenNames] at hlt
    rw [← AList.mem_keys, ← AList.lookup_isSome, Option.isSome_iff_exists]
    exact ⟨_, lookup_writeOutgoingFrom.mpr (.inr ⟨i, items[i], List.getElem?_eq_getElem hlt, hi,
      rfl⟩)⟩
  have hnodup : ((writeOutgoingFrom isFile now outgoing 0 items).keys.filter isJsonFile).Nodup :=
    (keys_nodup _).filter _
  have hlisted : (sortedOutgoingPaths (writeOutgoingFrom isFile now outgoing 0 items)).filter
      (· ∈ writtenNames isFile now outgoing 0 items) =
        writtenNames isFile now outgoing 0 items ↔ _ :=
    filter_insertionSort_eq_iff hnodup
  constructor
  · intro h
    obtain ⟨hmem, hlt⟩ := hlisted.mp h.listed
    exact ⟨fun n hn => (List.mem_filter.mp (hmem n hn)).2, hlt⟩
  · rintro ⟨hjson, hlt⟩
    exact
      { ends := searchEnds
        length := length_writtenNames items outgoing 0
        nodup := writtenNames_nodup items outgoing 0
        fresh := fun n => lookup_of_mem_writtenNames
        files := fun n f => lookup_writeOutgoingFrom
        listed := hlisted.mpr ⟨fun n hn => List.mem_filter.mpr ⟨hkeys n hn, hjson n hn⟩, hlt⟩ }

/-- Apart from a first name `.json`, every name is listed. -/
theorem writtenNames_isJsonFile_iff {channel messageId : String} {first : ℕ}
    (hbatch : Consecutive channel messageId first items) (hne : items ≠ []) :
    (∀ n ∈ writtenNames isFile now outgoing 0 items, isJsonFile n = true) ↔
      channel ≠ "heartbeat" ∨ messageId ≠ "" ∨ outgoing.lookup jsonSuffix ≠ none := by
  obtain ⟨head, rest, rfl⟩ := List.exists_cons_of_ne_nil hne
  have hchannel := hbatch.channel head List.mem_cons_self
  have hid := hbatch.messageId head List.mem_cons_self
  have hiff : Listed outgoing 0 head ↔
      channel ≠ "heartbeat" ∨ messageId ≠ "" ∨ outgoing.lookup jsonSuffix ≠ none := by
    rw [Listed, hchannel, hid, not_and_or, or_assoc]
    simp only [lt_irrefl, false_or, ne_eq]
  rw [← hiff]
  constructor
  · intro h
    obtain ⟨j, hj⟩ := @getElem?_writtenNames isFile now (head :: rest) outgoing 0 0 head rfl
    exact (isJsonFile_writtenNames rfl hj).mp (h _ (List.mem_of_getElem? hj))
  · intro hlisted n hn
    obtain ⟨i, hi⟩ := List.getElem?_of_mem hn
    have hlt := (List.getElem?_eq_some_iff.mp hi).1
    rw [length_writtenNames] at hlt
    refine (isJsonFile_writtenNames (List.getElem?_eq_getElem hlt) hi).mpr ?_
    have hmem := List.getElem_mem hlt
    rw [Listed, hbatch.channel _ hmem, hbatch.messageId _ hmem, Nat.zero_add]
    rw [Listed, hchannel, hid] at hlisted
    rcases hlisted with h | h | h
    · exact .inl h
    · cases h
    · exact .inr (.inr h)

end Writes

/-! ## Names with a timestamp -/

section Timestamps

variable {isFile : String → Bool} {now : ℕ} {outgoing : Directory} {items : List OutgoingMessage}
  {channel messageId : String} {first : ℕ}

theorem decimalI64_eq {timestamp : Int64} {n : ℕ} (h : timestamp.toInt = n) :
    decimalI64 timestamp = Text.decimal n := by
  rw [decimalI64, h, if_neg (by omega), Int.natAbs_natCast]

/-- The suffix stands behind the timestamp. -/
theorem uniqueOutgoingFilename_eq (hchannel : channel ≠ "heartbeat") (messageId : String)
    (timestamp : Int64) (index : ℕ) :
    ∃ ending, uniqueOutgoingFilename channel messageId timestamp index =
      (sanitizeFilenameComponent channel.toList ++ '_' ::
        (sanitizeFilenameComponent messageId.toList ++ ['_'])) ++
          (decimalI64 timestamp ++ ending) := by
  unfold uniqueOutgoingFilename outgoingFilename outgoingStem
  rw [if_neg hchannel]
  split
  · exact ⟨jsonSuffix, by simp⟩
  · exact ⟨'_' :: Text.decimal index ++ jsonSuffix, by simp⟩

theorem writtenNames_increasing (hbatch : Consecutive channel messageId first items)
    (hchannel : channel ≠ "heartbeat") :
    (writtenNames isFile now outgoing 0 items).Pairwise (· < ·) := by
  rw [List.pairwise_iff_getElem]
  intro i j hi hj hij
  rw [length_writtenNames] at hi hj
  -- both names have the same beginning, then a timestamp, then what the search appended
  have hname : ∀ k (hk : k < items.length), ∃ ending,
      (writtenNames isFile now outgoing 0 items)[k]? =
        some ((sanitizeFilenameComponent channel.toList ++ '_' ::
          (sanitizeFilenameComponent messageId.toList ++ ['_'])) ++
            (Text.decimal (first + k) ++ ending)) := by
    intro k hk
    have hitem := List.getElem?_eq_getElem hk
    obtain ⟨index, hindex⟩ := @getElem?_writtenNames isFile now items outgoing 0 k _ hitem
    rw [hbatch.channel _ (List.getElem_mem hk), hbatch.messageId _ (List.getElem_mem hk)] at hindex
    obtain ⟨ending, hending⟩ := uniqueOutgoingFilename_eq hchannel messageId
      items[k].timestamp index
    rw [decimalI64_eq (n := first + k) (by rw [hbatch.timestamp k _ hitem])] at hending
    exact ⟨ending, by rw [hindex, hending]⟩
  obtain ⟨ending, hleft⟩ := hname i hi
  obtain ⟨ending', hright⟩ := hname j hj
  rw [(List.getElem?_eq_some_iff.mp hleft).2, (List.getElem?_eq_some_iff.mp hright).2,
    Text.append_lt_append_left_iff]
  have hlen : (Text.decimal (first + i)).length = (Text.decimal (first + j)).length :=
    (hbatch.digits i hi).trans (hbatch.digits j hj).symm
  exact Text.append_lt_append (Text.decimal_lt_decimal (by omega) hlen) hlen _ _

end Timestamps

/-! ## Names with a suffix number only -/

section Suffixes

variable {isFile : String → Bool} {now : ℕ} {outgoing : Directory} {items : List OutgoingMessage}
  {messageId : String}

/-- A heartbeat's name for a suffix number. -/
def heartbeatFilename (messageId : String) (index : ℕ) : FileName :=
  uniqueOutgoingFilename "heartbeat" messageId 0 index

/-- The numbers whose names no file of the directory has. -/
def SuffixFree (outgoing : Directory) (messageId : String) (index : ℕ) : Prop :=
  outgoing.lookup (heartbeatFilename messageId index) = none

/-- The `k`-th of the free suffix numbers. -/
noncomputable def freeSuffix (outgoing : Directory) (messageId : String) (k : ℕ) : ℕ :=
  Nat.nth (SuffixFree outgoing messageId) k

theorem suffixFree_infinite (outgoing : Directory) (messageId : String) :
    (Set.ofPred (SuffixFree outgoing messageId)).Infinite := by
  have hinj : Function.Injective (heartbeatFilename messageId) :=
    uniqueOutgoingFilename_injective "heartbeat" messageId 0
  have htaken : {i | heartbeatFilename messageId i ∈ outgoing.keys}.Finite :=
    Set.Finite.preimage hinj.injOn outgoing.keys.finite_toSet
  refine htaken.infinite_compl.mono ?_
  intro i hi
  rw [Set.mem_compl_iff, Set.mem_ofPred_eq, ← AList.mem_keys] at hi
  exact AList.lookup_eq_none.mpr hi

theorem writtenNames_heartbeat {free : ℕ → Prop} (hinf : (Set.ofPred free).Infinite) :
    ∀ {items : List OutgoingMessage} {outgoing : Directory} {index : ℕ},
      (∀ item ∈ items, item.channel = "heartbeat" ∧ item.messageId = messageId) →
      (∀ i, SuffixFree outgoing messageId i ↔ free i ∧ Nat.nth free index ≤ i) →
      writtenNames isFile now outgoing index items =
        (List.range' index items.length).map fun k => heartbeatFilename messageId (Nat.nth free k)
  | [], _, _, _, _ => rfl
  | item :: items, outgoing, index, hitems, hfree => by
      obtain ⟨hchannel, hid⟩ := hitems item List.mem_cons_self
      have hsame : ∀ i, uniqueOutgoingFilename item.channel item.messageId item.timestamp i =
          heartbeatFilename messageId i := by
        intro i
        rw [hchannel, hid]
        rfl
      obtain ⟨i, hname, hnone, hbefore⟩ := searchEnds outgoing item index
      rw [hsame] at hname hnone
      -- the search from `index` on finds the next free number
      have hnth : Nat.nth free index = index + i := by
        refine le_antisymm ((hfree _).mp hnone).2 ?_
        by_contra hlt
        have hle : index ≤ Nat.nth free index := Nat.le_nth fun hfin => absurd hfin hinf
        obtain ⟨j, hj⟩ := Nat.exists_eq_add_of_le hle
        apply hbefore j (by omega)
        rw [hsame, ← hj]
        exact (hfree _).mpr ⟨Nat.nth_mem_of_infinite hinf index, le_refl _⟩
      have hnext : ∀ k,
          SuffixFree (writeOutgoingMessage isFile outgoing item index now) messageId k ↔
          free k ∧ Nat.nth free (index + 1) ≤ k := by
        intro k
        rw [SuffixFree, writeOutgoingMessage_eq hname, Directory.lookup_insert, ← hnth]
        by_cases hk : k = Nat.nth free index
        · rw [if_pos (by rw [hk])]
          refine iff_of_false nofun ?_
          rintro ⟨hfreek, hle⟩
          exact ((nth_succ_le_iff hinf hfreek).mp hle).2 hk
        · have hother : heartbeatFilename messageId k ≠
              heartbeatFilename messageId (Nat.nth free index) :=
            fun heq => hk (uniqueOutgoingFilename_injective "heartbeat" messageId 0 heq)
          rw [if_neg hother, ← SuffixFree, hfree k]
          refine and_congr_right fun hfreek => ?_
          rw [nth_succ_le_iff hinf hfreek, and_iff_left hk]
      have hrest := writtenNames_heartbeat hinf
        (fun other h => hitems other (List.mem_cons_of_mem _ h)) hnext
      rw [writtenNames, hname, Option.getD_some, List.length_cons, List.range'_succ,
        List.map_cons, hnth, hrest]

theorem writtenNames_eq_freeSuffix (hchannel : ∀ item ∈ items, item.channel = "heartbeat")
    (hid : ∀ item ∈ items, item.messageId = messageId) :
    writtenNames isFile now outgoing 0 items =
      (List.range items.length).map fun k =>
        heartbeatFilename messageId (freeSuffix outgoing messageId k) := by
  have hinf := suffixFree_infinite outgoing messageId
  rw [List.range_eq_range']
  refine writtenNames_heartbeat hinf (fun item h => ⟨hchannel item h, hid item h⟩) fun i => ?_
  rw [iff_self_and]
  intro hi
  rw [Nat.nth_zero]
  exact Nat.sInf_le hi

/-- The smaller of two suffix numbers is listed first if it is zero, which is not written, or
comes first in a dictionary. -/
def SuffixBefore (i j : ℕ) : Prop := i = 0 ∨ Text.decimal i < Text.decimal j

instance (i j : ℕ) : Decidable (SuffixBefore i j) :=
  inferInstanceAs (Decidable (i = 0 ∨ Text.decimal i < Text.decimal j))

theorem heartbeatFilename_lt_iff {i j : ℕ} (h : i < j) :
    heartbeatFilename messageId i < heartbeatFilename messageId j ↔ SuffixBefore i j := by
  have hj : j ≠ 0 := by omega
  have hstem : outgoingStem "heartbeat" messageId 0 = sanitizeFilenameComponent messageId.toList :=
    if_pos rfl
  have hbelow : ∀ n, ∀ c ∈ Text.decimal n, '.' < c := by
    intro n c hc
    have hdigit := Text.isDigit_of_mem_decimal hc
    rw [Char.isDigit_iff_toNat] at hdigit
    exact lt_of_lt_of_le (by decide : '.' < '0') hdigit.1
  unfold heartbeatFilename uniqueOutgoingFilename outgoingFilename SuffixBefore
  rw [if_neg hj, hstem]
  by_cases hi : i = 0
  · rw [if_pos hi, List.append_assoc, Text.append_lt_append_left_iff]
    exact iff_of_true (List.cons_lt_cons_iff.mpr (.inl (by decide))) (.inl hi)
  · rw [if_neg hi, List.append_assoc, List.append_assoc, Text.append_lt_append_left_iff,
      or_iff_right hi, List.cons_append, List.cons_append, List.cons_lt_cons_iff]
    simp only [lt_irrefl, true_and, false_or]
    exact Text.append_terminator_lt_iff (hbelow i) (hbelow j) _

theorem heartbeat_increasing_iff (hchannel : ∀ item ∈ items, item.channel = "heartbeat")
    (hid : ∀ item ∈ items, item.messageId = messageId) :
    (writtenNames isFile now outgoing 0 items).Pairwise (· < ·) ↔
      ∀ k l, k < l → l < items.length →
        SuffixBefore (freeSuffix outgoing messageId k) (freeSuffix outgoing messageId l) := by
  have hmono : StrictMono (freeSuffix outgoing messageId) :=
    Nat.nth_strictMono (suffixFree_infinite outgoing messageId)
  rw [writtenNames_eq_freeSuffix hchannel hid, List.pairwise_iff_getElem]
  simp only [List.length_map, List.length_range, List.getElem_map, List.getElem_range]
  constructor
  · intro h k l hkl hl
    exact (heartbeatFilename_lt_iff (hmono hkl)).mp (h k l (hkl.trans hl) hl hkl)
  · intro h k l _ hl hkl
    exact (heartbeatFilename_lt_iff (hmono hkl)).mpr (h k l hkl hl)

end Suffixes

/-! ## The batch of one message -/

section Batch

variable {isFile : String → Bool} {now : ℕ} {q : QueueState} {claimed : ClaimedMessage}
  {items : List OutgoingMessage} {channel messageId : String} {first : ℕ}

theorem toInt_saturatingAddI64 {n : Int64} {k : ℕ} (hn : 0 ≤ n.toInt)
    (hmax : n.toInt + k ≤ Int64.maxValue.toInt) : (saturatingAddI64 n k).toInt = n.toInt + k := by
  rw [saturatingAddI64, min_eq_left hmax]
  exact Int64.toInt_ofInt_of_le (le_trans (by decide) (by omega : (0 : ℤ) ≤ n.toInt + k))
    (Int.lt_add_one_of_le hmax)

/-- The batches that `process_claimed_message` hands over. -/
theorem replies_consecutive (env : WorkerEnv) (inbound : IncomingMessage)
    (target : Option SlackTargetRef) {responses : List (String × String)}
    (hfirst : (env.nowSecs .reply).toInt = first)
    (hlast : (first : ℤ) + responses.length ≤ Int64.maxValue.toInt)
    (hdigits : ∀ i < responses.length,
      (Text.decimal (first + i)).length = (Text.decimal first).length) :
    Consecutive (outboundContext inbound target).channel inbound.messageId first
      (replies env inbound target responses) := by
  have hitem : ∀ i item, (replies env inbound target responses)[i]? = some item →
      i < responses.length ∧ ∃ response, item =
        (outboundContext inbound target).message inbound inbound.messageId (response : _ × _).1
          response.2 (saturatingAddI64 (env.nowSecs .reply) i) := by
    intro i item h
    rw [replies, List.getElem?_mapIdx, Option.map_eq_some_iff] at h
    obtain ⟨response, hresponse, rfl⟩ := h
    exact ⟨(List.getElem?_eq_some_iff.mp hresponse).1, response, rfl⟩
  constructor
  · intro item hmem
    obtain ⟨i, hi⟩ := List.getElem?_of_mem hmem
    obtain ⟨-, response, rfl⟩ := hitem i item hi
    rfl
  · intro item hmem
    obtain ⟨i, hi⟩ := List.getElem?_of_mem hmem
    obtain ⟨-, response, rfl⟩ := hitem i item hi
    rfl
  · intro i item hi
    obtain ⟨hlt, response, rfl⟩ := hitem i item hi
    show (saturatingAddI64 (env.nowSecs .reply) i).toInt = _
    rw [toInt_saturatingAddI64 (by omega) (by omega), hfirst, Int.natCast_add]
  · intro i hi
    rw [replies, List.length_mapIdx] at hi
    exact hdigits i hi

theorem completeSuccessMany_outgoing (hne : items ≠ []) :
    (completeSuccessMany isFile q claimed items now).1.outgoing =
      writeOutgoingFrom isFile now q.outgoing 0 items := by
  have hempty : items.isEmpty = false := by
    rw [List.isEmpty_eq_false_iff]
    exact hne
  rw [completeSuccessMany, hempty, if_neg Bool.false_ne_true, removeProcessing]
  split <;> rfl

/-- The directory and the key of a batch let its messages be listed in order: the names hold
timestamps, or the free suffix numbers of the heartbeat come in the order of a dictionary and
none of the names is `.json`. -/
def KeepsOrder (outgoing : Directory) (channel messageId : String) (count : ℕ) : Prop :=
  channel ≠ "heartbeat" ∨
    (messageId ≠ "" ∨ outgoing.lookup jsonSuffix ≠ none) ∧
      ∀ k l, k < l → l < count →
        SuffixBefore (freeSuffix outgoing messageId k) (freeSuffix outgoing messageId l)

/-- Every batch is written completely, each message to a file of its own. -/
theorem completeSuccessMany_writtenInOrder_iff (hbatch : Consecutive channel messageId first items)
    (hne : items ≠ []) :
    WrittenInOrder isFile now q.outgoing
        (completeSuccessMany isFile q claimed items now).1.outgoing items
        (writtenNames isFile now q.outgoing 0 items) ↔
      KeepsOrder q.outgoing channel messageId items.length := by
  rw [completeSuccessMany_outgoing hne, writtenInOrder_iff,
    writtenNames_isJsonFile_iff hbatch hne, KeepsOrder]
  by_cases hchannel : channel = "heartbeat"
  · have hbeat : ∀ item ∈ items, item.channel = "heartbeat" :=
      fun item h => (hbatch.channel item h).trans hchannel
    rw [heartbeat_increasing_iff hbeat hbatch.messageId, or_iff_right (not_not_intro hchannel),
      or_iff_right (not_not_intro hchannel)]
  · exact iff_of_true ⟨.inl hchannel, writtenNames_increasing hbatch hchannel⟩ (.inl hchannel)

/-- Answers to the message `msg`, each a second after the one before it. -/
def answers (channel : String) (count : ℕ) : List OutgoingMessage :=
  (List.range count).map fun i =>
    { channel, sender := "Dana", message := "answer", originalMessage := "question"
      timestamp := Int64.ofNat (1700000000 + i), messageId := "msg", agent := "orchestrator" }

theorem answers_consecutive (channel : String) {count : ℕ} (hcount : count ≤ 11) :
    Consecutive channel "msg" 1700000000 (answers channel count) := by
  have hitem : ∀ i item, (answers channel count)[i]? = some item → i < 11 ∧
      item.channel = channel ∧ item.messageId = "msg" ∧
        item.timestamp = Int64.ofNat (1700000000 + i) := by
    intro i item h
    rw [answers, List.getElem?_map, Option.map_eq_some_iff] at h
    obtain ⟨j, hj, rfl⟩ := h
    obtain ⟨hlt, heq⟩ := List.getElem?_eq_some_iff.mp hj
    rw [List.getElem_range] at heq
    rw [List.length_range] at hlt
    exact ⟨hlt.trans_le hcount, rfl, rfl, by rw [heq]⟩
  constructor
  · intro item hmem
    obtain ⟨i, hi⟩ := List.getElem?_of_mem hmem
    exact (hitem i item hi).2.1
  · intro item hmem
    obtain ⟨i, hi⟩ := List.getElem?_of_mem hmem
    exact (hitem i item hi).2.2.1
  · intro i item hi
    obtain ⟨hlt, -, -, htime⟩ := hitem i item hi
    have hall : ∀ k < 11, (Int64.ofNat (1700000000 + k)).toInt = ((1700000000 + k : ℕ) : ℤ) := by
      decide
    rw [htime, hall i hlt]
  · intro i hi
    rw [answers, List.length_map, List.length_range] at hi
    have hall : ∀ k < 11, (Text.decimal (1700000000 + k)).length =
        (Text.decimal 1700000000).length := by decide
    exact hall i (hi.trans_le hcount)

theorem completeSuccessMany_writtenInOrder_answers :
    WrittenInOrder (fun _ => false) 0 ∅
      (completeSuccessMany (fun _ => false) {}
        ⟨['m'], sampleMessage "msg"⟩ (answers "slack" 2) 0).1.outgoing
      (answers "slack" 2) (writtenNames (fun _ => false) 0 ∅ 0 (answers "slack" 2)) :=
  (completeSuccessMany_writtenInOrder_iff (q := {})
    (answers_consecutive "slack" (by decide : 2 ≤ 11))
    (by decide : answers "slack" 2 ≠ [])).mpr (.inl (by decide))

/-- Eleven answers to a heartbeat: the last one is listed before the third. -/
theorem heartbeat_answers_not_in_order :
    Consecutive "heartbeat" "msg" 1700000000 (answers "heartbeat" 11) ∧
      ¬ WrittenInOrder (fun _ => false) 0 ∅
        (completeSuccessMany (fun _ => false) {} ⟨['m'], sampleMessage "msg"⟩
          (answers "heartbeat" 11) 0).1.outgoing
        (answers "heartbeat" 11)
        (writtenNames (fun _ => false) 0 ∅ 0 (answers "heartbeat" 11)) := by
  refine ⟨answers_consecutive "heartbeat" (le_refl 11), fun h => ?_⟩
  have hbatch := answers_consecutive "heartbeat" (le_refl 11)
  rw [completeSuccessMany_outgoing (by decide)] at h
  have hincreasing := (writtenInOrder_iff.mp h).2
  rw [heartbeat_increasing_iff hbatch.channel hbatch.messageId] at hincreasing
  -- on the empty directory every number is free
  have hall : ∀ k, freeSuffix ∅ "msg" k = k :=
    fun k => Nat.nth_of_forall fun i _ => AList.lookup_empty _
  have hbefore := hincreasing 2 10 (by decide) (by decide)
  rw [hall, hall] at hbefore
  exact absurd hbefore (by decide)

end Batch

end Direclaw.Runtime
