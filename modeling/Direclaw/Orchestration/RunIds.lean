import Direclaw.Lib.Positional
import Direclaw.Orchestration.RunStore

/-!
# Compact run ids

`orchestration/transitions.rs`, the id of a run that the selector starts: the
time in base 36, and four digits of randomness. A number of the suffix space
has its four digits to itself, and the hyphen is no digit, so the id can be
taken apart again.
-/

namespace Direclaw.Orchestration

open Direclaw.Lib

theorem base36_nodup : "0123456789abcdefghijklmnopqrstuvwxyz".toList.Nodup := by decide

theorem two_le_base36 : 2 ≤ "0123456789abcdefghijklmnopqrstuvwxyz".toList.length := by decide

def base36Alphabet : Positional.Alphabet Char where
  symbols := "0123456789abcdefghijklmnopqrstuvwxyz".toList
  nodup := base36_nodup
  two_le := two_le_base36

def runSuffixSpace : UInt32 := 36 * 36 * 36 * 36

def base36EncodeU64 (value : UInt64) : String :=
  if value = 0 then "0"
  else String.ofList (base36Alphabet.pushDigits value.toNat []).reverse

def base36EncodeFixedU32 (value : UInt32) (width : ℕ) : String :=
  String.ofList (base36Alphabet.setDigits width value.toNat (List.replicate width '0'))

/-- `u64::try_from` of an `i64`. -/
def u64TryFrom (now : Int64) : Option UInt64 :=
  if now < 0 then none else some now.toUInt64

/-- `u32::from_le_bytes`. -/
def u32FromLeBytes (bytes : Vector UInt8 4) : UInt32 :=
  bytes[0].toUInt32 ||| bytes[1].toUInt32 <<< 8 ||| bytes[2].toUInt32 <<< 16 |||
    bytes[3].toUInt32 <<< 24

def runSample (bytes : Vector UInt8 4) : UInt32 := u32FromLeBytes bytes % runSuffixSpace

/-- `run-{ts}-{suffix}`. -/
def compactRunId (timestamp : UInt64) (sample : UInt32) : String :=
  s!"run-{base36EncodeU64 timestamp}-{base36EncodeFixedU32 sample 4}"

/-- `generate_compact_run_id`; `randomness` is what `getrandom` fills the buffer with, or
the text of its error. -/
def generateCompactRunId (now : Int64) (randomness : Except String (Vector UInt8 4)) :
    Except OrchestratorError String :=
  match u64TryFrom now with
  | none => .error (.selectorValidation "workflow_start requires a non-negative timestamp")
  | some timestamp =>
    match randomness with
    | .error err =>
      .error (.selectorValidation
        s!"workflow_start failed to generate run id randomness: {err}")
    | .ok bytes => .ok (compactRunId timestamp (runSample bytes))

/-! ## The digits give the number back -/

theorem read_base36EncodeU64 (value : UInt64) :
    base36Alphabet.read (base36EncodeU64 value).toList = value.toNat := by
  unfold base36EncodeU64
  split
  · next hzero =>
      rw [hzero]
      rfl
  · rw [String.toList_ofList]
    exact base36Alphabet.read_reverse_pushDigits value.toNat

theorem base36EncodeU64_injective : Function.Injective base36EncodeU64 := by
  intro value other h
  apply UInt64.toNat_inj.mp
  rw [← read_base36EncodeU64 value, ← read_base36EncodeU64 other, h]

theorem length_base36EncodeFixedU32 (value : UInt32) (width : ℕ) :
    (base36EncodeFixedU32 value width).length = width := by
  rw [base36EncodeFixedU32, String.length_ofList, Positional.Alphabet.length_setDigits,
    List.length_replicate]

theorem read_base36EncodeFixedU32 (value : UInt32) (width : ℕ) :
    base36Alphabet.read (base36EncodeFixedU32 value width).toList = value.toNat % 36 ^ width := by
  have hread := base36Alphabet.read_setDigits value.toNat (List.replicate width '0')
  rw [List.length_replicate] at hread
  rw [base36EncodeFixedU32, String.toList_ofList]
  exact hread

theorem toNat_lt_of_lt_runSuffixSpace {value : UInt32} (h : value < runSuffixSpace) :
    value.toNat < 36 ^ 4 := UInt32.lt_iff_toNat_lt.mp h

theorem base36EncodeFixedU32_inj {value other : UInt32} (hvalue : value < runSuffixSpace)
    (hother : other < runSuffixSpace)
    (h : base36EncodeFixedU32 value 4 = base36EncodeFixedU32 other 4) : value = other := by
  have hread := congrArg (fun text => base36Alphabet.read (String.toList text)) h
  simp only [read_base36EncodeFixedU32] at hread
  rw [Nat.mod_eq_of_lt (toNat_lt_of_lt_runSuffixSpace hvalue),
    Nat.mod_eq_of_lt (toNat_lt_of_lt_runSuffixSpace hother)] at hread
  exact UInt32.toNat_inj.mp hread

/-! ## The id can be taken apart -/

theorem hyphen_not_mem_base36EncodeU64 (value : UInt64) :
    '-' ∉ (base36EncodeU64 value).toList := by
  unfold base36EncodeU64
  split
  · decide
  · rw [String.toList_ofList, List.mem_reverse]
    intro hmem
    have hsymbol := base36Alphabet.mem_of_mem_pushDigits hmem
    revert hsymbol
    decide

theorem toList_compactRunId (timestamp : UInt64) (sample : UInt32) :
    (compactRunId timestamp sample).toList =
      "run-".toList ++ ((base36EncodeU64 timestamp).toList ++
        '-' :: (base36EncodeFixedU32 sample 4).toList) := by
  simp [compactRunId, toString]

theorem compactRunId_inj {timestamp timestamp' : UInt64} {sample sample' : UInt32}
    (hsample : sample < runSuffixSpace) (hsample' : sample' < runSuffixSpace)
    (h : compactRunId timestamp sample = compactRunId timestamp' sample') :
    timestamp = timestamp' ∧ sample = sample' := by
  have htext := congrArg String.toList h
  rw [toList_compactRunId, toList_compactRunId] at htext
  have hrest := congrArg (Text.splitOnce '-') (List.append_cancel_left htext)
  rw [Text.splitOnce_append (hyphen_not_mem_base36EncodeU64 timestamp),
    Text.splitOnce_append (hyphen_not_mem_base36EncodeU64 timestamp')] at hrest
  simp only [Option.some.injEq, Prod.mk.injEq, String.toList_inj] at hrest
  exact ⟨base36EncodeU64_injective hrest.1,
    base36EncodeFixedU32_inj hsample hsample' hrest.2⟩

theorem runSample_lt (bytes : Vector UInt8 4) : runSample bytes < runSuffixSpace :=
  UInt32.mod_lt _ (by decide)

theorem u64TryFrom_inj {now now' : Int64} {timestamp : UInt64}
    (h : u64TryFrom now = some timestamp) (h' : u64TryFrom now' = some timestamp) :
    now = now' := by
  have htext : ∀ {time : Int64}, u64TryFrom time = some timestamp → timestamp.toInt64 = time := by
    intro time htime
    unfold u64TryFrom at htime
    split at htime
    · cases htime
    · cases htime
      exact Int64.toInt64_toUInt64 time
  exact (htext h).symm.trans (htext h')

theorem generateCompactRunId_ok_iff {now : Int64} {randomness : Except String (Vector UInt8 4)}
    {runId : String} : generateCompactRunId now randomness = .ok runId ↔
      ∃ timestamp bytes, u64TryFrom now = some timestamp ∧ randomness = .ok bytes ∧
        compactRunId timestamp (runSample bytes) = runId := by
  unfold generateCompactRunId
  cases u64TryFrom now with
  | none => simp
  | some timestamp =>
    cases randomness with
    | error err => simp
    | ok bytes => simp

end Direclaw.Orchestration
