import Direclaw.Orchestration.RunIds

/-!
# The command's run ids

`app/command_handlers/workflows.rs` keeps a copy of its own of the run id
generator: the alphabet, the suffix space and the functions. Only the errors
differ, which are texts here.
-/

namespace Direclaw.App

open Direclaw.Lib
open Direclaw.Orchestration (u64TryFrom u32FromLeBytes runSample compactRunId base36_nodup
  two_le_base36)

def base36Alphabet : Positional.Alphabet Char where
  symbols := "0123456789abcdefghijklmnopqrstuvwxyz".toList
  nodup := base36_nodup
  two_le := two_le_base36

def runSuffixSpace : UInt32 := 36 * 36 * 36 * 36

def base36EncodeU64 (value : UInt64) : String :=
  if value = 0 then "0"
  else String.ofList (base36Alphabet.pushDigits value.toNat []).reverse

def base36EncodeFixedU32 (value : UInt32) (width : ℕ) : String :=
  String.ofList (base36Alphabet.setDigits width value.toNat (List.replicate width '0'))

def generateCompactRunId (now : Int64) (randomness : Except String (Vector UInt8 4)) :
    Except String String :=
  match u64TryFrom now with
  | none => .error "workflow.run requires a non-negative timestamp"
  | some timestamp =>
    match randomness with
    | .error err => .error s!"workflow.run failed to generate run id randomness: {err}"
    | .ok bytes =>
      let sample := u32FromLeBytes bytes % runSuffixSpace
      let ts := base36EncodeU64 timestamp
      let suffix := base36EncodeFixedU32 sample 4
      .ok s!"run-{ts}-{suffix}"

/-- The two copies write the same digits. -/
theorem base36EncodeU64_eq : base36EncodeU64 = Orchestration.base36EncodeU64 := rfl

theorem base36EncodeFixedU32_eq : base36EncodeFixedU32 = Orchestration.base36EncodeFixedU32 := rfl

/-- They give the same id, and none for the same times and failures. -/
theorem generateCompactRunId_toOption (now : Int64)
    (randomness : Except String (Vector UInt8 4)) :
    (generateCompactRunId now randomness).toOption =
      (Orchestration.generateCompactRunId now randomness).toOption := by
  unfold generateCompactRunId Orchestration.generateCompactRunId
  cases u64TryFrom now with
  | none => rfl
  | some timestamp =>
    cases randomness with
    | error err => rfl
    | ok bytes => rfl

theorem generated_unique {now now' : Int64} {bytes bytes' : Vector UInt8 4} {runId : String}
    (h : Orchestration.generateCompactRunId now (.ok bytes) = .ok runId)
    (h' : Orchestration.generateCompactRunId now' (.ok bytes') = .ok runId) :
    now = now' ∧ runSample bytes = runSample bytes' := by
  obtain ⟨timestamp, read, htime, hread, hid⟩ := Orchestration.generateCompactRunId_ok_iff.mp h
  obtain ⟨timestamp', read', htime', hread', hid'⟩ :=
    Orchestration.generateCompactRunId_ok_iff.mp h'
  cases hread
  cases hread'
  obtain ⟨rfl, hsample⟩ := Orchestration.compactRunId_inj (Orchestration.runSample_lt bytes)
    (Orchestration.runSample_lt bytes') (hid.trans hid'.symm)
  exact ⟨Orchestration.u64TryFrom_inj htime htime', hsample⟩

/-- Run ids encode their parts faithfully, in both copies alike. -/
theorem run_ids_faithful :
    ((∀ value, Orchestration.base36Alphabet.read
          (Orchestration.base36EncodeU64 value).toList = value.toNat) ∧
        Function.Injective Orchestration.base36EncodeU64) ∧
      ((∀ value, (Orchestration.base36EncodeFixedU32 value 4).length = 4) ∧
        ∀ value other : UInt32, value.toNat < 36 ^ 4 → other.toNat < 36 ^ 4 →
          Orchestration.base36EncodeFixedU32 value 4 =
            Orchestration.base36EncodeFixedU32 other 4 → value = other) ∧
      ((∀ timestamp timestamp' sample sample', sample < Orchestration.runSuffixSpace →
          sample' < Orchestration.runSuffixSpace →
          compactRunId timestamp sample = compactRunId timestamp' sample' →
          timestamp = timestamp' ∧ sample = sample') ∧
        ∀ now now' bytes bytes' runId,
          Orchestration.generateCompactRunId now (.ok bytes) = .ok runId →
          Orchestration.generateCompactRunId now' (.ok bytes') = .ok runId →
          now = now' ∧ runSample bytes = runSample bytes') ∧
      (base36EncodeU64 = Orchestration.base36EncodeU64 ∧
        base36EncodeFixedU32 = Orchestration.base36EncodeFixedU32 ∧
        ∀ now randomness, (generateCompactRunId now randomness).toOption =
          (Orchestration.generateCompactRunId now randomness).toOption) := by
  refine ⟨⟨Orchestration.read_base36EncodeU64, Orchestration.base36EncodeU64_injective⟩,
    ⟨fun value => Orchestration.length_base36EncodeFixedU32 value 4, ?_⟩, ⟨?_, ?_⟩,
    base36EncodeU64_eq, base36EncodeFixedU32_eq, generateCompactRunId_toOption⟩
  · intro value other hvalue hother heq
    exact Orchestration.base36EncodeFixedU32_inj (UInt32.lt_iff_toNat_lt.mpr hvalue)
      (UInt32.lt_iff_toNat_lt.mpr hother) heq
  · intro timestamp timestamp' sample sample' hsample hsample' heq
    exact Orchestration.compactRunId_inj hsample hsample' heq
  · intro now now' bytes bytes' runId hid hid'
    exact generated_unique hid hid'

end Direclaw.App
