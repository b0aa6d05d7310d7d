import Direclaw.Lib.Fallible
import Direclaw.Lib.Trimming
import Direclaw.Orchestration.Config
import Direclaw.Orchestration.Settings

/-!
# Identifiers and output keys

Ids and output keys share one character set (`shared/ids.rs`); `OutputKey::parse` of
`config/typed_fields.rs` reads a key with its optional mark.
-/

namespace Direclaw.Orchestration

open Direclaw.Lib

/-! ## Identifiers -/

def identifierChar (c : Char) : Bool := c.isAlphanum || c == '-' || c == '_'

/-- What `validate_identifier_value` lets through. -/
structure IsIdentifier (value : String) : Prop where
  nonempty : value.toList ≠ []
  chars : ∀ c ∈ value.toList, identifierChar c = true

instance (value : String) : Decidable (IsIdentifier value) :=
  decidable_of_iff (value.toList ≠ [] ∧ value.toList.all identifierChar = true)
    ⟨fun h => ⟨h.1, List.all_eq_true.mp h.2⟩, fun h => ⟨h.nonempty, List.all_eq_true.mpr h.chars⟩⟩

theorem validateIdentifierValue_eq_ok_iff {kind value : String} :
    validateIdentifierValue kind value = .ok () ↔ IsIdentifier value := by
  unfold validateIdentifierValue
  split
  · next hempty =>
      exact iff_of_false nofun fun h => h.nonempty (List.isEmpty_iff.mp hempty)
  · next hnonempty =>
      split
      · next hall =>
          refine iff_of_true rfl ⟨fun hnil => hnonempty (List.isEmpty_iff.mpr hnil), ?_⟩
          exact List.all_eq_true.mp hall
      · next hnot => exact iff_of_false nofun fun h => hnot (List.all_eq_true.mpr h.chars)

/-- The characters of identifiers lie between `-` and `z`. -/
theorem identifierChar_bounds {c : Char} (h : identifierChar c = true) :
    0x2D ≤ c.toNat ∧ c.toNat ≤ 0x7A := by
  have hranges : identifierChar c = ((((decide (65 ≤ c.val ∧ c.val ≤ 90) ||
      (97 ≤ c.val && c.val ≤ 122)) || (48 ≤ c.val && c.val ≤ 57)) || c == '-') || c == '_') := rfl
  simp only [hranges, Bool.or_eq_true, Bool.and_eq_true, decide_eq_true_eq, beq_iff_eq] at h
  rcases h with ((((h | h) | h) | rfl) | rfl)
  · exact ⟨le_trans (by decide) (UInt32.le_iff_toNat_le.mp h.1),
      le_trans (UInt32.le_iff_toNat_le.mp h.2) (by decide)⟩
  · exact ⟨le_trans (by decide) (UInt32.le_iff_toNat_le.mp h.1),
      le_trans (UInt32.le_iff_toNat_le.mp h.2) (by decide)⟩
  · exact ⟨le_trans (by decide) (UInt32.le_iff_toNat_le.mp h.1),
      le_trans (UInt32.le_iff_toNat_le.mp h.2) (by decide)⟩
  · decide
  · decide

theorem not_isWhitespace_of_identifierChar {c : Char} (h : identifierChar c = true) :
    Text.isWhitespace c = false := by
  obtain ⟨hlow, hhigh⟩ := identifierChar_bounds h
  simp only [Text.isWhitespace, Bool.or_eq_false_iff, Bool.and_eq_false_iff, decide_eq_false_iff_not,
    beq_eq_false_iff_ne]
  omega

namespace IsIdentifier

variable {value : String}

theorem not_mem (h : IsIdentifier value) {c : Char} (hc : identifierChar c = false) :
    c ∉ value.toList := fun hmem => by
  rw [h.chars c hmem] at hc
  cases hc

theorem trim (h : IsIdentifier value) : Text.trim value.toList = value.toList :=
  Text.trim_of_no_blank fun c hc => not_isWhitespace_of_identifierChar (h.chars c hc)

end IsIdentifier

/-! ## Output keys -/

/-- The name and whether it is required: a trailing `?` says that it is not. -/
def splitOptionalMark (trimmed : List Char) : List Char × Bool :=
  if trimmed.getLast? = some '?' then (Text.trim trimmed.dropLast, false) else (trimmed, true)

def OutputKey.parse (raw : String) : Except String OutputKey :=
  let trimmed := Text.trim raw.toList
  let name := (splitOptionalMark trimmed).1
  if trimmed.isEmpty then .error "output key must be non-empty"
  else if name.isEmpty then .error "output key must be non-empty"
  else if '?' ∈ name then
    .error "output key may only contain optional marker as trailing `?`"
  else do
    validateIdentifierValue "output key" (String.ofList name)
    return { name := String.ofList name, required := (splitOptionalMark trimmed).2 }

end Direclaw.Orchestration
