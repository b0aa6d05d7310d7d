import Mathlib.Data.List.Basic
import Mathlib.Tactic.IntervalCases
import Direclaw.Lib.Text

/-!
# Texts that say where they end

A code is self-delimiting if none of its texts goes on as another one. What such a code
writes can be read back, and no part of it reads as something else. The texts and numbers
that `serde_json` writes are such codes, with what follows a number.
-/

namespace Direclaw.Lib

variable {α β : Type} {code : α → List β} {stop : β}

def SelfDelimiting (code : α → List β) : Prop :=
  ∀ ⦃a b : α⦄ ⦃rest rest' : List β⦄, code a ++ rest = code b ++ rest' → a = b ∧ rest = rest'

theorem SelfDelimiting.eq_of_prefix (h : SelfDelimiting code) {a b : α}
    (hbegins : code a <+: code b) : a = b := by
  obtain ⟨rest, hrest⟩ := hbegins
  exact (h (hrest.trans (List.append_nil _).symm)).1

theorem SelfDelimiting.injective (h : SelfDelimiting code) : Function.Injective code :=
  fun _ _ heq => h.eq_of_prefix (heq ▸ List.prefix_refl _)

theorem append_cons_inj {before before' after after' : List β} (h : stop ∉ before)
    (h' : stop ∉ before') (heq : before ++ stop :: after = before' ++ stop :: after') :
    before = before' ∧ after = after' := by
  induction before generalizing before' with
  | nil =>
    cases before' with
    | nil => exact ⟨rfl, (List.cons.inj heq).2⟩
    | cons b before' => exact absurd ((List.cons.inj heq).1 ▸ List.mem_cons_self) h'
  | cons a before ih =>
    cases before' with
    | nil => exact absurd ((List.cons.inj heq).1 ▸ List.mem_cons_self) h
    | cons b before' =>
      obtain ⟨rfl, hrest⟩ := List.cons.inj heq
      rw [List.mem_cons, not_or] at h h'
      exact (ih h.2 h'.2 hrest).imp_left (congrArg _)

/-- Texts that never hold what is put at their end. -/
theorem selfDelimiting_ended (hcode : Function.Injective code) (hstop : ∀ a, stop ∉ code a) :
    SelfDelimiting fun a => code a ++ [stop] := by
  intro a b rest rest' h
  simp only [List.append_assoc, List.singleton_append] at h
  exact (append_cons_inj (hstop a) (hstop b) h).imp_left fun hsame => hcode hsame

/-- Items one after the other, up to something that begins none of them. -/
theorem SelfDelimiting.flatMap (h : SelfDelimiting code)
    (hstop : ∀ a, ∃ first more, code a = first :: more ∧ first ≠ stop) :
    SelfDelimiting fun items : List α => items.flatMap code ++ [stop] := by
  intro items
  simp only [List.append_assoc]
  induction items with
  | nil =>
    rintro (_ | ⟨b, others⟩) rest rest' heq
    · exact ⟨rfl, (List.cons.inj heq).2⟩
    · obtain ⟨first, more, hb, hne⟩ := hstop b
      simp only [List.flatMap_cons, hb, List.cons_append] at heq
      exact absurd (List.cons.inj heq).1.symm hne
  | cons a items ih =>
    rintro (_ | ⟨b, others⟩) rest rest' heq
    · obtain ⟨first, more, ha, hne⟩ := hstop a
      simp only [List.flatMap_cons, ha, List.cons_append] at heq
      exact absurd (List.cons.inj heq).1 hne
    · simp only [List.flatMap_cons, List.append_assoc] at heq
      obtain ⟨rfl, hitems⟩ := h heq
      obtain ⟨rfl, hrest⟩ := ih hitems
      exact ⟨rfl, hrest⟩

/-! ## Texts -/

/-- The bytes with an escape of two characters, and the second one of it. -/
def shortEscapes : List (UInt8 × UInt8) :=
  [(0x08, 0x62), (0x09, 0x74), (0x0a, 0x6e), (0x0c, 0x66), (0x0d, 0x72), (0x22, 0x22),
    (0x5c, 0x5c)]

def hexDigit (n : UInt8) : UInt8 := if n < 10 then 0x30 + n else 0x57 + n

def hexValue (digit : UInt8) : UInt8 := if digit < 0x3a then digit - 0x30 else digit - 0x57

/-- `format_escaped_str_contents`, of one byte. -/
def escapeByte (b : UInt8) : List UInt8 :=
  match shortEscapes.lookup b with
  | some c => [0x5c, c]
  | none =>
    if b < 0x20 then [0x5c, 0x75, 0x30, 0x30, hexDigit (b / 16), hexDigit (b % 16)] else [b]

/-- The byte at the beginning of an escaped text. -/
def firstByte : List UInt8 → Option UInt8
  | 0x5c :: 0x75 :: _ :: _ :: high :: low :: _ => some (16 * hexValue high + hexValue low)
  | 0x5c :: c :: _ => (shortEscapes.find? (·.2 == c)).map (·.1)
  | b :: _ => some b
  | [] => none

theorem firstByte_escapeByte (b : UInt8) (rest : List UInt8) :
    firstByte (escapeByte b ++ rest) = some b := by
  have hall : ∀ n < 256, firstByte (escapeByte (UInt8.ofNat n) ++ rest) =
      some (UInt8.ofNat n) := by
    intro n hn
    interval_cases n <;> rfl
  rw [← UInt8.ofNat_toNat (x := b)]
  exact hall b.toNat b.toNat_lt

theorem selfDelimiting_escapeByte : SelfDelimiting escapeByte := by
  intro a b rest rest' h
  have hfirst := congrArg firstByte h
  rw [firstByte_escapeByte, firstByte_escapeByte] at hfirst
  obtain rfl := Option.some.inj hfirst
  exact ⟨rfl, List.append_cancel_left h⟩

/-- A byte is never written as a quote. -/
theorem escapeByte_eq_cons (b : UInt8) :
    ∃ first more, escapeByte b = first :: more ∧ first ≠ 0x22 := by
  by_cases hquote : b = 0x22
  · rw [hquote]
    exact ⟨0x5c, [0x22], rfl, by decide⟩
  · unfold escapeByte
    split
    · exact ⟨_, _, rfl, by decide⟩
    · split
      · exact ⟨_, _, rfl, by decide⟩
      · exact ⟨_, _, rfl, hquote⟩

def utf8 (text : String) : List UInt8 := text.toUTF8.data.toList

theorem utf8_injective : Function.Injective utf8 := by
  intro text text' h
  exact String.toByteArray_inj.mp (ByteArray.ext (Array.toList_inj.mp h))

def quoted (text : String) : List UInt8 := 0x22 :: ((utf8 text).flatMap escapeByte ++ [0x22])

theorem selfDelimiting_quoted : SelfDelimiting quoted := by
  intro text text' rest rest' h
  have hinside := (List.cons.inj h).2
  obtain ⟨hbytes, hrest⟩ := selfDelimiting_escapeByte.flatMap escapeByte_eq_cons hinside
  exact ⟨utf8_injective hbytes, hrest⟩

/-! ## Numbers -/

def digits (n : ℕ) : List UInt8 := (Text.decimal n).map fun c => c.toNat.toUInt8

theorem toNat_digit {n : ℕ} {c : Char} (h : c ∈ Text.decimal n) :
    48 ≤ c.toNat ∧ c.toNat.toUInt8.toNat = c.toNat := by
  have hdigit := Text.isDigit_of_mem_decimal h
  simp only [Char.isDigit, Bool.and_eq_true, decide_eq_true_eq] at hdigit
  exact ⟨hdigit.1, UInt8.toNat_ofNat_of_lt (hdigit.2.trans_lt (by decide))⟩

theorem digits_injective : Function.Injective digits := by
  intro n n' h
  have hback : ∀ n, (digits n).map (fun b => Char.ofNat b.toNat) = Text.decimal n := by
    intro n
    rw [digits, List.map_map]
    conv_rhs => rw [← List.map_id (Text.decimal n)]
    refine List.map_congr_left fun c hc => ?_
    show Char.ofNat c.toNat.toUInt8.toNat = c
    rw [(toNat_digit hc).2, Char.ofNat_toNat]
  exact Text.decimal_injective ((hback n).symm.trans ((congrArg _ h).trans (hback n')))

theorem not_mem_digits {b : UInt8} (h : b.toNat < 48) (n : ℕ) : b ∉ digits n := by
  intro hmem
  obtain ⟨c, hc, rfl⟩ := List.mem_map.mp hmem
  obtain ⟨hdigit, hsame⟩ := toNat_digit hc
  omega

def signed : Int → List UInt8
  | .ofNat n => digits n
  | .negSucc n => 0x2d :: digits (n + 1)

theorem signed_injective : Function.Injective signed := by
  have hminus : ∀ n k, digits n ≠ 0x2d :: digits k := fun n k h =>
    not_mem_digits (b := 0x2d) (by decide) n (h ▸ List.mem_cons_self)
  rintro (n | n) (n' | n') h
  · exact congrArg _ (digits_injective h)
  · exact absurd h (hminus n _)
  · exact absurd h.symm (hminus n' _)
  · have hsucc : n + 1 = n' + 1 := digits_injective (List.cons.inj h).2
    exact congrArg _ (Nat.succ.inj hsucc)

theorem not_mem_signed {b : UInt8} (h : b.toNat < 45) (n : Int) : b ∉ signed n := by
  cases n with
  | ofNat n => exact not_mem_digits (by omega) n
  | negSucc n =>
    rw [signed, List.mem_cons, not_or]
    refine ⟨?_, not_mem_digits (by omega) _⟩
    rintro rfl
    exact absurd h (by decide)

end Direclaw.Lib
