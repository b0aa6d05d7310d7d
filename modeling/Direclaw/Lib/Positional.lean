import Mathlib.Algebra.GroupWithZero.Nat
import Mathlib.Data.List.Induction
import Mathlib.Data.List.Nodup
import Mathlib.Data.Nat.Init

/-!
# Positional numerals

Numbers written over an alphabet, the most significant symbol first. The two
writers are the loops a program uses: one pushes the lowest digit until nothing
is left, for the digits to be turned round afterwards; the other fills a row of
fixed width from its last place. `read` is the value of a text.
-/

namespace Direclaw.Lib.Positional

/-- The symbols of the digits, in order; no symbol stands for two of them. -/
structure Alphabet (α : Type) where
  symbols : List α
  nodup : symbols.Nodup
  two_le : 2 ≤ symbols.length

namespace Alphabet

variable {α : Type} (A : Alphabet α)

def base : ℕ := A.symbols.length

theorem one_lt_base : 1 < A.base := A.two_le

theorem base_pos : 0 < A.base := Nat.zero_lt_of_lt A.one_lt_base

variable {value : ℕ}

theorem div_base_lt (h : value ≠ 0) : value / A.base < value :=
  Nat.div_lt_self (Nat.pos_of_ne_zero h) A.one_lt_base

/-- The symbol of the lowest digit of a value. -/
def symbol (value : ℕ) : α := A.symbols.get ⟨value % A.base, Nat.mod_lt _ A.base_pos⟩

theorem symbol_mem (value : ℕ) : A.symbol value ∈ A.symbols := List.get_mem _ _

/-! ## The pushed digits -/

/-- `while value > 0 { chars.push(symbol); value /= base }`. -/
def pushDigits (value : ℕ) (chars : List α) : List α :=
  if value = 0 then chars else pushDigits (value / A.base) (chars ++ [A.symbol value])
termination_by value
decreasing_by exact A.div_base_lt ‹_›

theorem pushDigits_zero (chars : List α) : A.pushDigits 0 chars = chars := by
  rw [pushDigits, if_pos rfl]

theorem pushDigits_of_ne_zero (h : value ≠ 0) (chars : List α) :
    A.pushDigits value chars = A.pushDigits (value / A.base) (chars ++ [A.symbol value]) := by
  rw [pushDigits, if_neg h]

/-- What is there already stays in front. -/
theorem pushDigits_append (value : ℕ) (front chars : List α) :
    A.pushDigits value (front ++ chars) = front ++ A.pushDigits value chars := by
  induction value using Nat.strongRecOn generalizing chars with
  | _ value ih =>
    by_cases hvalue : value = 0
    · rw [hvalue, pushDigits_zero, pushDigits_zero]
    · rw [A.pushDigits_of_ne_zero hvalue, A.pushDigits_of_ne_zero hvalue, List.append_assoc,
        ih _ (A.div_base_lt hvalue)]

/-- The last symbol of the numeral is the first one pushed. -/
theorem reverse_pushDigits (h : value ≠ 0) :
    (A.pushDigits value []).reverse =
      (A.pushDigits (value / A.base) []).reverse ++ [A.symbol value] := by
  have happend := A.pushDigits_append (value / A.base) [A.symbol value] []
  rw [List.append_nil] at happend
  rw [A.pushDigits_of_ne_zero h, List.nil_append, happend, List.reverse_append,
    List.reverse_singleton]

theorem mem_of_mem_pushDigits {c : α} (h : c ∈ A.pushDigits value []) : c ∈ A.symbols := by
  induction value using Nat.strongRecOn with
  | _ value ih =>
    by_cases hvalue : value = 0
    · rw [hvalue, pushDigits_zero] at h
      cases h
    · rw [← List.mem_reverse, A.reverse_pushDigits hvalue, List.mem_append,
        List.mem_reverse, List.mem_singleton] at h
      rcases h with hrest | rfl
      · exact ih _ (A.div_base_lt hvalue) hrest
      · exact A.symbol_mem value

/-! ## The filled row -/

/-- One place filled: the row and what is left of the value. -/
def setDigit (state : List α × ℕ) (idx : ℕ) : List α × ℕ :=
  (state.1.set idx (A.symbol state.2), state.2 / A.base)

/-- `for idx in (0..width).rev() { chars[idx] = symbol; value /= base }`. -/
def setDigits (width value : ℕ) (chars : List α) : List α :=
  ((List.range width).reverse.foldl A.setDigit (chars, value)).1

/-- A row keeps its length, whatever places are filled. -/
theorem length_foldl_setDigit (places : List ℕ) (state : List α × ℕ) :
    (places.foldl A.setDigit state).1.length = state.1.length := by
  induction places generalizing state with
  | nil => rfl
  | cons idx places ih => rw [List.foldl_cons, ih, setDigit, List.length_set]

theorem length_setDigits (width value : ℕ) (chars : List α) :
    (A.setDigits width value chars).length = chars.length :=
  A.length_foldl_setDigit _ _

/-- Places in the front of the row leave the rest of it alone. -/
theorem foldl_setDigit_append {places : List ℕ} {front : List α}
    (h : ∀ idx ∈ places, idx < front.length) (tail : List α) (value : ℕ) :
    (places.foldl A.setDigit (front ++ tail, value)).1 =
      (places.foldl A.setDigit (front, value)).1 ++ tail := by
  induction places generalizing front value with
  | nil => rfl
  | cons idx places ih =>
    have hset : (front ++ tail).set idx (A.symbol value) =
        front.set idx (A.symbol value) ++ tail :=
      List.set_append_left idx _ (h idx List.mem_cons_self)
    simp only [List.foldl_cons, setDigit, hset]
    refine ih (fun other hother => ?_) _
    rw [List.length_set]
    exact h other (List.mem_cons_of_mem _ hother)

/-- The last place gets the lowest digit; the places before it are filled with the rest. -/
theorem setDigits_succ (front : List α) (c : α) (value : ℕ) :
    A.setDigits (front.length + 1) value (front ++ [c]) =
      A.setDigits front.length (value / A.base) front ++ [A.symbol value] := by
  have hlast : (front ++ [c]).set front.length (A.symbol value) = front ++ [A.symbol value] := by
    rw [List.set_append_right _ _ (Nat.le_refl _), Nat.sub_self]
    rfl
  rw [setDigits, List.range_succ, List.reverse_append, List.reverse_singleton,
    List.singleton_append, List.foldl_cons, setDigit, hlast]
  exact A.foldl_setDigit_append (fun idx hidx => List.mem_range.mp (List.mem_reverse.mp hidx)) _ _

/-! ## Reading -/

variable [DecidableEq α]

def read (text : List α) : ℕ :=
  text.foldl (fun value c => value * A.base + A.symbols.idxOf c) 0

theorem read_append_symbol (text : List α) (value : ℕ) :
    A.read (text ++ [A.symbol value]) = A.read text * A.base + value % A.base := by
  have hidx : A.symbols.idxOf (A.symbol value) = value % A.base :=
    List.get_idxOf A.nodup ⟨value % A.base, _⟩
  rw [read, List.foldl_append, List.foldl_cons, List.foldl_nil, hidx]
  rfl

theorem read_reverse_pushDigits (value : ℕ) : A.read (A.pushDigits value []).reverse = value := by
  induction value using Nat.strongRecOn with
  | _ value ih =>
    by_cases hvalue : value = 0
    · rw [hvalue, pushDigits_zero]
      rfl
    · rw [A.reverse_pushDigits hvalue, read_append_symbol, ih _ (A.div_base_lt hvalue)]
      exact Nat.div_add_mod' value A.base

/-- A row of fixed width drops the digits that it has no place for. -/
theorem read_setDigits (value : ℕ) (row : List α) :
    A.read (A.setDigits row.length value row) = value % A.base ^ row.length := by
  induction row using List.reverseRecOn generalizing value with
  | nil =>
    rw [List.length_nil, pow_zero, Nat.mod_one]
    rfl
  | append_singleton front c ih =>
    rw [List.length_append, List.length_singleton, setDigits_succ, read_append_symbol, ih,
      pow_succ', Nat.mod_mul, Nat.add_comm, Nat.mul_comm]

end Alphabet

end Direclaw.Lib.Positional
