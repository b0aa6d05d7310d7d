import Mathlib.Algebra.GroupWithZero.Nat
import Mathlib.Data.Char
import Mathlib.Data.List.Basic
import Mathlib.Data.List.Lex

/-!
# Text, as the program's standard library treats it

Text that a function inspects character by character is a `List Char`; the
operations below follow the documented behaviour of `str` and `Path`: `trim`
removes Unicode `White_Space`, `split_once` cuts at the first match, `parse`
of an unsigned integer accepts one leading `+`, and a file name's extension
starts at its last dot unless that dot is the first character. Comparison of
names is the lexicographic order on characters, which agrees with the byte
order of their UTF-8 encodings.
-/

namespace Direclaw.Lib.Text

/-- `char::is_whitespace`: the Unicode property `White_Space`. -/
def isWhitespace (c : Char) : Bool :=
  let n := c.toNat
  (0x09 ≤ n && n ≤ 0x0D) || n == 0x20 || n == 0x85 || n == 0xA0 || n == 0x1680 ||
    (0x2000 ≤ n && n ≤ 0x200A) || n == 0x2028 || n == 0x2029 || n == 0x202F ||
    n == 0x205F || n == 0x3000

/-- `trim_matches` for a set of characters. -/
def trimMatches (p : Char → Bool) (s : List Char) : List Char :=
  ((s.dropWhile p).reverse.dropWhile p).reverse

def trim (s : List Char) : List Char := trimMatches isWhitespace s

/-- `s.trim().is_empty()`. -/
def isBlank (s : List Char) : Bool := s.all isWhitespace

/-- `str::trim`. -/
def trimmed (s : String) : String := String.ofList (trim s.toList)

def asciiLower (c : Char) : Char :=
  if 'A' ≤ c ∧ c ≤ 'Z' then Char.ofNat (c.toNat + 32) else c

def toAsciiLowercase (s : List Char) : List Char := s.map asciiLower

def eqIgnoreAsciiCase (s t : List Char) : Bool := toAsciiLowercase s == toAsciiLowercase t

/-- `split_once` at a character: the text before and after its first
occurrence. -/
def splitOnce (c : Char) : List Char → Option (List Char × List Char)
  | [] => none
  | x :: xs =>
    if x = c then some ([], xs)
    else (splitOnce c xs).map fun (before, after) => (x :: before, after)

/-- `split_once` at a string; on success the match is removed. -/
def splitOnceStr (pat : List Char) : List Char → Option (List Char × List Char)
  | [] => if pat = [] then some ([], []) else none
  | x :: xs =>
    if pat.isPrefixOf (x :: xs) then some ([], (x :: xs).drop pat.length)
    else (splitOnceStr pat xs).map fun (before, after) => (x :: before, after)

/-- `match_indices`: the text before (in reverse) and after every match of a pattern that
is not empty. A match begins where the one before it has ended; `skip` is what is left
of that one. -/
def matchesFrom (pat : List Char) : List Char → ℕ → List Char → List (List Char × List Char)
  | _, _, [] => []
  | before, skip + 1, c :: s => matchesFrom pat (c :: before) skip s
  | before, 0, c :: s =>
    if pat.isPrefixOf (c :: s) then
      (before, (c :: s).drop pat.length) :: matchesFrom pat (c :: before) (pat.length - 1) s
    else matchesFrom pat (c :: before) 0 s

theorem matchesFrom_spec {pat before after done s : List Char} {skip : ℕ}
    (h : (before, after) ∈ matchesFrom pat done skip s) :
    done.reverse ++ s = before.reverse ++ pat ++ after := by
  induction s generalizing done skip with
  | nil => cases h
  | cons c s ih =>
    have hcons : done.reverse ++ c :: s = (c :: done).reverse ++ s := by
      rw [List.reverse_cons, List.append_assoc, List.singleton_append]
    cases skip with
    | succ skip => exact hcons.trans (ih h)
    | zero =>
      unfold matchesFrom at h
      split at h
      · next hpat =>
          rcases List.mem_cons.mp h with heq | hlater
          · cases heq
            obtain ⟨rest, hrest⟩ := List.isPrefixOf_iff_prefix.mp hpat
            rw [List.append_assoc, ← hrest, List.drop_left]
          · exact hcons.trans (ih hlater)
      · exact hcons.trans (ih h)

def stripPrefix (pat s : List Char) : Option (List Char) :=
  if pat.isPrefixOf s then some (s.drop pat.length) else none

def splitWhitespace (s : List Char) : List (List Char) :=
  (s.splitOnP isWhitespace).filter (!·.isEmpty)

/-- The decimal rendering of a number. -/
def decimal (n : ℕ) : List Char := Nat.toDigits 10 n

/-- The largest `u32`. -/
def u32Max : ℕ := 2 ^ 32 - 1

/-- `u32::saturating_add(1)`. -/
def u32Succ (n : ℕ) : ℕ := min (n + 1) u32Max

/-- `parse::<u32>()`: an optional `+`, then at least one digit, in range. -/
def parseU32 (s : List Char) : Option ℕ :=
  let digits := (stripPrefix ['+'] s).getD s
  if digits ≠ [] ∧ digits.all Char.isDigit then
    let n := Nat.ofDigitChars 10 digits 0
    if n ≤ u32Max then some n else none
  else none

/-- `rsplit_file_at_dot`: the name before and after its last dot. -/
def splitAtLastDot : List Char → Option (List Char × List Char)
  | [] => none
  | x :: xs =>
    match splitAtLastDot xs with
    | some (before, after) => some (x :: before, after)
    | none => if x = '.' then some ([], xs) else none

/-- `Path::file_stem` of a plain file name. -/
def fileStem (name : List Char) : List Char :=
  match splitAtLastDot name with
  | some (x :: before, _) => if name = ['.', '.'] then name else x :: before
  | _ => name

/-- `Path::extension` of a plain file name. -/
def extension (name : List Char) : Option (List Char) :=
  match splitAtLastDot name with
  | some (_ :: _, after) => if name = ['.', '.'] then none else some after
  | _ => none

/-! ## Cutting a rendered text apart again -/

variable {c : Char} {n : ℕ}

theorem splitOnce_append : ∀ {s : List Char}, c ∉ s → ∀ t,
    splitOnce c (s ++ c :: t) = some (s, t)
  | [], _, t => by simp [splitOnce]
  | x :: xs, h, t => by
      have hx : x ≠ c := fun e => h (by simp [e])
      have hxs : c ∉ xs := fun m => h (List.mem_cons_of_mem _ m)
      simp [splitOnce, hx, splitOnce_append hxs t]

theorem splitOnce_eq_none_iff {s : List Char} : splitOnce c s = none ↔ c ∉ s := by
  induction s with
  | nil => exact iff_of_true rfl List.not_mem_nil
  | cons x xs ih =>
    rw [splitOnce, List.mem_cons, not_or]
    by_cases hx : x = c
    · rw [if_pos hx]
      exact iff_of_false nofun fun h => h.1 hx.symm
    · rw [if_neg hx, Option.map_eq_none_iff, ih, and_iff_right (Ne.symm hx)]

theorem splitOnce_eq_some_iff {s before after : List Char} :
    splitOnce c s = some (before, after) ↔ s = before ++ c :: after ∧ c ∉ before := by
  constructor
  · intro h
    induction s generalizing before with
    | nil => cases h
    | cons x xs ih =>
      rw [splitOnce] at h
      by_cases hx : x = c
      · rw [if_pos hx] at h
        cases h
        exact ⟨by rw [hx, List.nil_append], List.not_mem_nil⟩
      · rw [if_neg hx] at h
        obtain ⟨⟨first, rest⟩, hsplit, heq⟩ := Option.map_eq_some_iff.mp h
        cases heq
        obtain ⟨rfl, hnot⟩ := ih hsplit
        exact ⟨rfl, fun hmem => (List.mem_cons.mp hmem).elim (Ne.symm hx) hnot⟩
  · rintro ⟨rfl, hnot⟩
    exact splitOnce_append hnot after

theorem not_mem_toList_append {s t : String} (hs : c ∉ s.toList) (ht : c ∉ t.toList) :
    c ∉ (s ++ t).toList := by
  rw [String.toList_append, List.mem_append, not_or]
  exact ⟨hs, ht⟩

theorem splitOnceStr_eq_none {pat : List Char} : ∀ {s : List Char}, c ∉ s →
    splitOnceStr (c :: pat) s = none
  | [], _ => rfl
  | x :: xs, h => by
      have hx : c ≠ x := fun e => h (by simp [e])
      have hxs : c ∉ xs := fun m => h (List.mem_cons_of_mem _ m)
      simp [splitOnceStr, hx, splitOnceStr_eq_none hxs]

/-- What follows the last occurrence of a character is determined by the text. -/
theorem suffix_unique {s s' d d' : List Char} (hd : c ∉ d) (hd' : c ∉ d')
    (h : s ++ c :: d = s' ++ c :: d') : d = d' := by
  have hrev : d.reverse ++ c :: s.reverse = d'.reverse ++ c :: s'.reverse := by
    have := congrArg List.reverse h
    simpa using this
  have hsplit := congrArg (splitOnce c) hrev
  rw [splitOnce_append (by simpa using hd), splitOnce_append (by simpa using hd')] at hsplit
  simp only [Option.some.injEq, Prod.mk.injEq, List.reverse_inj] at hsplit
  exact hsplit.1

@[simp] theorem stripPrefix_append (pat s : List Char) : stripPrefix pat (pat ++ s) = some s := by
  simp [stripPrefix]

theorem splitAtLastDot_eq_none : ∀ {s : List Char}, '.' ∉ s → splitAtLastDot s = none
  | [], _ => rfl
  | x :: xs, h => by
      have hx : x ≠ '.' := fun e => h (by simp [e])
      have hxs : '.' ∉ xs := fun m => h (List.mem_cons_of_mem _ m)
      simp [splitAtLastDot, splitAtLastDot_eq_none hxs, hx]

theorem splitAtLastDot_append {ext : List Char} (h : '.' ∉ ext) : ∀ s : List Char,
    splitAtLastDot (s ++ '.' :: ext) = some (s, ext)
  | [] => by simp [splitAtLastDot, splitAtLastDot_eq_none h]
  | x :: xs => by simp [splitAtLastDot, splitAtLastDot_append h xs]

theorem splitAtLastDot_isSome : ∀ s t : List Char, (splitAtLastDot (s ++ '.' :: t)).isSome
  | [], t => by
      rw [List.nil_append, splitAtLastDot]
      cases splitAtLastDot t <;> simp
  | x :: xs, t => by
      have ih := splitAtLastDot_isSome xs t
      rw [List.cons_append, splitAtLastDot]
      cases h : splitAtLastDot (xs ++ '.' :: t) with
      | none => rw [h] at ih; cases ih
      | some p => simp

/-- What follows the last dot holds none, and the two parts rebuild the name. -/
theorem splitAtLastDot_spec : ∀ {s before after : List Char},
    splitAtLastDot s = some (before, after) → '.' ∉ after ∧ s = before ++ '.' :: after
  | [], _, _, h => by simp [splitAtLastDot] at h
  | x :: xs, before, after, h => by
      rw [splitAtLastDot] at h
      cases hs : splitAtLastDot xs with
      | some p =>
        obtain ⟨b, a⟩ := p
        simp only [hs, Option.some.injEq, Prod.mk.injEq] at h
        obtain ⟨rfl, rfl⟩ := h
        obtain ⟨hdot, rfl⟩ := splitAtLastDot_spec hs
        exact ⟨hdot, rfl⟩
      | none =>
        simp only [hs] at h
        split at h
        · rename_i hx
          simp only [Option.some.injEq, Prod.mk.injEq] at h
          obtain ⟨rfl, rfl⟩ := h
          refine ⟨fun hmem => ?_, by simp [hx]⟩
          -- a dot of `xs` would have been found by the recursive call
          obtain ⟨s, t, hst⟩ := List.append_of_mem hmem
          have hsome := splitAtLastDot_isSome s t
          rw [← hst, hs] at hsome
          cases hsome
        · cases h

/-- A name made of a stem and an extension falls apart into them. -/
theorem fileStem_extension_append {x : Char} (hx : x ≠ '.') (s : List Char) {ext : List Char}
    (h : '.' ∉ ext) :
    fileStem (x :: s ++ '.' :: ext) = x :: s ∧ extension (x :: s ++ '.' :: ext) = some ext := by
  have hne : x :: s ++ '.' :: ext ≠ ['.', '.'] := by
    intro heq
    exact hx (List.cons.inj heq).1
  have hsplit := splitAtLastDot_append h (x :: s)
  constructor
  · rw [fileStem, hsplit]
    exact if_neg hne
  · rw [extension, hsplit]
    exact if_neg hne

/-- An extension holds no dot, and the name ends in it. -/
theorem extension_spec {name ext : List Char} (h : extension name = some ext) :
    '.' ∉ ext ∧ ∃ stem, stem ≠ [] ∧ name = stem ++ '.' :: ext ∧ fileStem name = stem := by
  unfold extension at h
  split at h
  · next x before after hsplit =>
      split at h
      · cases h
      · next hne =>
          cases h
          obtain ⟨hdot, hname⟩ := splitAtLastDot_spec hsplit
          refine ⟨hdot, x :: before, List.cons_ne_nil _ _, hname, ?_⟩
          rw [fileStem, hsplit]
          exact if_neg hne
  · cases h

/-! ## The order of names with a common prefix -/

theorem lt_of_lt_of_isPrefix {s p t : List Char} (h : s < p) (hp : p <+: t) : s < t :=
  lt_of_lt_of_le h (not_lt.mp hp.le)

/-- Whatever is above a prefix without starting with it is above every text that
does. -/
theorem lt_of_isPrefix_of_lt : ∀ {p s t : List Char}, p < s → ¬ p <+: s → p <+: t → t < s
  | [], s, _, _, hn, _ => absurd List.nil_prefix hn
  | a :: p, [], _, h, _, _ => absurd h (List.not_lt_nil _)
  | a :: p, b :: s, t, h, hn, ht => by
      obtain ⟨u, rfl⟩ := ht
      rw [List.cons_append, List.cons_lt_cons_iff]
      rcases List.cons_lt_cons_iff.mp h with hab | ⟨rfl, hps⟩
      · exact .inl hab
      · refine .inr ⟨rfl, lt_of_isPrefix_of_lt hps ?_ ⟨u, rfl⟩⟩
        exact fun hp => hn ((List.prefix_cons_inj a).mpr hp)

/-! ## Decimal numbers in names -/

theorem isDigit_of_mem_decimal (h : c ∈ decimal n) : c.isDigit :=
  Nat.isDigit_of_mem_toDigits (by decide) (by decide) h

theorem not_mem_decimal (h : c.isDigit = false) (n : ℕ) : c ∉ decimal n := by
  intro hmem
  rw [isDigit_of_mem_decimal hmem] at h
  cases h

theorem decimal_ne_nil (n : ℕ) : decimal n ≠ [] := Nat.toDigits_ne_nil

theorem decimal_injective : Function.Injective decimal := by
  intro m n h
  have := congrArg (fun ds => Nat.ofDigitChars 10 ds 0) h
  simpa [decimal, Nat.ofDigitChars_ten_toDigits] using this

theorem parseU32_decimal (h : n ≤ u32Max) : parseU32 (decimal n) = some n := by
  have hplus : stripPrefix ['+'] (decimal n) = none := by
    cases hd : decimal n with
    | nil => exact absurd hd (decimal_ne_nil n)
    | cons c cs =>
      have hc : c ≠ '+' := by
        rintro rfl
        exact not_mem_decimal (c := '+') (by decide) n (by simp [hd])
      simp [stripPrefix, Ne.symm hc]
  have hall : (decimal n).all Char.isDigit = true :=
    List.all_eq_true.mpr fun c hc => isDigit_of_mem_decimal hc
  have hval : Nat.ofDigitChars 10 (decimal n) 0 = n := Nat.ofDigitChars_ten_toDigits
  simp [parseU32, hplus, hall, decimal_ne_nil, hval, h]

/-- What `parse::<u32>()` reads. -/
def NumberText (text : List Char) (n : ℕ) : Prop :=
  ∃ digits, (text = digits ∨ text = '+' :: digits) ∧ digits ≠ [] ∧
    (∀ c ∈ digits, c.isDigit = true) ∧ Nat.ofDigitChars 10 digits 0 = n ∧ n ≤ u32Max

theorem parseU32_eq_some_iff {text : List Char} : parseU32 text = some n ↔ NumberText text n := by
  have hread : ∀ digits : List Char,
      (if digits ≠ [] ∧ digits.all Char.isDigit then
        let n := Nat.ofDigitChars 10 digits 0
        if n ≤ u32Max then some n else none
      else none) = some n ↔ digits ≠ [] ∧ (∀ c ∈ digits, c.isDigit = true) ∧
        Nat.ofDigitChars 10 digits 0 = n ∧ n ≤ u32Max := by
    intro digits
    by_cases hdigits : digits ≠ [] ∧ digits.all Char.isDigit = true
    · rw [if_pos hdigits]
      obtain ⟨hne, hall⟩ := hdigits
      rw [and_iff_right hne, and_iff_right (List.all_eq_true.mp hall)]
      by_cases hmax : Nat.ofDigitChars 10 digits 0 ≤ u32Max
      · simp only [hmax, if_true, Option.some.injEq]
        exact ⟨fun h => ⟨h, h ▸ hmax⟩, And.left⟩
      · simp only [hmax, if_false]
        exact iff_of_false nofun fun ⟨heq, hle⟩ => hmax (heq ▸ hle)
    · rw [if_neg hdigits]
      exact iff_of_false nofun fun ⟨hne, hall, _⟩ => hdigits ⟨hne, List.all_eq_true.mpr hall⟩
  unfold parseU32 NumberText
  cases hplus : stripPrefix ['+'] text with
  | some digits =>
    obtain rfl : text = '+' :: digits := by
      unfold stripPrefix at hplus
      split at hplus
      · next hprefix =>
          obtain ⟨rest, rfl⟩ := List.isPrefixOf_iff_prefix.mp hprefix
          cases hplus
          rfl
      · cases hplus
    rw [Option.getD_some]
    refine (hread digits).trans ⟨fun h => ⟨digits, .inr rfl, h⟩, ?_⟩
    rintro ⟨other, rfl | heq, hne, hall, h⟩
    · exact absurd (hall '+' List.mem_cons_self) (by decide)
    · cases heq
      exact ⟨hne, hall, h⟩
  | none =>
    rw [Option.getD_none]
    refine (hread text).trans ⟨fun h => ⟨text, .inl rfl, h⟩, ?_⟩
    rintro ⟨digits, rfl | rfl, h⟩
    · exact h
    · cases hplus

end Direclaw.Lib.Text
