import Direclaw.Lib.Occurrences

/-!
# Byte offsets into a text

A `str` is indexed by the bytes of its UTF-8 encoding, and a slice is refused if an end
lies behind the text or inside a character, or if the ends are in the wrong order.
-/

namespace Direclaw.Lib.Text

/-- `str::len`. -/
def byteLen : List Char → ℕ
  | [] => 0
  | c :: s => c.utf8Size + byteLen s

/-- `split_at`; `none` where it would panic. -/
def splitAtByte : ℕ → List Char → Option (List Char × List Char)
  | 0, s => some ([], s)
  | _ + 1, [] => none
  | n + 1, c :: s =>
    if c.utf8Size ≤ n + 1 then
      (splitAtByte (n + 1 - c.utf8Size) s).map fun (before, after) => (c :: before, after)
    else none

/-- `&s[start..]`. -/
def sliceFrom (s : List Char) (start : ℕ) : Option (List Char) := (splitAtByte start s).map (·.2)

/-- `&s[start..stop]`. -/
def slice (s : List Char) (start stop : ℕ) : Option (List Char) :=
  if start ≤ stop then
    (sliceFrom s start).bind fun rest => (splitAtByte (stop - start) rest).map (·.1)
  else none

/-- `str::find`: the byte offset of the first occurrence. -/
def find (pat s : List Char) : Option ℕ := (splitOnceStr pat s).map fun found => byteLen found.1

def contains (pat s : List Char) : Bool := (splitOnceStr pat s).isSome

variable {pat s : List Char}

theorem contains_iff : contains pat s = true ↔ pat <:+: s := by
  unfold contains
  rw [← not_iff_not, Bool.not_eq_true, Option.isSome_eq_false_iff, Option.isNone_iff_eq_none,
    splitOnceStr_eq_none_iff]

theorem find_eq_some_iff {offset : ℕ} :
    find pat s = some offset ↔ ∃ before after, FirstAt pat s before after ∧
      offset = byteLen before := by
  unfold find
  rw [Option.map_eq_some_iff]
  constructor
  · rintro ⟨⟨before, after⟩, hsplit, rfl⟩
    exact ⟨before, after, splitOnceStr_eq_some_iff.mp hsplit, rfl⟩
  · rintro ⟨before, after, hfirst, rfl⟩
    exact ⟨(before, after), splitOnceStr_eq_some_iff.mpr hfirst, rfl⟩

theorem find_eq_none_iff : find pat s = none ↔ ¬ pat <:+: s :=
  Option.map_eq_none_iff.trans splitOnceStr_eq_none_iff

@[simp] theorem byteLen_append (s t : List Char) : byteLen (s ++ t) = byteLen s + byteLen t := by
  induction s with
  | nil => rw [List.nil_append, byteLen, Nat.zero_add]
  | cons c s ih => rw [List.cons_append, byteLen, byteLen, ih, Nat.add_assoc]

theorem splitAtByte_append (s t : List Char) : splitAtByte (byteLen s) (s ++ t) = some (s, t) := by
  induction s with
  | nil => rw [byteLen, List.nil_append, splitAtByte]
  | cons c s ih =>
    obtain ⟨n, hn⟩ : ∃ n, byteLen (c :: s) = n + 1 :=
      ⟨c.utf8Size - 1 + byteLen s, by have := c.utf8Size_pos; simp only [byteLen]; omega⟩
    have hsize : c.utf8Size ≤ n + 1 := hn ▸ Nat.le_add_right _ _
    have hrest : n + 1 - c.utf8Size = byteLen s := by
      rw [← hn, byteLen, Nat.add_sub_cancel_left]
    rw [hn, List.cons_append, splitAtByte, if_pos hsize, hrest, ih]
    rfl

theorem sliceFrom_append (s t : List Char) : sliceFrom (s ++ t) (byteLen s) = some t := by
  rw [sliceFrom, splitAtByte_append]
  rfl

theorem slice_append (s t u : List Char) :
    slice (s ++ t ++ u) (byteLen s) (byteLen (s ++ t)) = some t := by
  rw [slice, byteLen_append, if_pos (Nat.le_add_right _ _), Nat.add_sub_cancel_left,
    List.append_assoc, sliceFrom_append, Option.bind_some, splitAtByte_append]
  rfl

/-- Of two beginnings of a text the longer one has more bytes. -/
theorem byteLen_le_iff {s before after before' after' : List Char} (h : s = before ++ after)
    (h' : s = before' ++ after') :
    byteLen before ≤ byteLen before' ↔ before.length ≤ before'.length := by
  rcases List.append_eq_append_iff.mp (h.symm.trans h') with ⟨mid, rfl, -⟩ | ⟨mid, rfl, -⟩
  · exact iff_of_true (by simp) (by simp)
  · cases mid with
    | nil => simp
    | cons c mid =>
      have hpos := c.utf8Size_pos
      refine iff_of_false (not_le.mpr ?_) (not_le.mpr (by simp))
      rw [byteLen_append, byteLen]
      omega

end Direclaw.Lib.Text
