import Direclaw.Automation.Cron
import Direclaw.Lib.Fallible
import Direclaw.Lib.OrderedMap

/-!
# The grammar of cron fields

A field is `*` or a list of segments between commas, and a segment is an atom, a range of
atoms or `*`, with a step or without. `parse_cron_field` accepts exactly these texts, and
what it accepts matches the union of the stepped ranges.
-/

namespace Direclaw.Automation

open Direclaw.Lib Direclaw.Lib.Text Direclaw.Orchestration

/-! ## The grammar -/

section Grammar

variable (low high : ℕ) (aliases : AliasKind)

/-- A name in letters of either case, or a number. -/
def AtomText (text : List Char) (value : ℕ) : Prop :=
  ((∃ name, (name, value) ∈ aliases.names ∧ toAsciiLowercase text = name.toList) ∨
    NumberText text value) ∧ low ≤ value ∧ value ≤ high

inductive RangeText : List Char → ℕ → ℕ → Prop
  | all : RangeText ['*'] low high
  | one {text : List Char} {value : ℕ} (h : AtomText low high aliases text value) :
      RangeText text value value
  | between {first last : List Char} {start stop : ℕ}
      (hfirst : AtomText low high aliases first start)
      (hlast : AtomText low high aliases last stop) :
      RangeText (first ++ '-' :: last) start stop

structure SteppedRange where
  start : ℕ
  stop : ℕ
  step : ℕ

def SteppedRange.values (range : SteppedRange) : Set ℕ :=
  {value | ∃ k, value = range.start + k * range.step ∧ value ≤ range.stop}

def SegmentText (text : List Char) (range : SteppedRange) : Prop :=
  range.start ≤ range.stop ∧
    (range.step = 1 ∧ RangeText low high aliases text range.start range.stop ∨
      ∃ rangeText stepText, text = rangeText ++ '/' :: stepText ∧ 1 ≤ range.step ∧
        RangeText low high aliases rangeText range.start range.stop ∧
        NumberText stepText range.step)

/-- Segments with commas between them. -/
def FieldText (text : List Char) (ranges : List SteppedRange) : Prop :=
  ∃ segments : List (List Char), segments ≠ [] ∧ text = [','].intercalate segments ∧
    List.Forall₂ (SegmentText low high aliases) segments ranges

/-- The seventh day of the week is the day before the first. -/
def AliasKind.normalize (value : ℕ) : ℕ := if aliases = .weekday ∧ value = 7 then 0 else value

def Selects (ranges : List SteppedRange) (value : ℕ) : Prop :=
  ∃ range ∈ ranges, ∃ member ∈ range.values, aliases.normalize member = value

end Grammar

/-! ## Texts without separators -/

/-- Only letters change. -/
theorem eq_of_asciiLower_eq {c d : Char} (h : asciiLower c = d) (hd : ¬ ('a' ≤ d ∧ d ≤ 'z')) :
    c = d := by
  unfold asciiLower at h
  split at h
  · next hupper =>
      have hlow : 65 ≤ c.toNat := hupper.1
      have hhigh : c.toNat ≤ 90 := hupper.2
      have hvalid : (c.toNat + 32).isValidChar := .inl (by omega)
      have hnat : d.toNat = c.toNat + 32 := by
        rw [← h, Char.ofNat, dif_pos hvalid]
        rfl
      refine absurd ⟨?_, ?_⟩ hd
      · show 97 ≤ d.toNat
        omega
      · show d.toNat ≤ 122
        omega
  · exact h

/-- A text without letters is the same in lower case. -/
theorem toAsciiLowercase_eq_self {text : List Char}
    (h : ∀ c ∈ toAsciiLowercase text, ¬ ('a' ≤ c ∧ c ≤ 'z')) : toAsciiLowercase text = text := by
  unfold toAsciiLowercase at h ⊢
  refine (List.map_congr_left fun c hc => ?_).trans (List.map_id text)
  exact (eq_of_asciiLower_eq rfl (h _ (List.mem_map_of_mem hc))).symm

theorem toAsciiLowercase_of_digits {text : List Char}
    (h : ∀ c ∈ text, c.isDigit = true ∨ c = '+') : toAsciiLowercase text = text := by
  refine (List.map_congr_left fun c hc => ?_).trans (List.map_id text)
  refine if_neg fun hupper => ?_
  have hlow : 65 ≤ c.toNat := hupper.1
  rcases h c hc with hdigit | rfl
  · have hhigh : c.toNat ≤ 57 := (Char.isDigit_iff_toNat.mp hdigit).2
    omega
  · exact absurd hupper (by decide)

theorem not_letter_of_digit {c : Char} (h : c.isDigit = true ∨ c = '+') :
    ¬ ('a' ≤ c ∧ c ≤ 'z') := by
  rintro ⟨hlow, -⟩
  have hlow : 97 ≤ c.toNat := hlow
  rcases h with hdigit | rfl
  · have hhigh : c.toNat ≤ 57 := (Char.isDigit_iff_toNat.mp hdigit).2
    omega
  · exact absurd hlow (by decide)

variable {text : List Char} {n : ℕ}

theorem digits_of_numberText (h : NumberText text n) : ∀ c ∈ text, c.isDigit = true ∨ c = '+' := by
  obtain ⟨digits, rfl | rfl, -, hall, -⟩ := h
  · exact fun c hc => .inl (hall c hc)
  · intro c hc
    rcases List.mem_cons.mp hc with rfl | hc
    · exact .inr rfl
    · exact .inl (hall c hc)

theorem numberText_toAsciiLowercase : NumberText (toAsciiLowercase text) n ↔ NumberText text n := by
  constructor
  · intro h
    rwa [toAsciiLowercase_eq_self fun c hc => not_letter_of_digit (digits_of_numberText h c hc)] at h
  · intro h
    rwa [toAsciiLowercase_of_digits (digits_of_numberText h)]

/-- A character that stands in no atom. -/
def Separator (c : Char) : Prop :=
  asciiLower c = c ∧ ¬ ('a' ≤ c ∧ c ≤ 'z') ∧ c.isDigit = false ∧ c ≠ '+'

instance (c : Char) : Decidable (Separator c) := inferInstanceAs (Decidable (_ ∧ _))

theorem Separator.not_mem_number {c : Char} (hc : Separator c) {text : List Char} {n : ℕ}
    (h : NumberText text n) : c ∉ text := by
  intro hmem
  rcases digits_of_numberText h c hmem with hdigit | hplus
  · rw [hc.2.2.1] at hdigit
    cases hdigit
  · exact hc.2.2.2 hplus

theorem names_letters (aliases : AliasKind) :
    ∀ entry ∈ aliases.names, entry.1.toList ≠ [] ∧ ∀ c ∈ entry.1.toList, 'a' ≤ c ∧ c ≤ 'z' := by
  cases aliases <;> simp [AliasKind.names]

theorem names_nodup (aliases : AliasKind) : (aliases.names.map (·.1)).Nodup := by
  cases aliases <;> decide

/-! ## Atoms, ranges, segments -/

section Parse

variable {low high : ℕ} {aliases : AliasKind}

variable {text : List Char} {ranges : List SteppedRange} {raw : List Char} {range : SteppedRange}
  {start stop : ℕ} {value : ℕ}

/-- The names are found by their letters, and none is a number. -/
theorem lookup_names {lower : List Char} :
    aliases.names.lookup (String.ofList lower) = some value ↔
      ∃ name, (name, value) ∈ aliases.names ∧ lower = name.toList := by
  constructor
  · intro h
    exact ⟨String.ofList lower, OrderedMap.mem_of_lookup h, String.toList_ofList.symm⟩
  · rintro ⟨name, hname, rfl⟩
    rw [String.ofList_toList]
    exact OrderedMap.lookup_of_mem (names_nodup aliases) hname

theorem not_number_of_name {name : String} {value n : ℕ} (hname : (name, value) ∈ aliases.names)
    (hraw : toAsciiLowercase raw = name.toList) : ¬ NumberText raw n := by
  intro hnumber
  rw [← numberText_toAsciiLowercase, hraw] at hnumber
  obtain ⟨hne, hletters⟩ := names_letters aliases (name, value) hname
  obtain ⟨c, rest, hcons⟩ := List.exists_cons_of_ne_nil hne
  have hc : c ∈ name.toList := by
    rw [hcons]
    exact List.mem_cons_self
  exact not_letter_of_digit (digits_of_numberText hnumber c hc) (hletters c hc)

theorem parseCronAtom_ok_iff :
    parseCronAtom raw low high aliases = .ok value ↔ AtomText low high aliases raw value := by
  have hrange : ∀ read : ℕ,
      (¬ (read < low ∨ high < read) ∧ (pure read : Except String ℕ) = .ok value) ↔
        read = value ∧ low ≤ value ∧ value ≤ high := by
    intro read
    constructor
    · rintro ⟨hin, ⟨⟩⟩
      omega
    · rintro ⟨rfl, hlow, hhigh⟩
      exact ⟨by omega, rfl⟩
  unfold parseCronAtom AtomText
  dsimp only
  cases hlookup : aliases.names.lookup (String.ofList (toAsciiLowercase raw)) with
  | some read =>
    obtain ⟨name, hname, hraw⟩ := lookup_names.mp hlookup
    have hnames : read = value ↔ (∃ name, (name, value) ∈ aliases.names ∧
        toAsciiLowercase raw = name.toList) ∨ NumberText raw value := by
      rw [or_iff_left (not_number_of_name hname hraw), ← lookup_names, hlookup,
        Option.some.injEq]
    rw [← hnames, ← hrange]
    exact throw_if_ok_iff
  | none =>
    have hnone : ¬ ∃ name, (name, value) ∈ aliases.names ∧
        toAsciiLowercase raw = name.toList := by
      rw [← lookup_names, hlookup]
      nofun
    rw [or_iff_right hnone, ← numberText_toAsciiLowercase, ← parseU32_eq_some_iff]
    cases hread : parseU32 (toAsciiLowercase raw) with
    | none => exact iff_of_false throw_bind_not_ok (by simp)
    | some read =>
      rw [Option.some.injEq, ← hrange]
      exact throw_if_ok_iff

/-- What stands before and after the slash. -/
def readStep (raw : List Char) : Except String (List Char × ℕ) :=
  match splitOnce '/' raw with
  | some (range, stepRaw) =>
    match parseU32 stepRaw with
    | none => .error s!"invalid cron step `{String.ofList stepRaw}`"
    | some 0 => .error "cron step must be >= 1"
    | some step => .ok (range, step)
  | none => .ok (raw, 1)

variable (low high aliases) in
def readRange (rangeRaw : List Char) : Except String (ℕ × ℕ) :=
  if rangeRaw = ['*'] then .ok (low, high)
  else
    match splitOnce '-' rangeRaw with
    | some (startRaw, endRaw) => do
        let start ← parseCronAtom startRaw low high aliases
        let stop ← parseCronAtom endRaw low high aliases
        return (start, stop)
    | none => do
        let value ← parseCronAtom rangeRaw low high aliases
        return (value, value)

theorem parseCronSegment_eq (raw : List Char) (values : Finset ℕ) :
    parseCronSegment raw low high aliases values = (do
      let part ← readStep raw
      let range ← readRange low high aliases part.1
      if range.2 < range.1 then throw s!"invalid cron range `{String.ofList raw}`"
      return insertSteps aliases range.2 part.2 (range.2 + 1 - range.1) range.1 values) := by
  have hrange : ∀ (text : List Char) (rest : ℕ × ℕ → Except String (Finset ℕ)),
      (if text = ['*'] then rest (low, high)
        else match splitOnce '-' text with
          | some (startRaw, endRaw) => do
              let start ← parseCronAtom startRaw low high aliases
              let stop ← parseCronAtom endRaw low high aliases
              rest (start, stop)
          | none => do
              let value ← parseCronAtom text low high aliases
              rest (value, value)) = readRange low high aliases text >>= rest := by
    intro text rest
    unfold readRange
    by_cases hall : text = ['*']
    · rw [if_pos hall, if_pos hall]
      rfl
    · rw [if_neg hall, if_neg hall]
      cases splitOnce '-' text with
      | none => simp only [bind_assoc, pure_bind]
      | some parts => simp only [bind_assoc, pure_bind]
  have hinsert := fun text step => hrange text fun range => do
    if range.2 < range.1 then throw s!"invalid cron range `{String.ofList raw}`"
    return insertSteps aliases range.2 step (range.2 + 1 - range.1) range.1 values
  unfold parseCronSegment readStep
  cases splitOnce '/' raw with
  | none => exact hinsert raw 1
  | some parts =>
    obtain ⟨range, stepRaw⟩ := parts
    dsimp only
    cases parseU32 stepRaw with
    | none => rfl
    | some step =>
      cases step with
      | zero => rfl
      | succ step => exact hinsert range (step + 1)

/-! ### What is read -/

theorem Separator.not_mem_atom {c : Char} (hc : Separator c)
    (h : AtomText low high aliases text value) : c ∉ text := by
  obtain ⟨⟨name, hname, htext⟩ | hnumber, -⟩ := h
  · intro hmem
    have hlower : c ∈ toAsciiLowercase text := List.mem_map.mpr ⟨c, hmem, hc.1⟩
    rw [htext] at hlower
    exact hc.2.1 ((names_letters aliases _ hname).2 c hlower)
  · exact hc.not_mem_number hnumber

theorem rangeText_iff :
    RangeText low high aliases text start stop ↔
      text = ['*'] ∧ start = low ∧ stop = high ∨
        start = stop ∧ AtomText low high aliases text start ∨
          ∃ first last, text = first ++ '-' :: last ∧ AtomText low high aliases first start ∧
            AtomText low high aliases last stop := by
  constructor
  · intro h
    cases h with
    | all => exact .inl ⟨rfl, rfl, rfl⟩
    | one h => exact .inr (.inl ⟨rfl, h⟩)
    | between hfirst hlast => exact .inr (.inr ⟨_, _, rfl, hfirst, hlast⟩)
  · rintro (⟨rfl, rfl, rfl⟩ | ⟨rfl, h⟩ | ⟨first, last, rfl, hfirst, hlast⟩)
    · exact .all
    · exact .one h
    · exact .between hfirst hlast

theorem separator_star : Separator '*' := by decide
theorem separator_dash : Separator '-' := by decide
theorem separator_slash : Separator '/' := by decide
theorem separator_comma : Separator ',' := by decide

theorem readRange_ok_iff :
    readRange low high aliases text = .ok (start, stop) ↔
      RangeText low high aliases text start stop := by
  rw [rangeText_iff]
  unfold readRange
  by_cases hall : text = ['*']
  · rw [if_pos hall]
    constructor
    · rintro ⟨⟩
      exact .inl ⟨hall, rfl, rfl⟩
    · rintro (⟨-, rfl, rfl⟩ | ⟨-, h⟩ | ⟨first, last, htext, -⟩)
      · rfl
      · exact absurd (hall ▸ List.mem_cons_self) (separator_star.not_mem_atom h)
      · have hdash : '-' ∈ text := htext ▸ List.mem_append_right _ List.mem_cons_self
        rw [hall] at hdash
        exact absurd hdash (by decide)
  · rw [if_neg hall, or_iff_right fun h => hall h.1]
    cases hsplit : splitOnce '-' text with
    | none =>
      have hdash := splitOnce_eq_none_iff.mp hsplit
      simp only [bind_ok_iff, parseCronAtom_ok_iff]
      constructor
      · rintro ⟨value, h, ⟨⟩⟩
        exact .inl ⟨rfl, h⟩
      · rintro (⟨rfl, h⟩ | ⟨first, last, rfl, -⟩)
        · exact ⟨start, h, rfl⟩
        · exact absurd (List.mem_append_right _ List.mem_cons_self) hdash
    | some parts =>
      obtain ⟨before, after⟩ := parts
      obtain ⟨rfl, hdash⟩ := splitOnce_eq_some_iff.mp hsplit
      simp only [bind_ok_iff, parseCronAtom_ok_iff]
      constructor
      · rintro ⟨first, hfirst, last, hlast, ⟨⟩⟩
        exact .inr ⟨before, after, rfl, hfirst, hlast⟩
      · rintro (⟨-, h⟩ | ⟨first, last, htext, hfirst, hlast⟩)
        · exact absurd (List.mem_append_right _ List.mem_cons_self)
            (separator_dash.not_mem_atom h)
        · rw [htext, splitOnce_append (separator_dash.not_mem_atom hfirst)] at hsplit
          cases hsplit
          exact ⟨start, hfirst, stop, hlast, rfl⟩

theorem not_mem_range {c : Char} (hc : Separator c) (hstar : c ≠ '*') (hdash : c ≠ '-')
    (h : RangeText low high aliases text start stop) : c ∉ text := by
  cases h with
  | all => exact fun hmem => hstar (List.mem_singleton.mp hmem)
  | one h => exact hc.not_mem_atom h
  | between hfirst hlast =>
    rw [List.mem_append, List.mem_cons, not_or, not_or]
    exact ⟨hc.not_mem_atom hfirst, hdash, hc.not_mem_atom hlast⟩

theorem readStep_ok_iff {raw text : List Char} {step : ℕ} (hslash : '/' ∉ text) :
    readStep raw = .ok (text, step) ↔
      step = 1 ∧ raw = text ∨
        ∃ stepText, raw = text ++ '/' :: stepText ∧ 1 ≤ step ∧ NumberText stepText step := by
  unfold readStep
  cases hsplit : splitOnce '/' raw with
  | none =>
    have hraw := splitOnce_eq_none_iff.mp hsplit
    constructor
    · rintro ⟨⟩
      exact .inl ⟨rfl, rfl⟩
    · rintro (⟨rfl, rfl⟩ | ⟨stepText, rfl, -⟩)
      · rfl
      · exact absurd (List.mem_append_right _ List.mem_cons_self) hraw
  | some parts =>
    obtain ⟨before, after⟩ := parts
    obtain ⟨rfl, hbefore⟩ := splitOnce_eq_some_iff.mp hsplit
    have hparts : ∀ stepText, before ++ '/' :: after = text ++ '/' :: stepText →
        before = text ∧ after = stepText := by
      intro stepText heq
      rw [heq, splitOnce_append hslash] at hsplit
      cases hsplit
      exact ⟨rfl, rfl⟩
    have hwhole : before ++ '/' :: after ≠ text := by
      rintro rfl
      exact hslash (List.mem_append_right _ List.mem_cons_self)
    rw [or_iff_right fun h => hwhole h.2]
    simp only [← parseU32_eq_some_iff]
    constructor
    · intro h
      cases hread : parseU32 after with
      | none =>
        rw [hread] at h
        cases h
      | some read =>
        rw [hread] at h
        cases read with
        | zero => cases h
        | succ read =>
          cases h
          exact ⟨after, rfl, by omega, hread⟩
    · rintro ⟨stepText, heq, hpos, hread⟩
      obtain ⟨rfl, rfl⟩ := hparts stepText heq
      obtain ⟨read, rfl⟩ : ∃ read, step = read + 1 := ⟨step - 1, by omega⟩
      simp only [hread]

theorem parseCronSegment_ok_iff {values values' : Finset ℕ} :
    parseCronSegment raw low high aliases values = .ok values' ↔
      ∃ range, SegmentText low high aliases raw range ∧
        values' = insertSteps aliases range.stop range.step (range.stop + 1 - range.start)
          range.start values := by
  have hslash : ∀ {text start stop}, RangeText low high aliases text start stop → '/' ∉ text :=
    fun h => not_mem_range separator_slash (by decide) (by decide) h
  rw [parseCronSegment_eq]
  constructor
  · intro h
    obtain ⟨⟨text, step⟩, hstep, h⟩ := bind_ok_iff.mp h
    obtain ⟨⟨start, stop⟩, hrange, h⟩ := bind_ok_iff.mp h
    obtain ⟨horder, ⟨⟩⟩ := throw_if_ok_iff.mp h
    have hrange := readRange_ok_iff.mp hrange
    refine ⟨⟨start, stop, step⟩, ⟨not_lt.mp horder, ?_⟩, rfl⟩
    rcases (readStep_ok_iff (hslash hrange)).mp hstep with ⟨rfl, rfl⟩ | ⟨stepText, rfl, hpos, hnumber⟩
    · exact .inl ⟨rfl, hrange⟩
    · exact .inr ⟨text, stepText, rfl, hpos, hrange, hnumber⟩
  · rintro ⟨⟨start, stop, step⟩, ⟨horder, hsegment⟩, rfl⟩
    have hparts : ∃ text, readStep raw = .ok (text, step) ∧
        RangeText low high aliases text start stop := by
      rcases hsegment with ⟨hone, hrange⟩ | ⟨text, stepText, hraw, hpos, hrange, hnumber⟩
      · exact ⟨raw, (readStep_ok_iff (hslash hrange)).mpr (.inl ⟨hone, rfl⟩), hrange⟩
      · exact ⟨text, (readStep_ok_iff (hslash hrange)).mpr (.inr ⟨stepText, hraw, hpos, hnumber⟩),
          hrange⟩
    obtain ⟨text, hstep, hrange⟩ := hparts
    refine bind_ok_iff.mpr ⟨_, hstep, bind_ok_iff.mpr ⟨_, readRange_ok_iff.mpr hrange, ?_⟩⟩
    exact throw_if_ok_iff.mpr ⟨not_lt.mpr horder, rfl⟩

/-! ## The loop -/

/-- The loop of the source with its `checked_add`; nothing when it runs for longer. -/
def expandRange (aliases : AliasKind) (stop step : ℕ) : ℕ → ℕ → Finset ℕ → Option (Finset ℕ)
  | 0, _, _ => none
  | fuel + 1, value, values =>
    if value ≤ stop then
      let values := insert (aliases.normalize value) values
      if value + step ≤ u32Max then expandRange aliases stop step fuel (value + step) values
      else some values
    else some values

theorem values_of_lt {start stop step : ℕ} (h : stop < start) :
    SteppedRange.values ⟨start, stop, step⟩ = ∅ := by
  refine Set.eq_empty_of_forall_notMem ?_
  rintro member ⟨k, rfl, hle⟩
  have hle : start + k * step ≤ stop := hle
  omega

/-- The first value and those that a step later begin. -/
theorem mem_values_iff {start stop step member : ℕ} (h : start ≤ stop) :
    member ∈ SteppedRange.values ⟨start, stop, step⟩ ↔
      member = start ∨ member ∈ SteppedRange.values ⟨start + step, stop, step⟩ := by
  constructor
  · rintro ⟨k, rfl, hle⟩
    cases k with
    | zero => exact .inl (by simp)
    | succ k =>
      refine .inr ⟨k, ?_, hle⟩
      show start + (k + 1) * step = start + step + k * step
      rw [Nat.succ_mul]
      omega
  · rintro (rfl | ⟨k, rfl, hle⟩)
    · exact ⟨0, by simp, h⟩
    · refine ⟨k + 1, ?_, hle⟩
      show start + step + k * step = start + (k + 1) * step
      rw [Nat.succ_mul]
      omega

theorem insertSteps_of_lt {stop step fuel value : ℕ} {values : Finset ℕ} (h : stop < value) :
    insertSteps aliases stop step fuel value values = values := by
  cases fuel with
  | zero => rfl
  | succ fuel => exact if_neg (not_le.mpr h)

theorem mem_insertSteps_iff {stop step : ℕ} (hstep : 1 ≤ step) :
    ∀ {fuel value : ℕ} {values : Finset ℕ}, stop + 1 - value ≤ fuel → ∀ {v : ℕ},
      v ∈ insertSteps aliases stop step fuel value values ↔
        v ∈ values ∨ ∃ member ∈ SteppedRange.values ⟨value, stop, step⟩,
          aliases.normalize member = v := by
  intro fuel
  induction fuel with
  | zero =>
    intro value values h v
    have hlt : stop < value := by omega
    rw [insertSteps_of_lt hlt, values_of_lt hlt]
    simp
  | succ fuel ih =>
    intro value values h v
    by_cases hle : value ≤ stop
    · have hnext : insertSteps aliases stop step (fuel + 1) value values =
          insertSteps aliases stop step fuel (value + step)
            (insert (aliases.normalize value) values) := if_pos hle
      rw [hnext, ih (by omega), Finset.mem_insert]
      simp only [mem_values_iff hle, or_and_right, exists_or, exists_eq_left]
      rw [or_comm (a := v = aliases.normalize value), or_assoc, eq_comm]
    · have hlt := not_le.mp hle
      rw [insertSteps_of_lt hlt, values_of_lt hlt]
      simp

/-- More rounds than values add nothing. -/
theorem insertSteps_eq {stop step fuel value : ℕ} {values : Finset ℕ} (hstep : 1 ≤ step)
    (h : stop + 1 - value ≤ fuel) : insertSteps aliases stop step fuel value values =
      insertSteps aliases stop step (stop + 1 - value) value values := by
  ext v
  rw [mem_insertSteps_iff hstep h, mem_insertSteps_iff hstep le_rfl]

/-- With a step the loop ends, however large the step is. -/
theorem expandRange_eq {stop step : ℕ} (hstop : stop ≤ u32Max) (hstep : 1 ≤ step) {fuel : ℕ} :
    ∀ {value : ℕ} {values : Finset ℕ}, stop + 1 - value < fuel →
      expandRange aliases stop step fuel value values =
        some (insertSteps aliases stop step (stop + 1 - value) value values) := by
  induction fuel with
  | zero => exact fun h => absurd h (Nat.not_lt_zero _)
  | succ fuel ih =>
    intro value values h
    unfold expandRange
    by_cases hle : value ≤ stop
    · have hrounds : stop + 1 - value = stop - value + 1 := by omega
      have hnext : insertSteps aliases stop step (stop - value + 1) value values =
          insertSteps aliases stop step (stop - value) (value + step)
            (insert (aliases.normalize value) values) := if_pos hle
      rw [if_pos hle, hrounds, hnext]
      by_cases hfits : value + step ≤ u32Max
      · simp only [hfits, if_true]
        have hrest : stop + 1 - (value + step) ≤ stop - value := by omega
        rw [ih (by omega), ← insertSteps_eq hstep hrest]
      · simp only [hfits, if_false]
        rw [insertSteps_of_lt (by omega)]
    · rw [if_neg hle, insertSteps_of_lt (not_le.mp hle)]

/-! ## Segments and fields -/

theorem not_mem_segment (h : SegmentText low high aliases text range) : ',' ∉ text := by
  obtain ⟨-, ⟨-, hrange⟩ | ⟨rangeText, stepText, rfl, -, hrange, hnumber⟩⟩ := h
  · exact not_mem_range separator_comma (by decide) (by decide) hrange
  · rw [List.mem_append, List.mem_cons, not_or, not_or]
    exact ⟨not_mem_range separator_comma (by decide) (by decide) hrange, by decide,
      separator_comma.not_mem_number hnumber⟩

theorem SegmentText.step_pos (h : SegmentText low high aliases text range) : 1 ≤ range.step := by
  obtain ⟨-, ⟨hone, -⟩ | ⟨_, _, -, hpos, -⟩⟩ := h
  · exact hone.ge
  · exact hpos

theorem selects_cons {v : ℕ} :
    Selects aliases (range :: ranges) v ↔
      (∃ member ∈ range.values, aliases.normalize member = v) ∨ Selects aliases ranges v := by
  simp [Selects]

theorem parseCronSegments_ok_iff {segments : List (List Char)} :
    ∀ {values values' : Finset ℕ},
      parseCronSegments low high aliases segments values = .ok values' ↔
        ∃ ranges, List.Forall₂ (SegmentText low high aliases) segments ranges ∧
          ∀ v, v ∈ values' ↔ v ∈ values ∨ Selects aliases ranges v := by
  induction segments with
  | nil =>
    intro values values'
    have hnone : ∀ v, ¬ Selects aliases [] v := by simp [Selects]
    simp only [List.forall₂_nil_left_iff, exists_eq_left, hnone, or_false]
    constructor
    · rintro ⟨⟩
      exact fun v => Iff.rfl
    · intro h
      rw [Finset.ext h]
      rfl
  | cons segment segments ih =>
    intro values values'
    have hinsert : ∀ {range : SteppedRange}, SegmentText low high aliases segment range → ∀ v,
        v ∈ insertSteps aliases range.stop range.step (range.stop + 1 - range.start) range.start
          values ↔ v ∈ values ∨ ∃ member ∈ range.values, aliases.normalize member = v :=
      fun hsegment v => mem_insertSteps_iff hsegment.step_pos le_rfl
    rw [parseCronSegments, bind_ok_iff]
    simp only [parseCronSegment_ok_iff, ih]
    constructor
    · rintro ⟨_, ⟨range, hsegment, rfl⟩, ranges, hrest, hvalues⟩
      refine ⟨range :: ranges, .cons hsegment hrest, fun v => ?_⟩
      rw [hvalues, hinsert hsegment, selects_cons, or_assoc]
    · rintro ⟨_, hall, hvalues⟩
      obtain ⟨range, ranges, hsegment, hrest, rfl⟩ := List.forall₂_cons_left_iff.mp hall
      refine ⟨_, ⟨range, hsegment, rfl⟩, ranges, hrest, fun v => ?_⟩
      rw [hvalues, hinsert hsegment, selects_cons, or_assoc]

/-- Between commas there are the segments of the field and no others. -/
theorem fieldText_iff :
    FieldText low high aliases text ranges ↔
      List.Forall₂ (SegmentText low high aliases) (text.splitOn ',') ranges := by
  constructor
  · rintro ⟨segments, hne, rfl, hall⟩
    have hcommas : ∀ segment ∈ segments, ',' ∉ segment := by
      clear hne
      induction hall with
      | nil => exact nofun
      | cons hsegment hrest ih => exact List.forall_mem_cons.mpr ⟨not_mem_segment hsegment, ih⟩
    rwa [List.splitOn_intercalate ',' hcommas hne]
  · exact fun hall => ⟨text.splitOn ',', List.splitOn_ne_nil _ _, (List.intercalate_splitOn ',').symm,
      hall⟩

theorem exists_selects {text : List Char} {ranges : List SteppedRange}
    (h : FieldText low high aliases text ranges) : ∃ v, Selects aliases ranges v := by
  obtain ⟨segments, hne, -, hall⟩ := h
  cases hall with
  | nil => exact absurd rfl hne
  | @cons _ range _ _ hsegment _ =>
    exact ⟨_, range, List.mem_cons_self, range.start, ⟨0, by simp, hsegment.1⟩, rfl⟩

theorem parseCronField_ok_iff (hraw : raw ≠ ['*']) {field : CronField} :
    parseCronField raw low high aliases = .ok field ↔
      field.any = false ∧ ∃ ranges, FieldText low high aliases raw ranges ∧
        ∀ v, v ∈ field.values ↔ Selects aliases ranges v := by
  rw [parseCronField, if_neg hraw, bind_ok_iff]
  simp only [parseCronSegments_ok_iff, ← fieldText_iff, Finset.notMem_empty, false_or]
  constructor
  · rintro ⟨values, ⟨ranges, htext, hvalues⟩, h⟩
    obtain ⟨-, ⟨⟩⟩ := throw_if_ok_iff.mp h
    exact ⟨rfl, ranges, htext, hvalues⟩
  · obtain ⟨any, values⟩ := field
    rintro ⟨rfl, ranges, htext, hvalues⟩
    refine ⟨values, ⟨ranges, htext, hvalues⟩, throw_if_ok_iff.mpr ⟨?_, rfl⟩⟩
    rintro rfl
    obtain ⟨v, hv⟩ := exists_selects htext
    exact absurd ((hvalues v).mpr hv) (Finset.notMem_empty v)

theorem exists_values {segments : List (List Char)}
    (h : List.Forall₂ (SegmentText low high aliases) segments ranges) :
    ∃ values : Finset ℕ, ∀ v, v ∈ values ↔ Selects aliases ranges v := by
  induction h with
  | nil => exact ⟨∅, by simp [Selects]⟩
  | @cons _ range _ _ hsegment _ ih =>
    obtain ⟨values, hvalues⟩ := ih
    refine ⟨insertSteps aliases range.stop range.step (range.stop + 1 - range.start) range.start
      values, fun v => ?_⟩
    rw [mem_insertSteps_iff hsegment.step_pos le_rfl, hvalues, selects_cons, or_comm]

theorem parseCronField_of_text (hraw : raw ≠ ['*']) (h : FieldText low high aliases raw ranges) :
    ∃ field, parseCronField raw low high aliases = .ok field ∧
      ∀ v, v ∈ field.values ↔ Selects aliases ranges v := by
  obtain ⟨values, hvalues⟩ := exists_values (fieldText_iff.mp h)
  exact ⟨⟨false, values⟩, (parseCronField_ok_iff hraw).mpr ⟨rfl, ranges, h, hvalues⟩, hvalues⟩

end Parse

/-- `parse_cron_field` accepts `*` and the texts of the grammar, what it accepts matches the
values of the ranges, and the loop over a range ends for every step. -/
theorem parseCronField_spec (raw : List Char) (low high : ℕ) (aliases : AliasKind) :
    ((∃ field, parseCronField raw low high aliases = .ok field) ↔
      raw = ['*'] ∨ ∃ ranges, FieldText low high aliases raw ranges) ∧
    (∀ field, parseCronField raw low high aliases = .ok field → ∀ v, field.matches v = true ↔
      raw = ['*'] ∨ ∃ ranges, FieldText low high aliases raw ranges ∧ Selects aliases ranges v) ∧
    ∀ start stop step values, stop ≤ u32Max → 1 ≤ step →
      ∃ rounds, expandRange aliases stop step rounds start values =
        some (insertSteps aliases stop step (stop + 1 - start) start values) := by
  refine ⟨?_, ?_, fun start stop step values hstop hstep =>
    ⟨_, expandRange_eq hstop hstep (Nat.lt_succ_self _)⟩⟩
  · by_cases hraw : raw = ['*']
    · exact iff_of_true ⟨_, if_pos hraw⟩ (.inl hraw)
    · rw [or_iff_right hraw]
      simp only [parseCronField_ok_iff hraw]
      constructor
      · rintro ⟨field, -, ranges, htext, -⟩
        exact ⟨ranges, htext⟩
      · rintro ⟨ranges, htext⟩
        obtain ⟨field, hfield, -⟩ := parseCronField_of_text hraw htext
        exact ⟨field, (parseCronField_ok_iff hraw).mp hfield⟩
  · intro field hfield v
    by_cases hraw : raw = ['*']
    · rw [parseCronField, if_pos hraw] at hfield
      cases hfield
      exact iff_of_true rfl (.inl hraw)
    · obtain ⟨hany, ranges, htext, hvalues⟩ := (parseCronField_ok_iff hraw).mp hfield
      rw [or_iff_right hraw, CronField.matches, hany, Bool.false_or, decide_eq_true_iff, hvalues]
      constructor
      · exact fun h => ⟨ranges, htext, h⟩
      · rintro ⟨ranges', htext', h⟩
        obtain ⟨field', hfield', hvalues'⟩ := parseCronField_of_text hraw htext'
        rw [hfield'] at hfield
        cases hfield
        exact (hvalues v).mp ((hvalues' v).mpr h)

end Direclaw.Automation
