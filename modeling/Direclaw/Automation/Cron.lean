import Direclaw.Orchestration.WorkflowEngine
import Mathlib.Data.Finset.Insert

/-!
# Cron expressions

The cron half of `orchestration/scheduler.rs`: the five-field parser, the match of
a minute against an expression, and the search for the next matching minute. Local
time comes from outside (`chrono` and its timezone database) and is a parameter.
-/

namespace Direclaw.Automation

open Direclaw.Lib Direclaw.Orchestration

/-! ## Local time -/

/-- What a cron expression looks at; Sunday is day 0 of the week. -/
structure LocalTime where
  minute : ℕ
  hour : ℕ
  day : ℕ
  month : ℕ
  dayOfWeek : ℕ
deriving DecidableEq, Repr

/-- `parse::<Tz>` and `Utc.timestamp_opt(ts, 0)` followed by `with_timezone`. The
calendar ends some 262 thousand years from the epoch on either side. -/
structure TimeZones where
  known : String → Bool
  localTime : String → Int → Option LocalTime
  inRange : ∀ {tz ts t}, localTime tz ts = some t → -2 ^ 43 ≤ ts ∧ ts < 2 ^ 43

def validateIanaTimezone (zones : TimeZones) (raw : String) : Except String Unit :=
  if zones.known raw then .ok ()
  else .error s!"invalid timezone `{raw}`; expected IANA timezone id"

/-! ## Expressions -/

structure CronField where
  any : Bool
  values : Finset ℕ
deriving DecidableEq

def CronField.matches (field : CronField) (value : ℕ) : Bool :=
  field.any || decide (value ∈ field.values)

structure CronExpression where
  minute : CronField
  hour : CronField
  dayOfMonth : CronField
  month : CronField
  dayOfWeek : CronField
deriving DecidableEq

inductive AliasKind : Type where
  | none
  | month
  | weekday
deriving DecidableEq, Repr

/-- The names a field accepts in place of a number. -/
def AliasKind.names : AliasKind → List (String × ℕ)
  | .none => []
  | .month => [("jan", 1), ("feb", 2), ("mar", 3), ("apr", 4), ("may", 5), ("jun", 6), ("jul", 7),
      ("aug", 8), ("sep", 9), ("oct", 10), ("nov", 11), ("dec", 12)]
  | .weekday => [("sun", 0), ("mon", 1), ("tue", 2), ("wed", 3), ("thu", 4), ("fri", 5), ("sat", 6)]

def parseCronAtom (raw : List Char) (min max : ℕ) (aliases : AliasKind) : Except String ℕ := do
  let lower := Text.toAsciiLowercase raw
  let value ←
    match aliases.names.lookup (String.ofList lower) with
    | some value => pure value
    | none =>
      match Text.parseU32 lower with
      | some value => pure value
      | none => throw s!"invalid cron value `{String.ofList raw}`"
  if value < min ∨ max < value then
    throw s!"cron value `{String.ofList raw}` is out of bounds ({min}..={max})"
  return value

/-- The loop of `parse_cron_segment`. A step that would overflow leaves the range
anyway. -/
def insertSteps (aliases : AliasKind) (stop step : ℕ) : ℕ → ℕ → Finset ℕ → Finset ℕ
  | 0, _, values => values
  | fuel + 1, value, values =>
    if value ≤ stop then
      let normalized := if aliases = .weekday ∧ value = 7 then 0 else value
      insertSteps aliases stop step fuel (value + step) (insert normalized values)
    else values

def parseCronSegment (raw : List Char) (min max : ℕ) (aliases : AliasKind) (values : Finset ℕ) :
    Except String (Finset ℕ) := do
  let (rangeRaw, step) ←
    match Text.splitOnce '/' raw with
    | some (range, stepRaw) =>
      match Text.parseU32 stepRaw with
      | none => throw s!"invalid cron step `{String.ofList stepRaw}`"
      | some 0 => throw "cron step must be >= 1"
      | some step => pure (range, step)
    | none => pure (raw, 1)
  let (start, stop) ←
    if rangeRaw = ['*'] then pure (min, max)
    else
      match Text.splitOnce '-' rangeRaw with
      | some (startRaw, endRaw) => do
          let start ← parseCronAtom startRaw min max aliases
          let stop ← parseCronAtom endRaw min max aliases
          pure (start, stop)
      | none => do
          let value ← parseCronAtom rangeRaw min max aliases
          pure (value, value)
  if stop < start then throw s!"invalid cron range `{String.ofList raw}`"
  return insertSteps aliases stop step (stop + 1 - start) start values

def parseCronSegments (min max : ℕ) (aliases : AliasKind) :
    List (List Char) → Finset ℕ → Except String (Finset ℕ)
  | [], values => .ok values
  | segment :: segments, values => do
      let values ← parseCronSegment segment min max aliases values
      parseCronSegments min max aliases segments values

def parseCronField (raw : List Char) (min max : ℕ) (aliases : AliasKind) :
    Except String CronField :=
  if raw = ['*'] then .ok { any := true, values := ∅ }
  else do
    let values ← parseCronSegments min max aliases (raw.splitOn ',') ∅
    if values = ∅ then throw s!"invalid cron field `{String.ofList raw}`"
    return { any := false, values := values }

def parseCronExpression (raw : String) : Except String CronExpression :=
  match Text.splitWhitespace raw.toList with
  | [minute, hour, dayOfMonth, month, dayOfWeek] => do
      let minute ← parseCronField minute 0 59 .none
      let hour ← parseCronField hour 0 23 .none
      let dayOfMonth ← parseCronField dayOfMonth 1 31 .none
      let month ← parseCronField month 1 12 .month
      let dayOfWeek ← parseCronField dayOfWeek 0 7 .weekday
      return { minute, hour, dayOfMonth, month, dayOfWeek }
  | _ =>
    .error "cron expression must use 5 fields: minute hour day_of_month month day_of_week"

/-- Two restricted day fields are alternatives, otherwise both have to match. -/
def CronExpression.matchesLocal (expr : CronExpression) (local_ : LocalTime) : Bool :=
  if !expr.minute.matches local_.minute || !expr.hour.matches local_.hour ||
      !expr.month.matches local_.month then false
  else
    let dayOfMonthMatch := expr.dayOfMonth.matches local_.day
    let dayOfWeekMatch := expr.dayOfWeek.matches local_.dayOfWeek
    if expr.dayOfMonth.any || expr.dayOfWeek.any then dayOfMonthMatch && dayOfWeekMatch
    else dayOfMonthMatch || dayOfWeekMatch

def cronMatches (zones : TimeZones) (expr : CronExpression) (unixTs : Int) (timezone : String) :
    Bool :=
  match zones.localTime timezone unixTs with
  | none => false
  | some local_ => expr.matchesLocal local_

/-! ## The search -/

/-- `i64::saturating_add`. -/
def i64SaturatingAdd (a b : Int) : Int := max i64Min (min i64Max (a + b))

/-- `i64` arithmetic of release builds. -/
def i64Wrap (n : Int) : Int := Int.bmod n (2 ^ 64)

def maxCronSearchMinutes : ℕ := 60 * 24 * 366 * 5

/-- The minute after a time; `/` of the source rounds toward zero. -/
def nextMinute (t : Int) : Int := i64Wrap ((t.tdiv 60 + 1) * 60)

section Search

variable (zones : TimeZones) (expr : CronExpression) (timezone : String)

/-- The loop of `compute_next_run_at`: the first match among the next minutes. -/
def searchCron : ℕ → Int → Option Int
  | 0, _ => none
  | n + 1, candidate =>
    if cronMatches zones expr candidate timezone then some candidate
    else searchCron n (i64SaturatingAdd candidate 60)

variable {zones expr timezone}

theorem cronMatches_inRange {ts : Int} (h : cronMatches zones expr ts timezone = true) :
    -2 ^ 43 ≤ ts ∧ ts < 2 ^ 43 := by
  unfold cronMatches at h
  split at h
  · cases h
  · next local_ hlocal => exact zones.inRange hlocal

theorem i64SaturatingAdd_eq {a b : Int} (hmin : i64Min ≤ a + b) (hmax : a + b ≤ i64Max) :
    i64SaturatingAdd a b = a + b := by
  rw [i64SaturatingAdd, min_eq_right hmax, max_eq_right hmin]

theorem i64SaturatingAdd_top {a b : Int} (hmax : i64Max ≤ a + b) :
    i64SaturatingAdd a b = i64Max := by
  rw [i64SaturatingAdd, min_eq_left hmax]
  rfl

/-- A search that has run into the end of `i64` finds nothing there. -/
theorem searchCron_top : ∀ n, searchCron zones expr timezone n i64Max = none
  | 0 => rfl
  | n + 1 => by
      have hno : ¬ cronMatches zones expr i64Max timezone = true := by
        intro h
        have := (cronMatches_inRange h).2
        simp [i64Max] at this
      rw [searchCron, if_neg hno, i64SaturatingAdd_top (by decide), searchCron_top n]

/-- **The search.** It finds the first of the next `n` minutes that matches. -/
theorem searchCron_eq_some_iff {r : Int} : ∀ {n : ℕ} {c : Int}, i64Min ≤ c → c ≤ i64Max →
    (searchCron zones expr timezone n c = some r ↔
      ∃ i < n, r = c + 60 * (i : ℕ) ∧ cronMatches zones expr r timezone = true ∧
        ∀ j < i, cronMatches zones expr (c + 60 * (j : ℕ)) timezone = false)
  | 0, c, _, _ => by simp [searchCron]
  | n + 1, c, hmin, hmax => by
      rw [searchCron]
      by_cases hc : cronMatches zones expr c timezone = true
      · rw [if_pos hc, Option.some.injEq]
        constructor
        · rintro rfl
          exact ⟨0, by omega, by simp, hc, by simp⟩
        · rintro ⟨i, _, hr, _, hbefore⟩
          cases i with
          | zero => simpa using hr.symm
          | succ i =>
            have := hbefore 0 (by omega)
            simp [hc] at this
      · rw [if_neg hc]
        by_cases hfar : c + 60 ≤ i64Max
        · rw [i64SaturatingAdd_eq (by simp only [i64Min] at *; omega) hfar,
            searchCron_eq_some_iff (by simp only [i64Min] at *; omega) hfar]
          constructor
          · rintro ⟨i, hi, hr, hmatch, hbefore⟩
            refine ⟨i + 1, by omega, by omega, hmatch, ?_⟩
            intro j hj
            cases j with
            | zero => simpa using hc
            | succ j =>
              have := hbefore j (by omega)
              rwa [show c + 60 * ((j + 1 : ℕ) : Int) = c + 60 + 60 * (j : ℕ) by omega]
          · rintro ⟨i, hi, hr, hmatch, hbefore⟩
            cases i with
            | zero =>
              obtain rfl : r = c := by omega
              exact absurd hmatch hc
            | succ i =>
              refine ⟨i, by omega, by omega, hmatch, ?_⟩
              intro j hj
              have := hbefore (j + 1) (by omega)
              rwa [show c + 60 * ((j + 1 : ℕ) : Int) = c + 60 + 60 * (j : ℕ) by omega] at this
        · -- past the end of `i64` nothing matches
          rw [i64SaturatingAdd_top (by omega), searchCron_top]
          constructor
          · intro h
            cases h
          · rintro ⟨i, _, hr, hmatch, _⟩
            have := (cronMatches_inRange hmatch).2
            simp only [i64Max] at hfar
            omega

theorem searchCron_eq_none {n : ℕ} {c : Int} (hmin : i64Min ≤ c) (hmax : c ≤ i64Max)
    (h : ∀ i < n, cronMatches zones expr (c + 60 * (i : ℕ)) timezone = false) :
    searchCron zones expr timezone n c = none := by
  cases hs : searchCron zones expr timezone n c with
  | none => rfl
  | some r =>
    obtain ⟨i, hi, rfl, hmatch, _⟩ := (searchCron_eq_some_iff hmin hmax).mp hs
    rw [h i hi] at hmatch
    cases hmatch

end Search

theorem i64Wrap_eq {n : Int} (hmin : i64Min ≤ n) (hmax : n ≤ i64Max) : i64Wrap n = n := by
  simp only [i64Min, i64Max] at hmin hmax
  rw [i64Wrap]
  apply Int.bmod_eq_of_le <;> omega

theorem i64Wrap_bounds (n : Int) : i64Min ≤ i64Wrap n ∧ i64Wrap n ≤ i64Max := by
  have hlo := @Int.le_bmod n (2 ^ 64) (by decide)
  have hhi := @Int.bmod_lt n (2 ^ 64) (by decide)
  simp only [i64Min, i64Max, i64Wrap]
  omega

theorem i64Wrap_over {n : Int} (hmin : i64Max < n) (hmax : n < 2 ^ 64) :
    i64Wrap n = n - 2 ^ 64 := by
  simp only [i64Max] at hmin
  have hshift := Int.sub_bmod_right n (2 ^ 64)
  have hsmall : (n - (2 ^ 64 : ℕ)).bmod (2 ^ 64) = n - (2 ^ 64 : ℕ) := by
    apply Int.bmod_eq_of_le <;> omega
  rw [i64Wrap, ← hshift, hsmall]
  rfl

/-- The quotient of the source rounds toward zero, so the next minute is later. -/
theorem tdiv_sixty (t : Int) : t.tdiv 60 * 60 ≤ max t 0 ∧ t < (t.tdiv 60 + 1) * 60 := by
  rcases le_or_gt 0 t with hpos | hneg
  · rw [Int.tdiv_eq_ediv_of_nonneg hpos]
    omega
  · have hq : t.tdiv 60 = -((-t) / 60) := by
      rw [← Int.tdiv_eq_ediv_of_nonneg (by omega : 0 ≤ -t), Int.neg_tdiv, Int.neg_neg]
    rw [hq]
    omega

/-- What a search from the minute after `t` finds comes after `t`. -/
theorem lt_of_searchCron {zones : TimeZones} {expr : CronExpression} {timezone : String}
    {t r : Int} (hmin : i64Min ≤ t) (hmax : t ≤ i64Max)
    (h : searchCron zones expr timezone maxCronSearchMinutes (nextMinute t) = some r) :
    t < r := by
  unfold nextMinute at h
  obtain ⟨i, hi, hr, hmatch, _⟩ :=
    (searchCron_eq_some_iff (i64Wrap_bounds _).1 (i64Wrap_bounds _).2).mp h
  obtain ⟨hlow, hhigh⟩ := cronMatches_inRange hmatch
  have hdiv := tdiv_sixty t
  simp only [i64Min, i64Max, maxCronSearchMinutes] at hmin hmax hi
  by_cases hwrap : (t.tdiv 60 + 1) * 60 ≤ i64Max
  · rw [i64Wrap_eq (by simp only [i64Min]; omega) hwrap] at hr
    omega
  · -- the minute after `t` does not fit: the search starts at the other end of `i64`
    rw [i64Wrap_over (not_le.mp hwrap) (by omega)] at hr
    simp only [i64Max] at hwrap
    omega

end Direclaw.Automation
