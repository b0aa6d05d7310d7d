import Direclaw.Automation.Jobs

/-!
# The UTC zone

One zone of the timezone database, for runs on given inputs, and a schedule that the
search of `compute_next_run_at` gives up on: the 29th of February, when the year 2100
without one lies ahead.
-/

namespace Direclaw.Automation

open Direclaw.Lib Direclaw.Orchestration

/-! ## The calendar -/

/-- Month and day of a day counted from the epoch, in the Gregorian calendar. Years
start in March here, so that the leap day comes last. -/
def monthAndDay (days : Int) : ℕ × ℕ :=
  let dayOfEra := ((days + 719468) % 146097).toNat
  let yearOfEra := (dayOfEra - dayOfEra / 1460 + dayOfEra / 36524 - dayOfEra / 146096) / 365
  let dayOfYear := dayOfEra - (365 * yearOfEra + yearOfEra / 4 - yearOfEra / 100)
  let month := (5 * dayOfYear + 2) / 153
  (if month < 10 then month + 3 else month - 9, dayOfYear - (153 * month + 2) / 5 + 1)

/-- The bounds are those of the dates that `chrono` can represent. -/
def utc : TimeZones where
  known tz := tz = "UTC"
  localTime _ ts :=
    if -8334601228800 ≤ ts ∧ ts ≤ 8210266876799 then
      let days := ts / 86400
      let seconds := (ts % 86400).toNat
      some {
        minute := seconds / 60 % 60
        hour := seconds / 3600
        day := (monthAndDay days).2
        month := (monthAndDay days).1
        dayOfWeek := ((days + 4) % 7).toNat }
    else none
  inRange h := by
    split at h
    · omega
    · cases h

/-! ## A leap day -/

def leapDaySchedule : ScheduleConfig := .cron "0 0 29 2 *" "UTC"

def leapDayCron : CronExpression where
  minute := { any := false, values := {0} }
  hour := { any := false, values := {0} }
  dayOfMonth := { any := false, values := {29} }
  month := { any := false, values := {2} }
  dayOfWeek := { any := true, values := ∅ }

/-- Midnight of 29 February 2096. -/
def leapDay2096 : Int := 3981312000

/-- Midnight of 29 February 2104. -/
def leapDay2104 : Int := 4233686400

theorem parse_leapDay : parseCronExpression "0 0 29 2 *" = .ok leapDayCron := by
  rfl

theorem not_leapDay_blocks :
    ∀ a < 73, ∀ b < 40, monthAndDay (46081 + (40 * a + b : ℕ)) ≠ (2, 29) := by
  decide +kernel

theorem not_leapDay_between {i : ℕ} (hi : i < 2920) : monthAndDay (46081 + i) ≠ (2, 29) := by
  have hblock := not_leapDay_blocks (i / 40) (by omega) (i % 40) (by omega)
  rwa [Nat.div_add_mod] at hblock

theorem not_cronMatches_leapDay {ts : Int} (hminute : ts % 60 = 0) (hlow : leapDay2096 < ts)
    (hhigh : ts < leapDay2104) : cronMatches utc leapDayCron ts "UTC" = false := by
  simp only [leapDay2096, leapDay2104] at hlow hhigh
  have hrange : -8334601228800 ≤ ts ∧ ts ≤ 8210266876799 := by omega
  simp only [cronMatches, utc, if_pos hrange, CronExpression.matchesLocal, leapDayCron,
    CronField.matches]
  by_cases hday : ts / 86400 = 46080
  · -- still the first leap day, but past midnight
    have hpast : ¬ ((ts % 86400).toNat / 60 % 60 = 0 ∧ (ts % 86400).toNat / 3600 = 0) := by
      omega
    simp only [Finset.mem_singleton]
    grind
  · have hbetween := not_leapDay_between (i := (ts / 86400 - 46081).toNat) (by omega)
    have hcast : (46081 + ((ts / 86400 - 46081).toNat : ℕ) : Int) = ts / 86400 := by omega
    rw [hcast] at hbetween
    simp only [Finset.mem_singleton]
    grind

/-- **A search that gives up.** From the leap day of 2096 on there is none within the
horizon of the search. -/
theorem computeNextRunAt_leapDay {now t : Int} (hlow : leapDay2096 ≤ t)
    (hhigh : t < leapDay2096 + 86400) :
    ∃ err, computeNextRunAt utc leapDaySchedule now (some t) = .error err := by
  have hnone : searchCron utc leapDayCron "UTC" maxCronSearchMinutes (nextMinute t) = none := by
    simp only [leapDay2096] at hlow hhigh
    have hdiv := tdiv_sixty t
    have hminute : nextMinute t = (t.tdiv 60 + 1) * 60 :=
      i64Wrap_eq (by simp only [i64Min]; omega) (by simp only [i64Max]; omega)
    rw [hminute]
    apply searchCron_eq_none
    · simp only [i64Min]
      omega
    · simp only [i64Max]
      omega
    · intro i hi
      simp only [maxCronSearchMinutes] at hi
      apply not_cronMatches_leapDay
      · omega
      · simp only [leapDay2096]
        omega
      · simp only [leapDay2104]
        omega
  cases h : computeNextRunAt utc leapDaySchedule now (some t) with
  | error err => exact ⟨err, rfl⟩
  | ok next =>
    simp only [computeNextRunAt, leapDaySchedule] at h
    rw [if_neg (by decide)] at h
    obtain ⟨cron, hcron, h⟩ := bind_eq_ok h
    rw [parse_leapDay] at hcron
    cases hcron
    rw [Option.getD_some, hnone] at h
    cases h

end Direclaw.Automation
