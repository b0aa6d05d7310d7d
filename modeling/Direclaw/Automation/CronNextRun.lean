import Direclaw.Automation.Utc

/-!
# The next run of a cron job

The search of `compute_next_run_at` goes minute by minute: what it finds is the first whole
minute after the base that matches, and it gives up only if none does within its horizon.
-/

namespace Direclaw.Automation

open Direclaw.Lib Direclaw.Orchestration

/-- The whole minutes after the base, up to the horizon of the search. -/
structure MinuteAfter (b t : Int) : Prop where
  whole : 60 ∣ t
  after : b < t
  horizon : t ≤ b + 60 * maxCronSearchMinutes

section Search

variable {zones : TimeZones} {cron : CronExpression} {timezone : String} {b t : Int}

theorem minuteAfter_iff : MinuteAfter b t ↔
    ∃ i < maxCronSearchMinutes, t = (b / 60 + 1) * 60 + 60 * (i : ℕ) := by
  constructor
  · rintro ⟨⟨k, rfl⟩, hafter, hhorizon⟩
    simp only [maxCronSearchMinutes] at hhorizon ⊢
    exact ⟨(k - (b / 60 + 1)).toNat, by omega, by omega⟩
  · rintro ⟨i, hi, rfl⟩
    simp only [maxCronSearchMinutes] at hi
    refine ⟨⟨b / 60 + 1 + i, by omega⟩, by omega, ?_⟩
    simp only [maxCronSearchMinutes]
    omega

/-- The minute after a base that is not near the end of `i64`. -/
theorem nextMinute_eq (hb : 0 ≤ b) (hfits : (b / 60 + 1) * 60 ≤ i64Max) :
    nextMinute b = (b / 60 + 1) * 60 := by
  unfold nextMinute
  rw [Int.tdiv_eq_ediv_of_nonneg hb]
  exact i64Wrap_eq (by simp only [i64Min]; omega) hfits

/-- Near the end of `i64` the search starts over at the other end and finds nothing. -/
theorem searchCron_over (hb : 0 ≤ b) (hmax : b ≤ i64Max)
    (hover : ¬ (b / 60 + 1) * 60 ≤ i64Max) :
    searchCron zones cron timezone maxCronSearchMinutes (nextMinute b) = none := by
  have hstart : nextMinute b = (b / 60 + 1) * 60 - 2 ^ 64 := by
    unfold nextMinute
    rw [Int.tdiv_eq_ediv_of_nonneg hb]
    refine i64Wrap_over (not_le.mp hover) ?_
    simp only [i64Max] at hmax
    omega
  have hbounds := i64Wrap_bounds ((b.tdiv 60 + 1) * 60)
  refine searchCron_eq_none hbounds.1 hbounds.2 fun i hi => Bool.eq_false_iff.mpr fun hmatch => ?_
  have hrange := (cronMatches_inRange hmatch).1
  rw [hstart] at hrange
  simp only [i64Max, maxCronSearchMinutes] at hmax hi
  omega

theorem searchCron_nextMinute_iff (hb : 0 ≤ b) (hmax : b ≤ i64Max) :
    searchCron zones cron timezone maxCronSearchMinutes (nextMinute b) = some t ↔
      MinuteAfter b t ∧ cronMatches zones cron t timezone = true ∧
        ∀ u, 60 ∣ u → b < u → u < t → cronMatches zones cron u timezone = false := by
  by_cases hfits : (b / 60 + 1) * 60 ≤ i64Max
  · have hmin : i64Min ≤ (b / 60 + 1) * 60 := by
      simp only [i64Min]
      omega
    rw [nextMinute_eq hb hfits, searchCron_eq_some_iff hmin hfits, minuteAfter_iff]
    constructor
    · rintro ⟨i, hi, rfl, hmatch, hbefore⟩
      refine ⟨⟨i, hi, rfl⟩, hmatch, ?_⟩
      rintro u ⟨k, rfl⟩ hafter hlt
      have hu := hbefore (k - (b / 60 + 1)).toNat (by omega)
      rwa [show (b / 60 + 1) * 60 + 60 * ((k - (b / 60 + 1)).toNat : Int) = 60 * k by omega] at hu
    · rintro ⟨⟨i, hi, rfl⟩, hmatch, hbefore⟩
      exact ⟨i, hi, rfl, hmatch, fun j hj =>
        hbefore _ ⟨b / 60 + 1 + j, by omega⟩ (by omega) (by omega)⟩
  · rw [searchCron_over hb hmax hfits]
    refine iff_of_false (Option.some_ne_none t).symm ?_
    rintro ⟨hminute, hmatch, -⟩
    have hrange := (cronMatches_inRange hmatch).2
    have hafter := hminute.after
    simp only [i64Max] at hfits
    omega

theorem searchCron_nextMinute_eq_none (hb : 0 ≤ b) (hmax : b ≤ i64Max) :
    searchCron zones cron timezone maxCronSearchMinutes (nextMinute b) = none ↔
      ∀ u, MinuteAfter b u → cronMatches zones cron u timezone = false := by
  constructor
  · intro hnone u hu
    by_contra hmatch
    -- the first of the minutes that match would have been found
    obtain ⟨i, hi, rfl⟩ := minuteAfter_iff.mp hu
    have hexists : ∃ n : ℕ,
        cronMatches zones cron ((b / 60 + 1) * 60 + 60 * n) timezone = true :=
      ⟨i, by simpa using hmatch⟩
    have hle : Nat.find hexists ≤ i := Nat.find_min' hexists (by simpa using hmatch)
    have hfound := (searchCron_nextMinute_iff hb hmax).mpr
      ⟨minuteAfter_iff.mpr ⟨Nat.find hexists, lt_of_le_of_lt hle hi, rfl⟩,
        Nat.find_spec hexists, ?_⟩
    · rw [hnone] at hfound
      cases hfound
    · rintro v ⟨k, rfl⟩ hafter hlt
      have hbefore := Nat.find_min hexists (m := (k - (b / 60 + 1)).toNat) (by omega)
      rw [show (b / 60 + 1) * 60 + 60 * ((k - (b / 60 + 1)).toNat : Int) = 60 * k by omega]
        at hbefore
      exact Bool.eq_false_iff.mpr hbefore
  · intro hnone
    cases hs : searchCron zones cron timezone maxCronSearchMinutes (nextMinute b) with
    | none => rfl
    | some t =>
      obtain ⟨hminute, hmatch, -⟩ := (searchCron_nextMinute_iff hb hmax).mp hs
      rw [hnone t hminute] at hmatch
      cases hmatch

end Search

/-- The next run of a cron job is the first minute after the base that matches; without one
within the horizon there is an error. -/
theorem computeNextRunAt_cron_exact {zones : TimeZones} {expression timezone : String}
    {cron : CronExpression} (hzone : zones.known timezone = true)
    (hcron : parseCronExpression expression = .ok cron) {now b : Int} {last : Option Int}
    (hbase : last.getD now = b) (hb : 0 ≤ b) (hmax : b ≤ i64Max) :
    (∀ t, computeNextRunAt zones (.cron expression timezone) now last = .ok (some t) →
      60 ∣ t ∧ b < t ∧ cronMatches zones cron t timezone = true ∧
        ∀ u, 60 ∣ u → b < u → u < t → cronMatches zones cron u timezone = false) ∧
    ((∃ err, computeNextRunAt zones (.cron expression timezone) now last = .error err) ↔
      ∀ u, 60 ∣ u → b < u → u ≤ b + 60 * maxCronSearchMinutes →
        cronMatches zones cron u timezone = false) := by
  have hminutes : (∀ u, 60 ∣ u → b < u → u ≤ b + 60 * maxCronSearchMinutes →
      cronMatches zones cron u timezone = false) ↔
      ∀ u, MinuteAfter b u → cronMatches zones cron u timezone = false :=
    ⟨fun h u hu => h u hu.whole hu.after hu.horizon, fun h u hw ha hh => h u ⟨hw, ha, hh⟩⟩
  have hrun : computeNextRunAt zones (.cron expression timezone) now last =
      (searchCron zones cron timezone maxCronSearchMinutes (nextMinute b)).elim
        (.error (s!"unable to compute next run for cron expression `{expression}` " ++
          s!"in timezone `{timezone}`"))
        fun candidate => .ok (some candidate) := by
    unfold computeNextRunAt
    simp only [hzone, hcron, hbase, Bool.not_true, Bool.false_eq_true, if_false]
    show Except.bind (.ok cron) _ = _
    rw [Except.bind]
    cases searchCron zones cron timezone maxCronSearchMinutes (nextMinute b) with
    | none => rfl
    | some candidate => rfl
  rw [hminutes, ← searchCron_nextMinute_eq_none hb hmax, hrun]
  cases hs : searchCron zones cron timezone maxCronSearchMinutes (nextMinute b) with
  | none =>
    refine ⟨?_, iff_of_true ⟨_, rfl⟩ rfl⟩
    rintro _ ⟨⟩
  | some t =>
    obtain ⟨hminute, hmatch, hbefore⟩ := (searchCron_nextMinute_iff hb hmax).mp hs
    refine ⟨?_, iff_of_false ?_ (Option.some_ne_none t)⟩
    · rintro _ ⟨⟩
      exact ⟨hminute.whole, hminute.after, hmatch, hbefore⟩
    · rintro ⟨_, ⟨⟩⟩

theorem computeNextRunAt_cron_exact_leapDay :
    (∀ t, computeNextRunAt utc (.cron "0 0 29 2 *" "UTC") 0 (some leapDay2096) = .ok (some t) →
      60 ∣ t ∧ leapDay2096 < t ∧ cronMatches utc leapDayCron t "UTC" = true ∧
        ∀ u, 60 ∣ u → leapDay2096 < u → u < t → cronMatches utc leapDayCron u "UTC" = false) ∧
    ((∃ err, computeNextRunAt utc (.cron "0 0 29 2 *" "UTC") 0 (some leapDay2096) = .error err) ↔
      ∀ u, 60 ∣ u → leapDay2096 < u → u ≤ leapDay2096 + 60 * maxCronSearchMinutes →
        cronMatches utc leapDayCron u "UTC" = false) :=
  computeNextRunAt_cron_exact (by decide) parse_leapDay rfl (by decide) (by decide)

end Direclaw.Automation
