import MarkorbitKnowledge.Execution.Machine
import MarkorbitKnowledge.Scheduler.Cron
import Mathlib.Data.Int.ModEq

/-!
# Slots of interval schedules

The slots of a schedule with an interval lie on a grid.  After any downtime `nextFutureScheduledAt`
goes to the first slot of that grid that is ahead (`nextFutureScheduledAt_least`), as long as the last
slot and the current instant are less than `2 ^ 53` milliseconds apart; a first slot beyond the range
of dates is an Invalid Date.  `nextFutureScheduledAt_off_grid` has a slot that is no date, and two
instants so far apart that the rounded quotient skips a slot too many.
-/

namespace MarkorbitKnowledge.Scheduler

open Contracts Execution Fallible

variable {platform : Platform} {schedule : CollectionSchedule} {interval : Nat}
  {slot now : Timestamp}

/-- The slots that a schedule can go to: ahead of now, an interval or more after the slot, and on its
    grid. -/
@[mk_iff] structure Ahead (interval : Nat) (slot now next : Timestamp) : Prop where
  future : now < next
  later : slot + interval ≤ next
  onGrid : next ≡ slot [ZMOD interval]

/-- A schedule with an interval goes to the slot after the last one, or past the slots that were
    missed. -/
theorem nextFutureScheduledAt_eq (h : scheduleInterval schedule = .ok interval) (slot now : Timestamp) :
    nextFutureScheduledAt platform schedule (some slot) now =
      .ok (some (newDate (skipMissed interval slot now))) := by
  cases schedule with
  | manual | cron _ _ =>
    have hpos := scheduleInterval_pos h
    cases h
  | interval _ | changeWatch _ => simp only [nextFutureScheduledAt, h, ok_bind]; rfl

/-- No slot on the grid lies strictly between one and the next. -/
theorem le_of_modEq {bound next t : Int} (hnear : next ≤ bound + interval)
    (hgrid : t ≡ next [ZMOD interval]) (hlt : bound < t) : next ≤ t := by
  by_contra hnot
  obtain ⟨k, hk⟩ := Int.modEq_iff_dvd.mp hgrid
  rcases le_or_gt k 0 with hneg | hpos
  · have := mul_nonpos_of_nonneg_of_nonpos (Int.natCast_nonneg interval) hneg
    omega
  · have := le_mul_of_one_le_right (Int.natCast_nonneg interval) (Int.add_one_le_of_lt hpos)
    omega

/-- The exact value lies on the grid, ahead, and no other slot there comes before it. -/
theorem firstAhead_least (hpos : 0 < interval) (slot now : Int) :
    Ahead interval slot now (firstAhead interval slot now) ∧
      ∀ t, Ahead interval slot now t → firstAhead interval slot now ≤ t := by
  have hfuture := firstAhead_gt hpos slot now
  have hpos : (0 : Int) < interval := Int.natCast_pos.mpr hpos
  by_cases hdue : slot + interval ≤ now
  · set first : Int := slot + interval with hfirst
    set skipped : Int := (now - first) / interval with hskipped
    have heq : firstAhead interval slot now = first + (skipped + 1) * interval := if_pos hdue
    have hlow : skipped * interval ≤ now - first := Int.ediv_mul_le _ hpos.ne'
    have hnonneg : 0 ≤ skipped := Int.ediv_nonneg (Int.sub_nonneg.mpr hdue) hpos.le
    have hgrid : first + (skipped + 1) * interval ≡ slot [ZMOD interval] := by
      rw [Int.modEq_iff_dvd]
      exact ⟨-(skipped + 2), by rw [hfirst]; ring⟩
    rw [heq] at hfuture ⊢
    refine ⟨⟨hfuture, le_add_of_nonneg_right (by positivity), hgrid⟩, fun t ht => ?_⟩
    have hnear : first + (skipped + 1) * interval ≤ now + interval := by linarith
    exact le_of_modEq hnear (ht.onGrid.trans hgrid.symm) ht.future
  · have heq : firstAhead interval slot now = slot + interval := if_neg hdue
    have hgrid : slot + interval ≡ slot [ZMOD interval] := Int.add_modEq_right
    rw [heq] at hfuture ⊢
    exact ⟨⟨hfuture, le_rfl, hgrid⟩, fun t ht => ht.later⟩

/-- The next slot of a schedule with an interval is the least one on the grid that is ahead, or an
    Invalid Date where that is none. -/
theorem nextFutureScheduledAt_least (h : scheduleInterval schedule = .ok interval)
    (slot now : Timestamp) (hslot : isDate slot = true) (hnow : isDate now = true)
    (hnear : now - slot ≤ MAX_SAFE_INTEGER) :
    ∃ next, nextFutureScheduledAt platform schedule (some slot) now =
        .ok (some (if isDate next = true then some next else none)) ∧
      Ahead interval slot now next ∧ ∀ t, Ahead interval slot now t → next ≤ t := by
  have hpos := scheduleInterval_pos h
  refine ⟨firstAhead interval slot now, ?_, firstAhead_least hpos slot now⟩
  rw [nextFutureScheduledAt_eq h, newDate_skipMissed hpos hslot hnow hnear, newDate_intCast]

/-- An hourly schedule whose last slot was three and a half hours ago goes to the slot in half an
    hour. -/
theorem nextFutureScheduledAt_least_hourly :
    scheduleInterval (.interval 3600) = .ok 3600000 ∧
      ∃ next, nextFutureScheduledAt (Execution.samplePlatform fun _ => none) (.interval 3600) (some 0)
          12600000 = .ok (some (if isDate next = true then some next else none)) ∧
        next ≤ 14400000 := by
  refine ⟨rfl, ?_⟩
  obtain ⟨next, hnext, -, hleast⟩ :=
    @nextFutureScheduledAt_least (Execution.samplePlatform fun _ => none) (.interval 3600) 3600000
      rfl 0 12600000 (by decide) (by decide) (by decide)
  exact ⟨next, hnext, hleast 14400000 ⟨by decide, by decide, by decide⟩⟩

/-- An interval longer than the range of dates leads to no date.  A slot some `2 ^ 53` milliseconds ago
    leads past the next one, which is a millisecond ahead. -/
theorem nextFutureScheduledAt_off_grid :
    let platform := Execution.samplePlatform fun _ => none
    (scheduleInterval (.interval 8640000000001) = .ok 8640000000001000 ∧
      nextFutureScheduledAt platform (.interval 8640000000001) (some 0) 0 = .ok (some none)) ∧
    (scheduleInterval (.interval 1) = .ok 1000 ∧
      nextFutureScheduledAt platform (.interval 1) (some (-8640000000000000)) 367199254742999 =
        .ok (some (some 367199254744000)) ∧
      Ahead 1000 (-8640000000000000) 367199254742999 367199254743000) := by
  refine ⟨⟨rfl, ?_⟩, rfl, ?_, ⟨by decide, by decide, by decide⟩⟩
  · rw [nextFutureScheduledAt_eq rfl]
    decide +kernel
  · rw [nextFutureScheduledAt_eq rfl]
    decide +kernel

end MarkorbitKnowledge.Scheduler
