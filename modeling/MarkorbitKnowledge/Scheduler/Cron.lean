import MarkorbitKnowledge.Execution.Store
import MarkorbitKnowledge.Lib.Binary64

/-!
# When a schedule is due

The schedule arithmetic of `collection-scheduler.ts`: parsing a cron expression, finding its next
occurrence in a time zone, and the next slot of a schedule, after an instant (`nextScheduledAt`) or
after a slot that may lie several intervals back (`nextFutureScheduledAt`).  The sums are of doubles,
and a slot beyond the range of dates is an Invalid Date.  Whatever the schedule is, a slot that is a
date lies after the instant it was computed at, by no more than the horizon of the schedule; nothing
else about slots is used by the proofs.
-/

namespace MarkorbitKnowledge.Scheduler

open Contracts Execution Fallible

def MAX_CRON_LOOKAHEAD_MINUTES : Nat := 367 * 24 * 60

/-! ### Cron fields -/

structure CronField where
  values : List Nat
  unrestricted : Bool

structure CronSpec where
  minute : CronField
  hour : CronField
  dayOfMonth : CronField
  month : CronField
  dayOfWeek : CronField

def invalidCron (message : String) : RegistryError := .conflict "SCHEDULER_INVALID_CRON" message

def parseInteger (value : List Char) (field : String) : Except RegistryError Nat := do
  require (value ≠ [] ∧ value.all Char.isDigit = true)
    (invalidCron (field ++ " contains a non-integer value"))
  pure (value.foldl (fun n c => 10 * n + (c.toNat - '0'.toNat)) 0)

/-- The first and last value of a segment whose part before the step is `base`. -/
def cronRange (base : List Char) (stepped : Bool) (minimum maximum : Nat) (field : String) :
    Except RegistryError (Nat × Nat) :=
  if base = ['*'] then pure (minimum, maximum)
  else if '-' ∈ base then
    match base.splitOn '-' with
    | [low, high] => do
      let start ← parseInteger low field
      let stop ← parseInteger high field
      pure (start, stop)
    | _ => .error (invalidCron (field ++ " has an invalid range"))
  else do
    let start ← parseInteger base field
    pure (start, if stepped then maximum else start)

/-- The values of one segment, such as `5`, `1-9/2` or `*`. -/
def cronSegment (minimum maximum : Nat) (field : String) (segment : List Char) :
    Except RegistryError (List Nat) := do
  require (segment ≠ []) (invalidCron (field ++ " contains an empty segment"))
  let slashParts := segment.splitOn '/'
  require (slashParts.length ≤ 2) (invalidCron (field ++ " has an invalid step"))
  let step ← match slashParts with
    | [_, step] => parseInteger step field
    | _ => pure 1
  require (0 < step) (invalidCron (field ++ " step must be positive"))
  let (start, stop) ←
    cronRange (slashParts.headD []) (slashParts.length = 2) minimum maximum field
  require (minimum ≤ start ∧ start ≤ maximum ∧ minimum ≤ stop ∧ stop ≤ maximum ∧ start ≤ stop)
    (invalidCron (field ++ " must stay within " ++ toString minimum ++ "-" ++ toString maximum))
  pure ((List.range' start (stop + 1 - start)).filter fun value => (value - start) % step = 0)

def cronField (expression : List Char) (minimum maximum : Nat) (field : String)
    (normalize : Nat → Nat) : Except RegistryError CronField := do
  require (expression ≠ []) (invalidCron (field ++ " cron field is empty"))
  let segments ← (expression.splitOn ',').mapM (cronSegment minimum maximum field)
  let values := (segments.flatten.map normalize).eraseDups
  let normalizedDomain := ((List.range' minimum (maximum + 1 - minimum)).map normalize).eraseDups
  pure { values, unrestricted := decide (values.length = normalizedDomain.length) }

def parseCron (expression : String) : Except RegistryError CronSpec := do
  match ((trim expression).toList.splitOnP isJsSpace).filter fun word => !word.isEmpty with
  | [minute, hour, dayOfMonth, month, dayOfWeek] => do
    let minute ← cronField minute 0 59 "minute" id
    let hour ← cronField hour 0 23 "hour" id
    let dayOfMonth ← cronField dayOfMonth 1 31 "day-of-month" id
    let month ← cronField month 1 12 "month" id
    let dayOfWeek ← cronField dayOfWeek 0 7 "day-of-week" fun value =>
      if value = 7 then 0 else value
    pure { minute, hour, dayOfMonth, month, dayOfWeek }
  | _ => .error (invalidCron ("Cron expression must contain exactly five fields: " ++
      "minute hour day-of-month month day-of-week"))

/-! ### Occurrences -/

/-- The day counted from 1970-01-01, in the proleptic Gregorian calendar. -/
def daysFromCivil (year : Int) (month day : Nat) : Int :=
  let y := if month ≤ 2 then year - 1 else year
  let yoe := y % 400
  let mp := if 2 < month then month - 3 else month + 9
  let doy := (153 * mp + 2) / 5 + day - 1
  y / 400 * 146097 + (yoe * 365 + yoe / 4 - yoe / 100 + doy) - 719468

/-- `new Date(Date.UTC(year, month - 1, day)).getUTCDay()`; `Date.UTC` takes the years 0 to 99 for
    those of the twentieth century. -/
def dayOfWeek (year : Int) (month day : Nat) : Nat :=
  let fullYear := if 0 ≤ year ∧ year ≤ 99 then 1900 + year else year
  ((daysFromCivil fullYear month day + 4) % 7).toNat

/-- `localParts`, and the hour 24 of a formatter read as 0. -/
def localParts (formatter : Timestamp → Option DateParts) (date : Timestamp) :
    Except RegistryError DateParts := do
  require (isDate date = true) .invalidTimeValue
  let parts ← orThrow (formatter date)
    (.conflict "SCHEDULER_TIMEZONE_FORMAT_ERROR" "Unable to resolve cron timezone parts")
  pure { parts with hour := if parts.hour = 24 then 0 else parts.hour }

def cronMatches (spec : CronSpec) (parts : DateParts) : Bool :=
  let dayOfMonthMatches := spec.dayOfMonth.values.contains parts.day
  let dayOfWeekMatches :=
    spec.dayOfWeek.values.contains (dayOfWeek parts.year parts.month parts.day)
  spec.minute.values.contains parts.minute && spec.hour.values.contains parts.hour &&
    spec.month.values.contains parts.month &&
    (if spec.dayOfMonth.unrestricted && spec.dayOfWeek.unrestricted then true
    else if spec.dayOfMonth.unrestricted then dayOfWeekMatches
    else if spec.dayOfWeek.unrestricted then dayOfMonthMatches
    else dayOfMonthMatches || dayOfWeekMatches)

/-- The first of `minutes` successive minutes from `candidate` on that matches. -/
def firstOccurrence (spec : CronSpec) (formatter : Timestamp → Option DateParts) :
    Nat → Timestamp → Except RegistryError Timestamp
  | 0, _ => .error (.conflict "SCHEDULER_CRON_LOOKAHEAD_EXCEEDED"
      "Cron expression has no occurrence within the supported 367-day lookahead window")
  | minutes + 1, candidate => do
    let parts ← localParts formatter candidate
    if cronMatches spec parts then pure candidate
    else firstOccurrence spec formatter minutes (candidate + 60000)

def nextCronOccurrence (platform : Platform) (expression timezone : String) (after : Timestamp) :
    Except RegistryError Timestamp := do
  let spec ← parseCron expression
  let timezone := trim timezone
  let formatter ← orThrow (platform.timezoneFormatter timezone)
    (.conflict "SCHEDULER_INVALID_TIMEZONE" ("Unknown cron timezone " ++ timezone))
  firstOccurrence spec formatter MAX_CRON_LOOKAHEAD_MINUTES (after / 60000 * 60000 + 60000)

/-! ### Slots -/

def MAX_SAFE_INTEGER : Nat := 9007199254740991

/-- The milliseconds of a positive number of seconds. -/
def parsePositiveSeconds (value : Nat) (field : String) : Except RegistryError Nat := do
  require (value ≤ MAX_SAFE_INTEGER ∧ 0 < value)
    (.conflict "SCHEDULER_INVALID_INTERVAL" (field ++ " must be a positive safe integer"))
  require (value * 1000 ≤ MAX_SAFE_INTEGER)
    (.conflict "SCHEDULER_INVALID_INTERVAL" (field ++ " is too large"))
  pure (value * 1000)

/-- The interval of a schedule that has one. -/
def scheduleInterval (schedule : CollectionSchedule) : Except RegistryError Nat :=
  match schedule with
  | .changeWatch pollIntervalSeconds => parsePositiveSeconds pollIntervalSeconds "pollIntervalSeconds"
  | .interval intervalSeconds => parsePositiveSeconds intervalSeconds "intervalSeconds"
  | _ => parsePositiveSeconds 0 "intervalSeconds"

/-- A `Date`: its time value, none for an Invalid Date. -/
abbrev Date := Option Timestamp

/-- `new Date(value)` of a whole number. -/
def newDate (value : ℚ) : Date := if isDate ⌊value⌋ = true then some ⌊value⌋ else none

def nextScheduledAt (platform : Platform) (schedule : CollectionSchedule) (after : Timestamp) :
    Except RegistryError (Option Date) :=
  match schedule with
  | .manual => pure none
  | .cron expression timezone => do
    let next ← nextCronOccurrence platform expression timezone after
    pure (some (some next))
  | schedule => do
    let interval ← scheduleInterval schedule
    pure (some (newDate (Binary64.round (after + interval))))

/-- Past the slot by an interval, and if that is not ahead of `now`, by as many more as were missed.
    Each operation is one on doubles. -/
def skipMissed (interval : Nat) (slot now : Timestamp) : ℚ :=
  let next := Binary64.round (slot + interval)
  if next ≤ now then
    let skipped := Binary64.round
      (⌊Binary64.round (Binary64.round (now - next) / interval)⌋ + 1)
    Binary64.round (next + Binary64.round (skipped * interval))
  else next

def nextFutureScheduledAt (platform : Platform) (schedule : CollectionSchedule) (slot : Date)
    (now : Timestamp) : Except RegistryError (Option Date) :=
  match schedule with
  | .manual => pure none
  | .cron expression timezone => do
    let next ← nextCronOccurrence platform expression timezone now
    pure (some (some next))
  | schedule => do
    let interval ← scheduleInterval schedule
    -- The time value of an Invalid Date is NaN, and so is every sum with it.
    pure (some (slot.bind fun slot => newDate (skipMissed interval slot now)))

/-! ### The next slot lies ahead -/

theorem firstOccurrence_ge {spec : CronSpec} {formatter : Timestamp → Option DateParts}
    {minutes : Nat} {candidate next : Int}
    (h : firstOccurrence spec formatter minutes candidate = .ok next) : candidate ≤ next := by
  induction minutes generalizing candidate with
  | zero => simp [firstOccurrence] at h
  | succ minutes ih =>
    simp only [firstOccurrence, bind_eq_ok] at h
    obtain ⟨parts, -, h⟩ := h
    split at h
    · rw [pure_eq_ok] at h
      exact h.le
    · have := ih h
      omega

theorem lt_nextCronOccurrence {platform : Platform} {expression timezone : String}
    {after next : Int}
    (h : nextCronOccurrence platform expression timezone after = .ok next) : after < next := by
  simp only [nextCronOccurrence, bind_eq_ok] at h
  obtain ⟨spec, -, formatter, -, h⟩ := h
  have := firstOccurrence_ge h
  omega

theorem scheduleInterval_pos {schedule : CollectionSchedule} {interval : Nat}
    (h : scheduleInterval schedule = .ok interval) : 0 < interval := by
  have hseconds : ∀ value field, parsePositiveSeconds value field = .ok interval → 0 < interval := by
    intro value field h
    simp only [parsePositiveSeconds, bind_eq_ok, require_eq_ok, pure_eq_ok] at h
    obtain ⟨_, ⟨-, hpos⟩, _, -, rfl⟩ := h
    omega
  cases schedule <;> exact hseconds _ _ h

theorem newDate_intCast (z : Int) : newDate z = if isDate z = true then some z else none := by
  rw [newDate, Int.floor_intCast]

theorem newDate_intCast_eq_some {z t : Int} (h : newDate z = some t) : isDate t = true ∧ z = t := by
  rw [newDate_intCast, Option.ite_none_right_eq_some, Option.some.injEq] at h
  obtain ⟨hdate, rfl⟩ := h
  exact ⟨hdate, rfl⟩

/-- A sum that is rounded is not a date, and neither is what it is rounded to. -/
theorem newDate_round (z : Int) : newDate (Binary64.round z) = newDate z := by
  by_cases hexact : |z| ≤ 2 ^ 53
  · rw [Binary64.round_intCast hexact]
  · have hz : isDate z = false := by
      simp only [isDate, decide_eq_false_iff_not]
      rw [Int.abs_eq_natAbs] at hexact
      omega
    have hround : isDate ⌊Binary64.round z⌋ = false := by
      by_contra hdate
      rw [Bool.not_eq_false, isDate, decide_eq_true_eq] at hdate
      have hlow := Int.floor_le (Binary64.round z)
      have hhigh := Int.lt_floor_add_one (Binary64.round z)
      have hfloor : |((⌊Binary64.round z⌋ : Int) : ℚ)| ≤ 8640000000000000 := by
        rw [← Int.cast_abs, Int.abs_eq_natAbs]
        exact_mod_cast hdate
      obtain ⟨hfloorLow, hfloorHigh⟩ := abs_le.mp hfloor
      have hsmall : |Binary64.round z| < 2 ^ 53 := abs_lt.mpr (by constructor <;> linarith)
      rw [Binary64.round_eq_intCast hsmall, Int.floor_intCast] at hdate
      simp only [isDate, decide_eq_false_iff_not] at hz
      exact hz hdate
    rw [newDate, hround, newDate_intCast, hz, if_neg Bool.false_ne_true, if_neg Bool.false_ne_true]

theorem newDate_after {after next : Int} {interval : Nat}
    (h : newDate (Binary64.round (after + interval)) = some next) : after + interval = next := by
  have hcast : ((after : ℚ) + interval) = ((after + interval : Int) : ℚ) := by push_cast; ring
  rw [hcast, newDate_round] at h
  exact (newDate_intCast_eq_some h).2

theorem lt_nextScheduledAt {platform : Platform} {schedule : CollectionSchedule}
    {after next : Int} (h : nextScheduledAt platform schedule after = .ok (some (some next))) :
    after < next := by
  cases schedule with
  | manual => simp [nextScheduledAt] at h
  | cron expression timezone =>
    simp only [nextScheduledAt, bind_eq_ok, pure_eq_ok, Option.some.injEq] at h
    obtain ⟨_, h, rfl⟩ := h
    exact lt_nextCronOccurrence h
  | interval _ | changeWatch _ =>
    simp only [nextScheduledAt, bind_eq_ok, pure_eq_ok, Option.some.injEq] at h
    obtain ⟨interval, hinterval, hnext⟩ := h
    have hpos := scheduleInterval_pos hinterval
    rw [← newDate_after hnext]
    omega

/-- The number of skipped intervals is computed exactly, though numbers are rounded. -/
theorem floor_skipped {interval : Nat} {slot now : Int} (hpos : 0 < interval)
    (hdue : slot + interval ≤ now) (hsafe : now - (slot + interval) ≤ MAX_SAFE_INTEGER) :
    ⌊Binary64.round ((now - (slot + interval) : Int) / interval)⌋ =
      (now - (slot + interval)) / interval := by
  obtain ⟨d, hd⟩ := Int.eq_ofNat_of_zero_le (Int.sub_nonneg.mpr hdue)
  rw [hd] at hsafe ⊢
  rw [Int.cast_natCast, Binary64.floor_round_div _ hpos]
  · exact Int.natCast_div d interval
  · have hsmall : (d : Int) ≤ 9007199254740991 := hsafe
    omega

/-- The exact value of `skipMissed`. -/
def firstAhead (interval : Nat) (slot now : Int) : Int :=
  if slot + interval ≤ now then
    slot + interval + ((now - (slot + interval)) / interval + 1) * interval
  else slot + interval

/-- For dates that are less than `2 ^ 53` milliseconds apart, rounding shows only in what is no
    date. -/
theorem newDate_skipMissed {interval : Nat} {slot now : Int} (hpos : 0 < interval)
    (hslot : isDate slot = true) (hnow : isDate now = true) (hnear : now - slot ≤ MAX_SAFE_INTEGER) :
    newDate (skipMissed interval slot now) = newDate (firstAhead interval slot now) := by
  simp only [isDate, decide_eq_true_eq] at hslot hnow
  have hnear : now - slot ≤ 9007199254740991 := hnear
  have hsum : ((slot : ℚ) + interval) = ((slot + interval : Int) : ℚ) := by push_cast; ring
  have hcompare : Binary64.round ((slot + interval : Int) : ℚ) ≤ now ↔ slot + interval ≤ now :=
    Binary64.round_le_intCast_iff (by rw [Int.abs_eq_natAbs]; omega)
  rw [skipMissed, firstAhead, hsum]
  simp only [hcompare]
  split_ifs with hdue
  · -- All numbers lie below the distance of the two dates, so none is rounded but the quotient.
    set first : Int := slot + interval with hfirst
    set skipped : Int := (now - first) / interval with hskipped
    have hinterval : (0 : Int) < interval := Int.natCast_pos.mpr hpos
    have hnonneg : 0 ≤ skipped := Int.ediv_nonneg (Int.sub_nonneg.mpr hdue) hinterval.le
    have hle : skipped * interval ≤ now - first := Int.ediv_mul_le _ hinterval.ne'
    have hstart : Binary64.round ((first : Int) : ℚ) = (first : Int) :=
      Binary64.round_intCast (by rw [abs_le]; omega)
    have hgap : Binary64.round ((now : ℚ) - (first : Int)) = ((now - first : Int) : ℚ) := by
      rw [← Int.cast_sub]
      exact Binary64.round_intCast (by rw [abs_le]; omega)
    have hquotient : ⌊Binary64.round (((now - first : Int) : ℚ) / interval)⌋ = skipped :=
      floor_skipped hpos hdue (by show now - first ≤ 9007199254740991; omega)
    have hproduct : (skipped + 1) * interval ≤ 9007199254740991 := by
      rw [Int.add_mul, Int.one_mul]
      omega
    have hcount : skipped + 1 ≤ (skipped + 1) * interval :=
      le_mul_of_one_le_right (by omega) (by omega)
    have hadd : Binary64.round ((skipped : ℚ) + 1) = ((skipped + 1 : Int) : ℚ) := by
      rw [← Int.cast_one, ← Int.cast_add]
      exact Binary64.round_intCast (by rw [abs_le]; omega)
    have hmul : Binary64.round (((skipped + 1 : Int) : ℚ) * interval) =
        (((skipped + 1) * interval : Int) : ℚ) := by
      rw [← Int.cast_natCast, ← Int.cast_mul]
      exact Binary64.round_intCast (by rw [abs_le]; omega)
    rw [hstart, hgap, hquotient, hadd, hmul, ← Int.cast_add, newDate_round]
  · exact newDate_round _

theorem firstAhead_gt {interval : Nat} (hpos : 0 < interval) (slot now : Int) :
    now < firstAhead interval slot now := by
  rw [firstAhead]
  split_ifs with hdue
  · have := Int.lt_ediv_add_one_mul_self (now - (slot + interval)) (Int.natCast_pos.mpr hpos)
    omega
  · exact Int.not_le.mp hdue

theorem firstAhead_le {interval : Nat} (hpos : 0 < interval) {slot now : Int}
    (hdue : slot ≤ now) : firstAhead interval slot now ≤ now + interval := by
  rw [firstAhead]
  split_ifs
  · have := Int.ediv_mul_le (now - (slot + interval)) (Int.natCast_pos.mpr hpos).ne'
    rw [Int.add_mul, Int.one_mul]
    omega
  · omega

/-- The slot after one that is stored lies on the grid of the interval, at an instant with a year of
    four digits. -/
theorem nextFutureScheduledAt_interval {platform : Platform} {schedule : CollectionSchedule}
    {slot now next : Int} {interval : Nat} (hinterval : scheduleInterval schedule = .ok interval)
    (hnow : isRfc3339 now = true)
    (h : nextFutureScheduledAt platform schedule (newDate slot) now = .ok (some (some next))) :
    next = firstAhead interval slot now := by
  have hpos := scheduleInterval_pos hinterval
  have hbind : ((newDate slot).bind fun slot => newDate (skipMissed interval slot now)) =
      some next := by
    cases schedule with
    | manual | cron _ _ => cases hinterval
    | interval _ | changeWatch _ =>
      simp only [nextFutureScheduledAt, hinterval, ok_bind, pure_eq_ok, Option.some.injEq] at h
      exact h
  obtain ⟨start, hstart, hnext⟩ := Option.bind_eq_some_iff.mp hbind
  obtain ⟨hslot, rfl⟩ := newDate_intCast_eq_some hstart
  have hyear : -62167219200000 ≤ now ∧ now ≤ 253402300799999 := by
    simpa only [isRfc3339, Bool.and_eq_true, decide_eq_true_eq] using hnow
  have hdate : isDate now = true := by
    simp only [isDate, decide_eq_true_eq]
    omega
  have hnear : now - slot ≤ (MAX_SAFE_INTEGER : Int) := by
    simp only [isDate, decide_eq_true_eq] at hslot
    simp only [MAX_SAFE_INTEGER]
    omega
  rw [newDate_skipMissed hpos hslot hdate hnear] at hnext
  exact (newDate_intCast_eq_some hnext).2.symm

theorem lt_nextFutureScheduledAt {platform : Platform} {schedule : CollectionSchedule}
    {slot now next : Int} (hnow : isRfc3339 now = true)
    (h : nextFutureScheduledAt platform schedule (newDate slot) now = .ok (some (some next))) :
    now < next := by
  cases schedule with
  | manual => simp [nextFutureScheduledAt] at h
  | cron expression timezone =>
    simp only [nextFutureScheduledAt, bind_eq_ok, pure_eq_ok, Option.some.injEq] at h
    obtain ⟨_, h, rfl⟩ := h
    exact lt_nextCronOccurrence h
  | interval _ | changeWatch _ =>
    obtain ⟨interval, hinterval, -⟩ := (bind_eq_ok ..).mp h
    rw [nextFutureScheduledAt_interval hinterval hnow h]
    exact firstAhead_gt (scheduleInterval_pos hinterval) slot now

/-! ### The next slot is not far -/

/-- How far after the current instant the next slot of a schedule can lie. -/
def scheduleHorizon (schedule : CollectionSchedule) : Timestamp :=
  match schedule with
  | .manual => 0
  | .cron _ _ => 60000 * MAX_CRON_LOOKAHEAD_MINUTES
  | .interval intervalSeconds => 1000 * intervalSeconds
  | .changeWatch pollIntervalSeconds => 1000 * pollIntervalSeconds

theorem firstOccurrence_le {spec : CronSpec} {formatter : Timestamp → Option DateParts}
    {minutes : Nat} {candidate next : Int}
    (h : firstOccurrence spec formatter minutes candidate = .ok next) :
    next + 60000 ≤ candidate + 60000 * minutes := by
  induction minutes generalizing candidate with
  | zero => simp [firstOccurrence] at h
  | succ minutes ih =>
    simp only [firstOccurrence, bind_eq_ok] at h
    obtain ⟨parts, -, h⟩ := h
    split at h
    · rw [pure_eq_ok] at h
      subst h
      omega
    · have := ih h
      omega

theorem nextCronOccurrence_le {platform : Platform} {expression timezone : String}
    {after next : Int} (h : nextCronOccurrence platform expression timezone after = .ok next) :
    next ≤ after + 60000 * MAX_CRON_LOOKAHEAD_MINUTES := by
  simp only [nextCronOccurrence, bind_eq_ok] at h
  obtain ⟨spec, -, formatter, -, h⟩ := h
  have := firstOccurrence_le h
  omega

theorem scheduleInterval_eq {schedule : CollectionSchedule} {interval : Nat}
    (h : scheduleInterval schedule = .ok interval) : (interval : Int) = scheduleHorizon schedule := by
  have hseconds : ∀ value field, parsePositiveSeconds value field = .ok interval →
      interval = value * 1000 ∧ 0 < value := by
    intro value field h
    simp only [parsePositiveSeconds, bind_eq_ok, require_eq_ok, pure_eq_ok] at h
    obtain ⟨_, ⟨-, hpos⟩, _, -, rfl⟩ := h
    exact ⟨rfl, hpos⟩
  cases schedule with
  | manual | cron _ _ => exact absurd (hseconds _ _ h).2 (Nat.lt_irrefl 0)
  | interval seconds | changeWatch seconds =>
    obtain ⟨rfl, -⟩ := hseconds _ _ h
    show ((seconds * 1000 : Nat) : Int) = 1000 * (seconds : Int)
    omega

theorem nextScheduledAt_le {platform : Platform} {schedule : CollectionSchedule}
    {after next : Int} (h : nextScheduledAt platform schedule after = .ok (some (some next))) :
    next ≤ after + scheduleHorizon schedule := by
  cases schedule with
  | manual => simp [nextScheduledAt] at h
  | cron expression timezone =>
    simp only [nextScheduledAt, bind_eq_ok, pure_eq_ok, Option.some.injEq] at h
    obtain ⟨_, h, rfl⟩ := h
    exact nextCronOccurrence_le h
  | interval _ | changeWatch _ =>
    simp only [nextScheduledAt, bind_eq_ok, pure_eq_ok, Option.some.injEq] at h
    obtain ⟨interval, hinterval, hnext⟩ := h
    rw [← newDate_after hnext, scheduleInterval_eq hinterval]

/-- After a slot that was due, the next one lies within the horizon of the current instant. -/
theorem nextFutureScheduledAt_le {platform : Platform} {schedule : CollectionSchedule}
    {slot now next : Int} (hnow : isRfc3339 now = true) (hdue : slot ≤ now)
    (h : nextFutureScheduledAt platform schedule (newDate slot) now = .ok (some (some next))) :
    next ≤ now + scheduleHorizon schedule := by
  cases schedule with
  | manual => simp [nextFutureScheduledAt] at h
  | cron expression timezone =>
    simp only [nextFutureScheduledAt, bind_eq_ok, pure_eq_ok, Option.some.injEq] at h
    obtain ⟨_, h, rfl⟩ := h
    exact nextCronOccurrence_le h
  | interval _ | changeWatch _ =>
    obtain ⟨interval, hinterval, -⟩ := (bind_eq_ok ..).mp h
    rw [nextFutureScheduledAt_interval hinterval hnow h, ← scheduleInterval_eq hinterval]
    exact firstAhead_le (scheduleInterval_pos hinterval) hdue

end MarkorbitKnowledge.Scheduler
