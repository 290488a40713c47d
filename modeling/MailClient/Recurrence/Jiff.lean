import MailClient.Foundation.Calendar

/-!
# Zoned date-times in UTC

The operations of `jiff` that the recurrence code calls, on instants that are
whole seconds since 1970-01-01 00:00:00 UTC.  `none` stands for a `JiffError`:
a result outside the range of timestamps, a field outside its range, or a span
that is too long.
-/

namespace MailClient
namespace Recurrence

open Foundation

def minTimestamp : Int := -377705023201

def maxTimestamp : Int := 253402207200

def inRange (t : Int) : Prop :=
  minTimestamp ≤ t ∧ t ≤ maxTimestamp

instance (t : Int) : Decidable (inRange t) :=
  inferInstanceAs (Decidable (_ ∧ _))

def checked (t : Int) : Option Int :=
  if inRange t then some t else none

variable {t n : Int}

theorem checked_eq_some :
    checked t = some n ↔ inRange t ∧ n = t := by
  unfold checked
  split
  · rename_i h
    rw [Option.some.injEq]
    exact ⟨fun heq => ⟨h, heq.symm⟩, fun heq => heq.right.symm⟩
  · rename_i h
    constructor
    · intro heq
      cases heq
    · intro heq
      exact absurd heq.left h

/-!
# Fields
-/

def second (t : Int) : Int :=
  t % 60

def minute (t : Int) : Int :=
  t / 60 % 60

def hour (t : Int) : Int :=
  t / 3600 % 24

/-- The number of the day. -/
def date (t : Int) : Int :=
  t / 86400

def timeOfDay (t : Int) : Int :=
  t % 86400

def day (t : Int) : Int :=
  dayOfMonth (date t)

def month (t : Int) : Int :=
  monthOfYear (date t)

def year (t : Int) : Int :=
  yearOf (date t)

/-- Monday is zero. -/
def weekday (t : Int) : Int :=
  weekdayOf (date t)

/-!
# Setting fields
-/

/-- `zdt.with()`; a field that is `none` keeps its value. -/
structure ZonedWith where
  hour : Option Int := none
  minute : Option Int := none
  second : Option Int := none

def ZonedWith.build (t : Int) (w : ZonedWith) : Option Int :=
  let h := w.hour.getD (Recurrence.hour t)
  let m := w.minute.getD (Recurrence.minute t)
  let s := w.second.getD (Recurrence.second t)
  if 0 ≤ h ∧ h ≤ 23 ∧ 0 ≤ m ∧ m ≤ 59 ∧ 0 ≤ s ∧ s ≤ 59 then
    checked (86400 * date t + 3600 * h + 60 * m + s)
  else
    none

/-- The time of an instant on another day. -/
def onDate (n t : Int) : Option Int :=
  checked (86400 * n + timeOfDay t)

def startOfDay (t : Int) : Option Int :=
  checked (86400 * date t)

def firstOfMonth (t : Int) : Option Int :=
  onDate (monthStart (monthOf (date t))) t

def lastOfMonth (t : Int) : Option Int :=
  onDate (monthStart (monthOf (date t) + 1) - 1) t

def firstOfYear (t : Int) : Option Int :=
  onDate (yearStart (year t)) t

def lastOfYear (t : Int) : Option Int :=
  onDate (yearStart (year t + 1) - 1) t

/-!
# Spans
-/

/-- `JiffSpan::try_*`: a span of one unit, if it is within the unit's limit. -/
def trySpan (limit n : Int) : Option Int :=
  if -limit ≤ n ∧ n ≤ limit then some n else none

def addSeconds (n t : Int) : Option Int :=
  (trySpan 631107417600 n).bind (fun n => checked (t + n))

def addMinutes (n t : Int) : Option Int :=
  (trySpan 10518456960 n).bind (fun n => checked (t + 60 * n))

def addHours (n t : Int) : Option Int :=
  (trySpan 175307616 n).bind (fun n => checked (t + 3600 * n))

def addDays (n t : Int) : Option Int :=
  (trySpan 7304484 n).bind (fun n => onDate (date t + n) t)

def addWeeks (n t : Int) : Option Int :=
  (trySpan 1043497 n).bind (fun n => onDate (date t + 7 * n) t)

/-- The day of the month in month `k`, or its last day if there is none. -/
def clampDay (k t : Int) : Int :=
  monthStart k + min (day t) (monthLength k) - 1

def addMonths (n t : Int) : Option Int :=
  (trySpan 239976 n).bind (fun n => onDate (clampDay (monthOf (date t) + n) t) t)

def addYears (n t : Int) : Option Int :=
  (trySpan 19998 n).bind
    (fun n => onDate (clampDay (monthOf (date t) + 12 * n) t) t)

def tomorrow (t : Int) : Option Int :=
  addDays 1 t

/-!
# Weekdays
-/

/-- `Weekday::until`. -/
def daysUntil (wd t : Int) : Int :=
  (wd - weekday t) % 7

/-- The `nth` weekday after an instant, or before it if `nth` is negative. -/
def nthWeekday (nth wd t : Int) : Option Int :=
  if 0 < nth then
    onDate (date t + 1 + (wd - (weekday t + 1)) % 7 + 7 * (nth - 1)) t
  else if nth < 0 then
    onDate (date t - 1 - (weekday t - 1 - wd) % 7 - 7 * (-nth - 1)) t
  else
    none

/-- The `nth` weekday of month `k`, from its end if `nth` is negative. -/
def nthDayOfMonth (nth wd k : Int) : Int :=
  let first := monthStart k
  let last := monthStart (k + 1) - 1
  if 0 < nth then
    first + (wd - weekdayOf first) % 7 + 7 * (nth - 1)
  else
    last - (weekdayOf last - wd) % 7 - 7 * (-nth - 1)

/-- It fails if there is no such day in the month. -/
def nthWeekdayOfMonth (nth wd t : Int) : Option Int :=
  let k := monthOf (date t)
  let n := nthDayOfMonth nth wd k
  if nth ≠ 0 ∧ monthStart k ≤ n ∧ n < monthStart (k + 1) then
    onDate n t
  else
    none

/-!
# Differences

`curr.since(&start)` rounded to a largest unit: the number of whole units,
rounded towards zero.
-/

def sinceUnits (length start t : Int) : Int :=
  (t - start).tdiv length

/-- Whole steps of `k` months. -/
def sinceMonthSteps (step start k t : Int) : Int :=
  let n := 86400 * clampDay (monthOf (date start) + step * k) start +
    timeOfDay start
  if start ≤ t then
    if n ≤ t then k else k - 1
  else
    if t ≤ n then k else k + 1

def sinceMonths (start t : Int) : Int :=
  sinceMonthSteps 1 start (monthOf (date t) - monthOf (date start)) t

def sinceYears (start t : Int) : Int :=
  sinceMonthSteps 12 start (year t - year start) t

/-!
# What the operations compute
-/

theorem build_eq_some {w : ZonedWith} (h : w.build t = some n) :
    n = 86400 * date t + 3600 * w.hour.getD (hour t) +
      60 * w.minute.getD (minute t) + w.second.getD (second t) := by
  unfold ZonedWith.build at h
  dsimp only at h
  split at h
  · exact (checked_eq_some.mp h).right
  · cases h

theorem build_second {s : Int}
    (h : ZonedWith.build t { second := some s } = some n) :
    n = t - t % 60 + s := by
  have hn := build_eq_some h
  simp only [Option.getD, date, hour, minute] at hn
  omega

theorem build_minute {m : Int}
    (h : ZonedWith.build t { minute := some m } = some n) :
    n = t - t % 3600 + 60 * m + t % 60 := by
  have hn := build_eq_some h
  simp only [Option.getD, date, hour, second] at hn
  omega

theorem build_minute_second {m s : Int}
    (h : ZonedWith.build t { minute := some m, second := some s } = some n) :
    n = t - t % 3600 + 60 * m + s := by
  have hn := build_eq_some h
  simp only [Option.getD, date, hour] at hn
  omega

theorem build_time {h m s : Int} (hbuild : ZonedWith.build t
      { hour := some h, minute := some m, second := some s } = some n) :
    n = t - t % 86400 + 3600 * h + 60 * m + s := by
  have hn := build_eq_some hbuild
  simp only [Option.getD, date] at hn
  omega

theorem onDate_eq_some {k : Int} (h : onDate k t = some n) :
    n = 86400 * k + t % 86400 :=
  (checked_eq_some.mp h).right

theorem date_onDate {k : Int} (h : onDate k t = some n) : date n = k := by
  have hn := onDate_eq_some h
  unfold date
  omega

theorem startOfDay_eq_some (h : startOfDay t = some n) :
    n = 86400 * date t :=
  (checked_eq_some.mp h).right

theorem trySpan_bind {result : Type} {limit : Int} {f : Int -> Option result}
    {r : result} (h : (trySpan limit n).bind f = some r) : f n = some r := by
  rcases Option.bind_eq_some_iff.mp h with ⟨k, hk, hr⟩
  unfold trySpan at hk
  split at hk
  · cases hk
    exact hr
  · cases hk

theorem addSeconds_eq_some {k : Int} (h : addSeconds k t = some n) :
    inRange n ∧ n = t + k := by
  unfold addSeconds at h
  have hspan := trySpan_bind h
  rcases checked_eq_some.mp hspan with ⟨hrange, rfl⟩
  exact ⟨hrange, rfl⟩

theorem addMinutes_eq_some {k : Int} (h : addMinutes k t = some n) :
    n = t + 60 * k := by
  unfold addMinutes at h
  have hspan := trySpan_bind h
  exact (checked_eq_some.mp hspan).right

theorem addHours_eq_some {k : Int} (h : addHours k t = some n) :
    n = t + 3600 * k := by
  unfold addHours at h
  have hspan := trySpan_bind h
  exact (checked_eq_some.mp hspan).right

theorem date_addDays {k : Int} (h : addDays k t = some n) :
    date n = date t + k := by
  unfold addDays at h
  have hspan := trySpan_bind h
  exact date_onDate hspan

theorem tomorrow_eq_some (h : tomorrow t = some n) :
    n = t + 86400 := by
  unfold tomorrow addDays at h
  have hspan := trySpan_bind h
  have hn := onDate_eq_some hspan
  unfold date at hn
  omega

theorem date_addWeeks {k : Int} (h : addWeeks k t = some n) :
    date n = date t + 7 * k := by
  unfold addWeeks at h
  have hspan := trySpan_bind h
  exact date_onDate hspan

theorem monthOf_clampDay (k t : Int) : monthOf (clampDay k t) = k := by
  have hday := dayOfMonth_bounds (date t)
  have hlength := monthLength_bounds k
  refine (months.index_eq_iff).mpr ?_
  rw [months_first, months_first, monthStart_add]
  unfold clampDay day
  omega

theorem monthOf_addMonths {k : Int} (h : addMonths k t = some n) :
    monthOf (date n) = monthOf (date t) + k := by
  unfold addMonths at h
  have hspan := trySpan_bind h
  rw [date_onDate hspan, monthOf_clampDay]

theorem monthOf_addYears {k : Int} (h : addYears k t = some n) :
    monthOf (date n) = monthOf (date t) + 12 * k := by
  unfold addYears at h
  have hspan := trySpan_bind h
  rw [date_onDate hspan, monthOf_clampDay]

theorem date_firstOfMonth (h : firstOfMonth t = some n) :
    date n = monthStart (monthOf (date t)) :=
  date_onDate h

theorem date_lastOfMonth (h : lastOfMonth t = some n) :
    date n = monthStart (monthOf (date t) + 1) - 1 :=
  date_onDate h

theorem date_firstOfYear (h : firstOfYear t = some n) :
    date n = yearStart (year t) :=
  date_onDate h

theorem date_lastOfYear (h : lastOfYear t = some n) :
    date n = yearStart (year t + 1) - 1 :=
  date_onDate h

theorem nthWeekdayOfMonth_eq_some {nth wd : Int}
    (h : nthWeekdayOfMonth nth wd t = some n) :
    date n = nthDayOfMonth nth wd (monthOf (date t)) ∧
      monthOf (date n) = monthOf (date t) ∧ n % 86400 = t % 86400 := by
  unfold nthWeekdayOfMonth at h
  dsimp only at h
  split at h
  · rename_i hvalid
    have hdate := date_onDate h
    have hn := onDate_eq_some h
    refine ⟨hdate, ?_, by omega⟩
    rw [hdate]
    exact months.index_eq_iff.mpr hvalid.right
  · cases h

theorem date_addYears_one (h : addYears 1 t = some n) :
    date t + 365 ≤ date n := by
  unfold addYears at h
  have hspan := trySpan_bind h
  rw [date_onDate hspan]
  have hday := dayOfMonth_bounds (date t)
  have hstart := dayOfMonth_eq (date t)
  rcases month_cases (monthOf (date t)) with ⟨y, m, hm, hm', hmonth⟩
  have hlater : monthOf (date t) + 12 * 1 = 12 * (y + 1) + m := by omega
  have hleap := leapDays_bounds y
  have hleap' := leapDays_bounds (y + 1)
  unfold clampDay day
  rw [hmonth] at hday hstart
  rw [hlater, monthLength_of_year (y + 1) hm hm',
    monthStart_of_year (y + 1) m hm (by omega), yearStart_succ, yearLength_eq]
  rw [monthLength_of_year y hm hm'] at hday
  rw [monthStart_of_year y m hm (by omega)] at hstart
  unfold daysBefore at *
  split at hday
  · split at hday
    · omega
    · omega
  · split at hday
    · omega
    · omega

end Recurrence
end MailClient
