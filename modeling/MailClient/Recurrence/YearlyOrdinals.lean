import MailClient.Recurrence.Iterator
import MailClient.Recurrence.Jumps

/-!
# Ordinal weekdays of a year

`nth_weekday_of_year_eq` asks jiff for the weekday counted from the current
instant, not from the edge of its year.  That day is always another one, so
the fact moves away also from the day it is meant to rest on.
-/

namespace MailClient
namespace Recurrence

open Foundation

/-- The `nth` weekday of a year, from its end if `nth` is negative. -/
def nthDayOfYear (nth wd y : Int) : Int :=
  let first := yearStart y
  let last := yearStart (y + 1) - 1
  if 0 < nth then
    first + (wd - weekdayOf first) % 7 + 7 * (nth - 1)
  else
    last - (weekdayOf last - wd) % 7 - 7 * (-nth - 1)

/-- The day of an instant is the `nth` weekday of its year. -/
def NthOfYear (nth wd t : Int) : Prop :=
  date t = nthDayOfYear nth wd (year t)

/--
What a rule with the yearly ordinal `nth` of `wd` should do: rest exactly on
that day of a year, never go back, and produce the day in every year that has
it.
-/
structure CountsFromEdge (nth : NonZeroI8) (wd : Weekday) (op : FactOp)
    (it : RecurIterator) : Prop where
  fixed : forall curr, inRange curr ->
    (op curr = some curr ↔ NthOfYear nth.val wd.asJiff curr)
  forward : forall curr n, op curr = some n -> curr ≤ n
  produced : forall dates, it.Produces dates -> forall d, inRange d ->
    it.start ≤ d -> timeOfDay d = timeOfDay it.start ->
    NthOfYear nth.val wd.asJiff d -> d ∈ dates

theorem nthWeekdayOfYearEq_midnight {nth wd c n : Int}
    (h : nthWeekdayOfYearEq nth wd c = some n) : n % 86400 = 0 := by
  rcases Option.bind_eq_some_iff.mp h with ⟨x, hx, hrun⟩
  have hway := date_nthWeekday hx
  split at hrun
  · omega
  · split at hrun
    · rcases Option.bind_eq_some_iff.mp hrun with ⟨y, _, hrun⟩
      rcases Option.bind_eq_some_iff.mp hrun with ⟨z, _, hstart⟩
      rw [startOfDay_eq_some hstart]
      omega
    · rw [startOfDay_eq_some hrun]
      omega

theorem nthWeekdayOfYearEq_moves {nth wd c : Int} (hc : c % 86400 ≠ 0) :
    nthWeekdayOfYearEq nth wd c ≠ some c :=
  fun h => hc (nthWeekdayOfYearEq_midnight h)

theorem year_eq {t y : Int} (hle : yearStart y ≤ date t)
    (hlt : date t < yearStart (y + 1)) : year t = y :=
  years.index_eq_iff.mpr ⟨hle, hlt⟩

theorem nthDayOfYear_common {nth wd y : Int}
    (hlength : yearStart (y + 1) = yearStart y + 365)
    (hwd : weekdayOf (yearStart y) = wd) (hnth : nth ≠ 0) (hlo : -53 ≤ nth)
    (hhi : nth ≤ 53) :
    yearStart y ≤ nthDayOfYear nth wd y ∧
      nthDayOfYear nth wd y < yearStart (y + 1) := by
  unfold nthDayOfYear weekdayOf at *
  dsimp only
  split
  · omega
  · omega

/-- A common year that begins with the weekday. -/
def yearFrom : Weekday -> Int
  | Weekday.monday => 2018
  | Weekday.tuesday => 2019
  | Weekday.wednesday => 2014
  | Weekday.thursday => 2015
  | Weekday.friday => 2010
  | Weekday.saturday => 2011
  | Weekday.sunday => 2017

theorem yearFrom_spec (wd : Weekday) :
    yearStart (yearFrom wd + 1) = yearStart (yearFrom wd) + 365 ∧
      weekdayOf (yearStart (yearFrom wd)) = wd.asJiff ∧
      14000 ≤ yearStart (yearFrom wd) ∧ yearStart (yearFrom wd) ≤ 18000 := by
  cases wd <;> decide

theorem exists_nthOfYear {nth : Int} (wd : Weekday) (hnth : nth ≠ 0)
    (hlo : -53 ≤ nth) (hhi : nth ≤ 53) :
    exists t, inRange t ∧ t % 86400 ≠ 0 ∧ NthOfYear nth wd.asJiff t := by
  have hyear := yearFrom_spec wd
  have hday := nthDayOfYear_common hyear.left hyear.right.left hnth hlo hhi
  refine ⟨86400 * nthDayOfYear nth wd.asJiff (yearFrom wd) + 43200,
    ?_, by omega, ?_⟩
  · unfold inRange minTimestamp maxTimestamp
    omega
  · have hdate : date (86400 * nthDayOfYear nth wd.asJiff (yearFrom wd) +
        43200) = nthDayOfYear nth wd.asJiff (yearFrom wd) := by
      unfold date
      omega
    unfold NthOfYear
    rw [year_eq (y := yearFrom wd) (by rw [hdate]; exact hday.left)
      (by rw [hdate]; exact hday.right), hdate]

/--
No fact of a yearly ordinal weekday counts it from the year's edge, whatever
rule and start the iterator has.
-/
theorem yearly_ordinals_fail (nth : NonZeroI8) (wd : Weekday) (op : FactOp)
    (it : RecurIterator) (hnth : -53 ≤ nth.val ∧ nth.val ≤ 53)
    (hop : byDayFact Freq.yearly (ByDay.fixed nth wd) = some op) :
    ¬ CountsFromEdge nth wd op it := by
  intro hedge
  rcases exists_nthOfYear wd nth.property.left hnth.left hnth.right with
    ⟨t, hrange, hnoon, hday⟩
  have hrests := (hedge.fixed t hrange).mpr hday
  cases hop
  exact nthWeekdayOfYearEq_moves hnoon hrests

/-- The first Monday of every year. -/
def firstMondays : Recur :=
  { freq := Freq.yearly
    byDay := [ByDay.fixed ⟨1, firstOrdinal_bounded⟩ Weekday.monday] }

/-- 2018-01-01 12:00:00, a Monday. -/
def mondayNoon : DateOrDt UtcOrLocalForm :=
  DateOrDt.dateTime
    newYearsDay2018
    { hour := ⟨12, noon_bounded⟩, minute := ⟨0, by decide⟩,
      second := ⟨0, by decide⟩ }
    UtcOrLocalForm.utc

theorem firstMondays_fail :
    exists op it,
      byDayFact Freq.yearly (ByDay.fixed ⟨1, by decide⟩ Weekday.monday) =
        some op ∧
      RecurIterator.new firstMondays mondayNoon = Except.ok it ∧
      ¬ CountsFromEdge ⟨1, by decide⟩ Weekday.monday op it :=
  ⟨_, _, rfl, rfl, yearly_ordinals_fail _ _ _ _ (by decide) rfl⟩

/-- From the first Monday of 2018 the fact goes to the second one. -/
theorem firstMondays_move :
    exists op it,
      byDayFact firstMondays.freq
        (ByDay.fixed ⟨1, by decide⟩ Weekday.monday) = some op ∧
      RecurIterator.new firstMondays mondayNoon = Except.ok it ∧
      it.start = 1514808000 ∧
      NthOfYear 1 Weekday.monday.asJiff it.start ∧
      op it.start = some (it.start + 7 * 86400 - 43200) ∧
      ¬ CountsFromEdge ⟨1, by decide⟩ Weekday.monday op it := by
  refine ⟨_, _, rfl, rfl, by decide, ?_, by decide, ?_⟩
  · unfold NthOfYear
    decide
  · intro hedge
    have hrests := (hedge.fixed 1514808000 (by decide)).mpr (by
      unfold NthOfYear
      decide)
    exact nthWeekdayOfYearEq_moves (by decide) hrests

end Recurrence
end MailClient
