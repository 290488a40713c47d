import MailClient.Recurrence.Jiff

/-!
# Recurrence rules

The data of an `RRULE` and of the dates it refers to.  The units are numbers
that carry the range checked by their constructors.
-/

namespace MailClient
namespace Recurrence

open Foundation

abbrev Bounded (lo hi : Nat) :=
  { n : Nat // lo ≤ n ∧ n ≤ hi }

def Bounded.new {lo hi : Nat} (n : Nat) : Option (Bounded lo hi) :=
  if h : lo ≤ n ∧ n ≤ hi then some ⟨n, h⟩ else none

def Bounded.asNum {lo hi : Nat} (u : Bounded lo hi) : Int :=
  u.val

abbrev Year := Bounded 0 9999

abbrev Month := Bounded 1 12

abbrev Day := Bounded 1 31

abbrev Hour := Bounded 0 23

abbrev Minute := Bounded 0 59

/-- The 60th second is the leap second. -/
abbrev Second := Bounded 0 60

abbrev DayOrdinal := Bounded 1 366

abbrev WeekOrdinal := Bounded 1 53

inductive Sign where
  | neg
  | pos
  deriving DecidableEq, Repr

structure Signed (unit : Type) where
  sign : Sign
  value : unit
  deriving DecidableEq, Repr

def Signed.toInt {lo hi : Nat} (s : Signed (Bounded lo hi)) : Int :=
  match s.sign with
  | Sign.neg => -s.value.asNum
  | Sign.pos => s.value.asNum

inductive Weekday where
  | monday
  | tuesday
  | wednesday
  | thursday
  | friday
  | saturday
  | sunday
  deriving DecidableEq, Repr

/-- `as_jiff`. -/
def Weekday.asJiff : Weekday -> Int
  | monday => 0
  | tuesday => 1
  | wednesday => 2
  | thursday => 3
  | friday => 4
  | saturday => 5
  | sunday => 6

inductive Freq where
  | secondly
  | minutely
  | hourly
  | daily
  | weekly
  | monthly
  | yearly
  deriving DecidableEq, Repr

/-- `NonZeroI8`. -/
abbrev NonZeroI8 :=
  { n : Int // n ≠ 0 ∧ -128 ≤ n ∧ n ≤ 127 }

inductive ByDay where
  | every (day : Weekday)
  | fixed (nth : NonZeroI8) (day : Weekday)
  deriving DecidableEq, Repr

structure Time where
  hour : Hour
  minute : Minute
  second : Second
  deriving DecidableEq, Repr

def dayNumber (y : Year) (m : Month) (d : Day) : Int :=
  monthStart (12 * y.asNum + (m.asNum - 1)) + d.asNum - 1

/-- A date that exists. -/
structure Date where
  year : Year
  month : Month
  day : Day
  valid : day.asNum ≤ monthLength (12 * year.asNum + (month.asNum - 1))
  deriving DecidableEq, Repr

def Date.toDay (d : Date) : Int :=
  dayNumber d.year d.month d.day

theorem noon_bounded : 0 ≤ 12 ∧ 12 ≤ 23 := by
  decide

theorem firstDay_bounded : 1 ≤ 1 ∧ 1 ≤ 31 := by
  decide

theorem firstOrdinal_bounded : (1 : Int) ≠ 0 ∧ -128 ≤ (1 : Int) ∧ (1 : Int) ≤ 127 := by
  decide

def newYearsDay2018 : Date where
  year := ⟨2018, by decide⟩
  month := ⟨1, by decide⟩
  day := ⟨1, firstDay_bounded⟩
  valid := by decide

inductive UtcOrLocalForm where
  | utc
  | localTime
  deriving DecidableEq, Repr

inductive DateOrDt (form : Type) where
  | date (d : Date)
  | dateTime (d : Date) (t : Time) (f : form)
  deriving DecidableEq, Repr

structure Recur where
  freq : Freq
  untilDate : Option (DateOrDt UtcOrLocalForm) := none
  count : Option Nat := none
  interval : Option Nat := none
  bySecond : List Second := []
  byMinute : List Minute := []
  byHour : List Hour := []
  byDay : List ByDay := []
  byMonthDay : List (Signed Day) := []
  byYearDay : List (Signed DayOrdinal) := []
  byWeekNo : List (Signed WeekOrdinal) := []
  byMonth : List Month := []
  bySetPos : List (Signed DayOrdinal) := []
  deriving DecidableEq, Repr

/-- `recur.interval.unwrap_or(1)`. -/
def Recur.intervalOrOne (recur : Recur) : Int :=
  recur.interval.getD 1

/-- The first instant of the period of an instant. -/
def Freq.firstOf (freq : Freq) (dt : Int) : Option Int :=
  match freq with
  | secondly => some dt
  | minutely => some dt
  | hourly => some dt
  | daily => startOfDay dt
  | weekly =>
      if weekday dt = Weekday.monday.asJiff then
        startOfDay dt
      else
        (nthWeekday (-1) Weekday.monday.asJiff dt).bind startOfDay
  | monthly => (firstOfMonth dt).bind startOfDay
  | yearly => (firstOfYear dt).bind startOfDay

end Recurrence
end MailClient
