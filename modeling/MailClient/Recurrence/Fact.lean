import MailClient.Recurrence.Rule

/-!
# Distance functions

A fact moves an instant forward to, or closer to, the next instant that matches
a part of a recurrence rule, and leaves a matching instant alone.  The facts of
a rule are composed one after the other, so one of them that jumps too far
makes the whole rule skip an occurrence.
-/

namespace MailClient
namespace Recurrence

open Foundation

abbrev FactOp := Int -> Option Int

/-!
# Time of day
-/

def secondEq (s : Int) : FactOp := fun curr =>
  if second curr < s then
    ZonedWith.build curr { second := some s }
  else if second curr = s then
    some curr
  else do
    let next <- addMinutes 1 curr
    ZonedWith.build next { second := some s }

def minuteEq (m : Int) : FactOp := fun curr =>
  if minute curr < m then
    ZonedWith.build curr { minute := some m, second := some 0 }
  else if minute curr = m then
    some curr
  else do
    -- Unlike its neighbours this branch keeps the seconds.
    let next <- addHours 1 curr
    ZonedWith.build next { minute := some m }

def hourEq (h : Int) : FactOp := fun curr =>
  if hour curr < h then
    ZonedWith.build curr
      { hour := some h, minute := some 0, second := some 0 }
  else if hour curr = h then
    some curr
  else do
    let next <- tomorrow curr
    ZonedWith.build next
      { hour := some h, minute := some 0, second := some 0 }

def observedHourEq (h : Int) : FactOp := fun curr => do
  let next <- ZonedWith.build curr
    { hour := some h, minute := some 0, second := some 0 }
  if hour curr < hour next then
    some next
  else if hour curr = hour next then
    some curr
  else do
    let next <- tomorrow curr
    ZonedWith.build next
      { hour := some h, minute := some 0, second := some 0 }

/-!
# Days, months and weekdays
-/

/-- The day that `d` denotes in the month of an instant. -/
def absDay (d curr : Int) : Option Int :=
  if d < 0 then do
    let last <- lastOfMonth curr
    let target <- addDays (-(-d - 1)) last
    some (day target)
  else
    some d

def dayEq (d : Int) : FactOp := fun curr => do
  let abs <- absDay d curr
  if day curr < abs then do
    let next <- addDays (abs - day curr) curr
    startOfDay next
  else if day curr = abs then
    some curr
  else if d < 0 then do
    let next <- addMonths 1 curr
    let last <- lastOfMonth next
    let target <- addDays (-(-d - 1)) last
    let dst <- startOfDay target
    -- With a negative day the next month's day may lie in this month.
    if dst ≤ curr then do
      let last <- lastOfMonth curr
      let next <- tomorrow last
      startOfDay next
    else
      some dst
  else do
    let last <- lastOfMonth curr
    let next <- addDays d last
    startOfDay next

def monthEq (m : Int) : FactOp := fun curr =>
  if month curr < m then do
    let next <- addMonths (m - month curr) curr
    let first <- firstOfMonth next
    startOfDay first
  else if month curr = m then
    some curr
  else do
    let next <- addMonths (12 - month curr + m) curr
    let first <- firstOfMonth next
    startOfDay first

/-- The day that `d` denotes in the year of an instant. -/
def absDayOfYear (d curr : Int) : Option Int :=
  if d < 0 then do
    let last <- lastOfYear curr
    let target <- addDays (-(-d - 1)) last
    some (dayOfYear (date target))
  else
    some d

def dayOfYearEq (d : Int) : FactOp := fun curr => do
  let abs <- absDayOfYear d curr
  if dayOfYear (date curr) < abs then do
    let next <- addDays (abs - dayOfYear (date curr)) curr
    startOfDay next
  else if dayOfYear (date curr) = abs then
    some curr
  else if d < 0 then do
    let next <- addYears 1 curr
    let last <- lastOfYear next
    let target <- addDays (-(-d - 1)) last
    let dst <- startOfDay target
    if dst ≤ curr then do
      let last <- lastOfYear curr
      let next <- tomorrow last
      startOfDay next
    else
      some dst
  else do
    let last <- lastOfYear curr
    let next <- addDays d last
    startOfDay next

def weekdayEq (wd : Int) : FactOp := fun curr =>
  if weekday curr = wd then
    some curr
  else do
    let next <- addDays (daysUntil wd curr) curr
    startOfDay next

def nthWeekdayOfMonthEq (nth wd : Int) : FactOp := fun curr => do
  let next <- nthWeekdayOfMonth nth wd curr
  if date next = date curr then
    some curr
  else if next < curr then do
    let next <- addMonths 1 curr
    let next <- nthWeekdayOfMonth nth wd next
    startOfDay next
  else
    startOfDay next

def nthWeekdayOfYearEq (nth wd : Int) : FactOp := fun curr => do
  let next <- nthWeekday nth wd curr
  if date next = date curr then
    some curr
  else if next < curr then do
    let next <- addYears 1 curr
    let next <- nthWeekday nth wd next
    startOfDay next
  else
    startOfDay next

/-!
# Repetitions
-/

/-- `i32::try_from(interval).unwrap_or(1)` and its `i16` sibling. -/
def narrow (bits : Nat) (interval : Int) : Int :=
  if interval < 2 ^ (bits - 1) then interval else 1

/-- The value of a sum of two's complement numbers. -/
def wrap (bits : Nat) (n : Int) : Int :=
  (n + 2 ^ (bits - 1)) % 2 ^ bits - 2 ^ (bits - 1)

/--
One frequency of `instance_of`: `diff` counts the periods since `start`, and
`jump` goes some periods further.
-/
def repetition (bits : Nat) (interval diff : Int) (inclusive : Bool)
    (jump : Int -> Option Int) (curr : Int) : Option Int :=
  let diff := diff.tmod interval
  if diff = 0 ∧ inclusive = true then
    some curr
  else
    jump (wrap bits (interval - diff))

/-- The instants of the repetitions that start in the period of `start`. -/
def instanceFrom (start : Int) (freq : Freq) (interval : Int)
    (inclusive : Bool) : FactOp := fun curr =>
  match freq with
  | Freq.secondly =>
      repetition 64 interval (sinceUnits 1 start curr) inclusive
        (fun n => addSeconds n curr) curr
  | Freq.minutely =>
      repetition 64 interval (sinceUnits 60 start curr) inclusive
        (fun n => addMinutes n curr) curr
  | Freq.hourly =>
      repetition 32 (narrow 32 interval) (sinceUnits 3600 start curr) inclusive
        (fun n => addHours n curr) curr
  | Freq.daily =>
      repetition 32 (narrow 32 interval) (sinceUnits 86400 start curr)
        inclusive (fun n => do
          let next <- addDays n curr
          startOfDay next) curr
  | Freq.weekly =>
      repetition 32 (narrow 32 interval) (sinceUnits 604800 start curr)
        inclusive (fun n => do
          let next <- addWeeks n curr
          if weekday next = Weekday.monday.asJiff then
            startOfDay next
          else do
            let next <- nthWeekday (-1) Weekday.monday.asJiff next
            startOfDay next) curr
  | Freq.monthly =>
      repetition 32 (narrow 32 interval) (sinceMonths start curr) inclusive
        (fun n => do
          let next <- addMonths n curr
          let next <- firstOfMonth next
          startOfDay next) curr
  | Freq.yearly =>
      repetition 16 (narrow 16 interval) (sinceYears start curr) inclusive
        (fun n => do
          let next <- addYears n curr
          let next <- firstOfYear next
          startOfDay next) curr

def instanceOf (start : Int) (freq : Freq) (interval : Int)
    (inclusive : Bool) : Option FactOp := do
  let start <- freq.firstOf start
  some (instanceFrom start freq interval inclusive)

def nextInstanceOf (start : Int) (freq : Freq) (interval curr : Int) :
    Option Int := do
  let fact <- instanceOf start freq interval false
  fact curr

/-!
# Composition
-/

def orFacts : List FactOp -> Option FactOp
  | [] => none
  | fact :: rest => some (fun curr => do
      let best <- fact curr
      rest.foldlM (fun best fact => (fact curr).map (min best)) best)

/-- Each fact starts where the one before has stopped. -/
def runFacts (facts : List FactOp) : FactOp := fun curr =>
  facts.foldlM (fun best fact => fact best) curr

def andFacts : List FactOp -> Option FactOp
  | [] => none
  | fact :: rest => some (runFacts (fact :: rest))

inductive Failure where
  | jiffError
  | panicked
  deriving DecidableEq, Repr

def byDayFact (freq : Freq) : ByDay -> Option FactOp
  | ByDay.every day => some (weekdayEq day.asJiff)
  | ByDay.fixed nth day =>
      match freq with
      | Freq.monthly => some (nthWeekdayOfMonthEq nth.val day.asJiff)
      | Freq.yearly => some (nthWeekdayOfYearEq nth.val day.asJiff)
      | _ => none

/-- The facts of the `BY*` parts other than `BYWEEKNO`. -/
def filterFacts (recur : Recur) : List FactOp :=
  (orFacts (recur.bySecond.map (fun s => secondEq s.asNum))).toList ++
    (orFacts (recur.byMinute.map (fun m => minuteEq m.asNum))).toList ++
    (orFacts (recur.byHour.map (fun h => hourEq h.asNum))).toList ++
    (orFacts (recur.byDay.filterMap (byDayFact recur.freq))).toList ++
    (orFacts (recur.byMonthDay.map (fun md => dayEq md.toInt))).toList ++
    (orFacts (recur.byYearDay.map (fun yd => dayOfYearEq yd.toInt))).toList ++
    (orFacts (recur.byMonth.map (fun m => monthEq m.asNum))).toList

/-- `BYWEEKNO` is a `todo!()`. -/
def fromRecurFilters (recur : Recur) : Except Failure (Option FactOp) :=
  if recur.byWeekNo = [] then
    Except.ok (andFacts (filterFacts recur))
  else
    Except.error Failure.panicked

/-- A fact that is needed only if a part of the rule is missing. -/
def factIf (missing : Bool) (fact : FactOp) : List FactOp :=
  if missing then [fact] else []

def timeInvariants (recur : Recur) (start : Int) : List FactOp :=
  let seconds := factIf recur.bySecond.isEmpty (secondEq (second start))
  let minutes := factIf recur.byMinute.isEmpty (minuteEq (minute start))
  let hours := factIf recur.byHour.isEmpty (observedHourEq (hour start))
  match recur.freq with
  | Freq.secondly => []
  | Freq.minutely => seconds
  | Freq.hourly => seconds ++ minutes
  | _ => seconds ++ minutes ++ hours

def dateInvariants (recur : Recur) (start : Int) : List FactOp :=
  match recur.freq with
  | Freq.weekly =>
      factIf recur.byDay.isEmpty (weekdayEq (weekday start))
  | Freq.monthly =>
      factIf (recur.byDay.isEmpty && recur.byMonthDay.isEmpty)
        (dayEq (day start))
  | Freq.yearly =>
      factIf
          (recur.byDay.isEmpty && recur.byMonthDay.isEmpty &&
            recur.byYearDay.isEmpty)
          (dayEq (day start)) ++
        factIf (recur.byMonth.isEmpty && recur.byYearDay.isEmpty)
          (monthEq (month start))
  | _ => []

def fromRecurInvariants (recur : Recur) (start : Int) : Option FactOp :=
  andFacts (timeInvariants recur start ++ dateInvariants recur start)

def liftJiff {result : Type} : Option result -> Except Failure result
  | some r => Except.ok r
  | none => Except.error Failure.jiffError

def fromRecur (recur : Recur) (start : Int) : Except Failure FactOp := do
  let instances <- liftJiff
    (instanceOf start recur.freq recur.intervalOrOne true)
  let filters <- fromRecurFilters recur
  Except.ok (runFacts
    (instances :: (filters.toList ++
      (fromRecurInvariants recur start).toList)))

/-- `next_occur_of` of the fact of a rule. -/
def nextOccurOf (fact : FactOp) (curr : Int) : Option Int :=
  fact curr

end Recurrence
end MailClient
