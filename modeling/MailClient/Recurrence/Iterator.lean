import MailClient.Foundation.Loop
import MailClient.Recurrence.Picker

/-!
# Iterating over occurrences

`RecurIterator` looks for the fixed points of the fact of a rule, groups them by
repetition if there is a `BYSETPOS`, and filters what it has found by the start,
the instant it was fast-forwarded to, and the end of the rule.
-/

namespace MailClient
namespace Recurrence

open Foundation

/-!
# Dates
-/

/-- `JiffZoned::try_from`; the 60th second makes `jiff::civil::time` panic. -/
def DateOrDt.toZoned : DateOrDt UtcOrLocalForm -> Except Failure Int
  | DateOrDt.date d => liftJiff (checked (86400 * d.toDay))
  | DateOrDt.dateTime d t _ =>
      if t.second.asNum ≤ 59 then
        liftJiff (checked (86400 * d.toDay + 3600 * t.hour.asNum +
          60 * t.minute.asNum + t.second.asNum))
      else
        Except.error Failure.panicked

/-!
# The search

The fields of `RecurIterator` that `next_inner` works on.
-/

structure Cursor where
  start : Int
  freq : Freq
  interval : Int
  fact : FactOp
  picker : Option (Picker Int)
  repeatAt : Option Int
  curr : Int

namespace Cursor

/--
The end of a group: from the next repetition on, the picker is closed and
pulled.  It fails if there is no repetition after that.
-/
def endGroup (c : Cursor) (next : Int) : Option (Cursor × Option Int) :=
  match c.picker, c.repeatAt with
  | some picker, some repeatAt =>
      if repeatAt ≤ next then do
        let repeatAt <- nextInstanceOf c.start c.freq c.interval next
        let pulled := picker.close.pull
        some ({ c with picker := some pulled.1, repeatAt := some repeatAt },
          pulled.2)
      else
        some (c, none)
  | _, _ => some (c, none)

/-- The comparison at the end of the loop; going back ends a release build. -/
def visit (c : Cursor) (next : Int) : Flow Cursor (Option Int × Cursor) :=
  if next < c.curr then
    Flow.done (none, c)
  else if next = c.curr then
    match addSeconds 1 c.curr with
    | none => Flow.done (none, c)
    | some curr =>
        match c.picker with
        | none => Flow.done (some next, { c with curr := curr })
        | some picker =>
            let pushed := picker.push next
            let c := { c with curr := curr, picker := some pushed.1 }
            match pushed.2 with
            | none => Flow.again c
            | some found => Flow.done (some found, c)
  else
    Flow.again { c with curr := next }

/-- The body of the loop of `next_inner`. -/
def pass (c : Cursor) : Flow Cursor (Option Int × Cursor) :=
  match nextOccurOf c.fact c.curr with
  | none => Flow.done (none, c)
  | some next =>
      match c.endGroup next with
      | none => Flow.done (none, c)
      | some (c, some found) => Flow.done (some found, c)
      | some (c, none) => c.visit next

def pull (c : Cursor) : Cursor × Option Int :=
  match c.picker with
  | none => (c, none)
  | some picker =>
      let pulled := picker.pull
      ({ c with picker := some pulled.1 }, pulled.2)

def search : Nat -> Cursor -> Option (Option Int × Cursor) :=
  loop (fun _ c => some c.pass)

def nextInner (fuel : Nat) (c : Cursor) : Option (Option Int × Cursor) :=
  match c.pull with
  | (c, some found) => some (some found, c)
  | (c, none) => search fuel c

end Cursor

/-!
# The iterator
-/

structure RecurIterator extends Cursor where
  next : Option Int
  since : Option Int
  untilAt : Option Int
  count : Option Nat
  emitted : Nat

inductive RecurIteratorError where
  | zeroInterval
  | invalidDtStart
  | invalidUntil
  | invalidRecur
  deriving DecidableEq, Repr

inductive NewFailure where
  | error (e : RecurIteratorError)
  | panicked
  deriving DecidableEq, Repr

def mapFailure {result : Type} (e : RecurIteratorError) :
    Except Failure result -> Except NewFailure result
  | Except.ok r => Except.ok r
  | Except.error Failure.jiffError => Except.error (NewFailure.error e)
  | Except.error Failure.panicked => Except.error NewFailure.panicked

/-- The positions of `BYSETPOS`, which all fit `i16`. -/
def Recur.positions (recur : Recur) : List Int :=
  recur.bySetPos.map Signed.toInt

namespace RecurIterator

def new (recur : Recur) (dtstart : DateOrDt UtcOrLocalForm) :
    Except NewFailure RecurIterator := do
  if recur.interval = some 0 then
    Except.error (NewFailure.error RecurIteratorError.zeroInterval)
  else do
    let start <- mapFailure RecurIteratorError.invalidDtStart dtstart.toZoned
    let fact <- mapFailure RecurIteratorError.invalidRecur
      (fromRecur recur start)
    let repeatAt :=
      if recur.bySetPos = [] then none
      else some ((nextInstanceOf start recur.freq recur.intervalOrOne
        start).getD start)
    let curr <- mapFailure RecurIteratorError.invalidDtStart
      (if recur.bySetPos = [] then Except.ok start
        else liftJiff (recur.freq.firstOf start))
    let untilAt <- mapFailure RecurIteratorError.invalidUntil
      (recur.untilDate.mapM DateOrDt.toZoned)
    Except.ok
      { start := start
        freq := recur.freq
        interval := recur.intervalOrOne
        fact := fact
        picker := Picker.new recur.positions
        repeatAt := repeatAt
        curr := curr
        next := none
        since := none
        untilAt := untilAt
        count := recur.count
        emitted := 0 }

def nextInner (fuel : Nat) (it : RecurIterator) :
    Option (Option Int × RecurIterator) :=
  match it.next with
  | some found => some (some found, { it with next := none })
  | none =>
      (it.toCursor.nextInner fuel).map
        (fun r => (r.1, { it with toCursor := r.2 }))

/-- The dates before the start and before the fast-forward are skipped. -/
def skips (it : RecurIterator) (found : Int) : Bool :=
  found < it.start || it.since.any (fun since => found < since)

def wanted (r : Option Int × RecurIterator) :
    Flow RecurIterator (Option Int × RecurIterator) :=
  match r with
  | (none, it) => Flow.done (none, it)
  | (some found, it) =>
      if it.skips found then Flow.again it else Flow.done (some found, it)

def nextWanted : Nat -> RecurIterator -> Option (Option Int × RecurIterator) :=
  loop (fun fuel it => (it.nextInner fuel).map wanted)

/-- What `next` does with the date it has found; `emitted` is a `u32`. -/
def emit (r : Option Int × RecurIterator) : Option Int × RecurIterator :=
  match r with
  | (none, it) => (none, it)
  | (some found, it) =>
      if it.untilAt.any (fun untilAt => untilAt < found) then
        (none, it)
      else
        let emitted := (it.emitted + 1) % 2 ^ 32
        if emitted = 1 ∧ found ≠ it.start then
          (some it.start, { it with emitted := emitted, next := some found })
        else
          (some found, { it with emitted := emitted })

def nextDate (fuel : Nat) (it : RecurIterator) :
    Option (Option Int × RecurIterator) :=
  if it.count.any (fun count => count ≤ it.emitted) then
    some (none, it)
  else
    (it.nextWanted fuel).map emit

/-- The body of `for date in it`, which collects the dates. -/
def collectPass (dates : List Int) (r : Option Int × RecurIterator) :
    Flow (RecurIterator × List Int) (List Int) :=
  match r with
  | (none, _) => Flow.done dates
  | (some found, it) => Flow.again (it, dates ++ [found])

def collect : Nat -> RecurIterator × List Int -> Option (List Int) :=
  loop (fun fuel s => (s.1.nextDate fuel).map (collectPass s.2))

/-- Iterating to the first `None` gives these dates. -/
def Produces (it : RecurIterator) (dates : List Int) : Prop :=
  Returns collect (it, []) dates

end RecurIterator

end Recurrence
end MailClient
