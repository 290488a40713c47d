import MailClient.Foundation.Slices
import MailClient.Vcard.Lists

/-!
# Dates, times and time zones of contacts

The values are taken apart by slices at fixed positions, chosen by their length
in bytes.  A slice that is out of range or ends inside a character panics.
-/

namespace MailClient
namespace Vcard

open Foundation

inductive Fault where
  | panic
  | invalid (error : VCardValueError)
  deriving DecidableEq, Repr

/-- A conversion or a predicate: an error is a value, a panic is not. -/
abbrev Checked (result : Type) :=
  Except Fault result

namespace Checked

/-- What `if` does, whose branches are not both evaluated. -/
def branch {result : Type} (condition : Checked Bool)
    (yes no : Checked result) : Checked result := do
  if <- condition then yes else no

def and (left right : Checked Bool) : Checked Bool :=
  branch left right (Except.ok false)

def or (left right : Checked Bool) : Checked Bool :=
  branch left (Except.ok true) right

end Checked

def slice (value : List Char) (start stop : Nat) : Checked (List Char) :=
  match sliceBytes value start stop with
  | none => Except.error Fault.panic
  | some part => Except.ok part

def sliceFrom (value : List Char) (start : Nat) : Checked (List Char) :=
  slice value start (byteLength value)

def sliceIs (value : List Char) (start stop : Nat) (text : List Char) :
    Checked Bool := do
  let part <- slice value start stop
  pure (part = text)

def sliceTest (value : List Char) (start stop : Nat)
    (test : List Char -> Bool) : Checked Bool := do
  let part <- slice value start stop
  pure (test part)

/-!
# Numbers
-/

def digitValue (c : Char) : Option Nat :=
  if '0'.toNat ≤ c.toNat ∧ c.toNat ≤ '9'.toNat then
    some (c.toNat - '0'.toNat)
  else
    none

def parseDigits (value : List Char) : Option Nat :=
  if value = [] then none
  else value.foldlM (fun n c => (digitValue c).map (n * 10 + ·)) 0

/-- An unsigned integer, which may have a plus sign. -/
def parseUnsigned (limit : Nat) (value : List Char) : Option Nat :=
  let digits :=
    match value with
    | '+' :: rest => parseDigits rest
    | value => parseDigits value
  digits.filter (· < limit)

/-- A signed integer of so many values on each side. -/
def parseSigned (limit : Nat) (value : List Char) : Option Int :=
  match value with
  | '-' :: rest =>
      ((parseDigits rest).filter (· ≤ limit)).map (fun n : Nat => -(n : Int))
  | value => (parseUnsigned limit value).map (fun n : Nat => (n : Int))

def parseU8 (value : List Char) : Option Nat :=
  parseUnsigned (2 ^ 8) value

def parseU16 (value : List Char) : Option Nat :=
  parseUnsigned (2 ^ 16) value

def parseU32 (value : List Char) : Option Nat :=
  parseUnsigned (2 ^ 32) value

def parseI8 (value : List Char) : Option Int :=
  parseSigned (2 ^ 7) value

def parseI32 (value : List Char) : Option Int :=
  parseSigned (2 ^ 31) value

/-- A number that has to be within bounds. -/
def into {number : Type} (valueType : ValueType)
    (parse : List Char -> Option number) (value : List Char) :
    Checked number :=
  match parse value with
  | none => Except.error (Fault.invalid ⟨valueType, value⟩)
  | some n => Except.ok n

/-- A field of a value: where it is and how it is read. -/
def field {number : Type} (value : List Char)
    (read : List Char -> Checked number) (range : Option (Nat × Nat)) :
    Checked (Option number) :=
  match range with
  | none => Except.ok none
  | some (start, stop) => do
      let part <- slice value start stop
      let n <- read part
      pure (some n)

/-!
# Dates
-/

structure DateValue where
  year : Option Nat
  month : Option Nat
  day : Option Nat
  deriving DecidableEq, Repr

namespace DateValue

def intoYear (value : List Char) : Checked Nat :=
  into ValueType.date parseU16 value

def intoMonth (value : List Char) : Checked Nat :=
  into ValueType.date
    (fun value => (parseU8 value).filter (fun v => 0 < v && v < 13)) value

def intoDay (value : List Char) : Checked Nat :=
  into ValueType.date
    (fun value => (parseU8 value).filter (fun v => v < 32)) value

/-- The fields are read in this order, up to the first error. -/
def read (value : List Char) (year month day : Option (Nat × Nat)) :
    Checked DateValue := do
  let year <- field value intoYear year
  let month <- field value intoMonth month
  let day <- field value intoDay day
  pure ⟨year, month, day⟩

def tryFrom (value : List Char) : Checked DateValue :=
  match byteLength value with
  | 4 =>
      Checked.branch (sliceIs value 0 2 ['-', '-'])
        (read value none (some (2, 4)) none)
        (read value (some (0, 4)) none none)
  | 5 =>
      Checked.branch (sliceIs value 0 3 ['-', '-', '-'])
        (read value none none (some (3, 5)))
        (Except.error (Fault.invalid ⟨ValueType.date, value⟩))
  | 6 =>
      Checked.branch (sliceIs value 0 2 ['-', '-'])
        (read value none (some (2, 4)) (some (4, 6)))
        (Except.error (Fault.invalid ⟨ValueType.date, value⟩))
  | 7 =>
      Checked.branch (sliceIs value 4 5 ['-'])
        (read value (some (0, 4)) (some (5, 7)) none)
        (Except.error (Fault.invalid ⟨ValueType.date, value⟩))
  | 8 => read value (some (0, 4)) (some (4, 6)) (some (6, 8))
  | _ => Except.error (Fault.invalid ⟨ValueType.date, value⟩)

end DateValue

/-- Digits of a number between bounds, in so many bytes. -/
def isNumber (length low high : Nat) (value : List Char) : Bool :=
  byteLength value = length &&
    (parseU32 value).any (fun v => low ≤ v && v < high)

def isYearValue (value : List Char) : Bool :=
  byteLength value = 4 && (parseU32 value).isSome

def isMonthValue (value : List Char) : Bool :=
  isNumber 2 1 13 value

def isDayValue (value : List Char) : Bool :=
  isNumber 2 1 32 value

/-- The day as a number below a bound. -/
def dayBelow (bound : Nat) (value : List Char) : Bool :=
  (parseU32 value).any (fun v => 0 < v && v < bound)

def isMonthAndDayValue (value : List Char) : Checked Bool :=
  if byteLength value ≠ 4 then Except.ok false
  else do
    let month <- slice value 0 2
    if month ∈ ["01".toList, "03".toList, "05".toList, "07".toList,
        "08".toList, "10".toList, "12".toList] then
      sliceTest value 2 4 (dayBelow 32)
    else if month = "02".toList then
      sliceTest value 2 4 (dayBelow 30)
    else if month ∈ ["04".toList, "06".toList, "09".toList, "11".toList] then
      sliceTest value 2 4 (dayBelow 31)
    else
      pure false

/-- The operations of the date library. -/
structure Chrono (offset dateTime : Type) where
  /-- There is a `NaiveDate` of this year, month and day. -/
  fromYmdOpt : Int -> Nat -> Nat -> Bool
  /-- From the seconds east of Greenwich. -/
  eastOpt : Int -> Option offset
  /-- The one local time, or the first of two, from year to second. -/
  withYmdAndHms : offset -> Int -> Nat -> Nat -> Nat -> Nat -> Nat ->
    Option dateTime
  /-- The comparison that `Timestamp` derives from. -/
  eq : dateTime -> dateTime -> Bool

section Predicates

variable {offset dateTime : Type} (chrono : Chrono offset dateTime)

def isDateCompleteValue (value : List Char) : Checked Bool :=
  if byteLength value ≠ 8 then Except.ok false
  else do
    let year <- slice value 0 4
    match parseI32 year with
    | none => pure false
    | some year => do
        let month <- slice value 4 6
        match parseU32 month with
        | none => pure false
        | some month => do
            let day <- sliceFrom value 6
            match parseU32 day with
            | none => pure false
            | some day => pure (chrono.fromYmdOpt year month day)

def isDateValue (value : List Char) : Checked Bool :=
  match byteLength value with
  | 4 =>
      Checked.or (Except.ok (isYearValue value))
        (Checked.and (sliceIs value 0 2 ['-', '-'])
          (sliceTest value 2 4 isMonthValue))
  | 5 =>
      Checked.and (sliceIs value 0 3 ['-', '-', '-'])
        (sliceTest value 3 5 isDayValue)
  | 6 =>
      Checked.and (sliceIs value 0 2 ['-', '-'])
        (do isMonthAndDayValue (<- sliceFrom value 2))
  | 7 =>
      Checked.and (sliceTest value 0 4 isYearValue)
        (Checked.and (sliceIs value 4 5 ['-'])
          (sliceTest value 5 7 isMonthValue))
  | 8 => isDateCompleteValue chrono value
  | _ => Except.ok false

end Predicates

/-!
# Zones
-/

def isHourValue (value : List Char) : Bool :=
  isNumber 2 0 24 value

def isMinuteValue (value : List Char) : Bool :=
  isNumber 2 0 60 value

def isSecondValue (value : List Char) : Bool :=
  isNumber 2 0 61 value

inductive ZoneValue where
  | utc
  | offset (hour : Int) (minute : Option Nat)
  deriving DecidableEq, Repr

/-- A number in a part of a value; the error has the whole value. -/
def parsePart {result : Type} (valueType : ValueType) (value : List Char)
    (parse : List Char -> Option result) (part : Checked (List Char)) :
    Checked result := do
  match parse (<- part) with
  | none => Except.error (Fault.invalid ⟨valueType, value⟩)
  | some n => pure n

/-- An hour in three bytes, maybe with minutes in two more. -/
def hourAndMinute (valueType : ValueType) (value : List Char)
    (minutes : Checked (List Char)) : Checked (Int × Option Nat) :=
  match byteLength value with
  | 3 => do
      let hour <- parsePart valueType value parseI8 (Except.ok value)
      pure (hour, none)
  | 5 => do
      let hour <- parsePart valueType value parseI8 (slice value 0 3)
      let minute <- parsePart valueType value parseU8 minutes
      pure (hour, some minute)
  | _ => Except.error (Fault.invalid ⟨valueType, value⟩)

def ZoneValue.tryFrom (value : List Char) : Checked ZoneValue :=
  if value = ['Z'] ∨ value = ['z'] then Except.ok ZoneValue.utc
  else do
    let (hour, minute) <-
      hourAndMinute ValueType.timeZone value (slice value 3 5)
    pure (ZoneValue.offset hour minute)

def isSign (value : List Char) : Bool :=
  value = ['-'] || value = ['+']

def isZoneValue (value : List Char) : Checked Bool :=
  match byteLength value with
  | 1 => Except.ok (value = ['Z'])
  | 3 =>
      Checked.and (sliceTest value 0 1 isSign) (sliceTest value 1 3 isHourValue)
  | 5 =>
      Checked.and (sliceTest value 0 1 isSign)
        (Checked.and (sliceTest value 1 3 isHourValue)
          (sliceTest value 3 5 isMinuteValue))
  | _ => Except.ok false

/-!
# Times
-/

structure TimeValue where
  hour : Option Nat
  minute : Option Nat
  second : Option Nat
  zone : Option ZoneValue
  deriving DecidableEq, Repr

namespace TimeValue

def intoHour (value : List Char) : Checked Nat :=
  into ValueType.time
    (fun value => (parseU8 value).filter (fun v => v < 25)) value

def intoMinute (value : List Char) : Checked Nat :=
  into ValueType.time
    (fun value => (parseU8 value).filter (fun v => v < 61)) value

/-- With room for leap seconds. -/
def intoSecond (value : List Char) : Checked Nat :=
  into ValueType.time
    (fun value => (parseU8 value).filter (fun v => v < 62)) value

/-- Where the zone of a time is. -/
inductive ZoneAt where
  | none
  | utc
  | range (start stop : Nat)
  deriving DecidableEq, Repr

def zoneField (value : List Char) : ZoneAt -> Checked (Option ZoneValue)
  | ZoneAt.none => Except.ok Option.none
  | ZoneAt.utc => Except.ok (some ZoneValue.utc)
  | ZoneAt.range start stop => do
      let part <- slice value start stop
      let zone <- ZoneValue.tryFrom part
      pure (some zone)

/-- The fields are read in this order, up to the first error. -/
def read (value : List Char) (hour minute second : Option (Nat × Nat))
    (zone : ZoneAt) : Checked TimeValue := do
  let hour <- field value intoHour hour
  let minute <- field value intoMinute minute
  let second <- field value intoSecond second
  let zone <- zoneField value zone
  pure ⟨hour, minute, second, zone⟩

def startsWith (value : List Char) (c : Char) : Checked Bool :=
  sliceIs value 0 1 [c]

def startsWithTwo (value : List Char) (c d : Char) : Checked Bool :=
  sliceIs value 0 2 [c, d]

def hasZ (value : List Char) (position : Nat) : Checked Bool :=
  sliceIs value position (position + 1) ['Z']

def tryFrom (value : List Char) : Checked TimeValue :=
  match byteLength value with
  -- HH
  | 2 => read value (some (0, 2)) none none ZoneAt.none
  | 3 =>
      -- -MM
      Checked.branch (startsWith value '-')
        (read value none (some (1, 3)) none ZoneAt.none)
        -- HHZ
        (read value (some (0, 2)) none none (ZoneAt.range 2 3))
  | 4 =>
      -- --SS
      Checked.branch (startsWithTwo value '-' '-')
        (read value none none (some (2, 4)) ZoneAt.none)
        -- -MMZ
        (Checked.branch (Checked.and (startsWith value '-') (hasZ value 3))
          (read value none (some (1, 3)) none ZoneAt.utc)
          -- HHMM
          (read value (some (0, 2)) (some (2, 4)) none ZoneAt.none))
  | 5 =>
      -- --SSZ
      Checked.branch (Checked.and (startsWithTwo value '-' '-') (hasZ value 4))
        (read value none none (some (2, 4)) ZoneAt.utc)
        -- -MMSS
        (Checked.branch (startsWith value '-')
          (read value none (some (1, 3)) (some (3, 5)) ZoneAt.none)
          -- HHMMZ
          (Checked.branch (hasZ value 4)
            (read value (some (0, 2)) (some (2, 4)) none ZoneAt.utc)
            -- HH+ZZ
            (read value (some (0, 2)) none none (ZoneAt.range 2 5))))
  | 6 =>
      -- -MMSSZ
      Checked.branch (Checked.and (startsWith value '-') (hasZ value 5))
        (read value none (some (1, 3)) (some (3, 5)) ZoneAt.utc)
        -- -MM+ZZ
        (Checked.branch (startsWith value '-')
          (read value none (some (1, 3)) none (ZoneAt.range 3 6))
          -- HHMMSS
          (read value (some (0, 2)) (some (2, 4)) (some (4, 6)) ZoneAt.none))
  | 7 =>
      -- --SS+ZZ
      Checked.branch (startsWithTwo value '-' '-')
        (read value none none (some (2, 4)) (ZoneAt.range 4 7))
        -- HHMMSSZ
        (Checked.branch (hasZ value 6)
          (read value (some (0, 2)) (some (2, 4)) (some (4, 6)) ZoneAt.utc)
          -- HHMM+ZZ
          (Checked.branch (sliceTest value 4 5 isSign)
            (read value (some (0, 2)) (some (2, 4)) none (ZoneAt.range 4 7))
            -- HH+ZZZZ
            (read value (some (0, 2)) none none (ZoneAt.range 2 7))))
  | 8 =>
      -- -MM+ZZZZ
      Checked.branch (startsWith value '-')
        (read value none (some (1, 3)) none (ZoneAt.range 3 8))
        -- -MMSS+ZZ, which the arm before has taken already
        (Checked.branch (startsWith value '-')
          (read value none (some (1, 3)) (some (3, 5)) (ZoneAt.range 5 8))
          (Except.error (Fault.invalid ⟨ValueType.time, value⟩)))
  | 9 =>
      -- --SS+ZZZZ
      Checked.branch (startsWithTwo value '-' '-')
        (read value none none (some (2, 4)) (ZoneAt.range 4 9))
        -- HHMM+ZZZZ
        (Checked.branch (sliceTest value 4 5 isSign)
          (read value (some (0, 2)) (some (2, 4)) none (ZoneAt.range 4 9))
          -- HHMMSS+ZZ
          (read value (some (0, 2)) (some (2, 4)) (some (4, 6))
            (ZoneAt.range 6 9)))
  | 10 =>
      -- -MMSS+ZZZZ
      Checked.branch (startsWith value '-')
        (read value none (some (1, 3)) (some (3, 5)) (ZoneAt.range 5 10))
        (Except.error (Fault.invalid ⟨ValueType.time, value⟩))
  -- HHMMSS+ZZZZ
  | 11 =>
      read value (some (0, 2)) (some (2, 4)) (some (4, 6)) (ZoneAt.range 6 11)
  | _ => Except.error (Fault.invalid ⟨ValueType.time, value⟩)

end TimeValue

/-- The rest of a value is a zone, or nothing is left. -/
def isZoneFrom (value : List Char) (start : Nat) : Checked Bool :=
  Checked.or (Except.ok (byteLength value = start))
    (do isZoneValue (<- sliceFrom value start))

def isTimeValue (value : List Char) : Checked Bool :=
  if value = [] then Except.ok false
  else
    Checked.branch (sliceIs value 0 1 ['-'])
      (Checked.branch (sliceIs value 1 2 ['-'])
        (Checked.and (sliceTest value 2 4 isSecondValue) (isZoneFrom value 4))
        (Checked.and (sliceTest value 1 3 isMinuteValue)
          (Checked.or (isZoneFrom value 3)
            (Checked.and (sliceTest value 3 5 isSecondValue)
              (isZoneFrom value 5)))))
      (Checked.and (sliceTest value 0 2 isHourValue)
        (Checked.or (isZoneFrom value 2)
          (Checked.and (sliceTest value 2 4 isMinuteValue)
            (Checked.or (isZoneFrom value 4)
              (Checked.and (sliceTest value 4 6 isSecondValue)
                (isZoneFrom value 6))))))

/-!
# Dates with times
-/

structure DateTimeValue where
  year : Option Nat
  month : Option Nat
  day : Option Nat
  hour : Option Nat
  minute : Option Nat
  second : Option Nat
  zone : Option ZoneValue
  deriving DecidableEq, Repr

def DateTimeValue.ofTime (value : TimeValue) : DateTimeValue :=
  ⟨none, none, none, value.hour, value.minute, value.second, value.zone⟩

def DateTimeValue.ofDate (value : DateValue) : DateTimeValue :=
  ⟨value.year, value.month, value.day, none, none, none, none⟩

def DateTimeValue.fromDateAndTime (date : DateValue) (time : TimeValue) :
    DateTimeValue :=
  ⟨date.year, date.month, date.day, time.hour, time.minute, time.second,
    time.zone⟩

/-- The position of a character in bytes. -/
def findChar (c : Char) : List Char -> Option Nat
  | [] => none
  | d :: rest =>
      if d = c then some 0 else (findChar c rest).map (d.utf8Size + ·)

def DateAndOrTimeValue.tryFrom (value : List Char) : Checked DateTimeValue :=
  if value = [] then
    Except.error (Fault.invalid ⟨ValueType.dateAndOrTime, value⟩)
  else
    Checked.branch (sliceIs value 0 1 ['T'])
      (do
        let part <- sliceFrom value 1
        let time <- TimeValue.tryFrom part
        pure (DateTimeValue.ofTime time))
      (match findChar 'T' value with
      | some position => do
          let part <- slice value 0 position
          let date <- DateValue.tryFrom part
          let part <- sliceFrom value (position + 1)
          let time <- TimeValue.tryFrom part
          pure (DateTimeValue.fromDateAndTime date time)
      | none => do
          let date <- DateValue.tryFrom value
          pure (DateTimeValue.ofDate date))

/-!
# Offsets and timestamps
-/

structure UTCOffset where
  hour : Int
  minute : Option Nat
  deriving DecidableEq, Repr

def UTCOffset.tryFrom (value : List Char) : Checked UTCOffset := do
  let (hour, minute) <-
    hourAndMinute ValueType.utcOffset value (sliceFrom value 3)
  pure ⟨hour, minute⟩

namespace Timestamp

section Timestamps

variable {offset dateTime : Type} (chrono : Chrono offset dateTime)

/-- The error has the whole value. -/
def intoError {result : Type} (value : List Char) : Checked result :=
  Except.error (Fault.invalid ⟨ValueType.timestamp, value⟩)

def number {result : Type} (value : List Char)
    (parse : List Char -> Option result) (start stop : Nat) :
    Checked result :=
  parsePart ValueType.timestamp value parse (slice value start stop)

def minuteSeconds : Int := 60

def hourSeconds : Int := 60 * minuteSeconds

def east (value : List Char) (seconds : Int) : Checked offset :=
  match chrono.eastOpt seconds with
  | none => intoError value
  | some offset => Except.ok offset

def offsetOf (value : List Char) : Checked offset :=
  match byteLength value with
  -- no time zone
  | 15 => east chrono value 0
  -- UTC
  | 16 =>
      Checked.branch (sliceIs value 15 16 ['Z']) (east chrono value 0)
        (intoError value)
  -- hour
  | 18 => do
      let hours <- number value parseI32 15 18
      east chrono value (hours * hourSeconds)
  -- hour and minute
  | 20 => do
      let hours <- number value parseI32 15 18
      let minutes <- number value parseI32 18 20
      east chrono value (hours * hourSeconds + minutes * minuteSeconds)
  | _ => intoError value

def localTime (value : List Char) (offset : offset) (year : Int)
    (month day hour minute second : Nat) : Checked dateTime :=
  match chrono.withYmdAndHms offset year month day hour minute second with
  | none => intoError value
  | some dateTime => Except.ok dateTime

def tryFrom (value : List Char) : Checked dateTime :=
  Checked.branch (sliceIs value 8 9 ['T'])
    (do
      let year <- number value parseI32 0 4
      let month <- number value parseU32 4 6
      let day <- number value parseU32 6 8
      let hour <- number value parseU32 9 11
      let minute <- number value parseU32 11 13
      let second <- number value parseU32 13 15
      let offset <- offsetOf chrono value
      localTime chrono value offset year month day hour minute second)
    (intoError value)

/-- The derived comparison. -/
def eq (left right : dateTime) : Bool :=
  chrono.eq left right

end Timestamps

end Timestamp

end Vcard
end MailClient
