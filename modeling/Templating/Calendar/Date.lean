import Templating.Calendar.Duration
import Templating.Number.FloatText
import Templating.Text.Quoted

/-!
# Dates

A date is a day of the proleptic Gregorian calendar between the years 1 and 9999 with a time of day,
exact to the microsecond and without a time zone.

* `Date.ofParts`: a date from its components, each checked in turn.
* `dayNumber`: days counted from 0001-01-01; `instant`, `ofInstant?`: microseconds.
* `addDuration`, `since`: the line of instants.
* `weekday`, `yearday`, `week`: the calendar around a date.
* `isoText`, `text`, `mailText`, `compact`, `ofCompact`: the written forms.
-/

namespace Templating

open Text

namespace Calendar

/-- The first year that the calendar covers. -/
def firstYear : Int := -262143

/-- The last year that the calendar covers. -/
def lastYear : Int := 262142

/-- Whether a year of the calendar has 366 days. -/
def isLeapYear (year : Int) : Bool :=
  firstYear ≤ year && year ≤ lastYear &&
    (year % 4 = 0 && (year % 100 ≠ 0 || year % 400 = 0))

/-- The days of a month, 1 being January. -/
def daysInMonth (year : Int) (month : Nat) : Nat :=
  if month = 2 then if isLeapYear year then 29 else 28
  else if month = 4 ∨ month = 6 ∨ month = 9 ∨ month = 11 then 30
  else 31

/-- The part of a date that a message names. -/
inductive Component where
  | year | month | day | hour | minute | second | microsecond
deriving DecidableEq

/-- The name of a component. -/
def Component.name : Component → String
  | .year => "year"
  | .month => "month"
  | .day => "day"
  | .hour => "hour"
  | .minute => "minute"
  | .second => "second"
  | .microsecond => "microsecond"

/-- Why a date cannot be built or shifted. -/
inductive Error where
  /-- A component is outside its range, or the month has no such day. -/
  | invalidComponent (component : Component) (value : Int)
  /-- The result is outside the years 1 to 9999. -/
  | outOfRange
  /-- The compact form is not twenty digits. -/
  | invalidText (text : String)
deriving DecidableEq

/-- The wording of a calendar error. -/
def Error.message : Error → String
  | .invalidComponent component value => s!"{component.name} {value} is out of range"
  | .outOfRange => "date value out of range"
  | .invalidText text => "invalid date " ++ shown text

/-- The days before January 1 of a year, counted from January 1 of the year 1. -/
def daysBeforeYear (year : Nat) : Nat :=
  let y := year - 1
  y * 365 + y / 4 - y / 100 + y / 400

/-- The days of a year before its month. -/
def daysBeforeMonth (year month : Nat) : Nat :=
  (List.range (month - 1)).foldr (fun m n => daysInMonth year (m + 1) + n) 0

/-- The year in which a day falls. The mean length of a year gives it up to one. -/
def yearOfDay (n : Nat) : Nat :=
  let y := n * 400 / 146097 + 1
  if n < daysBeforeYear y then y - 1
  else if daysBeforeYear (y + 1) ≤ n then y + 1
  else y

/-- The month, from `month` on, and the day of the month, given the days since `month` began. -/
def monthOfDay (year : Nat) : Nat → Nat → Nat → Nat × Nat
  | 0, month, n => (month, n + 1)
  | left + 1, month, n =>
    let length := daysInMonth year month
    if n < length then (month, n + 1) else monthOfDay year left (month + 1) (n - length)

end Calendar

open Calendar

/-- What the components of a date satisfy. -/
def Date.Valid (year month day hour minute second micro : Nat) : Prop :=
  1 ≤ year ∧ year ≤ 9999 ∧ 1 ≤ month ∧ month ≤ 12 ∧ 1 ≤ day ∧ day ≤ daysInMonth year month ∧
    hour < 24 ∧ minute < 60 ∧ second < 60 ∧ micro < microsPerSecond

instance (year month day hour minute second micro : Nat) :
    Decidable (Date.Valid year month day hour minute second micro) :=
  inferInstanceAs (Decidable (_ ∧ _))

/-- A date with a time of day. -/
structure Date where
  year : Nat
  month : Nat
  day : Nat
  hour : Nat
  minute : Nat
  second : Nat
  micro : Nat
  valid : Date.Valid year month day hour minute second micro
deriving DecidableEq

namespace Date

/-- The first date of the calendar. -/
def first : Date := ⟨1, 1, 1, 0, 0, 0, 0, by decide⟩

instance : Inhabited Date := ⟨first⟩

/-- Refuses a component outside its range. -/
def check (component : Component) (value low high : Int) : Except Error Unit :=
  if low ≤ value ∧ value ≤ high then .ok () else .error (.invalidComponent component value)

/-- A date from its components. The first one out of range is reported, and the length of the month
is looked at last. -/
def ofParts (year month day hour minute second micro : Int) : Except Error Date := do
  check .year year 1 9999
  check .month month 1 12
  check .day day 1 31
  check .hour hour 0 23
  check .minute minute 0 59
  check .second second 0 59
  check .microsecond micro 0 999999
  if h : Valid year.toNat month.toNat day.toNat hour.toNat minute.toNat second.toNat
      micro.toNat then
    return ⟨_, _, _, _, _, _, _, h⟩
  else throw (.invalidComponent .day day)

/-- A date at midnight. -/
def ofDay (year month day : Int) : Except Error Date := ofParts year month day 0 0 0 0

/-- Whether the time of day is not midnight. -/
def hasTime (d : Date) : Bool := d.hour ≠ 0 || d.minute ≠ 0 || d.second ≠ 0 || d.micro ≠ 0

/-- Whether the year has 366 days. -/
def isLeap (d : Date) : Bool := isLeapYear d.year

/-- The day of the year, 1 being January 1. -/
def yearday (d : Date) : Nat := daysBeforeMonth d.year d.month + d.day

/-- The days since 0001-01-01. -/
def dayNumber (d : Date) : Nat := daysBeforeYear d.year + d.yearday - 1

/-- The day of the week, 0 being Monday. -/
def weekday (d : Date) : Nat := d.dayNumber % 7

/-- The number of the week when weeks begin on the weekday `first`, taken modulo 7. The days before
the first such weekday of the year are in week 0. -/
def week (d : Date) (first : Int) : Nat :=
  let start := first % 7
  let newYear := ((d.weekday : Int) - (d.yearday - 1)) % 7
  let offset := (start - newYear) % 7
  (((d.yearday : Int) + 6 - offset) / 7).toNat

/-- The microseconds since midnight. -/
def microsOfDay (d : Date) : Nat :=
  ((d.hour * 60 + d.minute) * 60 + d.second) * microsPerSecond + d.micro

/-- The microseconds since 0001-01-01. -/
def instant (d : Date) : Int := d.dayNumber * microsPerDay + d.microsOfDay

/-- The date of some microseconds since 0001-01-01, within the years 1 to 9999. -/
def ofInstant? (t : Int) : Option Date :=
  if t < 0 then none
  else
    let n := t.toNat / microsPerDay
    let rest := t.toNat % microsPerDay
    let year := yearOfDay n
    let (month, day) := monthOfDay year 11 1 (n - daysBeforeYear year)
    let second := rest / microsPerSecond
    if h : Valid year month day (second / 3600) (second / 60 % 60) (second % 60)
        (rest % microsPerSecond) then
      some ⟨_, _, _, _, _, _, _, h⟩
    else none

/-- The date later by a duration. -/
def addDuration (d : Date) (delta : Duration) : Except Error Date :=
  match ofInstant? (d.instant + delta.total) with
  | some e => .ok e
  | none => .error .outOfRange

/-- The duration from `other` to `d`. -/
def since (d other : Date) : Option Duration := Duration.ofTotal? (d.instant - other.instant)

/-- Dates are ordered by their instants. -/
def compare (a b : Date) : Ordering := Ord.compare a.instant b.instant

/-- The day as `YYYY-MM-DD`. -/
def dayText (d : Date) : String := s!"{padded 10 4 d.year}-{twoDigits d.month}-{twoDigits d.day}"

/-- The time as `HH:MM:SS`. -/
def secondsText (d : Date) : String :=
  s!"{twoDigits d.hour}:{twoDigits d.minute}:{twoDigits d.second}"

/-- The time as `HH:MM:SS`, with microseconds if there are any. -/
def timeText (d : Date) : String :=
  d.secondsText ++ if d.micro = 0 then "" else "." ++ padded 10 6 d.micro

/-- The form `YYYY-MM-DD`, with `T` and the time unless it is midnight. -/
def isoText (d : Date) : String :=
  if d.hasTime then d.dayText ++ "T" ++ d.timeText else d.dayText

/-- The literal of a template, such as `@(2012-10-03)`. -/
def repr (d : Date) : String := "@(" ++ d.isoText ++ ")"

/-- The day and the time with a blank between. -/
def text (d : Date) : String := d.dayText ++ " " ++ d.timeText

/-- The weekdays from Monday on, in three letters. -/
def weekdayNames : List String := ["Mon", "Tue", "Wed", "Thu", "Fri", "Sat", "Sun"]

/-- The months from January on, in three letters. -/
def monthNames : List String :=
  ["Jan", "Feb", "Mar", "Apr", "May", "Jun", "Jul", "Aug", "Sep", "Oct", "Nov", "Dec"]

/-- The form of mail headers, such as `Wed, 03 Oct 2012 12:34:56 GMT`. -/
def mailText (d : Date) : String :=
  let weekday := weekdayNames.getD d.weekday ""
  let month := monthNames.getD (d.month - 1) ""
  s!"{weekday}, {twoDigits d.day} {month} {padded 10 4 d.year} {d.secondsText} GMT"

/-- The form of twenty digits `YYYYMMDDHHMMSSffffff`. -/
def compact (d : Date) : String :=
  padded 10 4 d.year ++ twoDigits d.month ++ twoDigits d.day ++ twoDigits d.hour ++
    twoDigits d.minute ++ twoDigits d.second ++ padded 10 6 d.micro

/-- Reads the form of twenty digits. -/
def ofCompact (text : String) : Except Error Date :=
  let cs := text.toList
  if cs.length = 20 ∧ cs.all Char.isDigit then
    let field (start count : Nat) : Int := Decimal.ofDigits ((cs.drop start).take count)
    ofParts (field 0 4) (field 4 2) (field 6 2) (field 8 2) (field 10 2) (field 12 2) (field 14 6)
  else .error (.invalidText text)

end Date

end Templating
