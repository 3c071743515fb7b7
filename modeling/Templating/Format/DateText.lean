import Templating.Calendar.Date
import Templating.Format.Locale

/-!
# Dates in a format

A format is a text in which `%` and a letter stand for a part of a date. The letters `c`, `x` and
`X` stand for the formats of the language, an unknown letter stands for itself, and dates have no
time zone, so `z` and `Z` stand for nothing.

* `Directive`: the parts of a date, by letter.
* `formatDate`: a date in a format and a language.
-/

namespace Templating

open Text

/-- The day of the week, 0 being Sunday. -/
def Date.sundayWeekday (d : Date) : Nat := (d.weekday + 1) % 7

/-- What a letter after `%` stands for: a text, or a format of the language. -/
inductive Directive where
  | text (text : String)
  | format (format : String)

/-- What a letter after `%` stands for. -/
def Directive.of (locale : Locale) (d : Date) : Char → Directive
  | 'a' => .text (locale.shortWeekdays.getD d.sundayWeekday "")
  | 'A' => .text (locale.longWeekdays.getD d.sundayWeekday "")
  | 'b' => .text (locale.shortMonths.getD (d.month - 1) "")
  | 'B' => .text (locale.longMonths.getD (d.month - 1) "")
  | 'c' => .format locale.dateTimeFormat
  | 'x' => .format locale.dateFormat
  | 'X' => .format locale.timeFormat
  | 'd' => .text (twoDigits d.day)
  | 'f' => .text (padded 10 6 d.micro)
  | 'H' => .text (twoDigits d.hour)
  | 'I' => .text (twoDigits ((d.hour + 11) % 12 + 1))
  | 'j' => .text (padded 10 3 d.yearday)
  | 'm' => .text (twoDigits d.month)
  | 'M' => .text (twoDigits d.minute)
  | 'p' => .text (if d.hour < 12 then "AM" else "PM")
  | 'S' => .text (twoDigits d.second)
  | 'U' => .text (twoDigits (d.week 6))
  | 'w' => .text (toString d.sundayWeekday)
  | 'W' => .text (twoDigits (d.week 0))
  | 'y' => .text (twoDigits (d.year % 100))
  | 'Y' => .text (toString d.year)
  | 'z' | 'Z' => .text ""
  | c => .text (String.singleton c)

/-- A date in a format, formats of the language inside it being formatted by `nested`. -/
def expandDate (locale : Locale) (d : Date) (nested : String → String) : List Char → String
  | [] => ""
  | ['%'] => "%"
  | '%' :: c :: rest =>
    (match Directive.of locale d c with
      | .text text => text
      | .format format => nested format) ++ expandDate locale d nested rest
  | c :: rest => String.singleton c ++ expandDate locale d nested rest

/-- A date in a format of a language, in which no further format of the language stands. -/
def formatPlain (locale : Locale) (d : Date) (format : String) : String :=
  expandDate locale d (fun _ => "") format.toList

/-- A date in a format, with the names of a language. -/
def formatDate (d : Date) (format : String) (locale : Locale) : String :=
  expandDate locale d (formatPlain locale d) format.toList

end Templating
