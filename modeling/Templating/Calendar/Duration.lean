import Templating.Number.Word
import Templating.Number.Binary64
import Templating.Text.Width

/-!
# Durations

A duration is a whole number of microseconds, kept as days, seconds of a day and microseconds of a
second. The sign lies in the days, so each number of microseconds has one duration.

* `total`, `ofTotal?`: the microseconds of a duration, and the duration of some microseconds. The
  days have to fit a word.
* `neg?`, `add?`, `sub?`, `scale?`: exact arithmetic on the microseconds.
* `ofFloats?`, `scaleFloat?`, `divFloat?`: arithmetic in floating point, down to whole microseconds.
-/

namespace Templating

open Number Text

/-- The seconds of a day. -/
abbrev secondsPerDay : Nat := 86400

/-- The microseconds of a second. -/
abbrev microsPerSecond : Nat := 1000000

/-- The microseconds of a day. -/
abbrev microsPerDay : Nat := 86400000000

/-- Days, seconds of a day and microseconds of a second. -/
structure Duration where
  days : Int64
  seconds : Nat
  micros : Nat
  seconds_lt : seconds < secondsPerDay
  micros_lt : micros < microsPerSecond
deriving DecidableEq

namespace Duration

/-- No time at all. -/
def zero : Duration := ⟨0, 0, 0, by decide, by decide⟩

instance : Inhabited Duration := ⟨zero⟩

/-- The microseconds of a duration. -/
def total (d : Duration) : Int :=
  d.days.toInt * microsPerDay + d.seconds * microsPerSecond + d.micros

/-- The duration of some microseconds, if its days fit. -/
def ofTotal? (t : Int) : Option Duration :=
  (ofInt? (t / microsPerDay)).map fun days =>
    { days
      seconds := (t % microsPerDay).toNat / microsPerSecond
      micros := (t % microsPerDay).toNat % microsPerSecond
      seconds_lt := by simp only [secondsPerDay, microsPerSecond, microsPerDay]; omega
      micros_lt := by simp only [microsPerSecond]; omega }

/-- The duration of components of any size and sign. -/
def ofParts? (days seconds micros : Int) : Option Duration :=
  ofTotal? ((days * secondsPerDay + seconds) * microsPerSecond + micros)

/-- Whether no time passes. -/
def isZero (d : Duration) : Bool := d.days = 0 && d.seconds = 0 && d.micros = 0

/-- The opposite duration. -/
def neg? (d : Duration) : Option Duration := ofTotal? (-d.total)

/-- The sum of two durations. -/
def add? (a b : Duration) : Option Duration := ofTotal? (a.total + b.total)

/-- The difference of two durations. -/
def sub? (a b : Duration) : Option Duration := ofTotal? (a.total - b.total)

/-- A multiple of a duration. -/
def scale? (d : Duration) (factor : Int) : Option Duration := ofTotal? (d.total * factor)

/-- The duration of a float number of microseconds, down to a whole one. -/
def ofFloatTotal? (t : Float) : Option Duration := (Binary64.floor? t).bind ofTotal?

/-- The duration of components in floating point. -/
def ofFloats? (days seconds micros : Float) : Option Duration :=
  ofFloatTotal? ((days * 86400 + seconds) * 1000000 + micros)

/-- A float multiple of a duration. -/
def scaleFloat? (d : Duration) (factor : Float) : Option Duration :=
  ofFloatTotal? (Binary64.ofInt d.total * factor)

/-- A float fraction of a duration; nothing is divided by zero. -/
def divFloat? (d : Duration) (divisor : Float) : Option Duration :=
  if divisor == 0 then none else ofFloatTotal? (Binary64.ofInt d.total / divisor)

/-- Durations are ordered by their microseconds. -/
def compare (a b : Duration) : Ordering := Ord.compare a.total b.total

/-- The constructor form, such as `timedelta(1, 30)`: components that are zero are left out from
the end. -/
def repr (d : Duration) : String :=
  if d.micros ≠ 0 then s!"timedelta({d.days.toInt}, {d.seconds}, {d.micros})"
  else if d.seconds ≠ 0 then s!"timedelta({d.days.toInt}, {d.seconds})"
  else if d.days ≠ 0 then s!"timedelta({d.days.toInt})"
  else "timedelta()"

/-- The readable form, such as `2 days, 3:04:05.000006`. -/
def text (d : Duration) : String :=
  let days := d.days.toInt
  let unit := if days.natAbs = 1 then "day" else "days"
  let lead := if days = 0 then "" else s!"{days} {unit}, "
  let clock := s!"{d.seconds / 3600}:{twoDigits (d.seconds / 60 % 60)}:{twoDigits (d.seconds % 60)}"
  lead ++ clock ++ if d.micros = 0 then "" else "." ++ padded 10 6 d.micros

end Duration

end Templating
