import Templating.Builtin.TextMethod

/-!
# Methods on dates, deltas and colors

* `dateMethod`, `durationMethod`, `monthsMethod`: parts of calendar values.
* `colorMethod`: channels and components of colors, and changed colors.
-/

namespace Templating.Builtin

/-- A method on a date. Weeks begin on the day that is given, Monday being 0. -/
def dateMethod (c : MethodCall) (d : Date) : Except Cause Value :=
  match c.method with
  | .isoFormat => .ok (.str d.isoText)
  | .mailFormat => .ok (.str d.mailText)
  | .year => .ok (.ofNat d.year)
  | .month => .ok (.ofNat d.month)
  | .day => .ok (.ofNat d.day)
  | .hour => .ok (.ofNat d.hour)
  | .minute => .ok (.ofNat d.minute)
  | .second => .ok (.ofNat d.second)
  | .microsecond => .ok (.ofNat d.micro)
  | .weekday => .ok (.ofNat d.weekday)
  | .week => (c.int? 0).map fun first => .ofNat (d.week ((first.map Int64.toInt).getD 0))
  | .yearday => .ok (.ofNat d.yearday)
  | .isLeap => .ok (.bool d.isLeap)
  | m => .error (.unknownMethod "date" m.name)

/-- A method on a duration. -/
def durationMethod (c : MethodCall) (d : Duration) : Except Cause Value :=
  match c.method with
  | .days => .ok (.int d.days)
  | .seconds => .ok (.ofNat d.seconds)
  | .microseconds => .ok (.ofNat d.micros)
  | m => .error (.unknownMethod "timedelta" m.name)

/-- A method on months. -/
def monthsMethod (c : MethodCall) (m : Months) : Except Cause Value :=
  match c.method with
  | .months => .ok (.int m.count)
  | method => .error (.unknownMethod "monthdelta" method.name)

/-- A list of floats as a value. -/
def floats (xs : List Float) : Value := .list (xs.map .float)

/-- A method on a color. -/
def colorMethod (c : MethodCall) (color : Color) : Except Cause Value := do
  let (h, l, s) := color.hls
  let (h', s', v) := color.hsv
  match c.method with
  | .r => return .ofNat color.r.toNat
  | .g => return .ofNat color.g.toNat
  | .b => return .ofNat color.b.toNat
  | .a => return .ofNat color.a.toNat
  | .lum => return .float color.lum
  | .hls => return floats [h, l, s]
  | .hlsa => return floats [h, l, s, color.alpha]
  | .hsv => return floats [h', s', v]
  | .hsva => return floats [h', s', v, color.alpha]
  | .withAlpha =>
    let alpha := (← intArg c.method.name (c.arg 0)).toInt
    return .color (color.withAlpha (UInt8.ofNat (min alpha.toNat 255)))
  | .withLum => return .color (color.withLum (← floatArg c.method.name (c.arg 0)))
  | m => throw (.unknownMethod "color" m.name)

end Templating.Builtin
