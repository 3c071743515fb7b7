import Templating.Builtin.Argument

/-!
# The builtin methods

Their names, what they are called on, and how many arguments they take.
-/

namespace Templating

/-- What a method is called on. -/
inductive Receiver where
  | str | strOrList | dict | date | duration | months | color | template
deriving DecidableEq

namespace Receiver

/-- Whether a value can be the receiver. -/
def accepts : Receiver → Value → Bool
  | str, .str _ => true
  | strOrList, .str _ => true
  | strOrList, .list _ => true
  | dict, .dict _ => true
  | date, .date _ => true
  | duration, .duration _ => true
  | months, .months _ => true
  | color, .color _ => true
  | template, .template _ => true
  | _, _ => false

/-- The words for a receiver in messages. -/
def describe : Receiver → String
  | str => "a string"
  | strOrList => "a string or a list"
  | dict => "a dict"
  | date => "a date"
  | duration => "a timedelta"
  | months => "a monthdelta"
  | color => "a color"
  | template => "a template"

end Receiver

/-- The builtin methods. -/
inductive Method where
  | replace | strip | stripLeft | stripRight | split | splitRight | lower | upper | capitalize
  | join | startsWith | endsWith
  | find | findLast
  | get | items | values
  | isoFormat | mailFormat | year | month | day | hour | minute | second | microsecond | weekday
  | week | yearday | isLeap
  | days | seconds | microseconds
  | months
  | r | g | b | a | lum | hls | hlsa | hsv | hsva | withAlpha | withLum
  | render | renderString
deriving DecidableEq

namespace Method

/-- All methods. -/
def members : List Method :=
  [replace, strip, stripLeft, stripRight, split, splitRight, lower, upper, capitalize, join,
    startsWith, endsWith, find, findLast, get, items, values, isoFormat, mailFormat, year, month,
    day, hour, minute, second, microsecond, weekday, week, yearday, isLeap, days, seconds,
    microseconds, months, r, g, b, a, lum, hls, hlsa, hsv, hsva, withAlpha, withLum, render,
    renderString]

/-- The name of a method in templates. -/
def name : Method → String
  | replace => "replace"
  | strip => "strip"
  | stripLeft => "lstrip"
  | stripRight => "rstrip"
  | split => "split"
  | splitRight => "rsplit"
  | lower => "lower"
  | upper => "upper"
  | capitalize => "capitalize"
  | join => "join"
  | startsWith => "startswith"
  | endsWith => "endswith"
  | find => "find"
  | findLast => "rfind"
  | get => "get"
  | items => "items"
  | values => "values"
  | isoFormat => "isoformat"
  | mailFormat => "mimeformat"
  | year => "year"
  | month => "month"
  | day => "day"
  | hour => "hour"
  | minute => "minute"
  | second => "second"
  | microsecond => "microsecond"
  | weekday => "weekday"
  | week => "week"
  | yearday => "yearday"
  | isLeap => "isleap"
  | days => "days"
  | seconds => "seconds"
  | microseconds => "microseconds"
  | months => "months"
  | r => "r"
  | g => "g"
  | b => "b"
  | a => "a"
  | lum => "lum"
  | hls => "hls"
  | hlsa => "hlsa"
  | hsv => "hsv"
  | hsva => "hsva"
  | withAlpha => "witha"
  | withLum => "withlum"
  | render => "render"
  | renderString => "renders"

/-- What a method is called on. -/
def receiver : Method → Receiver
  | replace | strip | stripLeft | stripRight | split | splitRight | lower | upper | capitalize
  | join | startsWith | endsWith => .str
  | find | findLast => .strOrList
  | get | items | values => .dict
  | isoFormat | mailFormat | year | month | day | hour | minute | second | microsecond | weekday
  | week | yearday | isLeap => .date
  | days | seconds | microseconds => .duration
  | months => .months
  | r | g | b | a | lum | hls | hlsa | hsv | hsva | withAlpha | withLum => .color
  | render | renderString => .template

/-- How many arguments a method takes. -/
def arity : Method → Arity
  | replace => .between 2 3
  | strip | stripLeft | stripRight | week => .between 0 1
  | split | splitRight => .between 0 2
  | join | startsWith | endsWith | withAlpha | withLum => .exactly 1
  | find | findLast => .between 1 3
  | get => .between 1 2
  | _ => .exactly 0

/-- The method with a name. -/
def ofName? (name : String) : Option Method := members.find? (·.name = name)

/-- Whether a method renders a template; only these take keyword arguments. -/
def isRender : Method → Bool
  | render | renderString => true
  | _ => false

/-- The method of a call, if there is one of that name for the receiver and for as many
arguments. -/
def resolve (receiver : Value) (name : String) (given : Nat) : Except Cause Method :=
  match ofName? name with
  | none => .error (.unknownMethod receiver.typeName name)
  | some m =>
    if m.receiver.accepts receiver then (m.arity.check .method name given).map fun _ => m
    else .error (.wrongArgType name m.receiver.describe receiver.typeName)

theorem mem_members (m : Method) : m ∈ members := by cases m <;> decide

end Method

end Templating
