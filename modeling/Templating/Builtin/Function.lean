import Templating.Builtin.Argument

/-!
# The builtin functions

Their names and how many arguments they take.
-/

namespace Templating

/-- The builtin functions. -/
inductive Function where
  | isNone | isBool | isInt | isFloat | isStr | isDate | isColor | isDuration | isMonths
  | isTemplate | isList | isDict
  | bool | str | repr | type | int | float | list
  | any | all | len | min | max | sorted | range | reversed | enumerate | isFirst | isLast
  | isFirstLast | enumFirstLast | zip
  | format | xmlEscape | csv | chr | ord | hex | oct | bin | urlQuote | urlUnquote
  | asJson | fromJson | asWire | fromWire
  | random | randomRange | randomChoice
  | abs | now | utcNow | date | duration | months | rgb | hls | hsv
  | get | vars
deriving DecidableEq

namespace Function

/-- All functions. -/
def members : List Function :=
  [isNone, isBool, isInt, isFloat, isStr, isDate, isColor, isDuration, isMonths, isTemplate, isList,
    isDict, bool, str, repr, type, int, float, list, any, all, len, min, max, sorted, range,
    reversed, enumerate, isFirst, isLast, isFirstLast, enumFirstLast, zip, format, xmlEscape, csv,
    chr, ord, hex, oct, bin, urlQuote, urlUnquote, asJson, fromJson, asWire, fromWire, random,
    randomRange, randomChoice, abs, now, utcNow, date, duration, months, rgb, hls, hsv, get, vars]

/-- The name of a function in templates. -/
def name : Function → String
  | isNone => "isnone"
  | isBool => "isbool"
  | isInt => "isint"
  | isFloat => "isfloat"
  | isStr => "isstr"
  | isDate => "isdate"
  | isColor => "iscolor"
  | isDuration => "istimedelta"
  | isMonths => "ismonthdelta"
  | isTemplate => "istemplate"
  | isList => "islist"
  | isDict => "isdict"
  | bool => "bool"
  | str => "str"
  | repr => "repr"
  | type => "type"
  | int => "int"
  | float => "float"
  | list => "list"
  | any => "any"
  | all => "all"
  | len => "len"
  | min => "min"
  | max => "max"
  | sorted => "sorted"
  | range => "range"
  | reversed => "reversed"
  | enumerate => "enumerate"
  | isFirst => "isfirst"
  | isLast => "islast"
  | isFirstLast => "isfirstlast"
  | enumFirstLast => "enumfl"
  | zip => "zip"
  | format => "format"
  | xmlEscape => "xmlescape"
  | csv => "csv"
  | chr => "chr"
  | ord => "ord"
  | hex => "hex"
  | oct => "oct"
  | bin => "bin"
  | urlQuote => "urlquote"
  | urlUnquote => "urlunquote"
  | asJson => "asjson"
  | fromJson => "fromjson"
  | asWire => "asul4on"
  | fromWire => "fromul4on"
  | random => "random"
  | randomRange => "randrange"
  | randomChoice => "randchoice"
  | abs => "abs"
  | now => "now"
  | utcNow => "utcnow"
  | date => "date"
  | duration => "timedelta"
  | months => "monthdelta"
  | rgb => "rgb"
  | hls => "hls"
  | hsv => "hsv"
  | get => "get"
  | vars => "vars"

/-- How many arguments a function takes. -/
def arity : Function → Arity
  | bool | str | float | list | months => .between 0 1
  | int => .between 0 2
  | min | max => .atLeast 1
  | range | randomRange => .between 1 3
  | enumerate | enumFirstLast | get => .between 1 2
  | zip => .atLeast 0
  | format => .between 2 3
  | random | now | utcNow | vars => .exactly 0
  | date => .between 3 7
  | duration => .between 0 3
  | rgb | hls | hsv => .between 3 4
  | _ => .exactly 1

/-- The function with a name. -/
def ofName? (name : String) : Option Function := members.find? (·.name = name)

/-- The name of the type that a function tests for. -/
def testedType? : Function → Option String
  | isNone => some "none"
  | isBool => some "bool"
  | isInt => some "int"
  | isFloat => some "float"
  | isStr => some "str"
  | isDate => some "date"
  | isColor => some "color"
  | isDuration => some "timedelta"
  | isMonths => some "monthdelta"
  | isTemplate => some "template"
  | isList => some "list"
  | isDict => some "dict"
  | _ => none

theorem mem_members (f : Function) : f ∈ members := by cases f <;> decide

end Function

end Templating
