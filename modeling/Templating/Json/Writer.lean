import Templating.Wire.Writer

/-!
# Writing values for scripts

The text of a value is an expression of a script. Plain data is written as JSON; dates, durations,
colors and templates are calls of constructors.
-/

namespace Templating.Json

open Text

/-- The expression for a float. -/
def floatText (x : Float) : String :=
  match Binary64.read x with
  | .nan => "NaN"
  | .infinite negative => if negative then "-Infinity" else "Infinity"
  | .finite .. => Decimal.floatRepr x

/-- The expression for a date. Months count from 0, and milliseconds are the smallest unit. -/
def dateText (d : Date) : String :=
  s!"new Date({d.year}, {d.month - 1}, {d.day}, {d.hour}, {d.minute}, {d.second}, {d.micro / 1000})"

/-- The expression for a template. -/
def templateText (t : Template) : Except Wire.Error String := do
  return "ul4.Template.loads(" ++ script (← Wire.dumpsTemplate t) ++ ")"

mutual

/-- The expression for a value. Iterators have none. -/
def write : Value → Except Wire.Error String
  | .none => return "null"
  | .bool b => return if b then "true" else "false"
  | .int n => return toString n.toInt
  | .float x => return floatText x
  | .str s => return script s
  | .list items => return "[" ++ ", ".intercalate (← writeItems items) ++ "]"
  | .dict entries => return "\x7b" ++ ", ".intercalate (← writeEntries entries) ++ "\x7d"
  | .date d => return dateText d
  | .duration d => return s!"ul4.TimeDelta.create({d.days.toInt}, {d.seconds}, {d.micros})"
  | .months m => return s!"ul4.MonthDelta.create({m.count.toInt})"
  | .color c =>
    return s!"ul4.Color.create({c.r.toNat}, {c.g.toNat}, {c.b.toNat}, {c.a.toNat})"
  | .template t => templateText t
  | .iterator _ => throw (.notSerializable "iterator")

/-- The expressions for the items of a list. -/
def writeItems : List Value → Except Wire.Error (List String)
  | [] => return []
  | item :: items => return (← write item) :: (← writeItems items)

/-- The entries of a dict, each a key and an expression. -/
def writeEntries : List (String × Value) → Except Wire.Error (List String)
  | [] => return []
  | (key, value) :: entries =>
    return (script key ++ ": " ++ (← write value)) :: (← writeEntries entries)

end

end Templating.Json
