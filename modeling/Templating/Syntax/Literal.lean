import Templating.Calendar.Months
import Templating.Color

/-!
# Literals

The constants that a template can hold, and the text they are written with.
-/

namespace Templating

/-- A constant of a template. -/
inductive Literal where
  | none
  | bool (b : Bool)
  | int (n : Int64)
  | float (x : Float)
  | str (s : String)
  | date (d : Date)
  | duration (d : Duration)
  | months (m : Months)
  | color (c : Color)
deriving DecidableEq, Inhabited

/-- The text of a truth value. -/
def boolRepr (b : Bool) : String := if b then "True" else "False"

/-- The text that a literal is written with. -/
def Literal.repr : Literal → String
  | none => "None"
  | bool b => boolRepr b
  | int n => toString n.toInt
  | float x => Decimal.floatRepr x
  | str s => Text.literal s
  | date d => d.repr
  | duration d => d.repr
  | months m => m.repr
  | color c => c.repr

end Templating
