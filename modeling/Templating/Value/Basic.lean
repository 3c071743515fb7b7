import Templating.Syntax.Index
import Templating.Value.Bindings

/-!
# Values

What an expression evaluates to. An iterator is a handle of a cursor that lives in the store, so
copies of it share their position.

* `typeName`: the name of the type in messages.
* `isTruthy`: how a value counts as a condition.
* `asInt?`, `asFloat?`: a value as a number; `True` and `False` count as 1 and 0.
-/

namespace Templating

/-- The place of an iterator in the store. -/
abbrev Handle := Nat

/-- A value of the language. -/
inductive Value where
  | none
  | bool (b : Bool)
  | int (n : Int64)
  | float (x : Float)
  | str (s : String)
  | list (items : List Value)
  /-- A dict with its bindings in order of definition. -/
  | dict (entries : List (String × Value))
  | date (d : Date)
  | duration (d : Duration)
  | months (m : Months)
  | color (c : Color)
  | template (t : Template)
  | iterator (handle : Handle)

namespace Value

instance : Inhabited Value := ⟨none⟩

/-- The value of a literal. -/
def ofLiteral : Literal → Value
  | .none => none
  | .bool b => bool b
  | .int n => int n
  | .float x => float x
  | .str s => str s
  | .date d => date d
  | .duration d => duration d
  | .months m => months m
  | .color c => color c

/-- The literal of a value, if it can be written as one. -/
def literal? : Value → Option Literal
  | none => some .none
  | bool b => some (.bool b)
  | int n => some (.int n)
  | float x => some (.float x)
  | str s => some (.str s)
  | date d => some (.date d)
  | duration d => some (.duration d)
  | months m => some (.months m)
  | color c => some (.color c)
  | list _ | dict _ | template _ | iterator _ => .none

/-- The value of a small number. -/
def ofNat (n : Nat) : Value := int (Number.ofCount n)

/-- The name of the type of a value. -/
def typeName : Value → String
  | none => "none"
  | bool _ => "bool"
  | int _ => "int"
  | float _ => "float"
  | str _ => "str"
  | list _ => "list"
  | dict _ => "dict"
  | date _ => "date"
  | duration _ => "timedelta"
  | months _ => "monthdelta"
  | color _ => "color"
  | template _ => "template"
  | iterator _ => "iterator"

/-- How a value counts as a condition: zeros and empty values are false. -/
def isTruthy : Value → Bool
  | none => false
  | bool b => b
  | int n => n ≠ 0
  | float x => x != 0
  | str s => s ≠ ""
  | list items => !items.isEmpty
  | dict entries => !entries.isEmpty
  | duration d => !d.isZero
  | months m => !m.isZero
  | date _ | color _ | template _ | iterator _ => true

/-- The word of a truth value. -/
def ofBool (b : Bool) : Int64 := if b then 1 else 0

/-- A truth value or an integer as a word. -/
def asInt? : Value → Option Int64
  | bool b => some (ofBool b)
  | int n => some n
  | _ => .none

/-- A number as a float. -/
def asFloat? : Value → Option Float
  | bool b => some (Binary64.ofWord (ofBool b))
  | int n => some (Binary64.ofWord n)
  | float x => some x
  | _ => .none

/-- The text of a string. -/
def asStr? : Value → Option String
  | str s => some s
  | _ => .none

/-- Whether a value takes part in arithmetic as a number. -/
def isNumber : Value → Bool
  | bool _ | int _ | float _ => true
  | _ => false

/-- Whether a value is `None`. -/
def isNone : Value → Bool
  | none => true
  | _ => false

end Value

end Templating
