import Templating.Value.Basic

/-!
# Values as text

* `Value.repr`: the text that names a value; for most values it reads back as an expression.
* `Value.text`: the text that is output; `None` leaves nothing and a string stands for itself.
-/

namespace Templating

open Text

mutual

/-- The text that names a value. -/
def Value.repr : Value → String
  | .none => "None"
  | .bool b => boolRepr b
  | .int n => toString n.toInt
  | .float x => Decimal.floatRepr x
  | .str s => literal s
  | .list items => "[" ++ String.intercalate ", " (Value.reprs items) ++ "]"
  | .dict entries => "\x7b" ++ String.intercalate ", " (Value.entryReprs entries) ++ "\x7d"
  | .date d => d.repr
  | .duration d => d.repr
  | .months m => m.repr
  | .color c => c.repr
  | .template t => "<template " ++ t.displayName ++ ">"
  | .iterator _ => "<iterator>"

/-- The texts that name some values. -/
def Value.reprs : List Value → List String
  | [] => []
  | item :: items => item.repr :: Value.reprs items

/-- The texts that name the entries of a dict. -/
def Value.entryReprs : List (String × Value) → List String
  | [] => []
  | (key, value) :: entries => (literal key ++ ": " ++ value.repr) :: Value.entryReprs entries

end

/-- The text that is output for a value. -/
def Value.text : Value → String
  | .none => ""
  | .str s => s
  | .date d => d.text
  | .duration d => d.text
  | .months m => m.text
  | .color c => c.text
  | value => value.repr

end Templating
