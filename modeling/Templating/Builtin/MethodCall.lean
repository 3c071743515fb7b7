import Templating.Builtin.CalendarMethod
import Templating.Eval.Iteration

/-!
# Calling builtin methods

* `joined`: the method `join`, which takes the items of any iterable.
* `callMethod`: a call by name, but for the methods that render templates.
-/

namespace Templating

open Eval

/-- The method `join`. It stops at the first item that is no string. -/
def Builtin.joined (ev : Evaluator) (separator : String) (value : Value) : Eval Value := do
  let parts ← ev.fold (← value.iterate) ([] : List String) fun parts item =>
    match item with
    | .str s => return .on (s :: parts)
    | item => raise (.itemNotString parts.length item.typeName)
  return .str (separator.intercalate parts.reverse)

/-- A method applied to a receiver that it accepts. -/
def Builtin.MethodCall.apply (ev : Evaluator) (c : MethodCall) (receiver : Value) : Eval Value :=
  match receiver with
  | .str s => if c.method = .join then joined ev s (c.arg 0) else lift (textMethod c s)
  | .list items => lift (listMethod c items)
  | .dict entries => lift (dictMethod c entries)
  | .date d => lift (dateMethod c d)
  | .duration d => lift (durationMethod c d)
  | .months m => lift (monthsMethod c m)
  | .color color => lift (colorMethod c color)
  | value => raise (.unknownMethod value.typeName c.method.name)

/-- A call of a method by name. -/
def callMethod (ev : Evaluator) (receiver : Value) (name : String) (args : List Value) :
    Eval Value := do
  let method ← lift (Method.resolve receiver name args.length)
  Builtin.MethodCall.apply ev ⟨method, args⟩ receiver

end Templating
