import Templating.Builtin.Conversion
import Templating.Builtin.Function
import Templating.Builtin.SequenceFunction
import Templating.Builtin.TextFunction
import Templating.Json.Reader
import Templating.Json.Writer
import Templating.Wire.Loading

/-!
# Calling builtin functions

* `Function.apply`: a function applied to as many arguments as it takes.
* `callFunction`: a call by name. An unknown name is reported first, a wrong number of arguments
  second.
-/

namespace Templating

open Eval Builtin

/-- The value that a text of the wire format stands for. -/
def Builtin.fromWire (value : Value) : Eval Value := do
  let text ← lift (strArg "fromul4on" value)
  let (value, fresh) ← liftWire (Wire.loads? text (← get).fresh)
  modify fun m => { m with fresh }
  return value

/-- The value that a JSON text stands for. -/
def Builtin.fromJson (value : Value) : Eval Value := do
  match Json.read (← lift (strArg "fromjson" value)) with
  | .ok value => return value
  | .error e => raise (.json e)

/-- The value of a variable, or a default. -/
def Builtin.variable (name : Value) (args : List Value) : Eval Value := do
  let name ← lift (strArg "get" name)
  return ((← env).lookup? name).getD (args[1]?.getD .none)

/-- A function applied to as many arguments as it takes. -/
def Function.apply (ev : Evaluator) (f : Function) (args : List Value) : Eval Value :=
  match f.testedType?, args with
  | some typeName, value :: _ => return .bool (value.typeName = typeName)
  | _, args =>
    match f, args with
    | .bool, args => return .bool (args.head?.any Value.isTruthy)
    | .str, args => return .str ((args.head?.map Value.text).getD "")
    | .repr, value :: _ => return .str value.repr
    | .type, value :: _ => return .str value.typeName
    | .int, args => lift (toInt args)
    | .float, args => lift (toFloat args)
    | .list, [] => return .list []
    | .list, value :: _ => return .list (← ev.items value)
    | .any, value :: _ => anyItem ev value
    | .all, value :: _ => allItems ev value
    | .len, value :: _ => lift (length value)
    | .min, args => extremeOf ev "min" .lt args
    | .max, args => extremeOf ev "max" .gt args
    | .sorted, value :: _ => sortedItems ev value
    | .range, args => numbers args
    | .reversed, value :: _ => return .iterator (← ev.reversed value)
    | .enumerate, value :: _ => enumerated value args
    | .isFirst, value :: _ => markedItems value ⟨false, true, false⟩ 0
    | .isLast, value :: _ => markedItems value ⟨false, false, true⟩ 0
    | .isFirstLast, value :: _ => markedItems value ⟨false, true, true⟩ 0
    | .enumFirstLast, value :: _ => enumeratedMarked value args
    | .zip, args => zipped args
    | .format, value :: spec :: _ => lift (formatValue value spec args)
    | .xmlEscape, value :: _ => return .str (Text.xmlEscape value.text)
    | .csv, value :: _ => return .str (csvText value)
    | .chr, value :: _ => lift (character value)
    | .ord, value :: _ => lift (codePoint value)
    | .hex, value :: _ => lift (inRadix "hex" .hex value)
    | .oct, value :: _ => lift (inRadix "oct" .octal value)
    | .bin, value :: _ => lift (inRadix "bin" .binary value)
    | .urlQuote, value :: _ => lift (quoteUrl value)
    | .urlUnquote, value :: _ => lift (unquoteUrl value)
    | .asJson, value :: _ => return .str (← liftWire (Json.write value))
    | .fromJson, value :: _ => Builtin.fromJson value
    | .asWire, value :: _ => return .str (← liftWire (Wire.dumps value))
    | .fromWire, value :: _ => Builtin.fromWire value
    | .random, _ => randomFloat
    | .randomRange, args => randomNumber args
    | .randomChoice, value :: _ => randomItem ev value
    | .abs, value :: _ => lift (absolute value)
    | .now, _ | .utcNow, _ => return .date (← clock)
    | .date, args => lift (makeDate args)
    | .duration, args => lift (makeDuration args)
    | .months, args => lift (makeMonths args)
    | .rgb, args => lift (makeColor "rgb" Color.ofUnit args)
    | .hls, args => lift (makeColor "hls" Color.ofHls args)
    | .hsv, args => lift (makeColor "hsv" Color.ofHsv args)
    | .get, name :: _ => Builtin.variable name args
    | .vars, _ => return .dict (← env).snapshot
    | f, args => raise (.wrongArgCount .function f.name f.arity.min f.arity.max args.length)

/-- A call of a function by name. -/
def callFunction (ev : Evaluator) (name : String) (args : List Value) : Eval Value :=
  match Function.ofName? name with
  | none => raise (.unknownFunction name)
  | some f => do
    lift (f.arity.check .function name args.length)
    f.apply ev args

end Templating
