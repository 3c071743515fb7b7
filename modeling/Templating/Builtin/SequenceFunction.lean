import Templating.Builtin.Argument
import Templating.Eval.Cursor
import Templating.Value.Order

/-!
# Functions on sequences

* `anyItem`, `allItems`: whether some or all items count as true; they stop at the first answer.
* `length`, `extremeOf`, `sortedItems`: `len`, `min` and `max`, `sorted`.
* `numbers`, `enumerated`, `markedItems`, `zipped`: functions that make iterators.
* `randomNumber`, `randomItem`: a number of a range and an item of a sequence, drawn at random.
-/

namespace Templating.Builtin

open Eval

variable (ev : Evaluator)

/-- The function `any`. -/
def anyItem (value : Value) : Eval Value := do
  let found ← ev.fold (← value.iterate) false fun _ item =>
    return if item.isTruthy then .done true else .on false
  return .bool found

/-- The function `all`. -/
def allItems (value : Value) : Eval Value := do
  let kept ← ev.fold (← value.iterate) true fun _ item =>
    return if item.isTruthy then .on true else .done false
  return .bool kept

/-- The number of characters, items or keys. -/
def length (value : Value) : Except Cause Value :=
  match value with
  | .str s => .ok (.ofNat s.length)
  | .list items => .ok (.ofNat items.length)
  | .dict entries => .ok (.ofNat entries.length)
  | value => .error (.noLength value.typeName)

/-- The functions `min` and `max`. A single argument is a sequence of the values to compare. -/
def extremeOf (name : String) (wanted : Ordering) (args : List Value) : Eval Value := do
  let values ← match args with
    | [value] => ev.items value
    | args => pure args
  lift (Value.extreme name wanted values)

/-- The function `sorted`. -/
def sortedItems (value : Value) : Eval Value := do
  return .list (← lift (Value.sortStable (← ev.items value)))

/-- Start, stop and step of a range from one to three arguments. -/
def rangeArgs (name : String) (args : List Value) : Except Cause (Int64 × Int64 × Int64) := do
  match ← args.mapM (intArg name) with
  | [] => return (0, 0, 1)
  | [stop] => return (0, stop, 1)
  | [start, stop] => return (start, stop, 1)
  | start :: stop :: step :: _ => return (start, stop, step)

/-- A new iterator as a value. -/
def iterator (cursor : Cursor) : Eval Value := return .iterator (← allocate cursor)

/-- The function `range`. -/
def numbers (args : List Value) : Eval Value := do
  let (start, stop, step) ← lift (rangeArgs "range" args)
  iterator (← lift (Cursor.range? "range" start stop step))

/-- The function `enumerate`. -/
def enumerated (value : Value) (args : List Value) : Eval Value := do
  let start ← lift (intOr "enumerate" args 1 0)
  iterator (.enumerate (← value.iterate) start)

/-- The functions that put markers in front of items. -/
def markedItems (value : Value) (markers : Markers) (start : Int64) : Eval Value := do
  iterator (.marked (← value.iterate) markers start)

/-- The function `enumfl`. -/
def enumeratedMarked (value : Value) (args : List Value) : Eval Value := do
  markedItems value ⟨true, true, true⟩ (← lift (intOr "enumfl" args 1 0))

/-- The function `zip`. -/
def zipped (args : List Value) : Eval Value := do
  iterator (.zip (← args.mapM Value.iterate))

/-- A number below a positive bound, drawn at random. -/
def draw (bound : Nat) : Eval Nat :=
  modifyGet fun m =>
    let (n, random) := randNat m.random 0 (bound - 1)
    (n, { m with random })

/-- A float from 0 up to 1, drawn at random. -/
def randomFloat : Eval Value :=
  return .float (Binary64.ofScaled false (← draw 0x20000000000000) (-53))

/-- A number of a range, drawn at random. -/
def randomNumber (args : List Value) : Eval Value := do
  let (start, stop, step) ← lift (rangeArgs "randrange" args)
  if step = 0 then raise (.zeroStep "randrange")
  else
    let count := rangeLength start.toInt stop.toInt step.toInt
    if count = 0 then raise .emptyRange
    else return .int (Number.saturate (start.toInt + (← draw count) * step.toInt))

/-- An item of a sequence, drawn at random. -/
def randomItem (value : Value) : Eval Value := do
  let items ← ev.items value
  match items[← draw items.length]? with
  | some item => return item
  | none => raise (.emptySequence "randchoice")

end Templating.Builtin
