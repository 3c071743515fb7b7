import Templating.Builtin.Argument
import Templating.Number.IntLiteral
import Templating.Value.Arithmetic

/-!
# Functions that make numbers, dates and colors

* `toInt`, `toFloat`: conversions.
* `absolute`: the size of a number or delta.
* `makeDate`, `makeDuration`, `makeMonths`, `makeColor`: values from their parts.
-/

namespace Templating.Builtin

open Number

/-- The integer part of a float. -/
def truncated (x : Float) : Except Cause Value :=
  if x.isNaN then .error .nanToInt
  else
    match (Binary64.truncate? x).bind ofInt? with
    | some n => .ok (.int n)
    | none => .error (.integerOverflow "int()")

/-- The integer that a literal stands for. -/
def parseInt (text : String) (base : Int64) : Except Cause Value :=
  let b := base.toInt
  if b ≠ 0 ∧ (b < 2 ∨ 36 < b) then .error .invalidBase
  else
    match readLiteral b.toNat text with
    | .ok n => .ok (.int n)
    | .error .malformed => .error (.invalidInt base text)
    | .error .tooLarge => .error (.integerOverflow "int()")

/-- The function `int`: 0, a value as an integer, or a literal in a base. -/
def toInt : List Value → Except Cause Value
  | [] => .ok (.int 0)
  | [.str s] => parseInt s 10
  | [.bool b] => .ok (.int (Value.ofBool b))
  | [.int n] => .ok (.int n)
  | [.float x] => truncated x
  | [value] => .error (.notConvertible "int" value.typeName)
  | value :: base :: _ => do
    let base ← intArg "int" base
    match value with
    | .str s => parseInt s base
    | _ => .error .baseWithoutString

/-- The float that a text stands for. -/
def parseFloat (text : String) : Except Cause Value :=
  match Decimal.readFloat? (Text.trim text.toList) with
  | some x => .ok (.float x)
  | none => .error (.invalidFloat text)

/-- The function `float`: 0, or a value as a float. -/
def toFloat : List Value → Except Cause Value
  | [] => .ok (.float 0)
  | .str s :: _ => parseFloat s
  | value :: _ =>
    match value.asFloat? with
    | some x => .ok (.float x)
    | none => .error (.notConvertible "float" value.typeName)

/-- The function `abs`. -/
def absolute (value : Value) : Except Cause Value :=
  match value with
  | .bool b => .ok (.int (Value.ofBool b))
  | .int n => Value.exactly n.toInt.natAbs "abs()"
  | .float x => .ok (.float x.abs)
  | .duration d => if d.days.toInt < 0 then Value.durationOr d.neg? "abs()" else .ok (.duration d)
  | .months m => Value.monthsOr m.count.toInt.natAbs "abs()"
  | value => .error (.wrongArgType "abs" "a number or a delta" value.typeName)

/-- The function `date`, of year, month, day and parts of the time. -/
def makeDate (args : List Value) : Except Cause Value := do
  let ns ← args.mapM (intArg "date")
  let part := intAt ns
  Value.dateOr (Date.ofParts (part 0) (part 1) (part 2) (part 3) (part 4) (part 5) (part 6))

/-- The function `timedelta`, of days, seconds and microseconds. Integers are exact; a single float
makes all of them floats. -/
def makeDuration (args : List Value) : Except Cause Value := do
  if args.all (·.asInt?.isSome) then
    let ns ← args.mapM (intArg "timedelta")
    let part := intAt ns
    Value.durationOr (Duration.ofParts? (part 0) (part 1) (part 2)) "timedelta()"
  else
    let xs ← args.mapM (floatArg "timedelta")
    let part (index : Nat) := xs[index]?.getD 0
    Value.durationOr (Duration.ofFloats? (part 0) (part 1) (part 2)) "timedelta()"

/-- The function `monthdelta`. -/
def makeMonths : List Value → Except Cause Value
  | [] => .ok (.months ⟨0⟩)
  | value :: _ => (intArg "monthdelta" value).map fun n => .months ⟨n⟩

/-- A color from three components and an optional alpha, which is checked first. -/
def makeColor (name : String) (make : Float → Float → Float → Float → Color) (args : List Value) :
    Except Cause Value := do
  let alpha ← optionalAs (floatArg name) args 3
  match ← (args.take 3).mapM (floatArg name) with
  | [x, y, z] => .ok (.color (make x y z (alpha.getD 1)))
  | xs => .error (.wrongArgCount .function name 3 (some 4) xs.length)

end Templating.Builtin
