import Templating.Error
import Templating.Value.Basic

/-!
# Arithmetic

Addition, subtraction, multiplication, division and remainder of values. Integers are exact or fail,
floats are computed in floating point, and a mixture of both counts as floats. Dates, durations and
months have an arithmetic of their own, and strings and lists can be joined and repeated.

* `Value.add`, `Value.sub`, `Value.mul`, `Value.floorDiv`, `Value.trueDiv`, `Value.modulo`: the
  operators.
* `Value.neg`: the prefix operator.
-/

namespace Templating

open Number

/-- A number as an operand. -/
inductive Operand where
  | int (n : Int64)
  | float (x : Float)

/-- The number that a value stands for in arithmetic. -/
def Value.operand? : Value → Option Operand
  | bool b => some (.int (ofBool b))
  | int n => some (.int n)
  | float x => some (.float x)
  | _ => .none

/-- An operand in floating point. -/
def Operand.toFloat : Operand → Float
  | int n => Binary64.ofWord n
  | float x => x

namespace Value

/-- Two numbers in arithmetic. -/
def operands? (a b : Value) : Option (Operand × Operand) :=
  match a.operand?, b.operand? with
  | some x, some y => some (x, y)
  | _, _ => .none

/-- The refusal of an operator for the types of its operands. -/
def unsupported (a : Value) (op : BinaryOp) (b : Value) : Cause :=
  .binaryUnsupported a.typeName op b.typeName

/-- An exact integer as a value, unless it is too large. -/
def exactly (n : Int) (operation : String) : Except Cause Value :=
  match ofInt? n with
  | some w => .ok (int w)
  | .none => .error (.integerOverflow operation)

/-- A duration as a value, unless it is too long. -/
def durationOr (d : Option Duration) (operation : String) : Except Cause Value :=
  match d with
  | some d => .ok (duration d)
  | .none => .error (.integerOverflow operation)

/-- A number of months as a value, unless it is too large. -/
def monthsOr (n : Int) (operation : String) : Except Cause Value :=
  match ofInt? n with
  | some w => .ok (months ⟨w⟩)
  | .none => .error (.integerOverflow operation)

/-- A date as a value, or the reason why there is none. -/
def dateOr : Except Calendar.Error Date → Except Cause Value
  | .ok d => .ok (date d)
  | .error e => .error (.calendar e)

/-- A date shifted by some months. -/
def shiftMonths (d : Date) (n : Int64) : Except Cause Value := dateOr ((Months.mk n).addTo d)

/-- The operator `+`. -/
def add (a b : Value) : Except Cause Value :=
  match a, b with
  | date d, duration e | duration e, date d => dateOr (d.addDuration e)
  | date d, months m | months m, date d => shiftMonths d m.count
  | duration d, duration e => durationOr (d.add? e) "addition"
  | months m, months n => monthsOr (m.count.toInt + n.count.toInt) "addition"
  | str s, str t => .ok (str (s ++ t))
  | list xs, list ys => .ok (list (xs ++ ys))
  | a, b =>
    match operands? a b with
    | some (.int m, .int n) => exactly (m.toInt + n.toInt) "addition"
    | some (x, y) => .ok (float (x.toFloat + y.toFloat))
    | .none => .error (unsupported a .add b)

/-- The operator `-`. -/
def sub (a b : Value) : Except Cause Value :=
  match a, b with
  | date d, date e => durationOr (d.since e) "subtraction"
  | date d, duration e =>
    match e.neg? with
    | some back => dateOr (d.addDuration back)
    | .none => .error (.integerOverflow "subtraction")
  | date d, months m =>
    match ofInt? (-m.count.toInt) with
    | some back => shiftMonths d back
    | .none => .error (.integerOverflow "subtraction")
  | duration d, duration e => durationOr (d.sub? e) "subtraction"
  | months m, months n => monthsOr (m.count.toInt - n.count.toInt) "subtraction"
  | a, b =>
    match operands? a b with
    | some (.int m, .int n) => exactly (m.toInt - n.toInt) "subtraction"
    | some (x, y) => .ok (float (x.toFloat - y.toFloat))
    | .none => .error (unsupported a .sub b)

/-- The greatest length of a repeated list, and of a repeated string in bytes. -/
def repetitionLimit : Nat := 0x10000000

/-- The number of repetitions of something of a length, if the result is not too long. -/
def repetitions (count : Int64) (length : Nat) : Except Cause Nat :=
  let n := count.toInt
  if n < 0 then .error .negativeRepetition
  else if repetitionLimit < length * n.toNat then
    .error (.repetitionTooLarge (length * n.toNat) repetitionLimit)
  else .ok n.toNat

/-- The text that consists of copies of another one. -/
def repeatText (s : String) (count : Nat) : String :=
  if s = "" then "" else String.join (List.replicate count s)

/-- A repeated string. -/
def repeatStr (s : String) (count : Int64) : Except Cause Value :=
  (repetitions count s.utf8ByteSize).map fun n => str (repeatText s n)

/-- The list that consists of copies of another one. -/
def repeatItems (items : List Value) (count : Nat) : List Value :=
  if items.isEmpty then [] else (List.replicate count items).flatten

/-- A repeated list. -/
def repeatList (items : List Value) (count : Int64) : Except Cause Value :=
  (repetitions count items.length).map fun n => list (repeatItems items n)

/-- The greatest integer that is not above a float. -/
def floorToInt (x : Float) : Except Cause Int64 :=
  match (Binary64.floor? x).bind ofInt? with
  | some n => .ok n
  | .none => .error (.integerOverflow "conversion")

/-- A multiple of a duration; `a` and `b` are the operands as they were written. -/
def scaleDuration (d : Duration) (factor a b : Value) : Except Cause Value :=
  match factor.operand? with
  | some (.float x) => durationOr (d.scaleFloat? x) "multiplication"
  | some (.int n) => durationOr (d.scale? n.toInt) "multiplication"
  | .none => .error (unsupported a .mul b)

/-- A multiple of some months; `a` and `b` are the operands as they were written. -/
def scaleMonths (m : Months) (factor a b : Value) : Except Cause Value :=
  match factor.operand? with
  | some (.float x) => do
    let n ← floorToInt x
    monthsOr (m.count.toInt * n.toInt) "multiplication"
  | some (.int n) => monthsOr (m.count.toInt * n.toInt) "multiplication"
  | .none => .error (unsupported a .mul b)

/-- The operator `*`. -/
def mul (a b : Value) : Except Cause Value :=
  match a, b with
  | duration d, factor | factor, duration d => scaleDuration d factor a b
  | months m, factor | factor, months m => scaleMonths m factor a b
  | str s, int n | int n, str s => repeatStr s n
  | str s, bool c | bool c, str s => repeatStr s (ofBool c)
  | list xs, int n | int n, list xs => repeatList xs n
  | list xs, bool c | bool c, list xs => repeatList xs (ofBool c)
  | a, b =>
    match operands? a b with
    | some (.int m, .int n) => exactly (m.toInt * n.toInt) "multiplication"
    | some (x, y) => .ok (float (x.toFloat * y.toFloat))
    | .none => .error (unsupported a .mul b)

/-- The quotient of two integers, cut toward zero. The least integer has none by -1. -/
def quotient? (m n : Int64) : Option Int64 :=
  if n = 0 ∨ m = Int64.minValue ∧ n = -1 then .none else some (m / n)

/-- The quotient of two integers, rounded down: one less than the quotient cut toward zero if there
is a remainder and the signs differ. -/
def floorDivInt (m n : Int64) : Except Cause Int64 :=
  if n = 0 then .error .divisionByZero
  else
    match quotient? m n with
    | some q => .ok (if m % n ≠ 0 ∧ ¬ (m < 0 ↔ n < 0) then q - 1 else q)
    | .none => .error (.integerOverflow "division")

/-- The remainder of two integers, with the sign of the divisor: the remainder with the sign of the
dividend is shifted by the divisor if the signs differ. -/
def floorModInt (m n : Int64) : Except Cause Int64 :=
  if n = 0 then .error .moduloByZero
  else
    let r := m % n
    .ok (if r ≠ 0 ∧ ¬ (r < 0 ↔ n < 0) then r + n else r)

/-- The operator `//`. -/
def floorDiv (a b : Value) : Except Cause Value :=
  match a, b.operand? with
  | months m, some (.int n) => (floorDivInt m.count n).map fun q => months ⟨q⟩
  | months m, some (.float x) =>
    if x == 0 then .error .divisionByZero
    else (floorToInt (Binary64.ofWord m.count / x)).map fun q => months ⟨q⟩
  | a, _ =>
    match operands? a b with
    | some (.int m, .int n) => (floorDivInt m n).map int
    | some (x, y) =>
      if y.toFloat == 0 then .error .divisionByZero
      else .ok (float (Binary64.floor (x.toFloat / y.toFloat)))
    | .none => .error (unsupported a .floorDiv b)

/-- The operator `/`. -/
def trueDiv (a b : Value) : Except Cause Value :=
  match a with
  | duration d =>
    match b.operand? with
    | some y =>
      if y.toFloat == 0 then .error .divisionByZero
      else durationOr (d.divFloat? y.toFloat) "division"
    | .none => .error (unsupported a .trueDiv b)
  | a =>
    match operands? a b with
    | some (x, y) =>
      if y.toFloat == 0 then .error .divisionByZero else .ok (float (x.toFloat / y.toFloat))
    | .none => .error (unsupported a .trueDiv b)

/-- The remainder of two floats, with the sign of the divisor. -/
def floatMod (x y : Float) : Float :=
  let r := Binary64.remainder x y
  if r != 0 && (decide (r < 0) != decide (y < 0)) then r + y else r

/-- The operator `%`. -/
def modulo (a b : Value) : Except Cause Value :=
  match operands? a b with
  | some (.int m, .int n) => (floorModInt m n).map int
  | some (x, y) =>
    if y.toFloat == 0 then .error .moduloByZero else .ok (float (floatMod x.toFloat y.toFloat))
  | .none => .error (unsupported a .mod b)

/-- The prefix operator `-`. -/
def neg (a : Value) : Except Cause Value :=
  match a with
  | bool b => .ok (int (-ofBool b))
  | int n => exactly (-n.toInt) "negation"
  | float x => .ok (float (-x))
  | duration d => durationOr d.neg? "negation"
  | months m => monthsOr (-m.count.toInt) "negation"
  | a => .error (.unaryUnsupported .neg a.typeName)

/-- A prefix operator applied to a value. -/
def unary (op : UnaryOp) (a : Value) : Except Cause Value :=
  match op with
  | .not => .ok (bool (!a.isTruthy))
  | .neg => a.neg

end Value

end Templating
