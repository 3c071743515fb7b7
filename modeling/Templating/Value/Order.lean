import Templating.Error
import Templating.Value.Arithmetic
import Templating.Value.Equality

/-!
# Order of values

Numbers, strings, dates, durations and months are ordered among their like, and lists are ordered by
the first pair of items that are not equal. Other pairs of values have no order.

* `Value.order?`: the order of two values, `none` if one of them is not a number among floats.
* `Value.sortStable`: a list in ascending order, equal items in the order in which they stood.
* `Value.extreme`: the first least or greatest item of a list.
-/

namespace Templating.Value

/-- The order of two floats; there is none if one of them is not a number. -/
def orderFloats (x y : Float) : Option Ordering :=
  if x < y then some .lt else if x == y then some .eq else if y < x then some .gt else .none

/-- The order of two values that are not both lists. -/
def orderAtoms (op : BinaryOp) (a b : Value) : Except Cause (Option Ordering) :=
  match a, b with
  | str s, str t => .ok (some (compare s t))
  | date d, date e => .ok (some (d.compare e))
  | duration d, duration e => .ok (some (d.compare e))
  | months m, months n => .ok (some (m.compare n))
  | a, b =>
    match operands? a b with
    | some (.int m, .int n) => .ok (some (compare m.toInt n.toInt))
    | some (x, y) => .ok (orderFloats x.toFloat y.toFloat)
    | .none => .error (.unorderable a.typeName op b.typeName)

mutual

/-- The order of two values. The operator is named if there is none. -/
def order? (op : BinaryOp) (a b : Value) : Except Cause (Option Ordering) :=
  match a, b with
  | list xs, list ys => orderLists? op xs ys
  | a, b => orderAtoms op a b

/-- The order of two lists: that of the first items that differ, else that of the lengths. -/
def orderLists? (op : BinaryOp) : List Value → List Value → Except Cause (Option Ordering)
  | [], [] => .ok (some .eq)
  | [], _ :: _ => .ok (some .lt)
  | _ :: _, [] => .ok (some .gt)
  | x :: xs, y :: ys => if x.equal y then orderLists? op xs ys else order? op x y

end

/-- Whether an order satisfies a comparison operator. -/
def satisfies (op : BinaryOp) : Option Ordering → Bool
  | .none => false
  | some o =>
    match op with
    | .lt => o = .lt
    | .le => o ≠ .gt
    | .gt => o = .gt
    | _ => o ≠ .lt

/-- The order of two values for sorting; values without an order among floats count as equal. -/
def order (a b : Value) : Except Cause Ordering :=
  (order? .lt a b).map (·.getD .eq)

/-- Two sorted lists merged; of equal items those of the first list come first. -/
def merge : List Value → List Value → Except Cause (List Value)
  | [], ys => .ok ys
  | xs, [] => .ok xs
  | x :: xs, y :: ys => do
    if (← order y x) = .lt then return y :: (← merge (x :: xs) ys)
    else return x :: (← merge xs (y :: ys))
termination_by xs ys => xs.length + ys.length

/-- A list in ascending order, equal items in the order in which they stood. Halves are sorted from
the left to the right, and the first pair without an order fails. -/
def sortStable (xs : List Value) : Except Cause (List Value) :=
  if xs.length ≤ 1 then .ok xs
  else do
    let left ← sortStable (xs.take (xs.length / 2))
    let right ← sortStable (xs.drop (xs.length / 2))
    merge left right
termination_by xs.length
decreasing_by all_goals simp only [List.length_take, List.length_drop]; omega

/-- The item that replaces `best`, or a later one, whenever it stands to it as wanted. -/
def extremeFrom (wanted : Ordering) (best : Value) : List Value → Except Cause Value
  | [] => .ok best
  | x :: xs => do
    if (← order x best) = wanted then extremeFrom wanted x xs else extremeFrom wanted best xs

/-- The first least item (`wanted` is `.lt`) or the first greatest one (`.gt`) of a list. -/
def extreme (function : String) (wanted : Ordering) : List Value → Except Cause Value
  | [] => .error (.emptySequence function)
  | x :: xs => extremeFrom wanted x xs

end Templating.Value
