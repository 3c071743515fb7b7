import Templating.Value.Order
import Templating.Value.Subscript

/-!
# Binary operators

`Value.binary` applies an operator to two values. The operators `and` and `or` give back one of
their operands; an expression evaluates their right operand only if it is needed.
-/

namespace Templating.Value

/-- A binary operator applied to two values. -/
def binary (op : BinaryOp) (a b : Value) : Except Cause Value :=
  match op with
  | .add => a.add b
  | .sub => a.sub b
  | .mul => a.mul b
  | .floorDiv => a.floorDiv b
  | .trueDiv => a.trueDiv b
  | .mod => a.modulo b
  | .eq => .ok (bool (a.equal b))
  | .ne => .ok (bool (!a.equal b))
  | .lt | .le | .gt | .ge => (order? op a b).map fun o => bool (satisfies op o)
  | .contains => (contains a b).map bool
  | .notContains => (contains a b).map fun found => bool (!found)
  | .and => .ok (if a.isTruthy then b else a)
  | .or => .ok (if a.isTruthy then a else b)
  | .getItem => a.getItem b

end Templating.Value
