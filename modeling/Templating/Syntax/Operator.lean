/-!
# Operators

The binary, prefix and augmented assignment operators of the language, with the symbols they are
written with, the tags they are serialized under, and how tightly they bind.
-/

namespace Templating

/-- The operators with two operands, subscription among them. -/
inductive BinaryOp where
  | add | sub | mul | floorDiv | trueDiv | mod
  | eq | ne | lt | le | gt | ge
  | contains | notContains
  | and | or
  | getItem
deriving DecidableEq

namespace BinaryOp

/-- All binary operators. -/
def all : List BinaryOp :=
  [add, sub, mul, floorDiv, trueDiv, mod, eq, ne, lt, le, gt, ge, contains, notContains, and, or,
    getItem]

/-- The operator as it is written; subscription has no symbol between its operands. -/
def symbol : BinaryOp → String
  | add => "+"
  | sub => "-"
  | mul => "*"
  | floorDiv => "//"
  | trueDiv => "/"
  | mod => "%"
  | eq => "=="
  | ne => "!="
  | lt => "<"
  | le => "<="
  | gt => ">"
  | ge => ">="
  | contains => "in"
  | notContains => "not in"
  | and => "and"
  | or => "or"
  | getItem => "[]"

/-- How tightly an operator binds. -/
def precedence : BinaryOp → Nat
  | or => 0
  | and => 1
  | contains | notContains => 3
  | eq | ne | lt | le | gt | ge => 4
  | add | sub => 5
  | mul | floorDiv | trueDiv | mod => 6
  | getItem => 9

/-- Whether a right operand with the same operator is written without parentheses. -/
def isAssociative : BinaryOp → Bool
  | add | mul | and | or => true
  | _ => false

/-- Whether the left operand alone may decide the result. -/
def isShortCircuit : BinaryOp → Bool
  | and | or => true
  | _ => false

/-- The tag of the operator in serialized templates. -/
def tag : BinaryOp → String
  | add => "add"
  | sub => "sub"
  | mul => "mul"
  | floorDiv => "floordiv"
  | trueDiv => "truediv"
  | mod => "mod"
  | eq => "eq"
  | ne => "ne"
  | lt => "lt"
  | le => "le"
  | gt => "gt"
  | ge => "ge"
  | contains => "contains"
  | notContains => "notcontains"
  | and => "and"
  | or => "or"
  | getItem => "getitem"

/-- The operator with a tag. -/
def ofTag? (tag : String) : Option BinaryOp := all.find? (·.tag = tag)

theorem mem_all (op : BinaryOp) : op ∈ all := by cases op <;> decide

end BinaryOp

/-- The operators in front of one operand. -/
inductive UnaryOp where
  | neg | not
deriving DecidableEq

namespace UnaryOp

/-- All prefix operators. -/
def all : List UnaryOp := [neg, not]

/-- The operator as it is written, with the blank that separates a word from its operand. -/
def lead : UnaryOp → String
  | neg => "-"
  | not => "not "

/-- How tightly an operator binds. -/
def precedence : UnaryOp → Nat
  | neg => 7
  | not => 2

/-- The tag of the operator in serialized templates. -/
def tag : UnaryOp → String
  | neg => "neg"
  | not => "not"

/-- The operator with a tag. -/
def ofTag? (tag : String) : Option UnaryOp := all.find? (·.tag = tag)

theorem mem_all (op : UnaryOp) : op ∈ all := by cases op <;> decide

end UnaryOp

/-- The operators that change a variable in place. -/
inductive AugOp where
  | add | sub | mul | trueDiv | floorDiv | mod
deriving DecidableEq

namespace AugOp

/-- All operators that change a variable. -/
def all : List AugOp := [add, sub, mul, trueDiv, floorDiv, mod]

/-- The operator that computes the new value. -/
def binary : AugOp → BinaryOp
  | add => .add
  | sub => .sub
  | mul => .mul
  | trueDiv => .trueDiv
  | floorDiv => .floorDiv
  | mod => .mod

/-- The operator as it is written. -/
def symbol (op : AugOp) : String := op.binary.symbol ++ "="

/-- The tag of the operator in serialized templates. -/
def tag (op : AugOp) : String := op.binary.tag ++ "var"

/-- The operator with a tag. -/
def ofTag? (tag : String) : Option AugOp := all.find? (·.tag = tag)

theorem mem_all (op : AugOp) : op ∈ all := by cases op <;> decide

end AugOp

end Templating
