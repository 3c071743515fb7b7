import Templating.Error
import Templating.Value.Basic

/-!
# Arguments of builtins

* `Arity`: how many arguments a builtin takes.
* `intArg`, `floatArg`, `strArg`: an argument of a type, or the refusal of another one.
* `optional`: an argument that may be missing or `None`.
-/

namespace Templating

/-- A range of numbers of arguments. Without `max` there is no greatest number. -/
structure Arity where
  min : Nat
  max : Option Nat

namespace Arity

/-- A single number of arguments. -/
def exactly (n : Nat) : Arity := ⟨n, some n⟩

/-- From `min` to `max` arguments. -/
def between (min max : Nat) : Arity := ⟨min, some max⟩

/-- At least `min` arguments. -/
def atLeast (min : Nat) : Arity := ⟨min, none⟩

/-- Whether a number of arguments is in the range. -/
def admits (a : Arity) (n : Nat) : Bool := a.min ≤ n && a.max.all (n ≤ ·)

/-- Checks the number of arguments of a call. -/
def check (a : Arity) (call : CallKind) (name : String) (given : Nat) : Except Cause Unit :=
  if a.admits given then .ok () else .error (.wrongArgCount call name a.min a.max given)

theorem check_eq_ok_iff {a : Arity} {call : CallKind} {name : String} {n : Nat} :
    a.check call name n = .ok () ↔ a.admits n = true := by
  unfold check; split <;> simp_all

end Arity

/-- An argument that is an integer or a truth value. -/
def intArg (name : String) (value : Value) : Except Cause Int64 :=
  match value.asInt? with
  | some n => .ok n
  | none => .error (.wrongArgType name "an int" value.typeName)

/-- An argument that is a number. -/
def floatArg (name : String) (value : Value) : Except Cause Float :=
  match value.asFloat? with
  | some x => .ok x
  | none => .error (.wrongArgType name "a number" value.typeName)

/-- An argument that is a string. -/
def strArg (name : String) (value : Value) : Except Cause String :=
  match value.asStr? with
  | some s => .ok s
  | none => .error (.wrongArgType name "a string" value.typeName)

/-- The argument at an index, unless it is missing or `None`. -/
def optional (args : List Value) (index : Nat) : Option Value := args[index]?.filter (!·.isNone)

/-- The argument at an index if there is one, read by a function. -/
def optionalAs {α : Type} (read : Value → Except Cause α) (args : List Value) (index : Nat) :
    Except Cause (Option α) :=
  match optional args index with
  | some value => (read value).map some
  | none => .ok none

/-- The integer at an index, or a default. -/
def intOr (name : String) (args : List Value) (index : Nat) (default : Int64) :
    Except Cause Int64 :=
  (optionalAs (intArg name) args index).map (·.getD default)

/-- The integer at an index of some integers, or 0. -/
def intAt (ns : List Int64) (index : Nat) : Int := (ns[index]?.map Int64.toInt).getD 0

end Templating
