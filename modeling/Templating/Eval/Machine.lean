import Templating.Error
import Templating.Eval.Environment
import Templating.Value.Operators

/-!
# The state of an evaluation

* `Cursor`: the position of an iterator. Iterators that wrap others refer to them by handle.
* `Machine`: the store of cursors, the frame of the template that runs, and its output.
* `Eval`: an action on a machine. What happened before an error stays.
* `inFrame`: runs an action in a frame of its own and comes back whatever happens.

An evaluation ends with a value, with an error, or because its budget is exhausted. The last is no
outcome of the template: `attempt` catches errors only.
-/

namespace Templating

/-- Which markers a flagged iterator puts in front of its items. -/
structure Markers where
  index : Bool
  first : Bool
  last : Bool

/-- What is known about the item after the current one. -/
inductive Lookahead where
  | unknown
  | pending (value : Value)
  | ended

/-- The variables of a template that runs, and how deeply its render call is nested. -/
structure Frame where
  env : Environment
  depth : Nat
  maxDepth : Nat

/-- A generator expression. It has a frame of its own, the items come from `source`. -/
structure Generator where
  frame : Frame
  source : Handle
  target : Target
  condition : Option Node
  item : Node

/-- The position of an iterator. -/
inductive Cursor where
  /-- The items that are left of a sequence. -/
  | items (rest : List Value)
  /-- The next number, the step, and how many numbers are left. -/
  | range (next step : Int64) (remaining : Nat)
  | enumerate (inner : Handle) (index : Int64)
  /-- Items with markers; `first` says that no item has been taken. -/
  | flagged (inner : Handle) (markers : Markers) (index : Int64) (first : Bool) (next : Lookahead)
  | zip (inners : List Handle)
  | generator (g : Generator)
  /-- Items from outside, and a failure that is reported once after them. -/
  | supplied (rest : List Value) (failure : Option String)
  /-- The items of another iterator, or of this one. -/
  | relay (inner : Handle)

/-- A cursor in the store, and whether it is being advanced. -/
structure Cell where
  cursor : Cursor
  busy : Bool

/-- The state of an evaluation. -/
structure Machine where
  store : Array Cell
  /-- The next free identity for a template or node. -/
  fresh : Nat
  random : StdGen
  clock : Date
  frame : Frame
  output : Array String

/-- Why an evaluation ends without a value. -/
inductive Abort where
  | failed (error : EvalError)
  | exhausted

/-- An action of an evaluation. -/
abbrev Eval := EStateM Abort Machine

/-- The greatest nesting of render calls, unless it is set otherwise. -/
def defaultMaxDepth : Nat := 256

/-- The frame of an outermost template with some variables. -/
def Frame.ofVars (vars : Scope) (maxDepth : Nat) : Frame := ⟨.ofVars vars, 0, maxDepth⟩

/-- A machine without iterators and output. -/
def Machine.start (fresh seed : Nat) (clock : Date) (frame : Frame) : Machine :=
  ⟨#[], fresh, mkStdGen seed, clock, frame, #[]⟩

namespace Eval

variable {α : Type}

/-- Fails for a cause. -/
def raise (cause : Cause) : Eval α := throw (.failed (.ofCause cause))

/-- The result of a computation that may fail. -/
def lift : Except Cause α → Eval α
  | .ok a => return a
  | .error cause => raise cause

/-- The result of a calculation of the wire format that may fail. -/
def liftWire : Except Wire.Error α → Eval α
  | .ok a => return a
  | .error e => raise (.wire e)

/-- Runs an action and returns its error as a result. -/
def attempt (x : Eval α) : Eval (Except EvalError α) := fun m =>
  match x m with
  | .ok a m => .ok (.ok a) m
  | .error (.failed e) m => .ok (.error e) m
  | .error .exhausted m => .error .exhausted m

/-- The result of an action that was attempted. -/
def settle : Except EvalError α → Eval α
  | .ok a => return a
  | .error e => throw (.failed e)

/-- Runs an action and changes its error. -/
def mapError (f : EvalError → EvalError) (x : Eval α) : Eval α := fun m =>
  match x m with
  | .ok a m => .ok a m
  | .error (.failed e) m => .error (.failed (f e)) m
  | .error .exhausted m => .error .exhausted m

/-- Runs an action and locates its error, unless it is located already. -/
def locating (location : Location) (x : Eval α) : Eval α := mapError (·.locate location) x

/-- A new iterator. -/
def allocate (cursor : Cursor) : Eval Handle :=
  modifyGet fun m => (m.store.size, { m with store := m.store.push ⟨cursor, false⟩ })

/-- Puts a cell into the store. -/
def setCell (handle : Handle) (cell : Cell) : Eval Unit :=
  modify fun m => { m with store := m.store.setIfInBounds handle cell }

/-- The date and time at which the evaluation began. -/
def clock : Eval Date := return (← get).clock

/-- The variables. -/
def env : Eval Environment := return (← get).frame.env

/-- Changes the variables. -/
def modifyEnv (f : Environment → Environment) : Eval Unit :=
  modify fun m => { m with frame := { m.frame with env := f m.frame.env } }

/-- Binds a variable. -/
def bindVar (name : String) (value : Value) : Eval Unit := modifyEnv (·.bind name value)

/-- The value of a variable. -/
def lookupVar (name : String) : Eval Value := do
  match (← env).lookup? name with
  | some value => return value
  | none => raise (.undefinedVariable name)

/-- Removes a variable. -/
def removeVar (name : String) : Eval Unit := do
  match (← env).remove? name with
  | some (_, env) => modifyEnv fun _ => env
  | none => raise (.undefinedVariable name)

/-- Puts out a piece of text. -/
def emit (text : String) : Eval Unit := modify fun m => { m with output := m.output.push text }

/-- Runs an action in a scope of its own. -/
def inScope (x : Eval α) : Eval α := do
  modifyEnv Environment.push
  let result ← attempt x
  modifyEnv Environment.pop
  settle result

/-- Runs an action with an empty output and returns what it put out. -/
def capture (x : Eval α) : Eval (Except EvalError α × Array String) := do
  let saved ← modifyGet fun m => (m.output, { m with output := #[] })
  let result ← attempt x
  let output ← modifyGet fun m => (m.output, { m with output := saved })
  return (result, output)

/-- Runs an action in another frame and with an empty output. It returns the frame as the action
left it, and what was put out. -/
def inFrame (frame : Frame) (x : Eval α) : Eval (Except EvalError α × Frame × Array String) := do
  let saved ← modifyGet fun m => (m.frame, { m with frame })
  let (result, output) ← capture x
  let frame ← modifyGet fun m => (m.frame, { m with frame := saved })
  return (result, frame, output)

end Eval

end Templating
