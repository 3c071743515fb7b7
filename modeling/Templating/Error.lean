import Templating.Calendar.Date
import Templating.Format.IntSpec
import Templating.Json.Error
import Templating.Source.Location
import Templating.Syntax.Operator
import Templating.Wire.Error

/-!
# Evaluation errors

* `Cause`: what went wrong, with the data that the message shows.
* `Cause.message`, `Cause.category`: the wording of a cause and the class it belongs to.
* `EvalError`: a cause and the location of the node that raised it.

The signals `break` and `continue` travel like errors until a loop consumes them.
-/

namespace Templating

/-- The signals that leave the body of a loop. -/
inductive LoopSignal where
  | breakLoop | continueLoop
deriving DecidableEq

/-- The classes of errors that template authors know. -/
inductive Category where
  | typeError | valueError | argumentError | keyError | indexError | nameError | zeroDivisionError
  | overflowError | recursionError | unknownTypeError | versionError
  /-- No error, but a signal that leaves the body of a loop. -/
  | controlFlow
deriving DecidableEq

/-- The name of a class. -/
def Category.name : Category → String
  | typeError => "TypeError"
  | valueError => "ValueError"
  | argumentError => "ArgumentError"
  | keyError => "KeyError"
  | indexError => "IndexError"
  | nameError => "NameError"
  | zeroDivisionError => "ZeroDivisionError"
  | overflowError => "OverflowError"
  | recursionError => "RecursionError"
  | unknownTypeError => "UnknownTypeError"
  | versionError => "VersionError"
  | controlFlow => "ControlFlow"

/-- What is called. -/
inductive CallKind where
  | function | method
deriving DecidableEq

/-- The word for what is called. -/
def CallKind.word : CallKind → String
  | function => "function"
  | method => "method"

/-- What went wrong. Types are given by their names. -/
inductive Cause where
  | binaryUnsupported (left : String) (op : BinaryOp) (right : String)
  | unaryUnsupported (op : UnaryOp) (operand : String)
  | unorderable (left : String) (op : BinaryOp) (right : String)
  | notIterable (typeName : String)
  | notContainer (typeName : String)
  | notSubscriptable (typeName : String)
  | noAttribute (typeName attr : String)
  | negativeRepetition
  | splatNotDict (typeName : String)
  /-- `int` was given a base and something that is no string. -/
  | baseWithoutString
  | notConvertible (function typeName : String)
  | noLength (typeName : String)
  | notOneCharacter (length : Nat)
  | itemNotString (index : Nat) (typeName : String)
  | divisionByZero
  | moduloByZero
  | integerOverflow (operation : String)
  | repetitionTooLarge (length limit : Nat)
  | undefinedVariable (name : String)
  | unknownFunction (name : String)
  | unknownMethod (typeName method : String)
  | indexOutOfRange (index : Int64)
  /-- The key is given as it is written. -/
  | keyNotFound (key : String)
  | wrongArgCount (call : CallKind) (name : String) (min : Nat) (max : Option Nat) (given : Nat)
  | wrongArgType (name expected got : String)
  | keywordsUnsupported (method : String)
  | duplicateArgument (method name : String)
  /-- A tuple met the wrong number of items; `more` says that the items go on. -/
  | unpackMismatch (targets items : Nat) (more : Bool)
  | breakOutsideLoop
  | continueOutsideLoop
  | recursionLimit (limit : Nat)
  | wire (error : Wire.Error)
  | calendar (error : Calendar.Error)
  | formatSpec (error : IntSpec.Error)
  | json (error : Json.Error)
  | charOutOfBounds
  | nanToInt
  | invalidBase
  | invalidInt (base : Int64) (text : String)
  | invalidFloat (text : String)
  | invalidCodePoint
  /-- The text is given as it is written. -/
  | malformedEscape (text : String)
  | emptyRange
  | emptySequence (function : String)
  | zeroStep (function : String)
  | emptySeparator
  | alreadyExecuting
  /-- A failure reported by whoever supplies the items of an iterator. -/
  | supplied (message : String)
  | signal (signal : LoopSignal)
deriving DecidableEq

namespace Cause

/-- The noun for a number of arguments. -/
def arguments (n : Nat) : String := if n = 1 then "argument" else "arguments"

/-- How many arguments a call takes. -/
def arityText (min : Nat) : Option Nat → String
  | some max => if max = min then s!"{min} {arguments min}" else s!"{min}-{max} arguments"
  | none => s!"at least {min} {arguments min}"

/-- The wording of a cause. -/
def message : Cause → String
  | binaryUnsupported left op right => s!"{left} {op.symbol} {right} not supported"
  | unaryUnsupported op operand => s!"{op.lead}{operand} not supported"
  | unorderable left op right => s!"unorderable types: {left}() {op.symbol} {right}()"
  | notIterable typeName => s!"'{typeName}' object is not iterable"
  | notContainer typeName => s!"argument of type '{typeName}' is not iterable"
  | notSubscriptable typeName => s!"getitem() needs a sequence or dict, not {typeName}"
  | noAttribute typeName attr => s!"'{typeName}' object has no attribute '{attr}'"
  | negativeRepetition => "mul() repetition counter must be positive"
  | splatNotDict typeName => s!"** requires a dict, not {typeName}"
  | baseWithoutString => "int() can't convert non-string with explicit base"
  | notConvertible function typeName =>
    s!"{function}() argument must be a string or a number, not '{typeName}'"
  | noLength typeName => s!"object of type '{typeName}' has no len()"
  | notOneCharacter length =>
    s!"ord() expected a character, but string of length {length} found"
  | itemNotString index typeName =>
    s!"sequence item {index}: expected str instance, {typeName} found"
  | divisionByZero => "division by zero"
  | moduloByZero => "integer modulo by zero"
  | integerOverflow operation => s!"integer overflow in {operation}"
  | repetitionTooLarge length limit =>
    s!"repetition result too large (length {length}, limit {limit})"
  | undefinedVariable name => s!"name '{name}' is not defined"
  | unknownFunction name => s!"function '{name}' unknown"
  | unknownMethod typeName method => s!"method '{method}' unknown for type '{typeName}'"
  | indexOutOfRange index => s!"index {index.toInt} out of range"
  | keyNotFound key => s!"key {key} not found"
  | wrongArgCount call name min max given =>
    s!"{call.word} {name}() requires {arityText min max}, {given} given"
  | wrongArgType name expected got => s!"{name}() requires {expected}, {got} given"
  | keywordsUnsupported method => s!"method {method}() doesn't support keyword arguments"
  | duplicateArgument method name => s!"duplicate keyword argument {name} in {method}()"
  | unpackMismatch targets items more =>
    let mark := if more then ">" else ""
    s!"mismatched variable unpacking: {targets} varnames, {mark}{items} items"
  | breakOutsideLoop => "break outside of loop"
  | continueOutsideLoop => "continue outside of loop"
  | recursionLimit limit => s!"maximum render depth exceeded (limit: {limit})"
  | wire error => error.message
  | calendar error => error.message
  | formatSpec error => error.message
  | json error => "invalid JSON: " ++ error.message
  | charOutOfBounds => "value out of bounds for c format"
  | nanToInt => "cannot convert float NaN to integer"
  | invalidBase => "int() base must be >= 2 and <= 36, or 0"
  | invalidInt base text => s!"invalid literal for int() with base {base.toInt}: '{text}'"
  | invalidFloat text => s!"could not convert string to float: '{text}'"
  | invalidCodePoint => "chr() arg not in range(0x110000)"
  | malformedEscape text => s!"malformed URL escape in {text}"
  | emptyRange => "empty range for randrange()"
  | emptySequence function => s!"{function}() arg is an empty sequence"
  | zeroStep function => s!"{function}() requires a step argument != 0"
  | emptySeparator => "empty separator"
  | alreadyExecuting => "iterator already executing"
  | supplied message => message
  | signal _ => "loop control signal"

/-- The class of an error of the wire format. -/
def wireCategory : Wire.Error → Category
  | .unknownType _ => .unknownTypeError
  | .version .. => .versionError
  | .malformed .. | .notSerializable _ => .valueError

/-- The class that a cause belongs to. -/
def category : Cause → Category
  | binaryUnsupported .. | unaryUnsupported .. | unorderable .. | notIterable _ | notContainer _
  | notSubscriptable _ | noAttribute .. | splatNotDict _ | baseWithoutString | notConvertible ..
  | noLength _ | notOneCharacter _ | itemNotString .. | wrongArgType .. => .typeError
  | negativeRepetition | unpackMismatch .. | breakOutsideLoop | continueOutsideLoop | calendar _
  | formatSpec _ | json _ | charOutOfBounds | nanToInt | invalidBase | invalidInt ..
  | invalidFloat _ | invalidCodePoint | malformedEscape _ | emptyRange | emptySequence _
  | zeroStep _ | emptySeparator | alreadyExecuting | supplied _ => .valueError
  | wrongArgCount .. | keywordsUnsupported _ | duplicateArgument .. => .argumentError
  | keyNotFound _ => .keyError
  | indexOutOfRange _ => .indexError
  | undefinedVariable _ | unknownFunction _ | unknownMethod .. => .nameError
  | divisionByZero | moduloByZero => .zeroDivisionError
  | integerOverflow _ | repetitionTooLarge .. => .overflowError
  | recursionLimit _ => .recursionError
  | wire error => wireCategory error
  | signal _ => .controlFlow

/-- The signal that a cause stands for. -/
def signal? : Cause → Option LoopSignal
  | signal s => some s
  | _ => none

end Cause

/-- A cause and the location of the innermost node that was evaluated when it arose. -/
structure EvalError where
  cause : Cause
  location : Option Location
deriving DecidableEq

namespace EvalError

/-- An error that no node has located yet. -/
def ofCause (cause : Cause) : EvalError := ⟨cause, none⟩

/-- The error located at a node, unless it is located already. -/
def locate (e : EvalError) (location : Location) : EvalError :=
  { e with location := e.location <|> some location }

/-- The wording of an error. -/
def message (e : EvalError) : String := e.cause.message

/-- The class of an error. -/
def category (e : EvalError) : Category := e.cause.category

/-- The class, the wording and the location of an error on one line. -/
def describe (e : EvalError) : String :=
  let place := match e.location with
    | some location => " (" ++ location.describe ++ ")"
    | none => ""
  e.category.name ++ ": " ++ e.message ++ place

/-- A signal that has left every loop as the error it then is, at the same location. -/
def settle (e : EvalError) : EvalError :=
  match e.cause with
  | .signal .breakLoop => ⟨.breakOutsideLoop, e.location⟩
  | .signal .continueLoop => ⟨.continueOutsideLoop, e.location⟩
  | _ => e

end EvalError

end Templating
