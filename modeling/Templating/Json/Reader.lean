import Templating.Json.Numeral
import Templating.Json.Quoted
import Templating.Text.Blank

/-!
# Reading JSON

* `read`: a whole text as a value, or what is wrong with it. Lists and objects are nested at most
  `maxNesting` deep.
-/

namespace Templating.Json

open Parse

/-- How deeply lists and objects may be nested. -/
def maxNesting : Nat := 127

/-- Whether another item of a list follows; the comma before it is consumed. -/
def hasItem (first : Bool) : Parse Bool := do
  match ← peekToken? with
  | none => failNext .eofInList
  | some c =>
    if c = ']' then return false
    else if first then return true
    else if c = ',' then
      skip 1
      match ← peekToken? with
      | none => failNext .eofInValue
      | some ']' => failNext .trailingComma
      | some _ => return true
    else failNext .expectedListCommaOrEnd

/-- Whether another key of an object follows; the comma before it is consumed. -/
def hasKey (first : Bool) : Parse Bool := do
  match ← peekToken? with
  | none => failNext .eofInObject
  | some c =>
    if c = '\x7d' then return false
    else if first then
      if c = '"' then return true else failNext .keyMustBeString
    else if c = ',' then
      skip 1
      match ← peekToken? with
      | none => failNext .eofInValue
      | some '"' => return true
      | some '\x7d' => failNext .trailingComma
      | some _ => failNext .keyMustBeString
    else failNext .expectedObjectCommaOrEnd

/-- Reads things as long as another one follows, and the bracket after them. The bound has more
characters than there are things. -/
def manyWithin {α : Type} (more : Bool → Parse Bool) (item : Parse α) :
    List Char → Bool → Parse (List α)
  | [], _ => fail .eofInValue
  | _ :: bound, first => do
    if ← more first then
      let x ← item
      let xs ← manyWithin more item bound false
      return x :: xs
    else
      skip 1
      return []

/-- Reads things between brackets, the opening one included. -/
def many {α : Type} (more : Bool → Parse Bool) (item : Parse α) : Parse (List α) := do
  let bound := (← get).rest
  skip 1
  manyWithin more item bound true

/-- Reads the colon after a key. -/
def colon : Parse Unit := do
  match ← peekToken? with
  | none => failNext .eofInObject
  | some ':' => skip 1
  | some _ => failNext .expectedColon

/-- Reads a key and its value. -/
def entry (value : Parse Value) : Parse (String × Value) := do
  skip 1
  let key ← quoted
  colon
  return (key, ← value)

/-- Reads a value, given the action for the values inside it if any may be nested. -/
def valueWith (nested? : Option (Parse Value)) : Parse Value := do
  match ← peekToken? with
  | none => failNext .eofInValue
  | some c =>
    match c with
    | 'n' => do
      skip 1
      word ['u', 'l', 'l']
      return .none
    | 't' => do
      skip 1
      word ['r', 'u', 'e']
      return .bool true
    | 'f' => do
      skip 1
      word ['a', 'l', 's', 'e']
      return .bool false
    | '-' => do
      skip 1
      numeral true
    | '"' => do
      skip 1
      return .str (← quoted)
    | '[' =>
      match nested? with
      | none => failNext .recursionLimit
      | some value => return .list (← many hasItem value)
    | '\x7b' =>
      match nested? with
      | none => failNext .recursionLimit
      | some value => return .dict (Bindings.ofList (← many hasKey (entry value)))
    | c => if c.isDigit then numeral false else failNext .expectedValue

/-- Reads a value with lists and objects nested at most `depth` deep. -/
def valueWithin : Nat → Parse Value
  | 0 => valueWith none
  | depth + 1 => valueWith (some (valueWithin depth))

/-- Reads a value that nothing but gaps follows. -/
def whole : Parse Value := do
  let value ← valueWithin maxNesting
  match ← peekToken? with
  | none => return value
  | some _ => failNext .trailingCharacters

/-- The value that a JSON text stands for. Blanks at its ends do not count. -/
def read (text : String) : Except Error Value :=
  let cs := Text.trim text.toList
  match whole.run ⟨cs, 0⟩ with
  | .ok value _ => .ok value
  | .error f _ => .error (f.toError cs)

end Templating.Json
