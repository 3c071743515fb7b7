import Templating.Text.Blank
import Templating.Value.Basic
import Templating.Wire.Error

/-!
# A reader of the wire format

The state of a reader is the rest of the text, how many bytes lie before it, and the strings and
objects that began so far. Whatever moves the reader is `Reader.skip`, so the state after an action
tells which stretch it consumed.

* `Loaded`: what an item can be.
* `Read`: an action that reads. What was consumed before an error stays consumed.
* `expect`, `closes`, `readField`, `readNumber`, `readText`, `readString`, `readUntil`: the pieces
  of items.
-/

namespace Templating.Wire

open Text

/-- What an item can be. -/
inductive Loaded where
  | value (value : Value)
  | node (node : Node)
  | location (location : Location)

instance : Inhabited Loaded := ⟨.value .none⟩

/-- The word for an item in messages. -/
def Loaded.kind : Loaded → String
  | value v => v.typeName
  | node n => n.tag
  | location _ => "location"

/-- A text that is being read. -/
structure Reader where
  rest : List Char
  /-- The bytes before the rest. -/
  offset : Nat
  /-- The strings and objects in order of their beginnings, and `none` for one that goes on. -/
  records : Array (Option Loaded)
  /-- The next free identity for a node or template. -/
  fresh : Nat

/-- An action that reads. -/
abbrev Read := EStateM Error Reader

namespace Reader

/-- A text of which nothing has been read. -/
def ofText (text : String) (fresh : Nat) : Reader := ⟨text.toList, 0, #[], fresh⟩

/-- The reader behind the next `n` characters. -/
def skip (r : Reader) (n : Nat) : Reader :=
  { r with rest := r.rest.drop n, offset := r.offset + byteLength (r.rest.take n) }

/-- The reader with one more record. -/
def record (r : Reader) (item : Option Loaded) : Reader :=
  { r with records := r.records.push item }

/-- The reader with the object completed that began at an index. -/
def complete (r : Reader) (index : Nat) (item : Loaded) : Reader :=
  { r with records := r.records.setIfInBounds index (some item) }

end Reader

/-- Fails at an offset. -/
def failAt {α : Type} (offset : Nat) (message : String) : Read α :=
  throw (.malformed offset message)

/-- The offset of the next character. -/
def here : Read Nat := return (← get).offset

/-- Fails at the next character. -/
def failHere {α : Type} (message : String) : Read α := do failAt (← here) message

/-- Moves behind the blanks that come next. -/
def skipBlanks : Read Unit := modify fun r => r.skip (r.rest.takeWhile isBlank).length

/-- The next character, if there is one. -/
def peek? : Read (Option Char) := return (← get).rest.head?

/-- The next character, which is consumed. -/
def next? : Read (Option Char) := modifyGet fun r => (r.rest.head?, r.skip 1)

/-- Whether a character comes next, after blanks; if so, it is consumed. -/
def closes (c : Char) : Read Bool := do
  skipBlanks
  if (← peek?) = some c then
    let _ ← next?
    return true
  else return false

/-- Consumes a character that has to come next, after blanks. -/
def expect (c : Char) : Read Unit := do
  skipBlanks
  let start ← here
  match ← next? with
  | some got =>
    if got = c then return ()
    else failAt start ("expected " ++ shownChar c ++ ", got " ++ shownChar got)
  | none => failHere ("expected " ++ shownChar c ++ ", got end of input")

/-- The characters up to the next bar, which is consumed too. -/
def readField : Read (List Char) := do
  let field := (← get).rest.takeWhile (· ≠ '|')
  if ((← get).rest.drop field.length).isEmpty then failHere "unterminated field"
  else
    modify (·.skip (field.length + 1))
    return field

/-- The number in the next field. -/
def readNumber {α : Type} (what : String) (parse? : List Char → Option α) : Read α := do
  let start ← here
  let field ← readField
  match parse? field with
  | some n => return n
  | none => failAt start ("invalid " ++ what ++ " " ++ shown (String.ofList field))

/-- An integer of 64 bits. -/
def word? (cs : List Char) : Option Int64 := (Decimal.readInt? cs).bind Number.ofInt?

/-- A count of 64 bits. -/
def count? (cs : List Char) : Option Nat :=
  (Decimal.readUnsigned? cs).bind fun n => if n < 0x10000000000000000 then some n else none

/-- The next characters, as many as asked for. -/
def readText (length : Nat) : Read String := do
  let text := (← get).rest.take length
  if text.length < length then failHere "string runs past end of input"
  else
    modify (·.skip length)
    return String.ofList text

/-- The number of characters of a string, and then as many characters. -/
def readString : Read String := do readText (← readNumber "string length" count?)

/-- As many characters as take up a number of bytes, if they end there. -/
def takeBytes? : Nat → List Char → Option (List Char)
  | 0, _ => some []
  | _ + 1, [] => none
  | n + 1, c :: cs =>
    if c.utf8Size ≤ n + 1 then (takeBytes? (n + 1 - c.utf8Size) cs).map (c :: ·) else none
termination_by structural _ cs => cs

/-- Items up to a closing character, at most one more than there are characters in the bound. -/
def itemsUntil {α : Type} (close : Char) (item : Read α) : List Char → Read (List α)
  | [] => do if ← closes close then return [] else return [← item]
  | _ :: bound => do
    if ← closes close then return []
    else
      let x ← item
      let xs ← itemsUntil close item bound
      return x :: xs

/-- Items up to a closing character. No item is empty, so the characters bound their number. -/
def readUntil {α : Type} (close : Char) (item : Read α) : Read (List α) := do
  itemsUntil close item (← get).rest

/-- A new identity for a node or template. -/
def freshId : Read Nat := modifyGet fun r => (r.fresh, { r with fresh := r.fresh + 1 })

end Templating.Wire
