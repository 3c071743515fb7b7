import Templating.Json.Cursor

/-!
# Strings in JSON

A string ends at the next quote without a backslash. A character outside the basic plane is written
as itself, or as two escapes with the units of UTF-16, which have to be a pair.

* `hexUnit`: reads four hexadecimal digits.
* `escape`: reads an escape after its backslash.
* `quoted`: reads a string after its opening quote.
-/

namespace Templating.Json

open Parse Text

/-- The number of a hexadecimal digit. -/
def hexDigit? (c : Char) : Option Nat :=
  if '0' ≤ c ∧ c ≤ '9' then some (c.toNat - '0'.toNat)
  else if 'a' ≤ c ∧ c ≤ 'f' then some (c.toNat - 'a'.toNat + 10)
  else if 'A' ≤ c ∧ c ≤ 'F' then some (c.toNat - 'A'.toNat + 10)
  else none

/-- The number that hexadecimal digits stand for. -/
def hexNumber? (cs : List Char) : Option Nat :=
  cs.foldlM (fun n c => (hexDigit? c).map (16 * n + ·)) 0

/-- Reads four hexadecimal digits. Four bytes are read in any case. -/
def hexUnit : Parse Nat := do
  let c ← get
  if byteLength c.rest < 4 then failAt .eofInString (c.index + byteLength c.rest)
  else
    match hexNumber? (c.rest.take 4) with
    | some n =>
      skip 4
      return n
    | none => failAt .invalidEscape (c.index + 4)

/-- Reads a character that has to come next inside an escape. -/
def inEscape (c : Char) : Parse Unit := do
  let start := (← get).index
  match ← peek? with
  | none => fail .eofInString
  | some got => if got = c then skip 1 else failAt .unexpectedEndOfHexEscape (start + 1)

/-- Reads the digits of an escape, and a second escape if the first one is half a pair. -/
def unitEscape : Parse Char := do
  let unit ← hexUnit
  if 0xdc00 ≤ unit ∧ unit ≤ 0xdfff then fail .loneSurrogate
  else if unit < 0xd800 ∨ 0xdbff < unit then return Char.ofNat unit
  else
    inEscape '\\'
    inEscape 'u'
    let low ← hexUnit
    if 0xdc00 ≤ low ∧ low ≤ 0xdfff then
      return Char.ofNat (0x10000 + 0x400 * (unit - 0xd800) + (low - 0xdc00))
    else fail .loneSurrogate

/-- Reads an escape after its backslash. -/
def escape : Parse Char := do
  let start := (← get).index
  match ← next? with
  | none => fail .eofInString
  | some '"' => return '"'
  | some '\\' => return '\\'
  | some '/' => return '/'
  | some 'b' => return '\x08'
  | some 'f' => return '\x0c'
  | some 'n' => return '\n'
  | some 'r' => return '\r'
  | some 't' => return '\t'
  | some 'u' => unitEscape
  | some _ => failAt .invalidEscape (start + 1)

/-- The characters that stand for themselves. -/
def isPlain (c : Char) : Bool := c ≠ '"' && c ≠ '\\' && 0x20 ≤ c.toNat

/-- The characters of a string up to its closing quote. The bound has more characters than the
string has escapes. -/
def quotedWithin : List Char → Parse (List Char)
  | [] => fail .eofInString
  | _ :: bound => do
    let plain ← takeWhile isPlain
    match ← next? with
    | none => fail .eofInString
    | some '"' => return plain
    | some '\\' =>
      let c ← escape
      let more ← quotedWithin bound
      return plain ++ c :: more
    | some _ => fail .controlCharacter

/-- Reads a string after its opening quote. -/
def quoted : Parse String := do
  return String.ofList (← quotedWithin (← get).rest)

end Templating.Json
