import Templating.Number.Word
import Templating.Text.Blank

/-!
# Integer literals in a base

A literal is an optional sign, a prefix that may name the radix, and digits with single underscores
between them. Blanks around it and the case of letters do not count.

* `readLiteral`: a literal as a word.
-/

namespace Templating.Number

/-- Why a text is no integer of 64 bits. -/
inductive LiteralFault where
  | malformed
  | tooLarge
deriving DecidableEq

/-- The number of a digit, where letters go on after 9. -/
def digitValue (c : Char) : Option Nat :=
  if c.isDigit then some (c.toNat - '0'.toNat)
  else if 'a' ≤ c ∧ c ≤ 'z' then some (c.toNat - 'a'.toNat + 10)
  else none

/-- The number of a digit of a radix. -/
def digit? (radix : Nat) (c : Char) : Option Nat := (digitValue c).filter (· < radix)

/-- Magnitudes stay below this. -/
def magnitudeLimit : Nat := 0x10000000000000000

/-- The number that digits stand for, from a number before them on. It has to fit 64 bits without a
sign; of several problems the first one counts. -/
def readDigits (radix : Nat) : Nat → List Char → Except LiteralFault Nat
  | n, [] => .ok n
  | n, c :: cs =>
    match digit? radix c with
    | none => .error .malformed
    | some d =>
      let next := radix * n + d
      if next < magnitudeLimit then readDigits radix next cs else .error .tooLarge

/-- The radix that a letter after a zero stands for. -/
def radixOfLetter? : Char → Option Nat
  | 'x' => some 16
  | 'o' => some 8
  | 'b' => some 2
  | _ => none

/-- The radix of a literal in a base, the text after the prefix, and whether there is a prefix. Base
0 leaves the choice to the prefix and is 10 without one. -/
def takeRadix (base : Nat) (cs : List Char) : Nat × List Char × Bool :=
  let plain := if base = 0 then 10 else base
  match cs with
  | '0' :: letter :: rest =>
    match radixOfLetter? letter with
    | some radix => if base = 0 ∨ base = radix then (radix, rest, true) else (plain, cs, false)
    | none => (plain, cs, false)
  | _ => (plain, cs, false)

/-- Whether each underscore stands alone between two other characters. -/
def isGrouped : List Char → Bool
  | [] => false
  | ['_'] => false
  | [_] => true
  | '_' :: _ => false
  | _ :: '_' :: cs => isGrouped cs
  | _ :: cs => isGrouped cs

/-- Digits without a prefix in base 0 have no zero in front, unless all of them are zero. -/
def hasIdleZero (digits : List Char) : Bool :=
  digits.head? = some '0' && digits.any (· ≠ '0')

/-- An optional underscore after the prefix of a literal is dropped. -/
def dropJoint (prefixed : Bool) : List Char → List Char
  | '_' :: cs => if prefixed then cs else '_' :: cs
  | cs => cs

/-- The number of some digits with underscores, where an idle zero may be refused. -/
def readGrouped (radix : Nat) (strict : Bool) (cs : List Char) : Except LiteralFault Nat :=
  let digits := cs.filter (· ≠ '_')
  if !isGrouped cs then .error .malformed
  else if strict && hasIdleZero digits then .error .malformed
  else readDigits radix 0 digits

/-- The size of a literal after its sign. -/
def readMagnitude (base : Nat) (cs : List Char) : Except LiteralFault Nat :=
  let (radix, body, prefixed) := takeRadix base cs
  readGrouped radix (base = 0 && !prefixed) (dropJoint prefixed body)

/-- A size with a sign, as a word. -/
def signedWord (negative : Bool) (n : Nat) : Except LiteralFault Int64 :=
  match ofInt? (if negative then -(n : Int) else n) with
  | some w => .ok w
  | none => .error .tooLarge

/-- The integer that a sign and a size stand for. -/
def readNumeral (base : Nat) (cs : List Char) : Except LiteralFault Int64 := do
  let (negative, body) := match cs with
    | '-' :: rest => (true, rest)
    | '+' :: rest => (false, rest)
    | _ => (false, cs)
  signedWord negative (← readMagnitude base body)

/-- The integer that a literal in a base stands for. The base is 0 or from 2 to 36. -/
def readLiteral (base : Nat) (text : String) : Except LiteralFault Int64 :=
  readNumeral base ((Text.trim text.toList).map Char.toLower)

end Templating.Number
