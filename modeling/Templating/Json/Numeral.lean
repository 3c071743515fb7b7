import Templating.Json.Cursor
import Templating.Number.FloatText
import Templating.Value.Basic

/-!
# Numbers in JSON

An integer that fits 64 bits is exact. Any other number is a float that is computed from the leading
digits that fit 64 bits and a power of ten; digits beyond them only count for the power. The
multiplication rounds once more, so the float is near the number but not always nearest.

* `absorb`: the leading digits that fit.
* `scaled?`: digits and a power of ten as a float.
* `numeral`: reads a number.
-/

namespace Templating.Json

open Parse

/-- Adds digits to a number as long as it stays below `limit`, and returns the digits left. -/
def absorb (limit : Nat) (n : Nat) : List Char → Nat × List Char
  | [] => (n, [])
  | d :: ds =>
    let next := 10 * n + Decimal.ofDigits [d]
    if next < limit then absorb limit next ds else (n, d :: ds)

/-- The float nearest to a power of ten. -/
def powerOfTen (n : Nat) : Float := Binary64.ofDecimal false 1 n

/-- A number times a power of ten; `none` if it is too large. -/
def scaled? (f : Float) (e : Int) : Option Float :=
  if 0 ≤ e then
    if e ≤ 308 then
      let product := f * powerOfTen e.toNat
      if product.isInf then none else some product
    else if f == 0 then some f
    else none
  else if -308 ≤ e then some (f / powerOfTen (-e).toNat)
  else if f == 0 then some f
  else scaled? (f / powerOfTen 308) (e + 308)
termination_by (-e).toNat

/-- A float from its leading digits and a power of ten. -/
def floatOf (negative : Bool) (significand : Nat) (e : Int) : Parse Value := do
  match scaled? (Binary64.ofInt significand) e with
  | some f => return .float (Binary64.withSign negative f)
  | none => fail .numberOutOfRange

/-- The value of an integer of at most 64 bits. Minus zero is a float. -/
def integerOf (negative : Bool) (n : Nat) : Value :=
  let signed : Int := if negative then -(n : Int) else n
  match Number.ofInt? signed with
  | some w => if negative ∧ n = 0 then .float (Binary64.withSign true 0) else .int w
  | none => .float (Binary64.withSign negative (Binary64.ofInt n))

/-- The digits of a number are added up as long as the sum stays below this. -/
def significandLimit : Nat := 0x10000000000000000

/-- The exponents that are read stay below this. -/
def exponentLimit : Nat := 0x80000000

/-- Reads an exponent and finishes the number. -/
def exponent (negative : Bool) (significand : Nat) (e : Int) : Parse Value := do
  skip 1
  let down ← match ← peek? with
    | some '+' => do
      skip 1
      pure false
    | some '-' => do
      skip 1
      pure true
    | _ => pure false
  let start := (← get).index
  match ← peek? with
  | none => fail .eofInValue
  | some c =>
    if !c.isDigit then failAt .invalidNumber (start + 1)
    else
      let digits ← takeWhile Char.isDigit
      match absorb exponentLimit 0 digits with
      | (n, []) => floatOf negative significand (if down then e - n else e + n)
      | (_, _ :: ignored) =>
        if significand ≠ 0 ∧ !down then
          failAt .numberOutOfRange (start + (digits.length - ignored.length))
        else return .float (Binary64.withSign negative 0)

/-- Reads what may follow the digits of a float. -/
def floatTail (negative : Bool) (significand : Nat) (e : Int) : Parse Value := do
  match ← peek? with
  | some 'e' | some 'E' => exponent negative significand e
  | _ => floatOf negative significand e

/-- Reads a fraction and finishes the number. -/
def fraction (negative : Bool) (significand : Nat) (e : Int) : Parse Value := do
  skip 1
  let digits ← takeWhile Char.isDigit
  if digits.isEmpty then
    failNext (if (← peek?).isSome then .invalidNumber else .eofInValue)
  else
    let (significand, ignored) := absorb significandLimit significand digits
    floatTail negative significand (e - (digits.length - ignored.length : Nat))

/-- Reads the digits before the point; a zero stands alone. -/
def wholeDigits : Parse (List Char) := do
  let start := (← get).index
  match ← peek? with
  | none => fail .eofInValue
  | some '0' =>
    skip 1
    if (← peek?).any Char.isDigit then failNext .invalidNumber else return ['0']
  | some c => if c.isDigit then takeWhile Char.isDigit else failAt .invalidNumber (start + 1)

/-- Reads a number after its sign. -/
def numeral (negative : Bool) : Parse Value := do
  let digits ← wholeDigits
  let (significand, ignored) := absorb significandLimit 0 digits
  match ← peek? with
  | some '.' => fraction negative significand ignored.length
  | some 'e' | some 'E' => exponent negative significand ignored.length
  | _ =>
    if ignored.isEmpty then return integerOf negative significand
    else floatOf negative significand ignored.length

end Templating.Json
