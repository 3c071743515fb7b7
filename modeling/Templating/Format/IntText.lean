import Templating.Format.IntSpec

/-!
# Integers in a format

* `IntType.digits`: the digits of a number in the radix of a type.
* `radixText`: an integer with its sign and the prefix of its radix.
* `IntSpec.write?`: an integer as a specification asks.
-/

namespace Templating

/-- The radix of a type. -/
def IntType.radix : IntType → Nat
  | .binary => 2
  | .octal => 8
  | .hex | .upperHex => 16
  | .char | .decimal | .number => 10

/-- The digits of a number in the radix of a type. -/
def IntType.digits (type : IntType) (n : Nat) : List Char :=
  let digits := Nat.toDigits type.radix n
  if type = .upperHex then digits.map Char.toUpper else digits

/-- An integer with its sign and the prefix of its radix. -/
def radixText (type : IntType) (n : Int) : String :=
  (if n < 0 then "-" else "") ++ type.lead?.getD "" ++ String.ofList (type.digits n.natAbs)

namespace IntSpec

/-- The greatest code point that is written as a character. -/
def maxChar : Int := 0xffff

/-- The body of an integer: its digits, or the character with that code point. -/
def body? (spec : IntSpec) (n : Int) : Option (List Char) :=
  if spec.type = .char then
    if 0 ≤ n ∧ n ≤ maxChar ∧ n.toNat.isValidChar then some [Char.ofNat n.toNat] else none
  else some (spec.type.digits n.natAbs)

/-- What stands in front of the body: the sign and the prefix of the radix. -/
def lead (spec : IntSpec) (n : Int) : List Char :=
  let sign :=
    if n < 0 then ['-']
    else match spec.sign with
      | .plus => ['+']
      | .space => [' ']
      | .minus => []
  sign ++ if spec.alternate then (spec.type.lead?.getD "").toList else []

/-- The lead and the body in a field of the width of the specification. -/
def pad (spec : IntSpec) (lead body : List Char) : List Char :=
  let padding := spec.width - (lead.length + body.length)
  let fill (count : Nat) := List.replicate count spec.fill
  match spec.align with
  | .afterSign => lead ++ fill padding ++ body
  | .left => lead ++ body ++ fill padding
  | .right => fill padding ++ lead ++ body
  | .center => fill (padding / 2) ++ lead ++ body ++ fill (padding - padding / 2)

/-- An integer as a specification asks; there is none for a number that is no character. -/
def write? (spec : IntSpec) (n : Int) : Option String :=
  (spec.body? n).map fun body => String.ofList (spec.pad (spec.lead n) body)

end IntSpec

end Templating
