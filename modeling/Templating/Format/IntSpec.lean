import Templating.Number.FloatText
import Templating.Text.Quoted

/-!
# Format specifications for integers

A specification has the form `[[fill]align][sign][#][0][width][type]`. It is read from its end:
first the type, then the digits of the width, a `#`, a sign, and what is left is the alignment with
an optional fill character before it. A width that starts with `0` fills with zeros after the sign.

* `IntSpec`: a specification; `IntSpec.parse` reads one.
* `IntSpec.Error`: why a text is none.
-/

namespace Templating

/-- Where the padding goes. -/
inductive Align where
  | left | right | center
  /-- Between the sign or prefix and the digits. -/
  | afterSign
deriving DecidableEq

/-- The alignment that a character stands for. -/
def Align.ofChar? : Char → Option Align
  | '<' => some .left
  | '>' => some .right
  | '^' => some .center
  | '=' => some .afterSign
  | _ => none

/-- The character of an alignment. -/
def Align.char : Align → Char
  | .left => '<'
  | .right => '>'
  | .center => '^'
  | .afterSign => '='

/-- What stands in front of a number that is not negative. -/
inductive SignStyle where
  | plus | minus | space
deriving DecidableEq

/-- The sign style that a character stands for. -/
def SignStyle.ofChar? : Char → Option SignStyle
  | '+' => some .plus
  | '-' => some .minus
  | ' ' => some .space
  | _ => none

/-- The character of a sign style. -/
def SignStyle.char : SignStyle → Char
  | .plus => '+'
  | .minus => '-'
  | .space => ' '

/-- The radix of the digits, or the character with the number as its code point. -/
inductive IntType where
  | binary | char | decimal | octal | hex | upperHex
  /-- Decimal with the separators of a locale, of which there are none. -/
  | number
deriving DecidableEq

/-- The type that a character stands for. -/
def IntType.ofChar? : Char → Option IntType
  | 'b' => some .binary
  | 'c' => some .char
  | 'd' => some .decimal
  | 'o' => some .octal
  | 'x' => some .hex
  | 'X' => some .upperHex
  | 'n' => some .number
  | _ => none

/-- The character of a type. -/
def IntType.letter : IntType → Char
  | .binary => 'b'
  | .char => 'c'
  | .decimal => 'd'
  | .octal => 'o'
  | .hex => 'x'
  | .upperHex => 'X'
  | .number => 'n'

/-- What the alternate form puts before the digits. -/
def IntType.lead? : IntType → Option String
  | .binary => some "0b"
  | .octal => some "0o"
  | .hex => some "0x"
  | .upperHex => some "0X"
  | .char | .decimal | .number => none

/-- How an integer is written. -/
structure IntSpec where
  fill : Char
  align : Align
  sign : SignStyle
  /-- Whether the digits have the prefix of their radix. -/
  alternate : Bool
  width : Nat
  type : IntType
deriving DecidableEq

/-- Why a text is no specification. -/
inductive IntSpec.Error where
  | signWithChar
  | illegal (spec : String)
deriving DecidableEq

/-- The wording of an error. -/
def IntSpec.Error.message : IntSpec.Error → String
  | .signWithChar => "sign not allowed for integer format type 'c'"
  | .illegal spec => "illegal integer format string " ++ Text.literal spec

namespace IntSpec

/-- Decimal digits at the right end of the field, without padding. -/
def default : IntSpec := ⟨' ', .right, .minus, false, 0, .decimal⟩

/-- Widths stay below this. -/
def widthLimit : Nat := 0x10000000000000000

/-- Takes the type off the end of a reversed specification. -/
def takeType : List Char → IntType × List Char
  | [] => (.decimal, [])
  | c :: rest =>
    match IntType.ofChar? c with
    | some type => (type, rest)
    | none => (.decimal, c :: rest)

/-- Takes the digits of the width off the end of a reversed specification. -/
def takeDigits (cs : List Char) : List Char × List Char :=
  ((cs.takeWhile Char.isDigit).reverse, cs.dropWhile Char.isDigit)

/-- Takes the mark of the alternate form off the end of a reversed specification. -/
def takeAlternate : List Char → Bool × List Char
  | '#' :: rest => (true, rest)
  | cs => (false, cs)

/-- Takes the sign style off the end of a reversed specification. -/
def takeSignStyle : List Char → Option SignStyle × List Char
  | [] => (none, [])
  | c :: rest =>
    match SignStyle.ofChar? c with
    | some sign => (some sign, rest)
    | none => (none, c :: rest)

/-- The alignment and the fill character in a reversed specification of which all else is taken. -/
def takeAlign? (align : Align) (fill : Char) : List Char → Option (Align × Char)
  | [] => some (align, fill)
  | [a] => (Align.ofChar? a).map (·, fill)
  | [a, f] => (Align.ofChar? a).map (·, f)
  | _ => none

/-- Reads a specification. -/
def parse (spec : String) : Except Error IntSpec :=
  let (type, rest) := takeType spec.toList.reverse
  let (digits, rest) := takeDigits rest
  let zeros := digits.head? = some '0'
  let width := Decimal.ofDigits digits
  let (alternate, rest) := takeAlternate rest
  let (sign, rest) := takeSignStyle rest
  if widthLimit ≤ width then .error (.illegal spec)
  else if sign.isSome ∧ type = .char then .error .signWithChar
  else
    let align := if zeros then .afterSign else .right
    let fill := if zeros then '0' else ' '
    match takeAlign? align fill rest with
    | some (align, fill) =>
      .ok { fill, align, sign := sign.getD .minus, alternate, width, type }
    | none => .error (.illegal spec)

end IntSpec

end Templating
