import Templating.Number.Binary64
import Templating.Number.Shortest
import Templating.Text.Width

/-!
# Floats as text

The digits of a float are the fewest that read back (`Decimal.shortest`). A `FloatStyle` decides how
they are laid out.

* `layout`: digits and an exponent as text.
* `floatRepr`: floats in templates. Exponents from -4 to 15 are positional, an integral number ends
  in `.0`, and an exponent is written with its sign and at least two digits.
* `floatPlain`: floats inside style sheets, always positional.
* `readFloat?`: reads either, correctly rounded.
-/

namespace Templating.Decimal

open Text (padLeft)

/-- How digits are laid out. -/
structure FloatStyle where
  /-- Whether a number with this exponent is positional. -/
  positional : Int → Bool
  /-- Whether an integral positional number ends in `.0`. -/
  pointZero : Bool

/-- Floats in templates. -/
def templateStyle : FloatStyle := ⟨fun e => -4 ≤ e && e < 16, true⟩

/-- Floats inside style sheets. -/
def plainStyle : FloatStyle := ⟨fun _ => true, false⟩

/-- The positional text of `d.ddd · 10 ^ e`. -/
def positionalText (pointZero : Bool) (digits : List Char) (e : Int) : List Char :=
  if e < 0 then '0' :: '.' :: (List.replicate (-e - 1).toNat '0' ++ digits)
  else
    let point := e.toNat + 1
    if digits.length ≤ point then
      digits ++ List.replicate (point - digits.length) '0' ++ (if pointZero then ['.', '0'] else [])
    else digits.take point ++ '.' :: digits.drop point

/-- The scientific text of `d.ddd · 10 ^ e`. -/
def scientificText (digits : List Char) (e : Int) : List Char :=
  let mantissa := match digits with
    | [] => []
    | [d] => [d]
    | d :: rest => d :: '.' :: rest
  mantissa ++ 'e' :: (if e < 0 then '-' else '+') :: padLeft '0' 2 (Nat.toDigits 10 e.natAbs)

/-- The text of `± d.ddd · 10 ^ e`. -/
def layout (style : FloatStyle) (negative : Bool) (digits : List Char) (e : Int) : List Char :=
  (if negative then ['-'] else []) ++
    if style.positional e then positionalText style.pointZero digits e else scientificText digits e

/-- The digits of a finite float and the exponent of the first. -/
def digitsOf (m : Nat) (e : Int) : List Char × Int :=
  if m = 0 then (['0'], 0)
  else
    let (s, g) := shortest m e
    let digits := Nat.toDigits 10 s
    (digits, g + digits.length - 1)

/-- The text of a float, on characters. -/
def floatChars (style : FloatStyle) (x : Float) : List Char :=
  match Binary64.read x with
  | .nan => ['n', 'a', 'n']
  | .infinite negative => (if negative then ['-'] else []) ++ ['i', 'n', 'f']
  | .finite negative m e =>
    let (digits, e) := digitsOf m e
    layout style negative digits e

/-- The text of a float in a template. -/
def floatRepr (x : Float) : String := String.ofList (floatChars templateStyle x)

/-- The positional text of a float. -/
def floatPlain (x : Float) : String := String.ofList (floatChars plainStyle x)

/-- The number that decimal digits stand for. -/
def ofDigits (digits : List Char) : Nat :=
  digits.foldl (fun n d => 10 * n + (d.toNat - '0'.toNat)) 0

/-- Decimal digits without a sign, at least one. -/
def readNat? (cs : List Char) : Option Nat :=
  if cs ≠ [] ∧ cs.all Char.isDigit then some (ofDigits cs) else none

/-- A minus or plus, if there is one, and the rest. -/
def takeSign : List Char → Bool × List Char
  | '-' :: cs => (true, cs)
  | '+' :: cs => (false, cs)
  | cs => (false, cs)

/-- Decimal digits with an optional sign. -/
def readInt? (cs : List Char) : Option Int :=
  let (negative, digits) := takeSign cs
  (readNat? digits).map fun n => if negative then -(n : Int) else n

/-- Decimal digits with an optional plus. -/
def readUnsigned? : List Char → Option Nat
  | '+' :: cs => readNat? cs
  | cs => readNat? cs

/-- What may follow the digits of a float: nothing, or an exponent. -/
def readExponent? : List Char → Option Int
  | [] => some 0
  | c :: cs => if c = 'e' ∨ c = 'E' then readInt? cs else none

/-- A float: `inf`, `infinity` or `nan` in any case, or digits with an optional point and an
optional exponent, all after an optional sign. At least one digit stands next to the point. -/
def readFloat? (cs : List Char) : Option Float :=
  let (negative, body) := takeSign cs
  let word := String.ofList (body.map Char.toLower)
  if word = "inf" ∨ word = "infinity" then some (Binary64.withSign negative Binary64.infinity)
  else if word = "nan" then some Binary64.nan
  else
    let whole := body.takeWhile Char.isDigit
    let rest := body.dropWhile Char.isDigit
    let (fraction, tail) := match rest with
      | '.' :: after => (after.takeWhile Char.isDigit, after.dropWhile Char.isDigit)
      | _ => ([], rest)
    if whole = [] ∧ fraction = [] then none
    else (readExponent? tail).map fun e =>
      Binary64.ofDecimal negative (ofDigits (whole ++ fraction)) (e - fraction.length)

end Templating.Decimal
