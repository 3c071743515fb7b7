import Templating.Text.Width

/-!
# Texts inside other formats

* `xmlEscape`: a text inside XML. The five special characters are written as entities.
* `csvField`: a text as a field of comma separated values.
* `urlQuote`: a text inside a URL, in which each byte of UTF-8 that is not unreserved is written as
  `%` and two hexadecimal digits.
* `urlUnquote?`: the text that was quoted. Each `%` has to be followed by two digits, and the bytes
  have to be UTF-8.
-/

namespace Templating.Text

/-- One character inside XML. -/
def xmlEscapeChar : Char → List Char
  | '&' => "&amp;".toList
  | '<' => "&lt;".toList
  | '>' => "&gt;".toList
  | '\'' => "&#39;".toList
  | '"' => "&quot;".toList
  | c => [c]

/-- A text inside XML, on characters. -/
def xmlEscapeChars (cs : List Char) : List Char := cs.flatMap xmlEscapeChar

/-- A text inside XML. -/
def xmlEscape (s : String) : String := String.ofList (xmlEscapeChars s.toList)

/-- Whether a character forces quotes around a field. -/
def forcesQuotes (c : Char) : Bool := c = ',' || c = '"' || c = '\n'

/-- A field of comma separated values, on characters. Quotes inside quotes are doubled. -/
def csvFieldChars (cs : List Char) : List Char :=
  if cs.any forcesQuotes then
    '"' :: cs.flatMap (fun c => if c = '"' then ['"', '"'] else [c]) ++ ['"']
  else cs

/-- A field of comma separated values. -/
def csvField (s : String) : String := String.ofList (csvFieldChars s.toList)

/-- The characters that stand for themselves in a URL. -/
def isUnreserved (c : Char) : Bool :=
  c.isAlphanum || ['-', '_', '.', '!', '~', '*', '\'', '(', ')'].contains c

/-- A byte as an escape. -/
def escapeByte (b : UInt8) : List Char :=
  '%' :: (padLeft '0' 2 (Nat.toDigits 16 b.toNat)).map Char.toUpper

/-- One character in a URL. -/
def urlQuoteChar (c : Char) : List Char :=
  if isUnreserved c then [c] else (String.utf8EncodeChar c).flatMap escapeByte

/-- A text in a URL. -/
def urlQuote (s : String) : String := String.ofList (s.toList.flatMap urlQuoteChar)

/-- The number of a hexadecimal digit. -/
def hexValue? (c : Char) : Option Nat :=
  if c.isDigit then some (c.toNat - '0'.toNat)
  else if 'a' ≤ c ∧ c ≤ 'f' then some (c.toNat - 'a'.toNat + 10)
  else if 'A' ≤ c ∧ c ≤ 'F' then some (c.toNat - 'A'.toNat + 10)
  else none

/-- The bytes of a quoted text. -/
def unquotedBytes? : List Char → Option (List UInt8)
  | [] => some []
  | '%' :: a :: b :: cs => do
    let high ← hexValue? a
    let low ← hexValue? b
    let rest ← unquotedBytes? cs
    return UInt8.ofNat (16 * high + low) :: rest
  | '%' :: _ => none
  | c :: cs => (unquotedBytes? cs).map (String.utf8EncodeChar c ++ ·)

/-- The text that was quoted. -/
def urlUnquote? (s : String) : Option String := do
  let bytes ← unquotedBytes? s.toList
  String.fromUTF8? ⟨bytes.toArray⟩

end Templating.Text
