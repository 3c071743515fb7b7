/-!
# Errors of the JSON reader

What the reader found wrong, and the line and column where it stood.
-/

namespace Templating.Json

/-- What is wrong with a text. -/
inductive Fault where
  | eofInList | eofInObject | eofInString | eofInValue
  | expectedColon | expectedListCommaOrEnd | expectedObjectCommaOrEnd | expectedIdent
  | expectedValue | invalidEscape | invalidNumber | numberOutOfRange | controlCharacter
  | keyMustBeString | loneSurrogate | trailingComma | trailingCharacters | unexpectedEndOfHexEscape
  | recursionLimit
deriving DecidableEq

/-- The wording of a fault. -/
def Fault.message : Fault → String
  | .eofInList => "EOF while parsing a list"
  | .eofInObject => "EOF while parsing an object"
  | .eofInString => "EOF while parsing a string"
  | .eofInValue => "EOF while parsing a value"
  | .expectedColon => "expected `:`"
  | .expectedListCommaOrEnd => "expected `,` or `]`"
  | .expectedObjectCommaOrEnd => "expected `,` or `\x7d`"
  | .expectedIdent => "expected ident"
  | .expectedValue => "expected value"
  | .invalidEscape => "invalid escape"
  | .invalidNumber => "invalid number"
  | .numberOutOfRange => "number out of range"
  | .controlCharacter =>
    "control character (\\u0000-\\u001F) found while parsing a string"
  | .keyMustBeString => "key must be a string"
  | .loneSurrogate => "lone leading surrogate in hex escape"
  | .trailingComma => "trailing comma"
  | .trailingCharacters => "trailing characters"
  | .unexpectedEndOfHexEscape => "unexpected end of hex escape"
  | .recursionLimit => "recursion limit exceeded"

/-- A fault and its place. Lines count from 1; columns count the bytes read of the line. -/
structure Error where
  fault : Fault
  line : Nat
  column : Nat
deriving DecidableEq

/-- The wording of an error. -/
def Error.message (e : Error) : String := s!"{e.fault.message} at line {e.line} column {e.column}"

end Templating.Json
