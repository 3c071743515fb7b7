import Templating.Builtin.Argument
import Templating.Format.DateText
import Templating.Format.IntText
import Templating.Text.Escape
import Templating.Value.Text

/-!
# Functions on texts

* `formatValue`: the function `format`, for dates and integers.
* `csvText`: a value as a field of comma separated values.
* `character`, `codePoint`: the functions `chr` and `ord`.
* `inRadix`: the functions `hex`, `oct` and `bin`.
* `quoteUrl`, `unquoteUrl`: texts in URLs.
-/

namespace Templating.Builtin

open Text

/-- An integer in a format. -/
def formatInt (n : Int64) (format : String) : Except Cause String :=
  match IntSpec.parse format with
  | .error e => .error (.formatSpec e)
  | .ok spec =>
    match spec.write? n.toInt with
    | some text => .ok text
    | none => .error .charOutOfBounds

/-- A date or an integer in a format. -/
def formatText (value : Value) (format : String) (language : Option String) : Except Cause String :=
  match value with
  | .date d => .ok (formatDate d format ((language.map Locale.ofTag).getD .english))
  | .bool b => formatInt (Value.ofBool b) format
  | .int n => formatInt n format
  | value => .error (.wrongArgType "format" "a date or an int" value.typeName)

/-- The function `format`, of a value, a format and an optional language. -/
def formatValue (value format : Value) (args : List Value) : Except Cause Value := do
  let text ← strArg "format" format
  let language ← optionalAs (strArg "format") args 2
  return .str (← formatText value text language)

/-- A value as a field of comma separated values. -/
def csvText : Value → String
  | .none => ""
  | .str s => csvField s
  | value => csvField value.repr

/-- The character with a code point. -/
def character (value : Value) : Except Cause Value := do
  let n := (← intArg "chr" value).toInt
  if 0 ≤ n ∧ n.toNat.isValidChar then return .str (String.singleton (Char.ofNat n.toNat))
  else throw .invalidCodePoint

/-- The code point of a single character. -/
def codePoint (value : Value) : Except Cause Value := do
  match (← strArg "ord" value).toList with
  | [c] => return .ofNat c.toNat
  | cs => throw (.notOneCharacter cs.length)

/-- An integer in a radix. -/
def inRadix (name : String) (type : IntType) (value : Value) : Except Cause Value := do
  return .str (radixText type (← intArg name value).toInt)

/-- A text in a URL. -/
def quoteUrl (value : Value) : Except Cause Value := do
  return .str (urlQuote (← strArg "urlquote" value))

/-- The text that was quoted for a URL. -/
def unquoteUrl (value : Value) : Except Cause Value := do
  match urlUnquote? (← strArg "urlunquote" value) with
  | some text => return .str text
  | none => throw (.malformedEscape value.repr)

end Templating.Builtin
