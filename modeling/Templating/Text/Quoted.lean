import Templating.Text.Property
import Templating.Text.Width

/-!
# Quoted text

Three ways to write a text between quotes.

* `literal`: the string literals of templates. Characters from the space to U+007F stand for
  themselves, all others are written by code point with two, four or eight digits.
* `shown`, `shownChar`: texts and characters in messages. Characters that can be seen stand for
  themselves, all others are written by code point between braces.
* `script`: string literals of scripts. Characters outside the basic plane are written as two
  units of UTF-16.
-/

namespace Templating.Text

/-- One character inside a string literal of a template. -/
def literalChar (c : Char) : List Char :=
  if c = '\r' then ['\\', 'r']
  else if c = '\n' then ['\\', 'n']
  else if c = '\t' then ['\\', 't']
  else if c = '"' then ['\\', '"']
  else if c = '\\' then ['\\', '\\']
  else if 0x20 ≤ c.toNat ∧ c.toNat ≤ 0x7f then [c]
  else if c.toNat ≤ 0xff then '\\' :: 'x' :: padLeft '0' 2 (Nat.toDigits 16 c.toNat)
  else if c.toNat ≤ 0xffff then '\\' :: 'u' :: padLeft '0' 4 (Nat.toDigits 16 c.toNat)
  else '\\' :: 'U' :: padLeft '0' 8 (Nat.toDigits 16 c.toNat)

/-- A string literal of a template, on characters. -/
def literalChars (cs : List Char) : List Char := '"' :: cs.flatMap literalChar ++ ['"']

/-- A string literal of a template. -/
def literal (s : String) : String := String.ofList (literalChars s.toList)

/-- One character in a message, between quotes of the kind `quote`. -/
def shownInside (quote c : Char) : List Char :=
  if c = '\x00' then ['\\', '0']
  else if c = '\t' then ['\\', 't']
  else if c = '\r' then ['\\', 'r']
  else if c = '\n' then ['\\', 'n']
  else if c = '\\' ∨ c = quote then ['\\', c]
  else if isVisible c then [c]
  else ['\\', 'u', '\x7b'] ++ Nat.toDigits 16 c.toNat ++ ['\x7d']

/-- A text as messages show it, between double quotes. -/
def shown (s : String) : String :=
  String.ofList ('"' :: s.toList.flatMap (shownInside '"') ++ ['"'])

/-- A character as messages show it, between single quotes. -/
def shownChar (c : Char) : String :=
  String.ofList ('\'' :: shownInside '\'' c ++ ['\''])

/-- The units of a character in UTF-16: one, or a high and a low surrogate. -/
def utf16Units (c : Char) : List Nat :=
  if c.toNat < 0x10000 then [c.toNat]
  else [0xd800 + (c.toNat - 0x10000) / 0x400, 0xdc00 + (c.toNat - 0x10000) % 0x400]

/-- One character inside a string literal of a script. -/
def scriptChar (c : Char) : List Char :=
  if c = '\r' then ['\\', 'r']
  else if c = '\n' then ['\\', 'n']
  else if c = '\t' then ['\\', 't']
  else if c = '\\' then ['\\', '\\']
  else if c = '"' then ['\\', '"']
  else if 0x20 ≤ c.toNat ∧ c.toNat ≤ 0x7f then [c]
  else (utf16Units c).flatMap fun unit => '\\' :: 'u' :: padLeft '0' 4 (Nat.toDigits 16 unit)

/-- A string literal of a script, on characters. -/
def scriptChars (cs : List Char) : List Char := '"' :: cs.flatMap scriptChar ++ ['"']

/-- A string literal of a script. -/
def script (s : String) : String := String.ofList (scriptChars s.toList)

end Templating.Text
