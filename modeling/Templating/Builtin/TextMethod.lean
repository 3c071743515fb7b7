import Templating.Builtin.Method
import Templating.Text.Case
import Templating.Value.Subscript

/-!
# Methods on strings, lists and dicts

Positions in strings count characters.

* `textMethod`: the methods on strings, but for `join`.
* `listMethod`: the methods on lists.
* `dictMethod`: the methods on dicts.
-/

namespace Templating.Builtin

open Text

/-- The name of a method and its arguments. -/
structure MethodCall where
  method : Method
  args : List Value

namespace MethodCall

/-- The argument at an index; one that is missing counts as `None`. -/
def arg (c : MethodCall) (index : Nat) : Value := c.args[index]?.getD .none

/-- The string at an index. -/
def str (c : MethodCall) (index : Nat) : Except Cause (List Char) :=
  (strArg c.method.name (c.arg index)).map String.toList

/-- The integer at an index, if there is one. -/
def int? (c : MethodCall) (index : Nat) : Except Cause (Option Int64) :=
  optionalAs (intArg c.method.name) c.args index

/-- A limit at an index; a negative one is none. -/
def limit? (c : MethodCall) (index : Nat) : Except Cause (Option Nat) := do
  match ← c.int? index with
  | some n => return if n.toInt < 0 then none else some n.toInt.toNat
  | none => return none

end MethodCall

/-- A string value from characters. -/
def strOf (cs : List Char) : Value := .str (String.ofList cs)

/-- A text without the characters of a class at its ends. -/
def stripped (m : Method) (p : Char → Bool) (cs : List Char) : List Char :=
  match m with
  | .stripLeft => cs.dropWhile p
  | .stripRight => dropWhileEnd p cs
  | _ => dropWhileEnd p (cs.dropWhile p)

/-- The methods `strip`, `lstrip` and `rstrip`: without blanks, or without given characters. -/
def stripText (c : MethodCall) (cs : List Char) : Except Cause Value := do
  match optional c.args 0 with
  | none => return strOf (stripped c.method isBlank cs)
  | some _ =>
    let chars ← c.str 0
    return strOf (stripped c.method chars.contains cs)

/-- The methods `split` and `rsplit`: at blanks, or at a separator. -/
def splitText (c : MethodCall) (cs : List Char) : Except Cause Value := do
  let limit ← c.limit? 1
  let fromRight := c.method = .splitRight
  match optional c.args 0 with
  | none =>
    let pieces := if fromRight then rsplitBlank cs limit else splitBlank cs limit
    return .list (pieces.map strOf)
  | some _ =>
    let sep ← c.str 0
    if sep = [] then throw .emptySeparator
    else
      let pieces := if fromRight then rsplitOn sep cs limit else splitOn sep cs limit
      return .list (pieces.map strOf)

/-- A position behind an offset, or -1. -/
def positionOr (offset : Nat) : Option Nat → Value
  | some i => .ofNat (offset + i)
  | none => .int (-1)

/-- The methods `find` and `rfind` of strings, between two bounds. -/
def findText (c : MethodCall) (cs : List Char) : Except Cause Value := do
  let needle ← c.str 0
  let start ← c.int? 1
  let stop ← c.int? 2
  let window := sliceList cs start stop
  let found := if c.method = .findLast then rfind? needle window else find? needle window
  return positionOr (sliceBounds cs.length start stop).1 found

/-- A method on a string. -/
def textMethod (c : MethodCall) (s : String) : Except Cause Value := do
  let cs := s.toList
  match c.method with
  | .replace =>
    let old ← c.str 0
    let new ← c.str 1
    return strOf (replaced old new cs (← c.limit? 2))
  | .strip | .stripLeft | .stripRight => stripText c cs
  | .split | .splitRight => splitText c cs
  | .find | .findLast => findText c cs
  | .lower => return .str (lowercase s)
  | .upper => return .str (uppercase s)
  | .capitalize => return .str (capitalize s)
  | .startsWith => return .bool ((← c.str 0).isPrefixOf cs)
  | .endsWith => return .bool ((← c.str 0).isSuffixOf cs)
  | m => throw (.unknownMethod "str" m.name)

/-- The last place of an item for which a test holds. -/
def findLastIdx? (p : Value → Bool) (items : List Value) : Option Nat :=
  (items.reverse.findIdx? p).map (items.length - 1 - ·)

/-- A method on a list: the first or the last place of an equal item between two bounds. -/
def listMethod (c : MethodCall) (items : List Value) : Except Cause Value := do
  let start ← c.int? 1
  let stop ← c.int? 2
  let window := sliceList items start stop
  let offset := (sliceBounds items.length start stop).1
  match c.method with
  | .find => return positionOr offset (window.findIdx? (·.equal (c.arg 0)))
  | .findLast => return positionOr offset (findLastIdx? (·.equal (c.arg 0)) window)
  | m => throw (.unknownMethod "list" m.name)

/-- A method on a dict. -/
def dictMethod (c : MethodCall) (entries : List (String × Value)) : Except Cause Value :=
  match c.method with
  | .get =>
    let found := (c.arg 0).asStr?.bind fun key => Bindings.lookup? key entries
    .ok (found.getD (c.arg 1))
  | .items => .ok (.list (entries.map fun (key, value) => .list [.str key, value]))
  | .values => .ok (.list (entries.map Prod.snd))
  | m => .error (.unknownMethod "dict" m.name)

end Templating.Builtin
