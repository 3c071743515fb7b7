import Templating.Wire.Registry

/-!
# Reading the wire format

* `load`: reads one item of any kind.
* `finish`: checks that nothing but blanks is left.
* `loads?`, `loadsTemplate?`: a whole text as a value or as a template.

Every item begins with a character of its own, so the characters bound how deeply items can be
nested; `load` recurs on that bound.
-/

namespace Templating.Wire

open Text

/-- Reads a truth value after its code. -/
def loadBool (start : Nat) : Read Value := do
  match ← next? with
  | some 'T' => return .bool true
  | some 'F' => return .bool false
  | _ => failAt start "invalid bool"

/-- Reads a reference to an earlier string or object. -/
def loadReference (start : Nat) : Read Loaded := do
  let index ← readNumber "backreference" count?
  match (← get).records[index]? with
  | some (some item) => return item
  | some none => failAt start "backreference to unfinished object"
  | none => failAt start s!"unknown backreference {index}"

/-- Reads a string and numbers it. -/
def loadString : Read Value := do
  let s ← readString
  modify (·.record (some (.value (.str s))))
  return .str s

/-- Reads a date after its code. -/
def loadDate (start : Nat) : Read Value := do
  match takeBytes? 20 (← get).rest with
  | none => failHere "truncated date"
  | some text =>
    match Date.ofCompact (String.ofList text) with
    | .ok d =>
      modify (·.skip text.length)
      return .date d
    | .error e => failAt start e.message

/-- Reads a duration after its code. -/
def loadDuration (load : Read Loaded) (start : Nat) : Read Value := do
  let days ← loadInt load
  let seconds ← loadInt load
  let micros ← loadInt load
  match Duration.ofParts? days.toInt seconds.toInt micros.toInt with
  | some d => return .duration d
  | none => failAt start "timedelta out of range"

/-- Reads a color after its code. -/
def loadColor (load : Read Loaded) : Read Value := do
  let r ← loadChannel load
  let g ← loadChannel load
  let b ← loadChannel load
  let a ← loadChannel load
  return .color ⟨r, g, b, a⟩

/-- Reads a key and its value. -/
def loadPair (load : Read Loaded) : Read (String × Value) := do
  let key ← loadStr load
  let value ← loadValue load
  return (key, value)

/-- Reads an object after its code. It is numbered before its fields. -/
def loadObject (registry : Registry) (load : Read Loaded) : Read Loaded := do
  let index := (← get).records.size
  modify (·.record none)
  let tag ← loadStr load
  match registry.get? tag with
  | none => throw (.unknownType tag)
  | some loader =>
    let item ← loader load (shortTag tag)
    expect ')'
    modify (·.complete index item)
    return item

/-- Reads what comes after the code of an item, given the action that reads the items inside it. -/
def loadCoded (registry : Registry) (load : Read Loaded) (start : Nat) : Char → Read Loaded
  | 'n' => return .value .none
  | 'b' => return .value (← loadBool start)
  | 'i' => return .value (.int (← readNumber "int" word?))
  | 'f' => return .value (.float (← readNumber "float" Decimal.readFloat?))
  | 'S' => return .value (← loadString)
  | '^' => loadReference start
  | 't' => return .value (← loadDate start)
  | 'T' => return .value (← loadDuration load start)
  | 'm' => return .value (.months ⟨← loadInt load⟩)
  | 'c' => return .value (← loadColor load)
  | 'l' => return .value (.list (← readUntil ']' (loadValue load)))
  | 'd' => return .value (.dict (Bindings.ofList (← readUntil '\x7d' (loadPair load))))
  | 'O' => loadObject registry load
  | other => failAt start ("unknown typecode " ++ shownChar other)

/-- Reads one item, given the action that reads the items inside it. -/
def loadItem (registry : Registry) (load : Read Loaded) : Read Loaded := do
  skipBlanks
  let start ← here
  match ← next? with
  | none => failHere "unexpected end of input"
  | some code => loadCoded registry load start code

/-- Reads an item with others nested at most as deeply as there are characters in the bound. -/
def loadWithin (registry : Registry) : List Char → Read Loaded
  | [] => loadItem registry (failHere "unexpected end of input")
  | _ :: bound => loadItem registry (loadWithin registry bound)

/-- Reads one item of any kind. -/
def load (registry : Registry) : Read Loaded := do loadWithin registry (← get).rest

/-- Checks that nothing but blanks is left. -/
def finish : Read Unit := do
  skipBlanks
  if (← get).rest.isEmpty then return () else failHere "trailing data"

/-- Reads a text that is one value, with the built-in loaders. Identities are taken from `fresh`
on; the next free one comes with the value. -/
def loads? (text : String) (fresh : Nat) : Except Error (Value × Nat) :=
  let whole : Read Value := do
    let value ← loadValue (load .builtin)
    finish
    return value
  match whole.run (Reader.ofText text fresh) with
  | .ok value r => .ok (value, r.fresh)
  | .error e _ => .error e

/-- Reads a text that is one template. -/
def loadsTemplate? (text : String) (fresh : Nat) : Except Error (Template × Nat) := do
  match ← loads? text fresh with
  | (.template t, fresh) => .ok (t, fresh)
  | (other, _) => .error (.malformed 0 ("expected template, got " ++ other.typeName))

end Templating.Wire
