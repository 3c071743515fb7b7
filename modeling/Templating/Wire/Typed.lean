import Templating.Wire.Reader

/-!
# Items of a certain type

Actions that read one item and check what it is. Each takes the action `load` that reads any item,
so that they can be used while `load` itself is being defined. An item of another type is reported
where the reader stood before it.
-/

namespace Templating.Wire

variable (load : Read Loaded)

/-- Fails because an item is not what was expected. -/
def unexpected {α : Type} (offset : Nat) (expected : String) (got : Loaded) : Read α :=
  failAt offset ("expected " ++ expected ++ ", got " ++ got.kind)

/-- Reads an item and takes from it what was expected. -/
def loadAs {α : Type} (expected : String) (take? : Loaded → Option α) : Read α := do
  let start ← here
  let item ← load
  match take? item with
  | some x => return x
  | none => unexpected start expected item

/-- Reads a value. -/
def loadValue : Read Value :=
  loadAs load "value" fun | .value v => some v | _ => none

/-- Reads an integer. -/
def loadInt : Read Int64 :=
  loadAs load "int" fun | .value (.int n) => some n | _ => none

/-- Reads a string. -/
def loadStr : Read String :=
  loadAs load "str" fun | .value (.str s) => some s | _ => none

/-- Reads a string or `None`. -/
def loadOptStr : Read (Option String) :=
  loadAs load "str or None" fun
    | .value .none => some none
    | .value (.str s) => some (some s)
    | _ => none

/-- Reads a location. -/
def loadLocation : Read Location :=
  loadAs load "location" fun | .location l => some l | _ => none

/-- Reads a location or `None`. -/
def loadOptLocation : Read (Option Location) :=
  loadAs load "location or None" fun
    | .value .none => some none
    | .location l => some (some l)
    | _ => none

/-- Reads an end of a span. -/
def loadPosition : Read UInt32 := do
  let start ← here
  let n ← loadInt load
  if 0 ≤ n.toInt ∧ n.toInt < 0x100000000 then return UInt32.ofNat n.toInt.toNat
  else failAt start s!"invalid offset {n.toInt}"

/-- Reads a channel of a color. -/
def loadChannel : Read UInt8 := do
  let start ← here
  let n ← loadInt load
  if 0 ≤ n.toInt ∧ n.toInt < 0x100 then return UInt8.ofNat n.toInt.toNat
  else failAt start s!"color channel {n.toInt} out of range"

/-- Reads the fields of a location. -/
def loadLocationFields : Read Location := do
  let source ← loadStr load
  let tagType ← loadOptStr load
  let tagStart ← loadPosition load
  let tagStop ← loadPosition load
  let codeStart ← loadPosition load
  let codeStop ← loadPosition load
  return ⟨source, tagType, ⟨tagStart, tagStop⟩, ⟨codeStart, codeStop⟩⟩

/-- An item as a node; a template becomes its definition. -/
def nodeOf (start : Nat) : Loaded → Read Node
  | .node n => return n
  | .value (.template t) => do
    return Node.ofTemplate (← freshId) (Location.ofText t.source .empty) t
  | item => unexpected start "AST node" item

/-- Reads a node. -/
def loadNode : Read Node := do
  skipBlanks
  let start ← here
  nodeOf start (← load)

/-- Reads a node or `None`. -/
def loadOptNode : Read (Option Node) := do
  if ← closes 'n' then return none else return some (← loadNode load)

/-- Reads a list of nodes. -/
def loadNodes : Read (List Node) := do
  expect 'l'
  readUntil ']' (loadNode load)

/-- Reads a target with lists nested at most as deeply as there are characters in the bound. -/
def targetWithin : List Char → Read Target
  | [] => return .name (← loadStr load)
  | _ :: bound => do
    if ← closes 'l' then return .tuple (← readUntil ']' (targetWithin bound))
    else return .name (← loadStr load)

/-- Reads a target: a name, or a list of targets. -/
def loadTarget : Read Target := do targetWithin load (← get).rest

/-- Reads a comprehension without its item. -/
def loadComprehension : Read Comprehension := do
  let target ← loadTarget load
  let container ← loadNode load
  let condition ← loadOptNode load
  return ⟨target, container, condition⟩

/-- Reads the location of a closing tag, and the statements before it. -/
def loadBlock : Read Block := do
  let stop ← loadOptLocation load
  let content ← loadNodes load
  return ⟨stop, content⟩

/-- An entry of one or two items: the first one with its offset, and the second one. -/
structure Entry where
  start : Nat
  first : Loaded
  second : Option Node

/-- Reads an entry of one or two items. -/
def loadEntry : Read Entry := do
  expect 'l'
  skipBlanks
  let start ← here
  let first ← load
  if ← closes ']' then return ⟨start, first, none⟩
  else
    let node ← loadNode load
    expect ']'
    return ⟨start, first, some node⟩

/-- Reads a list of entries. -/
def loadEntries : Read (List Entry) := do
  expect 'l'
  readUntil ']' (loadEntry load)

end Templating.Wire
