import Templating.Wire.Typed
import Templating.Wire.Writer

/-!
# Loaders of objects

An object is read by the loader that is registered for its tag.

* `Loader`: reads the fields of an object after its tag.
* `Registry`: the loaders by tag; `Registry.builtin` knows locations, templates and all nodes.
* `loadTemplateObject`, `loadNodeObject`: the loaders of templates and nodes. They read the fields
  in the order in which `writeTemplate` and `writeNode` write them.
-/

namespace Templating.Wire

open Text

/-- Reads the fields of an object. It is given the action that reads any item, and the tag without
the name space of the built-in types. -/
abbrev Loader := Read Loaded → String → Read Loaded

/-- The loaders by tag. -/
structure Registry where
  loaders : List (String × Loader)

namespace Registry

/-- No loaders. -/
def empty : Registry := ⟨[]⟩

/-- The loader for a tag. -/
def get? (r : Registry) (tag : String) : Option Loader := Bindings.lookup? tag r.loaders

/-- Whether there is a loader for a tag. -/
def contains (r : Registry) (tag : String) : Bool := (r.get? tag).isSome

/-- Registers a loader for a tag, in place of the one it had. -/
def insert (r : Registry) (tag : String) (loader : Loader) : Registry :=
  ⟨Bindings.insert tag loader r.loaders⟩

/-- The number of tags. -/
def size (r : Registry) : Nat := r.loaders.length

/-- The tags in alphabetical order. -/
def tags (r : Registry) : List String := (r.loaders.map Prod.fst).mergeSort (· ≤ ·)

/-- The tags, for inspection. -/
def inspect (r : Registry) : String :=
  "Registry \x7b tags: [" ++ ", ".intercalate (r.tags.map shown) ++ "] \x7d"

end Registry

/-- A tag without the name space of the built-in types. -/
def shortTag (tag : String) : String :=
  if typePrefix.toList <+: tag.toList then
    String.ofList (tag.toList.drop typePrefix.toList.length)
  else tag

/-- Reads the fields of a location. -/
def loadLocationObject : Loader := fun load _ => return .location (← loadLocationFields load)

/-- Reads the fields of a template. -/
def loadTemplateObject : Loader := fun load _ => do
  let version ← loadStr load
  if version ≠ formatVersion then throw (.version formatVersion version)
  else
    let source ← loadStr load
    let name ← loadOptStr load
    let startDelim ← loadStr load
    let endDelim ← loadStr load
    let location ← loadOptLocation load
    let block ← loadBlock load
    return .value (.template ⟨← freshId, location, source, name, startDelim, endDelim, block⟩)

/-- Reads a constant. -/
def loadConstant (load : Read Loaded) : Read NodeKind := do
  let value ← loadValue load
  match value.literal? with
  | some literal => return .ofLiteral literal
  | none => failHere ("constant of type " ++ value.typeName ++ " is not supported")

/-- An entry of a dict display. -/
def dictEntryOf (e : Entry) : Read DictEntry := do
  let first ← nodeOf e.start e.first
  match e.second with
  | some value => return .pair first value
  | none => return .splat first

/-- A keyword argument. -/
def keywordArgOf (e : Entry) : Read KeywordArg :=
  match e.first, e.second with
  | .value (.str name), some value => return .named name value
  | first, none => return .splat (← nodeOf e.start first)
  | _, some _ => failHere "keyword argument name must be a string"

/-- Reads the fields of a node whose tag is that of an operator. -/
def loadOperator (load : Read Loaded) (tag : String) : Read NodeKind := do
  if let some op := UnaryOp.ofTag? tag then return .unary op (← loadNode load)
  else if let some op := BinaryOp.ofTag? tag then
    let left ← loadNode load
    let right ← loadNode load
    return .binary op left right
  else if let some op := AugOp.ofTag? tag then
    let name ← loadStr load
    return .augAssign op name (← loadNode load)
  else throw (.unknownType (typePrefix ++ tag))

/-- Reads the fields of a node after its location. -/
def loadKind (load : Read Loaded) (tag : String) : Read NodeKind :=
  match tag with
  | "text" => return .text
  | "const" => loadConstant load
  | "list" => return .list (← loadNodes load)
  | "listcomp" => do
    let item ← loadNode load
    return .listComp item (← loadComprehension load)
  | "genexpr" => do
    let item ← loadNode load
    return .genExpr item (← loadComprehension load)
  | "dict" => do
    let entries ← loadEntries load
    return .dict (← entries.mapM dictEntryOf)
  | "dictcomp" => do
    let key ← loadNode load
    let value ← loadNode load
    return .dictComp key value (← loadComprehension load)
  | "var" => return .var (← loadStr load)
  | "print" => return .print (← loadNode load)
  | "printx" => return .printX (← loadNode load)
  | "render" => return .render (← loadNode load)
  | "getattr" => do
    let object ← loadNode load
    return .getAttr object (← loadStr load)
  | "getslice" => do
    let object ← loadNode load
    let start ← loadOptNode load
    let stop ← loadOptNode load
    return .getSlice object start stop
  | "callfunc" => do
    let name ← loadStr load
    return .callFunc name (← loadNodes load)
  | "callmeth" => do
    let name ← loadStr load
    let object ← loadNode load
    return .callMeth name object (← loadNodes load)
  | "callmethkw" => do
    let name ← loadStr load
    let object ← loadNode load
    let entries ← loadEntries load
    return .callMethKeywords name object (← entries.mapM keywordArgOf)
  | "storevar" => do
    let target ← loadTarget load
    return .storeVar target (← loadNode load)
  | "delvar" => return .delVar (← loadStr load)
  | "for" => do
    let block ← loadBlock load
    let target ← loadTarget load
    let container ← loadNode load
    return .forLoop target container block
  | "break" => return .breakLoop
  | "continue" => return .continueLoop
  | "ieie" => return .chain (← loadBlock load)
  | "else" => return .elseBranch (← loadBlock load)
  | "if" => do
    let block ← loadBlock load
    return .ifBranch (← loadNode load) block
  | "elif" => do
    let block ← loadBlock load
    return .elifBranch (← loadNode load) block
  | tag => loadOperator load tag

/-- Reads the fields of a node. -/
def loadNodeObject : Loader := fun load tag => do
  let location ← loadLocation load
  let kind ← loadKind load tag
  return .node ⟨← freshId, location, kind⟩

/-- The tags of the nodes that are no operators. -/
def plainNodeTags : List String :=
  ["text", "const", "list", "listcomp", "dict", "dictcomp", "genexpr", "var", "print", "printx",
    "render", "getattr", "getslice", "callfunc", "callmeth", "callmethkw", "storevar", "delvar",
    "for", "break", "continue", "ieie", "if", "elif", "else"]

/-- The tags of all nodes. -/
def nodeTags : List String :=
  plainNodeTags ++ BinaryOp.all.map BinaryOp.tag ++ UnaryOp.all.map UnaryOp.tag ++
    AugOp.all.map AugOp.tag

/-- Locations, templates and all nodes. -/
def Registry.builtin : Registry :=
  nodeTags.foldl (fun r tag => r.insert (typePrefix ++ tag) loadNodeObject)
    ((Registry.empty.insert (typePrefix ++ "location") loadLocationObject).insert
      (typePrefix ++ "template") loadTemplateObject)

end Templating.Wire
