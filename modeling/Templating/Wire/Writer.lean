import Templating.Value.Basic
import Templating.Wire.Error

/-!
# Writing the wire format

Each item begins with a letter for its type. Strings and objects are numbered in the order in which
they begin, and one that was written before is written again as a reference to its number: strings
are recognized by content, templates by identity.

* `Writer`: the text written so far and the numbers given.
* `writeValue`, `writeTemplate`, `writeNode`, `writeLocation`: items as text.
* `dumps`, `dumpsTemplate`: a value and a template as a text of its own.
-/

namespace Templating.Wire

/-- The names of the built-in object types begin with this. -/
def typePrefix : String := "de.livinglogic.ul4."

/-- The version of the format, which every template carries. -/
def formatVersion : String := "20"

/-- The text written so far, and the numbers of the strings and templates in it. -/
structure Writer where
  out : String
  /-- How many strings and objects have been numbered. -/
  records : Nat
  strings : List (String × Nat)
  templates : List (Nat × Nat)

/-- Nothing written yet. -/
def Writer.start : Writer := ⟨"", 0, [], []⟩

/-- An action that writes. What was written before an error stays written. -/
abbrev Write := EStateM Error Writer Unit

/-- Writes a text as it stands. -/
def emit (text : String) : Write := modify fun w => { w with out := w.out ++ text }

/-- Takes the next number and remembers it. -/
def number (remember : Nat → Writer → Writer) : Write :=
  modify fun w => remember w.records { w with records := w.records + 1 }

/-- Writes a reference to a number. -/
def writeReference (index : Nat) : Write := emit s!"^{index}|"

/-- Writes an integer. -/
def writeInt (n : Int) : Write := emit s!"i{n}|"

/-- Writes a string, or the reference to it if it was written before. -/
def writeStr (s : String) : Write := do
  match (← get).strings.lookup s with
  | some index => writeReference index
  | none =>
    number fun index w => { w with strings := (s, index) :: w.strings }
    emit (s!"S{s.length}|" ++ s)

/-- Writes `None`. -/
def writeNone : Write := emit "n"

/-- Writes a string or `None`. -/
def writeOptStr : Option String → Write
  | some s => writeStr s
  | none => writeNone

/-- Begins an object: takes a number, then writes the name of the type. -/
def beginObject (tag : String) : Write := do
  number fun _ w => w
  emit "O"
  writeStr (typePrefix ++ tag)

/-- Ends an object. -/
def endObject : Write := emit ")"

/-- Writes a location. -/
def writeLocation (l : Location) : Write := do
  beginObject "location"
  writeStr l.source
  writeOptStr l.tagType
  writeInt l.tag.start.toNat
  writeInt l.tag.stop.toNat
  writeInt l.code.start.toNat
  writeInt l.code.stop.toNat
  endObject

/-- Writes a location or `None`. -/
def writeOptLocation : Option Location → Write
  | some l => writeLocation l
  | none => writeNone

mutual

/-- Writes a target: a name, or a list of targets. -/
def writeTarget : Target → Write
  | .name x => writeStr x
  | .tuple items => do
    emit "l"
    writeTargets items
    emit "]"

/-- Writes targets one after another. -/
def writeTargets : List Target → Write
  | [] => pure ()
  | item :: items => do
    writeTarget item
    writeTargets items

end

/-- Writes a literal as the value it stands for. -/
def writeLiteral : Literal → Write
  | .none => writeNone
  | .bool b => emit (if b then "bT" else "bF")
  | .int n => writeInt n.toInt
  | .float x => emit ("f" ++ Decimal.floatRepr x ++ "|")
  | .str s => writeStr s
  | .date d => emit ("t" ++ d.compact)
  | .duration d => do
    emit "T"
    writeInt d.days.toInt
    writeInt d.seconds
    writeInt d.micros
  | .months m => do
    emit "m"
    writeInt m.count.toInt
  | .color c => do
    emit "c"
    writeInt c.r.toNat
    writeInt c.g.toNat
    writeInt c.b.toNat
    writeInt c.a.toNat

mutual

/-- Writes a template, or the reference to it if it was written before. -/
def writeTemplate : Template → Write
  | ⟨id, location, source, name, startDelim, endDelim, block⟩ => do
    match (← get).templates.lookup id with
    | some index => writeReference index
    | none =>
      number fun index w => { w with templates := (id, index) :: w.templates }
      emit "O"
      writeStr (typePrefix ++ "template")
      writeStr formatVersion
      writeStr source
      writeOptStr name
      writeStr startDelim
      writeStr endDelim
      writeOptLocation location
      writeBlock block
      endObject

/-- Writes a node. The definition of a template is written as the template. -/
def writeNode : Node → Write
  | ⟨_, location, kind⟩ =>
    match kind with
    | .template t => writeTemplate t
    | kind => do
      beginObject kind.tag
      writeLocation location
      writeKind kind
      endObject

/-- Writes nodes one after another. -/
def writeNodes : List Node → Write
  | [] => pure ()
  | node :: nodes => do
    writeNode node
    writeNodes nodes

/-- Writes a node or `None`. -/
def writeOptNode : Option Node → Write
  | some node => writeNode node
  | none => writeNone

/-- Writes the fields of a node after its location. -/
def writeKind : NodeKind → Write
  | .text | .breakLoop | .continueLoop => pure ()
  | .noneConst => writeNone
  | .trueConst => emit "bT"
  | .falseConst => emit "bF"
  | .const value => writeLiteral value
  | .list items => do
    emit "l"
    writeNodes items
    emit "]"
  | .listComp item comp => do
    writeNode item
    writeComprehension comp
  | .genExpr item comp => do
    writeNode item
    writeComprehension comp
  | .dict entries => do
    emit "l"
    writeEntries entries
    emit "]"
  | .dictComp key value comp => do
    writeNode key
    writeNode value
    writeComprehension comp
  | .var name => writeStr name
  | .delVar name => writeStr name
  | .unary _ operand => writeNode operand
  | .print value => writeNode value
  | .printX value => writeNode value
  | .render value => writeNode value
  | .binary _ left right => do
    writeNode left
    writeNode right
  | .getAttr object attr => do
    writeNode object
    writeStr attr
  | .getSlice object start stop => do
    writeNode object
    writeOptNode start
    writeOptNode stop
  | .callFunc name args => do
    writeStr name
    emit "l"
    writeNodes args
    emit "]"
  | .callMeth name object args => do
    writeStr name
    writeNode object
    emit "l"
    writeNodes args
    emit "]"
  | .callMethKeywords name object args => do
    writeStr name
    writeNode object
    emit "l"
    writeArgs args
    emit "]"
  | .storeVar target value => do
    writeTarget target
    writeNode value
  | .augAssign _ name value => do
    writeStr name
    writeNode value
  | .forLoop target container block => do
    writeBlock block
    writeTarget target
    writeNode container
  | .chain branches => writeBlock branches
  | .elseBranch block => writeBlock block
  | .ifBranch condition block => do
    writeBlock block
    writeNode condition
  | .elifBranch condition block => do
    writeBlock block
    writeNode condition
  | .template t => writeTemplate t

/-- Writes a comprehension without its item. -/
def writeComprehension : Comprehension → Write
  | ⟨target, container, condition⟩ => do
    writeTarget target
    writeNode container
    writeOptNode condition

/-- Writes the entries of a dict display as lists of one or two nodes. -/
def writeEntries : List DictEntry → Write
  | [] => pure ()
  | entry :: entries => do
    emit "l"
    writeEntry entry
    emit "]"
    writeEntries entries

/-- Writes the nodes of an entry of a dict display. -/
def writeEntry : DictEntry → Write
  | .pair key value => do
    writeNode key
    writeNode value
  | .splat mapping => writeNode mapping

/-- Writes keyword arguments as lists of a name and a node, or of one node. -/
def writeArgs : List KeywordArg → Write
  | [] => pure ()
  | arg :: args => do
    emit "l"
    writeArg arg
    emit "]"
    writeArgs args

/-- Writes the name and the node of a keyword argument. -/
def writeArg : KeywordArg → Write
  | .named name value => do
    writeStr name
    writeNode value
  | .splat mapping => writeNode mapping

/-- Writes the location of the closing tag and the statements of a block. -/
def writeBlock : Block → Write
  | ⟨stop, content⟩ => do
    writeOptLocation stop
    emit "l"
    writeNodes content
    emit "]"

end

mutual

/-- Writes a value. Iterators have no written form. -/
def writeValue : Value → Write
  | .none => writeLiteral .none
  | .bool b => writeLiteral (.bool b)
  | .int n => writeLiteral (.int n)
  | .float x => writeLiteral (.float x)
  | .str s => writeLiteral (.str s)
  | .date d => writeLiteral (.date d)
  | .duration d => writeLiteral (.duration d)
  | .months m => writeLiteral (.months m)
  | .color c => writeLiteral (.color c)
  | .list items => do
    emit "l"
    writeValues items
    emit "]"
  | .dict entries => do
    emit "d"
    writeBindings entries
    emit "\x7d"
  | .template t => writeTemplate t
  | .iterator _ => throw (.notSerializable "iterator")

/-- Writes values one after another. -/
def writeValues : List Value → Write
  | [] => pure ()
  | item :: items => do
    writeValue item
    writeValues items

/-- Writes the keys and values of a dict in turn. -/
def writeBindings : List (String × Value) → Write
  | [] => pure ()
  | (key, value) :: entries => do
    writeStr key
    writeValue value
    writeBindings entries

end

/-- The text that an action writes from the beginning. -/
def written (w : Write) : Except Error String :=
  match w.run Writer.start with
  | .ok _ s => .ok s.out
  | .error e _ => .error e

/-- A value as text. -/
def dumps (v : Value) : Except Error String := written (writeValue v)

/-- A template as text. -/
def dumpsTemplate (t : Template) : Except Error String := written (writeTemplate t)

end Templating.Wire
