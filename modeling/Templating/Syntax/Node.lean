import Templating.Source.Location
import Templating.Syntax.Literal
import Templating.Syntax.Operator

/-!
# The syntax tree

A template is a block of nodes. A node has an identity, a location and a kind that holds its
children. Nodes and templates may be shared, and two of them are the same exactly if their
identities are equal.

* `Node`, `NodeKind`, `Template`: the tree.
* `Node.tag`: the tag that a node is serialized under.
* `Node.precedence`, `Node.isAssociative`: what decides about parentheses.
* `Node.children`: the nodes directly below a node.
-/

namespace Templating

/-- What a value is assigned to: a name, or a tuple of targets for the items of the value. -/
inductive Target where
  | name (name : String)
  | tuple (items : List Target)
deriving Inhabited

mutual

/-- A node of the syntax tree. -/
structure Node where
  id : Nat
  location : Location
  kind : NodeKind

/-- What a node is, with its children. -/
inductive NodeKind where
  /-- Literal text, which is the code of the node's location. -/
  | text
  | noneConst
  | trueConst
  | falseConst
  | const (value : Literal)
  | list (items : List Node)
  | listComp (item : Node) (comp : Comprehension)
  | dict (entries : List DictEntry)
  | dictComp (key value : Node) (comp : Comprehension)
  | genExpr (item : Node) (comp : Comprehension)
  | var (name : String)
  | unary (op : UnaryOp) (operand : Node)
  | binary (op : BinaryOp) (left right : Node)
  | getAttr (object : Node) (attr : String)
  | getSlice (object : Node) (start stop : Option Node)
  | callFunc (name : String) (args : List Node)
  | callMeth (name : String) (object : Node) (args : List Node)
  | callMethKeywords (name : String) (object : Node) (args : List KeywordArg)
  | print (value : Node)
  /-- Output with the special characters of XML escaped. -/
  | printX (value : Node)
  | render (value : Node)
  | storeVar (target : Target) (value : Node)
  | augAssign (op : AugOp) (name : String) (value : Node)
  | delVar (name : String)
  | forLoop (target : Target) (container : Node) (block : Block)
  | breakLoop
  | continueLoop
  /-- A chain of `if`, `elif` and `else` nodes. -/
  | chain (branches : Block)
  | ifBranch (condition : Node) (block : Block)
  | elifBranch (condition : Node) (block : Block)
  | elseBranch (block : Block)
  /-- The definition of a template inside another one. -/
  | template (template : Template)

/-- The part `for target in container if condition` of a comprehension. -/
structure Comprehension where
  target : Target
  container : Node
  condition : Option Node

/-- An entry of a dict display: a pair, or another dict after `**`. -/
inductive DictEntry where
  | pair (key value : Node)
  | splat (mapping : Node)

/-- A keyword argument: a named one, or a dict of them after `**`. -/
inductive KeywordArg where
  | named (name : String) (value : Node)
  | splat (mapping : Node)

/-- The statements between two tags, and the location of the closing one. -/
structure Block where
  stop : Option Location
  content : List Node

/-- A template: a block with its source text, its name and the delimiters of its tags. -/
structure Template where
  id : Nat
  location : Option Location
  source : String
  name : Option String
  startDelim : String
  endDelim : String
  block : Block

end

/-- The name a template is shown and bound under. -/
def Template.displayName (t : Template) : String := t.name.getD "unnamed"

namespace NodeKind

/-- The node kind of a constant; there are dedicated ones for `None`, `True` and `False`. -/
def ofLiteral : Literal → NodeKind
  | .none => noneConst
  | .bool true => trueConst
  | .bool false => falseConst
  | value => const value

/-- The definition of a template. -/
def template? : NodeKind → Option Template
  | template t => some t
  | _ => none

/-- The tag that a node is serialized under. -/
def tag : NodeKind → String
  | text => "text"
  | noneConst | trueConst | falseConst | const _ => "const"
  | list _ => "list"
  | listComp .. => "listcomp"
  | dict _ => "dict"
  | dictComp .. => "dictcomp"
  | genExpr .. => "genexpr"
  | var _ => "var"
  | unary op _ => op.tag
  | binary op .. => op.tag
  | getAttr .. => "getattr"
  | getSlice .. => "getslice"
  | callFunc .. => "callfunc"
  | callMeth .. => "callmeth"
  | callMethKeywords .. => "callmethkw"
  | print _ => "print"
  | printX _ => "printx"
  | render _ => "render"
  | storeVar .. => "storevar"
  | augAssign op .. => op.tag
  | delVar _ => "delvar"
  | forLoop .. => "for"
  | breakLoop => "break"
  | continueLoop => "continue"
  | chain _ => "ieie"
  | ifBranch .. => "if"
  | elifBranch .. => "elif"
  | elseBranch _ => "else"
  | template _ => "template"

/-- How tightly an expression binds; statements have no precedence. -/
def precedence? : NodeKind → Option Nat
  | noneConst | trueConst | falseConst | const _ | list _ | listComp .. | dict _ | dictComp ..
  | genExpr .. | var _ => some 11
  | callFunc .. | callMeth .. => some 10
  | getAttr .. | callMethKeywords .. => some 9
  | getSlice .. => some 8
  | unary op _ => some op.precedence
  | binary op .. => some op.precedence
  | _ => none

/-- Whether an operand of the same kind and precedence needs no parentheses. -/
def isAssociative : NodeKind → Bool
  | binary op .. => op.isAssociative
  | getAttr .. | getSlice .. | callFunc .. | callMeth .. | callMethKeywords .. => false
  | _ => true

end NodeKind

/-- The container of a comprehension and its condition. -/
def Comprehension.children (c : Comprehension) : List Node := c.container :: c.condition.toList

/-- The nodes of an entry of a dict display. -/
def DictEntry.children : DictEntry → List Node
  | pair key value => [key, value]
  | splat mapping => [mapping]

/-- The node of a keyword argument. -/
def KeywordArg.value : KeywordArg → Node
  | named _ value => value
  | splat mapping => mapping

/-- The nodes directly below a node of some kind, in order of evaluation. -/
def NodeKind.children : NodeKind → List Node
  | text | noneConst | trueConst | falseConst | const _ | var _ | delVar _ | breakLoop
  | continueLoop => []
  | list items => items
  | listComp item comp | genExpr item comp => comp.children ++ [item]
  | dictComp key value comp => comp.children ++ [key, value]
  | dict entries => entries.flatMap DictEntry.children
  | unary _ operand => [operand]
  | binary _ left right => [left, right]
  | getAttr object _ => [object]
  | getSlice object start stop => object :: (start.toList ++ stop.toList)
  | callFunc _ args => args
  | callMeth _ object args => object :: args
  | callMethKeywords _ object args => object :: args.map KeywordArg.value
  | print value | printX value | render value | storeVar _ value | augAssign _ _ value => [value]
  | forLoop _ container block => container :: block.content
  | ifBranch condition block | elifBranch condition block => condition :: block.content
  | chain block | elseBranch block => block.content
  | template t => t.block.content

namespace Node

/-- The tag that a node is serialized under. -/
def tag (n : Node) : String := n.kind.tag

/-- How tightly an expression binds; statements have no precedence. -/
def precedence? (n : Node) : Option Nat := n.kind.precedence?

/-- Whether an operand of the same kind and precedence needs no parentheses. -/
def isAssociative (n : Node) : Bool := n.kind.isAssociative

/-- The nodes directly below a node, in order of evaluation. -/
def children (n : Node) : List Node := n.kind.children

/-- The node that defines a template; a template that knows its location has the say. -/
def ofTemplate (id : Nat) (location : Location) (t : Template) : Node :=
  ⟨id, t.location.getD location, .template t⟩

end Node

end Templating
