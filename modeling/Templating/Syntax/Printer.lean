import Templating.Syntax.Node

/-!
# Printing the syntax tree

Expressions are printed on one line, with the parentheses that their precedence requires.
Statements are printed as whole lines, indented by tabs, and blocks stand between braces.

* `Target.text`: names and tuples.
* `parenthesize`: the decision about the parentheses of an operand.
* `Node.format`, `Template.format`: nodes and templates at some indentation.
-/

namespace Templating

open Text

/-- A line at some indentation. -/
def indented (indent : Nat) (text : String) : String :=
  String.ofList (List.replicate indent '\t') ++ text ++ "\n"

/-- A list of texts with commas between. -/
def commas (texts : List String) : String := String.intercalate ", " texts

/-- A tuple of targets; one target alone is followed by a comma. -/
def tupleText : List String → String
  | [item] => "(" ++ item ++ ",)"
  | items => "(" ++ commas items ++ ")"

mutual

/-- A target as it is written. -/
def Target.text : Target → String
  | .name x => x
  | .tuple items => tupleText (Target.texts items)

/-- Targets as they are written. -/
def Target.texts : List Target → List String
  | [] => []
  | item :: items => item.text :: Target.texts items

end

/-- The text of an operand. It is put in parentheses if it binds less tightly than the operation
around it, and if it binds equally but is of another kind or on a side that does not associate. -/
def parenthesize (around operand : NodeKind) (text : String) : String :=
  let outer := around.precedence?.getD 0
  let inner := operand.precedence?.getD 0
  if inner < outer ∨ (inner = outer ∧ (operand.tag ≠ around.tag ∨ ¬ around.isAssociative)) then
    "(" ++ text ++ ")"
  else text

/-- A block of lines between braces. -/
def braced (indent : Nat) (lines : List String) : String :=
  indented indent "\x7b" ++ String.join lines ++ indented indent "\x7d"

mutual

/-- A node as text at some indentation. -/
def Node.format (indent : Nat) : Node → String
  | ⟨_, location, kind⟩ => kind.format indent location

/-- Nodes as texts at some indentation. -/
def Node.formats (indent : Nat) : List Node → List String
  | [] => []
  | node :: nodes => node.format indent :: Node.formats indent nodes

/-- An optional node as text; a missing one leaves nothing. -/
def Node.formatOption (indent : Nat) : Option Node → String
  | none => ""
  | some node => node.format indent

/-- A condition of a comprehension as text. -/
def Node.formatCondition (indent : Nat) : Option Node → String
  | none => ""
  | some node => " if " ++ node.format indent

/-- A node of some kind, with its location, as text. -/
def NodeKind.format (indent : Nat) (location : Location) : NodeKind → String
  | .text => indented indent ("text " ++ literal location.codeText)
  | .noneConst => "None"
  | .trueConst => "True"
  | .falseConst => "False"
  | .const value => value.repr
  | .list items => "[" ++ commas (Node.formats indent items) ++ "]"
  | .listComp item comp => "[ " ++ item.format indent ++ " " ++ comp.format indent ++ " ]"
  | .dict entries => "\x7b" ++ commas (DictEntry.formats indent entries) ++ "\x7d"
  | .dictComp key value comp =>
    "\x7b " ++ key.format indent ++ " : " ++ value.format indent ++ " " ++
      comp.format indent ++ " \x7d"
  | .genExpr item comp => "( " ++ item.format indent ++ " " ++ comp.format indent ++ " )"
  | .var name => name
  | .unary op operand =>
    op.lead ++ parenthesize (.unary op operand) operand.kind (operand.format 0)
  | .binary op left right =>
    let lead := parenthesize (.binary op left right) left.kind (left.format 0)
    if op = .getItem then lead ++ "[" ++ right.format 0 ++ "]"
    else
      lead ++ " " ++ op.symbol ++ " " ++
        parenthesize (.binary op left right) right.kind (right.format 0)
  | .getAttr object attr =>
    parenthesize (.getAttr object attr) object.kind (object.format 0) ++ "." ++ attr
  | .getSlice object start stop =>
    parenthesize (.getSlice object start stop) object.kind (object.format 0) ++ "[" ++
      Node.formatOption indent start ++ ":" ++ Node.formatOption indent stop ++ "]"
  | .callFunc name args => name ++ "(" ++ commas (Node.formats indent args) ++ ")"
  | .callMeth name object args =>
    parenthesize (.callMeth name object args) object.kind (object.format 0) ++ "." ++ name ++ "(" ++
      commas (Node.formats indent args) ++ ")"
  | .callMethKeywords name object args =>
    parenthesize (.callMethKeywords name object args) object.kind (object.format 0) ++ "." ++
      name ++ "(" ++ commas (KeywordArg.formats indent args) ++ ")"
  | .print value => indented indent ("print " ++ value.format indent)
  | .printX value => indented indent ("printx " ++ value.format indent)
  | .render value => indented indent ("render " ++ value.format indent)
  | .storeVar target value => indented indent (target.text ++ " = " ++ value.format indent)
  | .augAssign op name value =>
    indented indent (name ++ " " ++ op.symbol ++ " " ++ value.format indent)
  | .delVar name => indented indent ("del " ++ name)
  | .forLoop target container block =>
    indented indent ("for " ++ target.text ++ " in " ++ container.format indent) ++
      block.format indent
  | .breakLoop => indented indent "break"
  | .continueLoop => indented indent "continue"
  | .chain branches => branches.formatFlat indent
  | .ifBranch condition block =>
    indented indent ("if " ++ condition.format indent) ++ block.format indent
  | .elifBranch condition block =>
    indented indent ("elif " ++ condition.format indent) ++ block.format indent
  | .elseBranch block => indented indent "else" ++ block.format indent
  | .template t => t.format indent

/-- A comprehension without its item as text. -/
def Comprehension.format (indent : Nat) : Comprehension → String
  | ⟨target, container, condition⟩ =>
    "for " ++ target.text ++ " in " ++ container.format indent ++
      Node.formatCondition indent condition

/-- An entry of a dict display as text. -/
def DictEntry.format (indent : Nat) : DictEntry → String
  | .pair key value => key.format indent ++ ": " ++ value.format indent
  | .splat mapping => "**" ++ mapping.format indent

/-- Entries of a dict display as texts. -/
def DictEntry.formats (indent : Nat) : List DictEntry → List String
  | [] => []
  | entry :: entries => entry.format indent :: DictEntry.formats indent entries

/-- A keyword argument as text. -/
def KeywordArg.format (indent : Nat) : KeywordArg → String
  | .named name value => name ++ "=" ++ value.format indent
  | .splat mapping => "**" ++ mapping.format indent

/-- Keyword arguments as texts. -/
def KeywordArg.formats (indent : Nat) : List KeywordArg → List String
  | [] => []
  | arg :: args => arg.format indent :: KeywordArg.formats indent args

/-- A block between braces, its statements one level deeper. -/
def Block.format (indent : Nat) : Block → String
  | ⟨_, content⟩ => braced indent (Node.formats (indent + 1) content)

/-- The statements of a block one after another. -/
def Block.formatFlat (indent : Nat) : Block → String
  | ⟨_, content⟩ => String.join (Node.formats indent content)

/-- A template as text: its name and its block. -/
def Template.format (indent : Nat) : Template → String
  | ⟨_, _, _, name, _, _, block⟩ =>
    indented indent ("def " ++ name.getD "unnamed") ++ block.format indent

end

end Templating
