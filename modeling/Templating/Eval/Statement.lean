import Templating.Eval.Expression

/-!
# Running statements

Statements evaluate to `None` and act on the variables and the output.

* `Evaluator.runLoop`: loops. The nearest loop consumes a signal, and no item is taken after it.
* `Evaluator.runChain`: the first branch whose condition holds.
* `Evaluator.runRender`: output of a render call.
* `Evaluator.evalNode`: all nodes. An error is located at the innermost node.
-/

namespace Templating

open Eval

namespace Evaluator

variable (ev : Evaluator)

/-- What a loop does after a round of its body. -/
def afterRound : Except EvalError Unit → Eval (Walk Unit)
  | .ok () => return .on ()
  | .error e =>
    match e.cause.signal? with
    | some .breakLoop => return .done ()
    | some .continueLoop => return .on ()
    | none => throw (.failed e)

/-- A loop. Its variables stay bound afterwards. -/
def runLoop (target : Target) (container : Node) (block : Block) : Eval Unit := do
  let handle ← (← ev.eval container).iterate
  ev.fold handle () fun _ item => do
    ev.assign target item
    afterRound (← attempt (ev.exec block))

/-- Runs the first of some branches whose condition holds. Nodes that are no branches are run on the
way. -/
def runChain : List Node → Eval Unit
  | [] => return ()
  | branch :: branches =>
    match branch.kind with
    | .ifBranch condition block | .elifBranch condition block => do
      if (← ev.eval condition).isTruthy then ev.exec block else runChain branches
    | .elseBranch block => ev.exec block
    | _ => do
      let _ ← ev.eval branch
      runChain branches

/-- Whether a node is a call of the method `render`, which puts out by itself. -/
def isRenderCall (node : Node) : Bool :=
  match node.kind with
  | .callMeth name _ _ | .callMethKeywords name _ _ => name = Method.render.name
  | _ => false

/-- Puts out what a node renders, or its value if it is no render call. -/
def runRender (node : Node) : Eval Unit := do
  let value ← ev.eval node
  if isRenderCall node then return () else emit value.text

/-- Changes a variable with an operator. -/
def runAugAssign (op : AugOp) (name : String) (value : Node) : Eval Unit := do
  let current ← lookupVar name
  let operand ← ev.eval value
  bindVar name (← lift (Value.binary op.binary current operand))

/-- Runs a branch outside a chain. -/
def runBranch (condition : Node) (block : Block) : Eval Unit := do
  if (← ev.eval condition).isTruthy then ev.exec block else return ()

/-- The value of a statement. -/
def asStatement (x : Eval Unit) : Eval Value := do
  x
  return .none

/-- Evaluates a node of some kind; literal text is the code of the location. -/
def evalKind (location : Location) : NodeKind → Eval Value
  | .noneConst => return .none
  | .trueConst => return .bool true
  | .falseConst => return .bool false
  | .const value => return .ofLiteral value
  | .list items => return .list (← items.mapM ev.eval)
  | .listComp item comp => ev.evalListComp item comp
  | .dict entries => return .dict (← entries.foldlM ev.evalEntry [])
  | .dictComp key value comp => ev.evalDictComp key value comp
  | .genExpr item comp => ev.evalGenExpr item comp
  | .var name => lookupVar name
  | .unary op operand => do lift (Value.unary op (← ev.eval operand))
  | .binary op left right => ev.evalBinary op left right
  | .getAttr object attr => do lift ((← ev.eval object).attribute attr)
  | .getSlice object start stop => ev.evalSlice object start stop
  | .callFunc name args => do callFunction ev name (← args.mapM ev.eval)
  | .callMeth name object args => ev.evalCall name object args
  | .callMethKeywords name object args => ev.evalKeywordCall name object args
  | .text => asStatement (emit location.codeText)
  | .print value => asStatement do emit (← ev.eval value).text
  | .printX value => asStatement do emit (Text.xmlEscape (← ev.eval value).text)
  | .render value => asStatement (ev.runRender value)
  | .storeVar target value => asStatement do ev.assign target (← ev.eval value)
  | .augAssign op name value => asStatement (ev.runAugAssign op name value)
  | .delVar name => asStatement (removeVar name)
  | .forLoop target container block => asStatement (ev.runLoop target container block)
  | .breakLoop => raise (.signal .breakLoop)
  | .continueLoop => raise (.signal .continueLoop)
  | .chain branches => asStatement (ev.runChain branches.content)
  | .ifBranch condition block | .elifBranch condition block =>
    asStatement (ev.runBranch condition block)
  | .elseBranch block => asStatement (ev.exec block)
  | .template t => asStatement (bindVar t.displayName (.template t))

/-- Evaluates a node. -/
def evalNode (node : Node) : Eval Value :=
  locating node.location (ev.evalKind node.location node.kind)

end Evaluator

end Templating
