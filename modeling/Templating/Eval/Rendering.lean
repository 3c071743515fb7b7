import Templating.Eval.Iteration

/-!
# Rendering templates

* `Evaluator.render`: runs a template in the current scope and returns what it puts out.
* `Evaluator.renderNested`: runs a template one level deeper, with its own variables only.
-/

namespace Templating

open Eval

namespace Evaluator

variable (ev : Evaluator)

/-- Runs the statements of a block one after another. -/
def exec (block : Block) : Eval Unit := block.content.forM fun node => do
  let _ ← ev.eval node

/-- Runs a template in the current scope and returns what it puts out. A signal that has left every
loop is an error here. -/
def render (t : Template) : Eval (Array String) := do
  let (result, output) ← capture (ev.exec t.block)
  settle (result.mapError EvalError.settle)
  return output

/-- Runs a template one level deeper. It sees the given variables and no others. -/
def renderNested (t : Template) (vars : Scope) : Eval (Array String) := do
  let frame := (← get).frame
  if frame.maxDepth ≤ frame.depth then raise (.recursionLimit frame.maxDepth)
  else
    let (result, _, _) ← inFrame ⟨.ofVars vars, frame.depth + 1, frame.maxDepth⟩ (ev.render t)
    settle result

end Evaluator

end Templating
