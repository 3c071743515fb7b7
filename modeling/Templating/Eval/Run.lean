import Templating.Eval.Statement

/-!
# The evaluator

The calls of the evaluator among its parts are tied together by recursion on a budget. Every call
hands one unit less to the calls below it, and a loop takes no more rounds than its budget.

* `evalWithin`, `advanceWithin`: nodes and iterators within a budget.
* `evaluate`, `render`, `renderString`, `advance`: the same with a budget that lasts.
-/

namespace Templating

open Eval

mutual

/-- Evaluates a node within a budget. -/
def evalWithin : Nat → Node → Eval Value
  | 0 => fun _ => throw .exhausted
  | n + 1 => fun node => Evaluator.evalNode ⟨evalWithin n, advanceWithin n, n⟩ node

/-- Takes the next item of an iterator within a budget. -/
def advanceWithin : Nat → Handle → Eval (Option Value)
  | 0 => fun _ => throw .exhausted
  | n + 1 => fun handle => Evaluator.advanceCell ⟨evalWithin n, advanceWithin n, n⟩ handle

end

/-- The evaluator with a budget. -/
def Evaluator.within (budget : Nat) : Evaluator :=
  ⟨evalWithin budget, advanceWithin budget, budget⟩

/-- A budget that no run exhausts in practice. -/
def lastingBudget : Nat := 0x4000000000000000

/-- The evaluator with a budget that lasts. -/
def Evaluator.lasting : Evaluator := .within lastingBudget

/-- Evaluates a node. -/
def evaluate (node : Node) : Eval Value := Evaluator.lasting.eval node

/-- Runs a template in the current scope and returns what it puts out. -/
def render (t : Template) : Eval (Array String) := Evaluator.lasting.render t

/-- The output of a template as one text. -/
def renderString (t : Template) : Eval String := return String.join (← render t).toList

/-- Takes the next item of an iterator. -/
def advance (handle : Handle) : Eval (Option Value) := Evaluator.lasting.advance handle

end Templating
