import Templating.Eval.Machine

/-!
# Iterating over values

The evaluator, the iterators and the builtins call one another. Each of them is defined here and in
the next modules given an `Evaluator`, which stands for the calls one level deeper.

* `Evaluator`: how to evaluate a node and to advance an iterator, and a bound on loops.
* `Value.iterate`: a value as an iterator.
* `Evaluator.fold`: a loop over an iterator.
* `Evaluator.collect`, `Evaluator.items`: the items of an iterator or a value.
-/

namespace Templating

/-- The calls one level deeper. -/
structure Evaluator where
  eval : Node → Eval Value
  /-- Takes the next item of an iterator, if there is one. -/
  advance : Handle → Eval (Option Value)
  /-- How many rounds a loop may take. -/
  budget : Nat

/-- Whether a loop goes on. -/
inductive Walk (α : Type) where
  | on (state : α)
  | done (state : α)

open Eval

/-- The items of a value that is a sequence. Strings consist of characters, dicts of their keys, and
colors of their channels. -/
def Value.sequence? : Value → Option (List Value)
  | .str s => some (s.toList.map fun c => .str (String.singleton c))
  | .list items => some items
  | .dict entries => some (entries.map fun (key, _) => .str key)
  | .color c => some (Value.channels c)
  | _ => Option.none

/-- A value as an iterator. An iterator is itself and keeps its position. -/
def Value.iterate (value : Value) : Eval Handle :=
  match value with
  | .iterator handle => return handle
  | value =>
    match value.sequence? with
    | some items => allocate (.items items)
    | .none => raise (.notIterable value.typeName)

namespace Evaluator

variable {α : Type} (ev : Evaluator)

/-- Whether a condition holds; a missing one does. -/
def holds : Option Node → Eval Bool
  | none => return true
  | some condition => return (← ev.eval condition).isTruthy

/-- A loop over an iterator of less than `rounds` rounds. -/
def foldWithin (handle : Handle) (step : α → Value → Eval (Walk α)) : Nat → α → Eval α
  | 0, _ => throw .exhausted
  | rounds + 1, state => do
    match ← ev.advance handle with
    | none => return state
    | some item =>
      match ← step state item with
      | .on state => foldWithin handle step rounds state
      | .done state => return state

/-- A loop over an iterator. An item is taken only when the round before it is over and has not
ended the loop. -/
def fold (handle : Handle) (start : α) (step : α → Value → Eval (Walk α)) : Eval α :=
  ev.foldWithin handle step ev.budget start

/-- All items of an iterator that are left. -/
def collect (handle : Handle) : Eval (List Value) := do
  let items ← ev.fold handle [] fun items item => return .on (item :: items)
  return items.reverse

/-- All items of a value. -/
def items (value : Value) : Eval (List Value) :=
  match value with
  | .list items => return items
  | value => do ev.collect (← value.iterate)

/-- An iterator over the items of a value from the last to the first. -/
def reversed (value : Value) : Eval Handle := do
  allocate (.items (← ev.items value).reverse)

/-- At most `n` items of an iterator. -/
def take (handle : Handle) : Nat → Eval (List Value)
  | 0 => return []
  | n + 1 => do
    match ← ev.advance handle with
    | none => return []
    | some item => return item :: (← take handle n)

mutual

/-- Binds a value to a target. A tuple asks the value for one item more than it has targets, and no
further. -/
def assign : Target → Value → Eval Unit
  | .name name, value => bindVar name value
  | .tuple targets, value => do
    let handle ← value.iterate
    let items ← ev.take handle (targets.length + 1)
    if items.length = targets.length then assignAll targets items
    else raise (.unpackMismatch targets.length (min items.length targets.length)
      (targets.length < items.length))

/-- Binds values to targets pairwise. -/
def assignAll : List Target → List Value → Eval Unit
  | target :: targets, value :: values => do
    assign target value
    assignAll targets values
  | _, _ => return ()

end

end Evaluator

end Templating
