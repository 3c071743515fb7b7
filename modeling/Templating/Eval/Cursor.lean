import Templating.Eval.Iteration

/-!
# Advancing iterators

* `Cursor.range?`: the numbers from a start toward a stop, with a count of those that are left.
* `Evaluator.step`: one step of a cursor.
* `Evaluator.advanceCell`: advances an iterator of the store. One that is being advanced already
  fails, and the others are marked until the step is over.
-/

namespace Templating

open Eval Number

/-- How many steps lead from a start to the last number before a stop. -/
def rangeLength (start stop step : Int) : Nat :=
  if 0 < step then ((stop - start + step - 1) / step).toNat
  else ((start - stop - step - 1) / -step).toNat

/-- A count as a word of 64 bits without sign. One that is too large for a word counts as none. -/
def countWord (n : Int) : Nat := if 0 ≤ n ∧ n < 0x10000000000000000 then n.toNat else 0

/-- How many numbers a range has left at its start. -/
def rangeCount (start stop step : Int) : Nat :=
  if 0 < step ∧ start < stop then countWord ((stop - start - 1) / step + 1)
  else if step < 0 ∧ stop < start then countWord ((start - stop - 1) / -step + 1)
  else 0

/-- The numbers `start`, `start + step`, … before `stop`. -/
def Cursor.range? (function : String) (start stop step : Int64) : Except Cause Cursor :=
  if step = 0 then .error (.zeroStep function)
  else .ok (.range start step (rangeCount start.toInt stop.toInt step.toInt))

/-- Items with markers, counted from an index. -/
def Cursor.marked (inner : Handle) (markers : Markers) (index : Int64) : Cursor :=
  .flagged inner markers index true .unknown

/-- The sum of two words, cut to the words. -/
def addSaturating (m n : Int64) : Int64 := saturate (m.toInt + n.toInt)

/-- An item behind its markers. -/
def Markers.row (m : Markers) (index : Int64) (isFirst isLast : Bool) (item : Value) : Value :=
  .list ((if m.index then [.int index] else []) ++ (if m.first then [.bool isFirst] else []) ++
    (if m.last then [.bool isLast] else []) ++ [item])

namespace Evaluator

variable (ev : Evaluator)

/-- One item of each iterator, if all have one. Those after one that has none are left alone. -/
def row : List Handle → Eval (Option (List Value))
  | [] => return some []
  | inner :: inners => do
    match ← ev.advance inner with
    | none => return none
    | some item => return (← row inners).map (item :: ·)

/-- The next item of a generator expression, in its own frame. -/
def generate (g : Generator) : Eval (Option Value) :=
  ev.fold g.source none fun _ item => do
    ev.assign g.target item
    if ← ev.holds g.condition then return .done (some (← ev.eval g.item)) else return .on none

/-- One step of a flagged cursor whose next item, if there is one, is at hand. -/
def stepFlagged (inner : Handle) (markers : Markers) (index : Int64) (first : Bool)
    (current : Option Value) : Eval (Cursor × Except EvalError (Option Value)) := do
  match current with
  | none => return (.flagged inner markers index first .ended, .ok none)
  | some item =>
    let next ← if markers.last then attempt (ev.advance inner) else pure (.ok none)
    match next with
    | .error e => return (.flagged inner markers index first .unknown, .error e)
    | .ok next =>
      let lookahead : Lookahead :=
        if markers.last then (match next with
          | some item => .pending item
          | none => .ended)
        else .unknown
      let following := if markers.index then addSaturating index 1 else index
      return (.flagged inner markers following false lookahead,
        .ok (some (markers.row index first next.isNone item)))

/-- One step of a cursor: where it stands then, and the item or the error. -/
def step (cursor : Cursor) : Eval (Cursor × Except EvalError (Option Value)) := do
  match cursor with
  | .items [] => return (cursor, .ok none)
  | .items (item :: rest) => return (.items rest, .ok (some item))
  | .range _ _ 0 => return (cursor, .ok none)
  | .range next step (remaining + 1) =>
    return (.range (addSaturating next step) step remaining, .ok (some (.int next)))
  | .enumerate inner index =>
    match ← attempt (ev.advance inner) with
    | .error e => return (cursor, .error e)
    | .ok none => return (cursor, .ok none)
    | .ok (some item) =>
      return (.enumerate inner (addSaturating index 1), .ok (some (.list [.int index, item])))
  | .flagged inner markers index first .unknown =>
    match ← attempt (ev.advance inner) with
    | .error e => return (cursor, .error e)
    | .ok current => ev.stepFlagged inner markers index first current
  | .flagged inner markers index first (.pending item) =>
    ev.stepFlagged inner markers index first (some item)
  | .flagged _ _ _ _ .ended => return (cursor, .ok none)
  | .zip [] => return (cursor, .ok none)
  | .zip inners => return (cursor, (← attempt (ev.row inners)).map (·.map .list))
  | .generator g =>
    let (result, frame, _) ← inFrame g.frame (ev.generate g)
    return (.generator { g with frame }, result)
  | .supplied (item :: rest) failure => return (.supplied rest failure, .ok (some item))
  | .supplied [] (some failure) =>
    return (.supplied [] none, .error (.ofCause (.supplied failure)))
  | .supplied [] none => return (cursor, .ok none)
  | .relay inner => return (cursor, ← attempt (ev.advance inner))

/-- Takes the next item of an iterator of the store. -/
def advanceCell (handle : Handle) : Eval (Option Value) := do
  match (← get).store[handle]? with
  | none => return none
  | some ⟨_, true⟩ => raise .alreadyExecuting
  | some ⟨cursor, false⟩ =>
    setCell handle ⟨cursor, true⟩
    let (cursor, result) ← ev.step cursor
    setCell handle ⟨cursor, false⟩
    settle result

end Evaluator

end Templating
