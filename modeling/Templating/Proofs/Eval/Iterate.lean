import Templating.Proofs.Eval.Rename

/-!
# Iterating with other identities

* `Evaluator.Renames`: the calls one level deeper do with other identities what they do.
* `Evaluator.Renames.fold`, `Evaluator.Renames.assign`: loops and assignments.
* `Evaluator.Renames.advanceCell`: **advancing an iterator**.
-/

namespace Templating

open Eval

/-- The state of a loop, changed. -/
def Walk.map {α β : Type} (r : α → β) : Walk α → Walk β
  | .on state => .on (r state)
  | .done state => .done (r state)

/-- The calls one level deeper do with other identities what they do. -/
structure Evaluator.Renames (f : Relabel) (limit : Nat) (ev : Evaluator) : Prop where
  eval : ∀ node, Eval.Renames f limit (Value.relabel f) (ev.eval node) (ev.eval (node.relabel f))
  advance : ∀ handle,
    Eval.Renames f limit (Option.map (Value.relabel f)) (ev.advance handle) (ev.advance handle)

variable {f : Relabel} {limit : Nat}

theorem Value.sequence?_relabel (v : Value) :
    (v.relabel f).sequence? = v.sequence?.map (List.map (Value.relabel f)) := by
  cases v with
  | str s =>
    simp only [Value.relabel, Value.sequence?, Option.map, List.map_map]
    rfl
  | list items => exact congrArg some (Value.relabelAll_eq f items)
  | dict entries =>
    simp only [Value.relabel, Value.sequence?, Option.map, Value.relabelBindings_eq, List.map_map]
    rfl
  | _ => rfl

theorem Value.iterate_eq {v : Value} (h : ∀ handle, v ≠ .iterator handle) :
    v.iterate = match v.sequence? with
      | some items => allocate (.items items)
      | .none => raise (.notIterable v.typeName) := by
  cases v with
  | iterator handle => exact absurd rfl (h handle)
  | _ => rfl

theorem Eval.Renames.iterate (v : Value) :
    Eval.Renames f limit id v.iterate (v.relabel f).iterate := by
  by_cases hiterator : ∃ handle, v = .iterator handle
  · obtain ⟨handle, rfl⟩ := hiterator
    exact .pure rfl
  have hv : ∀ handle, v ≠ .iterator handle := fun handle heq => hiterator ⟨handle, heq⟩
  have hv' : ∀ handle, v.relabel f ≠ .iterator handle := by
    intro handle heq
    cases v with
    | iterator handle => exact hiterator ⟨handle, rfl⟩
    | _ => cases heq
  rw [Value.iterate_eq hv, Value.iterate_eq hv', Value.sequence?_relabel, Value.typeName_relabel]
  cases v.sequence? with
  | none => exact .raise _
  | some items => exact .allocate (.items items)

namespace Evaluator.Renames

variable {α β : Type} {r : α → β} {ev : Evaluator} (h : ev.Renames f limit)

include h

theorem holds (condition : Option Node) :
    Eval.Renames f limit id (ev.holds condition) (ev.holds (Node.relabelOpt f condition)) := by
  cases condition with
  | none => exact .pure rfl
  | some condition => exact .bind (h.eval condition) fun v => .pure v.isTruthy_relabel

theorem foldWithin (handle : Handle) {step : α → Value → Eval (Walk α)}
    {step' : β → Value → Eval (Walk β)}
    (hstep : ∀ a v, Eval.Renames f limit (Walk.map r) (step a v) (step' (r a) (v.relabel f)))
    (rounds : Nat) (a : α) :
    Eval.Renames f limit r (ev.foldWithin handle step rounds a)
      (ev.foldWithin handle step' rounds (r a)) := by
  induction rounds generalizing a with
  | zero => exact .throw _
  | succ rounds ih =>
    refine .bind (h.advance handle) fun item => ?_
    cases item with
    | none => exact .pure rfl
    | some item =>
      refine .bind (hstep a item) fun walk => ?_
      cases walk with
      | on state => exact ih state
      | done state => exact .pure rfl

/-- A loop whose rounds do with other identities what they do. -/
theorem fold (handle : Handle) (start : α) {step : α → Value → Eval (Walk α)}
    {step' : β → Value → Eval (Walk β)}
    (hstep : ∀ a v, Eval.Renames f limit (Walk.map r) (step a v) (step' (r a) (v.relabel f))) :
    Eval.Renames f limit r (ev.fold handle start step) (ev.fold handle (r start) step') :=
  h.foldWithin handle hstep ev.budget start

theorem collect (handle : Handle) :
    Eval.Renames f limit (List.map (Value.relabel f)) (ev.collect handle) (ev.collect handle) :=
  .bind (h.fold (r := List.map (Value.relabel f)) handle [] fun _ _ => .pure rfl) fun _ =>
    .pure (List.map_reverse ..).symm

theorem items (v : Value) :
    Eval.Renames f limit (List.map (Value.relabel f)) (ev.items v) (ev.items (v.relabel f)) := by
  cases v with
  | list vs => exact .pure (Value.relabelAll_eq f vs)
  | _ => exact .bind (.iterate _) fun handle => h.collect handle

theorem reversed (v : Value) :
    Eval.Renames f limit id (ev.reversed v) (ev.reversed (v.relabel f)) := by
  refine .bind (h.items v) fun items => ?_
  have hallocate : Eval.Renames f limit id (allocate (.items items.reverse))
      (allocate (Cursor.relabel f (.items items.reverse))) := .allocate _
  rwa [Cursor.relabel, List.map_reverse] at hallocate

theorem take (handle : Handle) (n : Nat) :
    Eval.Renames f limit (List.map (Value.relabel f)) (ev.take handle n) (ev.take handle n) := by
  induction n with
  | zero => exact .pure rfl
  | succ n ih =>
    refine .bind (h.advance handle) fun item => ?_
    cases item with
    | none => exact .pure rfl
    | some item => exact .bind ih fun items => .pure rfl

omit h

mutual

theorem assign (h : ev.Renames f limit) : ∀ (target : Target) (v : Value),
    Eval.Renames f limit id (ev.assign target v) (ev.assign target (v.relabel f))
  | .name name, v => by
    unfold Evaluator.assign
    exact .bindVar name v
  | .tuple targets, v => by
    unfold Evaluator.assign
    refine .bind (.iterate v) fun handle => .bind (h.take handle _) fun items => ?_
    rw [List.length_map]
    split
    · exact assignAll h targets items
    · exact .raise _

theorem assignAll (h : ev.Renames f limit) : ∀ (targets : List Target) (vs : List Value),
    Eval.Renames f limit id (ev.assignAll targets vs)
      (ev.assignAll targets (vs.map (Value.relabel f)))
  | [], vs => by
    unfold Evaluator.assignAll
    exact .pure rfl
  | _ :: _, [] => by
    unfold Evaluator.assignAll
    exact .pure rfl
  | target :: targets, v :: vs => by
    unfold Evaluator.assignAll
    exact .bind (assign h target v) fun _ => assignAll h targets vs

end

/-! ## Cursors -/

include h

theorem row (handles : List Handle) :
    Eval.Renames f limit (Option.map (List.map (Value.relabel f))) (ev.row handles)
      (ev.row handles) := by
  induction handles with
  | nil => exact .pure rfl
  | cons handle handles ih =>
    refine .bind (h.advance handle) fun item => ?_
    cases item with
    | none => exact .pure rfl
    | some item =>
      refine .bind ih fun items => .pure ?_
      cases items <;> rfl

theorem generate (g : Generator) :
    Eval.Renames f limit (Option.map (Value.relabel f)) (ev.generate g)
      (ev.generate (g.relabel f)) := by
  refine h.fold (r := Option.map (Value.relabel f)) g.source none fun _ item => ?_
  refine .bind (h.assign g.target item) fun _ => .bind (h.holds g.condition) fun holds => ?_
  cases holds with
  | true => exact .bind (h.eval g.item) fun v => .pure rfl
  | false => exact .pure rfl

omit h in
theorem markers_row (markers : Markers) (index : Int64) (isFirst isLast : Bool) (item : Value) :
    markers.row index isFirst isLast (item.relabel f) =
      (markers.row index isFirst isLast item).relabel f := by
  obtain ⟨index, first, last⟩ := markers
  cases index <;> cases first <;> cases last <;> rfl

/-- A position and an item or an error, with new identities. -/
def stepped (f : Relabel) :
    Cursor × Except EvalError (Option Value) → Cursor × Except EvalError (Option Value) :=
  Prod.map (Cursor.relabel f) (Except.map (Option.map (Value.relabel f)))

theorem stepFlagged (inner : Handle) (markers : Markers) (index : Int64) (first : Bool)
    (current : Option Value) :
    Eval.Renames f limit (stepped f) (ev.stepFlagged inner markers index first current)
      (ev.stepFlagged inner markers index first (current.map (Value.relabel f))) := by
  cases current with
  | none => exact .pure rfl
  | some item =>
    unfold Evaluator.stepFlagged
    simp only [Option.map_some, markers_row]
    cases markers.last with
    | true =>
      refine .bind (h.advance inner).attempt fun next => ?_
      rcases next with e | next | next
      · exact .pure rfl
      · exact .pure rfl
      · exact .pure rfl
    | false =>
      refine .bind (.pure (r := Except.map (Option.map (Value.relabel f))) rfl) fun next => ?_
      rcases next with e | next | next
      · exact .pure rfl
      · exact .pure rfl
      · exact .pure rfl

theorem step (cursor : Cursor) :
    Eval.Renames f limit (stepped f) (ev.step cursor) (ev.step (cursor.relabel f)) := by
  cases cursor with
  | items rest => cases rest <;> exact .pure rfl
  | range next step remaining => cases remaining <;> exact .pure rfl
  | enumerate inner index =>
    refine .bind (h.advance inner).attempt fun next => ?_
    rcases next with e | next | next <;> exact .pure rfl
  | flagged inner markers index first next =>
    cases next with
    | unknown =>
      refine .bind (h.advance inner).attempt fun next => ?_
      cases next with
      | error e => exact .pure rfl
      | ok current => exact h.stepFlagged inner markers index first current
    | pending item => exact h.stepFlagged inner markers index first (some item)
    | ended => exact .pure rfl
  | zip inners =>
    cases inners with
    | nil => exact .pure rfl
    | cons inner inners =>
      refine .bind (h.row (inner :: inners)).attempt fun next => .pure ?_
      rcases next with e | next | next <;>
        simp [Except.map, stepped, Cursor.relabel, Value.relabel, Value.relabelAll_eq]
  | generator g => exact .bind (.inFrame g.frame (h.generate g)) fun ⟨result, frame, _⟩ => .pure rfl
  | supplied rest failure =>
    cases rest with
    | cons item rest => exact .pure rfl
    | nil => cases failure <;> exact .pure rfl
  | relay inner => exact .bind (h.advance inner).attempt fun next => .pure rfl

/-- **Advancing an iterator does with other identities what it does.** -/
theorem advanceCell (handle : Handle) :
    Eval.Renames f limit (Option.map (Value.relabel f)) (ev.advanceCell handle)
      (ev.advanceCell handle) := by
  refine .bind .get fun m => ?_
  have hcell : (m.relabel f).store[handle]? = m.store[handle]?.map (Cell.relabel f) :=
    Array.getElem?_map ..
  rw [hcell]
  rcases m.store[handle]? with _ | ⟨cursor, _ | _⟩
  · exact .pure rfl
  · exact .bind (.setCell handle ⟨cursor, true⟩) fun _ => .bind (h.step cursor)
      fun ⟨cursor, result⟩ => .bind (.setCell handle ⟨cursor, false⟩) fun _ => .settle rfl
  · exact .raise _

end Evaluator.Renames

end Templating
