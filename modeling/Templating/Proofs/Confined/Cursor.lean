import Templating.Proofs.Confined.Basic

/-!
# Confined iteration

* `Evaluator.Confined`: the calls one level deeper are confined to some code.
* `Evaluator.Confined.fold`, `Evaluator.Confined.assign`: loops and assignments.
* `Evaluator.Confined.advanceCell`: **advancing an iterator**. A generator evaluates the nodes that
  it holds.
-/

namespace Templating

open Eval

/-- The state of a loop, whether it goes on or not. -/
def Walk.state {α : Type} : Walk α → α
  | .on state | .done state => state

/-- The calls one level deeper are confined to some code. -/
structure Evaluator.Confined (code : Code) (limit : Nat) (ev ev' : Evaluator) : Prop where
  eval : ∀ node, code node →
    Eval.Confined code limit (Value.Within code) (ev.eval node) (ev'.eval node)
  advance : ∀ handle, Eval.Confined code limit (fun item => ∀ v ∈ item, v.Within code)
    (ev.advance handle) (ev'.advance handle)
  budget : ev'.budget = ev.budget

variable {code : Code} {limit : Nat} {v : Value}

/-! ## Cursors -/

theorem Cursor.within_items_iff {rest : List Value} :
    (Cursor.items rest).Within code ↔ Value.AllWithin code rest :=
  ⟨fun h => h.values, fun h => ⟨h, nofun⟩⟩

/-- A cursor that holds handles and numbers only. -/
theorem Cursor.Within.plain {cursor : Cursor} (hvalues : cursor.values = [])
    (hnodes : cursor.nodes = []) : cursor.Within code :=
  ⟨hvalues ▸ nofun, hnodes ▸ nofun⟩

theorem Value.Within.option (h : v.Within code) : ∀ w ∈ some v, w.Within code := by
  rintro _ ⟨⟩
  exact h

theorem Value.Within.sequence? (h : v.Within code) {vs : List Value} (hvs : v.sequence? = some vs) :
    Value.AllWithin code vs := by
  -- what is made of strings and numbers holds no templates
  have hmap {α : Type} {f : α → Value} (hf : ∀ a, (f a).Within code) (as : List α) :
      Value.AllWithin code (as.map f) := by
    intro v hv
    obtain ⟨a, -, rfl⟩ := List.mem_map.1 hv
    exact hf a
  cases v with
  | list items =>
    cases hvs
    exact Value.within_list_iff.1 h
  | str s =>
    cases hvs
    exact hmap (fun c => Value.within_str _) _
  | dict entries =>
    cases hvs
    exact hmap (fun e => Value.within_str _) _
  | color c =>
    cases hvs
    exact hmap (fun n => Value.within_int _) _
  | _ => cases hvs

theorem Eval.Confined.iterate (h : v.Within code) :
    Eval.Confined code limit (fun _ => True) v.iterate v.iterate := by
  have hsequence : Eval.Confined code limit (fun _ => True)
      (v.sequence?.elim (Eval.raise (.notIterable v.typeName)) fun items =>
        Eval.allocate (.items items))
      (v.sequence?.elim (Eval.raise (.notIterable v.typeName)) fun items =>
        Eval.allocate (.items items)) := by
    cases hv : v.sequence? with
    | none => exact .raise _
    | some items => exact .allocate (Cursor.within_items_iff.2 (h.sequence? hv))
  cases v with
  | iterator handle => exact .pure trivial
  | _ => exact hsequence

namespace Evaluator.Confined

variable {α : Type} {P : α → Prop} {ev ev' : Evaluator} (h : ev.Confined code limit ev')

include h

/-! ## Loops -/

theorem holds {condition : Option Node} (hcode : ∀ n ∈ condition, code n) :
    Eval.Confined code limit (fun _ => True) (ev.holds condition) (ev'.holds condition) := by
  cases condition with
  | none => exact .pure trivial
  | some condition => exact .bind (h.eval condition (hcode condition rfl)) fun _ _ => .pure trivial

theorem foldWithin (handle : Handle) {step step' : α → Value → Eval (Walk α)}
    (hstep : ∀ a v, P a → v.Within code →
      Eval.Confined code limit (fun walk => P walk.state) (step a v) (step' a v))
    (rounds : Nat) {a : α} (ha : P a) :
    Eval.Confined code limit P (ev.foldWithin handle step rounds a)
      (ev'.foldWithin handle step' rounds a) := by
  induction rounds generalizing a with
  | zero => exact .throw _
  | succ rounds ih =>
    refine .bind (h.advance handle) fun item hitem => ?_
    cases item with
    | none => exact .pure ha
    | some item =>
      refine .bind (hstep a item ha (hitem item rfl)) fun walk hwalk => ?_
      cases walk with
      | on state => exact ih hwalk
      | done state => exact .pure hwalk

/-- A loop whose rounds keep a property of its state. -/
theorem fold (handle : Handle) {start : α} (hstart : P start)
    {step step' : α → Value → Eval (Walk α)}
    (hstep : ∀ a v, P a → v.Within code →
      Eval.Confined code limit (fun walk => P walk.state) (step a v) (step' a v)) :
    Eval.Confined code limit P (ev.fold handle start step) (ev'.fold handle start step') := by
  unfold Evaluator.fold
  rw [h.budget]
  exact h.foldWithin handle hstep ev.budget hstart

theorem collect (handle : Handle) :
    Eval.Confined code limit (Value.AllWithin code) (ev.collect handle) (ev'.collect handle) :=
  .bind (h.fold (P := Value.AllWithin code) handle .nil fun _ _ hvs hv => .pure (hvs.cons hv))
    fun _ hvs => .pure hvs.reverse

theorem items (hv : v.Within code) :
    Eval.Confined code limit (Value.AllWithin code) (ev.items v) (ev'.items v) := by
  cases v with
  | list vs => exact .pure (Value.within_list_iff.1 hv)
  | _ => exact .bind (.iterate hv) fun handle _ => h.collect handle

theorem reversed (hv : v.Within code) :
    Eval.Confined code limit (fun _ => True) (ev.reversed v) (ev'.reversed v) :=
  .bind (h.items hv) fun _ hvs => .allocate (Cursor.within_items_iff.2 hvs.reverse)

theorem take (handle : Handle) (n : Nat) :
    Eval.Confined code limit (Value.AllWithin code) (ev.take handle n) (ev'.take handle n) := by
  induction n with
  | zero => exact .pure .nil
  | succ n ih =>
    refine .bind (h.advance handle) fun item hitem => ?_
    cases item with
    | none => exact .pure .nil
    | some item => exact .bind ih fun _ hvs => .pure (hvs.cons (hitem item rfl))

omit h

mutual

theorem assign (h : ev.Confined code limit ev') : ∀ (target : Target) {v : Value}, v.Within code →
    Eval.Confined code limit (fun _ => True) (ev.assign target v) (ev'.assign target v)
  | .name name, v, hv => by
    unfold Evaluator.assign
    exact .bindVar name hv
  | .tuple targets, v, hv => by
    unfold Evaluator.assign
    refine .bind (.iterate hv) fun handle _ => .bind (h.take handle _) fun items hitems => ?_
    split
    · exact assignAll h targets hitems
    · exact .raise _

theorem assignAll (h : ev.Confined code limit ev') : ∀ (targets : List Target) {vs : List Value},
    Value.AllWithin code vs →
      Eval.Confined code limit (fun _ => True) (ev.assignAll targets vs)
        (ev'.assignAll targets vs)
  | [], vs, _ => by
    unfold Evaluator.assignAll
    exact .pure trivial
  | _ :: _, [], _ => by
    unfold Evaluator.assignAll
    exact .pure trivial
  | target :: targets, v :: vs, hvs => by
    obtain ⟨hv, hvs⟩ := List.forall_mem_cons.1 hvs
    unfold Evaluator.assignAll
    exact .bind (assign h target hv) fun _ _ => assignAll h targets hvs

end

/-! ## Advancing -/

include h

theorem row (handles : List Handle) :
    Eval.Confined code limit (fun items => ∀ vs ∈ items, Value.AllWithin code vs)
      (ev.row handles) (ev'.row handles) := by
  induction handles with
  | nil => exact .pure (by rintro _ ⟨⟩; exact .nil)
  | cons handle handles ih =>
    refine .bind (h.advance handle) fun item hitem => ?_
    cases item with
    | none => exact .pure nofun
    | some item =>
      refine .bind ih fun items hitems => .pure fun vs hvs => ?_
      obtain ⟨rest, hrest, rfl⟩ := Option.mem_map.1 hvs
      exact (hitems rest hrest).cons (hitem item rfl)

theorem generate {g : Generator} (hg : (Cursor.generator g).Within code) :
    Eval.Confined code limit (fun item => ∀ v ∈ item, v.Within code) (ev.generate g)
      (ev'.generate g) := by
  obtain ⟨hitem, hcondition⟩ := List.forall_mem_cons.1 hg.nodes
  refine h.fold g.source nofun fun _ item _ hv => ?_
  refine .bind (h.assign g.target hv) fun _ _ =>
    .bind (h.holds fun n hn => hcondition n (Option.mem_toList.2 hn)) fun holds _ => ?_
  cases holds with
  | true => exact .bind (h.eval g.item hitem) fun v hv => .pure hv.option
  | false => exact .pure nofun

/-- A position and an item or an error that are within some code. -/
def Stepped (code : Code) (r : Cursor × Except EvalError (Option Value)) : Prop :=
  r.1.Within code ∧ OrError (fun item => ∀ v ∈ item, v.Within code) r.2

omit h in
theorem within_row (markers : Markers) (index : Int64) (isFirst isLast : Bool)
    (hv : v.Within code) : (markers.row index isFirst isLast v).Within code := by
  refine Value.within_list_iff.2 fun item hitem => ?_
  simp only [List.mem_append, List.mem_singleton] at hitem
  rcases hitem with ((hitem | hitem) | hitem) | rfl
  · split at hitem <;> simp only [List.mem_singleton, List.not_mem_nil] at hitem
    exact hitem ▸ Value.within_int _
  · split at hitem <;> simp only [List.mem_singleton, List.not_mem_nil] at hitem
    exact hitem ▸ Value.within_bool _
  · split at hitem <;> simp only [List.mem_singleton, List.not_mem_nil] at hitem
    exact hitem ▸ Value.within_bool _
  · exact hv

theorem stepFlagged (inner : Handle) (markers : Markers) (index : Int64) (first : Bool)
    {current : Option Value} (hcurrent : ∀ v ∈ current, v.Within code) :
    Eval.Confined code limit (Stepped code) (ev.stepFlagged inner markers index first current)
      (ev'.stepFlagged inner markers index first current) := by
  cases current with
  | none => exact .pure ⟨.plain rfl rfl, nofun⟩
  | some item =>
    have hitem := hcurrent item rfl
    have hrow (isLast : Bool) : ∀ v ∈ some (markers.row index first isLast item), v.Within code :=
      (within_row markers index first isLast hitem).option
    unfold Evaluator.stepFlagged
    dsimp only
    cases hlast : markers.last with
    | true =>
      refine .bind (h.advance inner).attempt fun next hnext => ?_
      rcases next with e | next | next
      · exact .pure ⟨.plain rfl rfl, trivial⟩
      · exact .pure ⟨.plain rfl rfl, hrow true⟩
      · have hpending : Value.AllWithin code [next] := .cons (hnext next rfl) .nil
        exact .pure ⟨⟨hpending, nofun⟩, hrow false⟩
    | false =>
      refine .bind (.pure (P := fun next => next = .ok none) rfl) fun next hnext => ?_
      cases hnext
      exact .pure ⟨.plain rfl rfl, hrow true⟩

theorem step {cursor : Cursor} (hcursor : cursor.Within code) :
    Eval.Confined code limit (Stepped code) (ev.step cursor) (ev'.step cursor) := by
  cases cursor with
  | items rest =>
    cases rest with
    | nil => exact .pure ⟨hcursor, nofun⟩
    | cons item rest =>
      obtain ⟨hitem, hrest⟩ := List.forall_mem_cons.1 hcursor.values
      exact .pure ⟨⟨hrest, nofun⟩, hitem.option⟩
  | range next step remaining =>
    cases remaining with
    | zero => exact .pure ⟨hcursor, nofun⟩
    | succ remaining =>
      exact .pure ⟨.plain rfl rfl, (Value.within_int _).option⟩
  | enumerate inner index =>
    refine .bind (h.advance inner).attempt fun next hnext => ?_
    rcases next with e | next | next
    · exact .pure ⟨hcursor, trivial⟩
    · exact .pure ⟨hcursor, nofun⟩
    · have hpair : Value.AllWithin code [.int index, next] :=
        .cons (Value.within_int _) (.cons (hnext next rfl) .nil)
      exact .pure ⟨.plain rfl rfl, (Value.within_list_iff.2 hpair).option⟩
  | flagged inner markers index first next =>
    cases next with
    | unknown =>
      refine .bind (h.advance inner).attempt fun next hnext => ?_
      cases next with
      | error e => exact .pure ⟨hcursor, trivial⟩
      | ok current => exact h.stepFlagged inner markers index first hnext
    | pending item =>
      have hitem := hcursor.values item (List.mem_singleton_self item)
      exact h.stepFlagged inner markers index first hitem.option
    | ended => exact .pure ⟨hcursor, nofun⟩
  | zip inners =>
    cases inners with
    | nil => exact .pure ⟨hcursor, nofun⟩
    | cons inner inners =>
      refine .bind (h.row (inner :: inners)).attempt fun next hnext => .pure ⟨hcursor, ?_⟩
      rcases next with e | next | next
      · trivial
      · exact nofun
      · exact (Value.within_list_iff.2 (hnext next rfl)).option
  | generator g =>
    have hframe : g.frame.env.Within code := hcursor.values
    exact .bind (.inFrame hframe (h.generate hcursor)) fun _ hended =>
      .pure ⟨⟨hended.2, hcursor.nodes⟩, hended.1⟩
  | supplied rest failure =>
    cases rest with
    | cons item rest =>
      obtain ⟨hitem, hrest⟩ := List.forall_mem_cons.1 hcursor.values
      exact .pure ⟨⟨hrest, nofun⟩, hitem.option⟩
    | nil =>
      cases failure with
      | none => exact .pure ⟨hcursor, nofun⟩
      | some failure => exact .pure ⟨.plain rfl rfl, trivial⟩
  | relay inner =>
    exact .bind (h.advance inner).attempt fun _ hnext => .pure ⟨hcursor, hnext⟩

/-- **Advancing an iterator is confined**: it stays in the store, and what it holds was within the
code before. -/
theorem advanceCell (handle : Handle) :
    Eval.Confined code limit (fun item => ∀ v ∈ item, v.Within code) (ev.advanceCell handle)
      (ev'.advanceCell handle) := by
  refine .bind .get fun m hm => ?_
  cases hcell : m.store[handle]? with
  | none => exact .pure nofun
  | some cell =>
    obtain ⟨cursor, busy⟩ := cell
    have hcursor : cursor.Within code := hm.store _ (Array.mem_of_getElem? hcell)
    cases busy with
    | true => exact .raise _
    | false =>
      exact .bind (.setCell handle hcursor) fun _ _ => .bind (h.step hcursor)
        fun ⟨cursor, result⟩ ⟨hleft, hresult⟩ => .bind (.setCell handle hleft) fun _ _ =>
          .settle hresult

end Evaluator.Confined

end Templating
