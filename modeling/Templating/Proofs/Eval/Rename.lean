import Templating.Eval.Cursor
import Templating.Proofs.Eval.Outcome
import Templating.Proofs.Builtin.Relabel

/-!
# Machines with other identities

* `Environment.relabel`, `Cursor.relabel`, `Machine.relabel`: variables, iterators and machines with
  new identities of the templates and nodes in them.
* `Eval.Renames`: an action does with other identities what another one does.
* `Eval.Renames.bind`, `Eval.Renames.attempt`, `Eval.Renames.inFrame`: **the ways to put actions
  together keep that**.
-/

namespace Templating

open Value (relabelAll relabelBindings)

/-! ## Bindings -/

section

variable {f : Relabel} (key : String) (value : Value) (bs news : List (String × Value))

theorem insert_relabelBindings :
    Bindings.insert key (value.relabel f) (relabelBindings f bs) =
      relabelBindings f (Bindings.insert key value bs) := by
  simp only [Value.relabelBindings_eq]
  exact Bindings.insert_mapValues (Value.relabel f) key value bs

theorem erase_relabelBindings :
    Bindings.erase key (relabelBindings f bs) = relabelBindings f (Bindings.erase key bs) := by
  simp only [Value.relabelBindings_eq]
  exact Bindings.erase_mapValues (Value.relabel f) key bs

theorem merge_relabelBindings :
    Bindings.merge (relabelBindings f bs) (relabelBindings f news) =
      relabelBindings f (Bindings.merge bs news) := by
  simp only [Value.relabelBindings_eq]
  exact Bindings.merge_mapValues (Value.relabel f) bs news

theorem contains_relabelBindings :
    Bindings.contains key (relabelBindings f bs) = Bindings.contains key bs := by
  simp only [Value.relabelBindings_eq]
  exact Bindings.contains_mapValues (Value.relabel f) key bs

end

/-! ## Variables -/

namespace Environment

/-- Variables with new identities. -/
def relabel (f : Relabel) (e : Environment) : Environment :=
  ⟨relabelBindings f e.inner, e.outer.map (relabelBindings f)⟩

variable {f : Relabel} (e : Environment) (name : String) (value : Value)

@[simp] theorem push_relabel : (e.relabel f).push = e.push.relabel f := rfl

@[simp] theorem pop_relabel : (e.relabel f).pop = e.pop.relabel f := by
  obtain ⟨inner, outer⟩ := e
  cases outer <;> rfl

theorem scopes_relabel : (e.relabel f).scopes = e.scopes.map (relabelBindings f) := rfl

@[simp] theorem lookup?_relabel :
    (e.relabel f).lookup? name = (e.lookup? name).map (Value.relabel f) := by
  rw [lookup?, lookup?, scopes_relabel]
  induction e.scopes with
  | nil => rfl
  | cons scope scopes ih =>
    rw [List.map_cons, List.findSome?_cons, List.findSome?_cons, ih,
      Value.lookup?_relabelBindings]
    cases Bindings.lookup? name scope <;> rfl

@[simp] theorem bind_relabel :
    (e.relabel f).bind name (value.relabel f) = (e.bind name value).relabel f := by
  rw [bind, relabel, relabel, insert_relabelBindings]
  rfl

theorem removeFrom_relabel (scopes : List Scope) :
    removeFrom name (scopes.map (relabelBindings f)) =
      (removeFrom name scopes).map fun (v, scopes) =>
        (v.relabel f, scopes.map (relabelBindings f)) := by
  induction scopes with
  | nil => rfl
  | cons scope scopes ih =>
    rw [List.map_cons, removeFrom, removeFrom, Value.lookup?_relabelBindings]
    cases Bindings.lookup? name scope with
    | some v =>
      simp only [Option.map, List.map_cons, erase_relabelBindings]
    | none =>
      simp only [Option.map_none, ih]
      cases removeFrom name scopes <;> rfl

theorem remove?_relabel :
    (e.relabel f).remove? name =
      (e.remove? name).map fun (v, e) => (v.relabel f, e.relabel f) := by
  obtain ⟨inner, outer⟩ := e
  simp only [relabel, remove?, Value.lookup?_relabelBindings]
  cases Bindings.lookup? name inner with
  | some v => simp only [Option.map, erase_relabelBindings]
  | none =>
    simp only [Option.map_none, removeFrom_relabel]
    cases removeFrom name outer <;> rfl

theorem snapshot_relabel : (e.relabel f).snapshot = relabelBindings f e.snapshot := by
  have hfold : ∀ (scopes : List Scope) (bs : Scope),
      (scopes.map (relabelBindings f)).foldl Bindings.merge (relabelBindings f bs) =
        relabelBindings f (scopes.foldl Bindings.merge bs) := by
    intro scopes
    induction scopes with
    | nil => exact fun _ => rfl
    | cons scope scopes ih =>
      intro bs
      rw [List.map_cons, List.foldl_cons, List.foldl_cons, merge_relabelBindings]
      exact ih _
  rw [snapshot, snapshot, scopes_relabel, ← List.map_reverse]
  exact hfold e.scopes.reverse []

end Environment

/-! ## Machines -/

/-- A frame with new identities. -/
def Frame.relabel (f : Relabel) (frame : Frame) : Frame := { frame with env := frame.env.relabel f }

/-- A generator expression with new identities. -/
def Generator.relabel (f : Relabel) (g : Generator) : Generator where
  frame := g.frame.relabel f
  source := g.source
  target := g.target
  condition := Node.relabelOpt f g.condition
  item := g.item.relabel f

/-- What is known about the next item, with new identities. -/
def Lookahead.relabel (f : Relabel) : Lookahead → Lookahead
  | .unknown => .unknown
  | .pending value => .pending (value.relabel f)
  | .ended => .ended

/-- The position of an iterator with new identities. -/
def Cursor.relabel (f : Relabel) : Cursor → Cursor
  | .items rest => .items (rest.map (Value.relabel f))
  | .range next step remaining => .range next step remaining
  | .enumerate inner index => .enumerate inner index
  | .flagged inner markers index first next => .flagged inner markers index first (next.relabel f)
  | .zip inners => .zip inners
  | .generator g => .generator (g.relabel f)
  | .supplied rest failure => .supplied (rest.map (Value.relabel f)) failure
  | .relay inner => .relay inner

/-- A cell with new identities. -/
def Cell.relabel (f : Relabel) (cell : Cell) : Cell := ⟨cell.cursor.relabel f, cell.busy⟩

/-- A machine with new identities. -/
def Machine.relabel (f : Relabel) (m : Machine) : Machine :=
  { m with store := m.store.map (Cell.relabel f), frame := m.frame.relabel f }

@[simp] theorem Machine.fresh_relabel (f : Relabel) (m : Machine) :
    (m.relabel f).fresh = m.fresh := rfl

@[simp] theorem Machine.frame_relabel (f : Relabel) (m : Machine) :
    (m.relabel f).frame = m.frame.relabel f := rfl

@[simp] theorem Frame.env_relabel (f : Relabel) (frame : Frame) :
    (frame.relabel f).env = frame.env.relabel f := rfl

/-! ## Actions -/

namespace Eval

variable {α β γ δ : Type}

/-- What an action ended with, with new identities in the machine and another result. -/
def Outcome.relabel (f : Relabel) (r : α → β) : Outcome α → Outcome β
  | .ok a m => .ok (r a) (m.relabel f)
  | .error e m => .error e (m.relabel f)

/-- An action does with other identities what another one does, with a result that is changed by
`r`, as long as the machine gives out identities from a limit on only. -/
def Renames (f : Relabel) (limit : Nat) (r : α → β) (x : Eval α) (y : Eval β) : Prop :=
  ∀ m, limit ≤ m.fresh →
    y (m.relabel f) = (Outcome.relabel f r (x m)) ∧ limit ≤ (Outcome.machine (x m)).fresh

variable {f : Relabel} {limit : Nat} {r : α → β} {x : Eval α} {y : Eval β}

theorem Renames.pure {a : α} {b : β} (h : b = r a) :
    Renames f limit r (Pure.pure a) (Pure.pure b) := by
  intro m hm
  subst h
  exact ⟨rfl, hm⟩

theorem Renames.bind {q : γ → δ} {k : α → Eval γ} {l : β → Eval δ} (hx : Renames f limit r x y)
    (hk : ∀ a, Renames f limit q (k a) (l (r a))) :
    Renames f limit q (x >>= k) (y >>= l) := by
  intro m hm
  obtain ⟨hy, hfresh⟩ := hx m hm
  cases h : x m with
  | ok a m' =>
    rw [h] at hy hfresh
    rw [bind_ok hy, bind_ok h]
    exact hk a m' hfresh
  | error e m' =>
    rw [h] at hy hfresh
    rw [bind_error hy, bind_error h]
    exact ⟨rfl, hfresh⟩

theorem Renames.throw (e : Abort) : Renames f limit r (throw e) (throw e) := fun _ hm => ⟨rfl, hm⟩

theorem Renames.raise (c : Cause) : Renames f limit r (raise c) (raise c) := .throw _

theorem Renames.lift {e : Except Cause α} {e' : Except Cause β} (h : e' = e.map r) :
    Renames f limit r (lift e) (Eval.lift e') := by
  subst h
  cases e with
  | ok a => exact .pure rfl
  | error c => exact .raise c

theorem Renames.liftWire {e : Except Wire.Error α} {e' : Except Wire.Error β} (h : e' = e.map r) :
    Renames f limit r (liftWire e) (Eval.liftWire e') := by
  subst h
  cases e with
  | ok a => exact .pure rfl
  | error c => exact .raise _

theorem Renames.settle {e : Except EvalError α} {e' : Except EvalError β} (h : e' = e.map r) :
    Renames f limit r (settle e) (Eval.settle e') := by
  subst h
  cases e with
  | ok a => exact .pure rfl
  | error c => exact .throw _

theorem Renames.attempt (h : Renames f limit r x y) :
    Renames f limit (Except.map r) (attempt x) (Eval.attempt y) := by
  intro m hm
  obtain ⟨hy, hfresh⟩ := h m hm
  unfold Eval.attempt
  rw [hy]
  cases hx : x m with
  | ok a m' =>
    rw [hx] at hfresh
    exact ⟨rfl, hfresh⟩
  | error e m' =>
    rw [hx] at hfresh
    cases e <;> exact ⟨rfl, hfresh⟩

theorem Renames.mapError (g : EvalError → EvalError) (h : Renames f limit r x y) :
    Renames f limit r (mapError g x) (Eval.mapError g y) := by
  intro m hm
  obtain ⟨hy, hfresh⟩ := h m hm
  unfold Eval.mapError
  rw [hy]
  cases hx : x m with
  | ok a m' =>
    rw [hx] at hfresh
    exact ⟨rfl, hfresh⟩
  | error e m' =>
    rw [hx] at hfresh
    cases e <;> exact ⟨rfl, hfresh⟩

theorem Renames.locating (location : Location) (h : Renames f limit r x y) :
    Renames f limit r (locating location x) (Eval.locating location y) := .mapError _ h

/-! ## The machine -/

theorem Renames.get : Renames f limit (Machine.relabel f) (MonadState.get : Eval Machine)
    MonadState.get := fun _ hm => ⟨rfl, hm⟩

/-- A change that does not give out identities. -/
theorem Renames.modify {g g' : Machine → Machine}
    (h : ∀ m, g' (m.relabel f) = (g m).relabel f ∧ (g m).fresh = m.fresh) :
    Renames f limit id (modify g : Eval Unit) (modify g') := by
  intro m hm
  obtain ⟨hrelabel, hfresh⟩ := h m
  refine ⟨?_, ?_⟩
  · change EStateM.Result.ok () (g' (m.relabel f)) = EStateM.Result.ok () ((g m).relabel f)
    rw [hrelabel]
  · change limit ≤ (g m).fresh
    rwa [hfresh]

theorem Renames.modifyGet {g : Machine → α × Machine} {g' : Machine → β × Machine}
    (h : ∀ m, g' (m.relabel f) = (r (g m).1, (g m).2.relabel f) ∧ (g m).2.fresh = m.fresh) :
    Renames f limit r (modifyGet g : Eval α) (MonadStateOf.modifyGet g') := by
  intro m hm
  obtain ⟨hrelabel, hfresh⟩ := h m
  refine ⟨?_, ?_⟩
  · change EStateM.Result.ok (g' (m.relabel f)).1 (g' (m.relabel f)).2 =
      EStateM.Result.ok (r (g m).1) ((g m).2.relabel f)
    rw [hrelabel]
  · change limit ≤ (g m).2.fresh
    rwa [hfresh]

theorem Renames.allocate (cursor : Cursor) :
    Renames f limit id (allocate cursor) (Eval.allocate (cursor.relabel f)) := by
  refine .modifyGet fun m => ⟨?_, rfl⟩
  simp only [Machine.relabel, Array.size_map, Array.map_push, Cell.relabel, id]

theorem Renames.setCell (handle : Handle) (cell : Cell) :
    Renames f limit id (setCell handle cell) (Eval.setCell handle (cell.relabel f)) := by
  refine .modify fun m => ⟨?_, rfl⟩
  simp only [Machine.relabel, Array.map_setIfInBounds]

theorem Renames.modifyEnv {g g' : Environment → Environment}
    (h : ∀ e, g' (e.relabel f) = (g e).relabel f) :
    Renames f limit id (modifyEnv g) (Eval.modifyEnv g') := by
  refine .modify fun m => ⟨?_, rfl⟩
  simp only [Machine.relabel, Frame.relabel, h]

theorem Renames.env : Renames f limit (Environment.relabel f) env Eval.env :=
  .bind .get fun _ => .pure rfl

theorem Renames.clock : Renames f limit id clock Eval.clock := .bind .get fun _ => .pure rfl

theorem Renames.bindVar (name : String) (value : Value) :
    Renames f limit id (bindVar name value) (Eval.bindVar name (value.relabel f)) :=
  .modifyEnv fun e => e.bind_relabel name value

theorem Renames.lookupVar (name : String) :
    Renames f limit (Value.relabel f) (lookupVar name) (Eval.lookupVar name) := by
  refine .bind .env fun e => ?_
  rw [Environment.lookup?_relabel]
  cases e.lookup? name with
  | none => exact .raise _
  | some value => exact .pure rfl

theorem Renames.removeVar (name : String) :
    Renames f limit id (removeVar name) (Eval.removeVar name) := by
  refine .bind .env fun e => ?_
  rw [Environment.remove?_relabel]
  cases e.remove? name with
  | none => exact .raise _
  | some p => exact .modifyEnv fun _ => rfl

theorem Renames.emit (text : String) : Renames f limit id (emit text) (Eval.emit text) :=
  .modify fun _ => ⟨rfl, rfl⟩

theorem Renames.inScope (h : Renames f limit r x y) :
    Renames f limit r (inScope x) (Eval.inScope y) :=
  .bind (.modifyEnv fun _ => rfl) fun _ => .bind h.attempt fun _ =>
    .bind (.modifyEnv fun e => e.pop_relabel) fun _ => .settle rfl

theorem Renames.capture (h : Renames f limit r x y) :
    Renames f limit (Prod.map (Except.map r) id) (capture x) (Eval.capture y) :=
  .bind (r := id) (.modifyGet fun _ => ⟨rfl, rfl⟩) fun _ => .bind h.attempt fun _ =>
    .bind (r := id) (.modifyGet fun _ => ⟨rfl, rfl⟩) fun _ => .pure rfl

theorem Renames.inFrame (frame : Frame) (h : Renames f limit r x y) :
    Renames f limit (Prod.map (Except.map r) (Prod.map (Frame.relabel f) id))
      (inFrame frame x) (Eval.inFrame (frame.relabel f) y) :=
  .bind (r := Frame.relabel f) (.modifyGet fun _ => ⟨rfl, rfl⟩) fun _ => .bind h.capture fun _ =>
    .bind (r := Frame.relabel f) (.modifyGet fun _ => ⟨rfl, rfl⟩) fun _ => .pure rfl

end Eval

end Templating
