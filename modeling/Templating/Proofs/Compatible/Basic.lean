import Templating.Eval.Statement
import Templating.Proofs.Eval.Outcome
import Templating.Proofs.Builtin.Plain

/-!
# Relations that evaluation keeps

Many facts about evaluations relate two runs of the same code, or speak of one run. Such a relation
between actions is shown to hold of every evaluation by checking it for the few actions and the few
ways to put actions together that the evaluator has. This module and the next ones do the rest once
and for all.

* `Eval.Congruent`: what a relation has to be closed under.
* `Eval.Compatible`: the same for a relation that goes on where errors are located and where loops
  consume signals.
* `Evaluator.Related`: two evaluators advance iterators alike.
* `Eval.Congruent.fold`, `Eval.Congruent.assign`: **loops and assignments**.
-/

namespace Templating

/-- A position that is not that of a generator expression. -/
def Cursor.IsSimple : Cursor → Prop
  | .generator _ => False
  | _ => True

namespace Eval

/-- A relation between actions with results of the same type. -/
abbrev Relation := ∀ ⦃α : Type⦄, Eval α → Eval α → Prop

/-- Reads a value of the wire format. What it contains gets identities of the machine. -/
def load (text : String) : Eval Value := do
  let (value, fresh) ← liftWire (Wire.loads? text (← get).fresh)
  modify fun m => { m with fresh }
  return value

theorem load_apply (text : String) (m : Machine) :
    load text m = match Wire.loads? text m.fresh with
      | .ok (value, fresh) => .ok value { m with fresh }
      | .error e => raise (.wire e) m := by
  unfold load
  rw [bind_ok (x := get) (t := m) rfl]
  cases Wire.loads? text m.fresh <;> rfl

/-- A new generator expression, in a scope inside the variables as they are now. -/
def suspend (source : Handle) (comp : Comprehension) (item : Node) : Eval Handle := do
  let frame := (← get).frame
  let frame := { frame with env := frame.env.push }
  allocate (.generator ⟨frame, source, comp.target, comp.condition, item⟩)

/-- Puts out some pieces of text. -/
def splice (output : Array String) : Eval Unit :=
  modify fun m => { m with output := m.output ++ output }

/-- A relation that holds of the actions of the evaluator, and of actions one after another. -/
structure Congruent (R : Relation) : Prop where
  pure : ∀ {α : Type} (a : α), R (Pure.pure a) (Pure.pure a)
  bind : ∀ {α β : Type} {x y : Eval α} {k l : α → Eval β},
    R x y → (∀ a, R (k a) (l a)) → R (x >>= k) (y >>= l)
  raise : ∀ {α : Type} {c : Cause}, c.IsPlain → R (raise c : Eval α) (Eval.raise c)
  signal : ∀ {α : Type} (s : LoopSignal),
    R (Eval.raise (.signal s) : Eval α) (Eval.raise (.signal s))
  exhaust : ∀ {α : Type}, R (throw .exhausted : Eval α) (throw .exhausted)
  env : R env env
  clock : R clock clock
  draw : ∀ bound, R (Builtin.draw bound) (Builtin.draw bound)
  load : ∀ text, R (load text) (load text)
  allocate : ∀ {cursor : Cursor}, cursor.IsSimple → R (allocate cursor) (allocate cursor)
  suspend : ∀ source comp item, R (suspend source comp item) (suspend source comp item)
  emit : ∀ text, R (emit text) (emit text)
  splice : ∀ output, R (splice output) (splice output)

/-- A relation that holds of the actions of the evaluator, and that the ways to put actions together
keep. -/
structure Compatible (R : Relation) : Prop extends Congruent R where
  locating : ∀ {α : Type} {x y : Eval α} (location : Location),
    R x y → R (locating location x) (locating location y)
  round : ∀ {x y : Eval Unit}, R x y →
    R (attempt x >>= Evaluator.afterRound) (attempt y >>= Evaluator.afterRound)

end Eval

open Eval

/-- After a round a loop goes on or ends, and only an error that is no signal goes further. -/
theorem Evaluator.afterRound_cases (r : Except EvalError Unit) :
    (∃ walk, Evaluator.afterRound r = pure walk) ∨
      ∃ e, r = .error e ∧ e.cause.signal? = none ∧ Evaluator.afterRound r = throw (.failed e) := by
  cases r with
  | ok _ => exact .inl ⟨_, rfl⟩
  | error e =>
    cases h : e.cause.signal? with
    | none =>
      refine .inr ⟨e, rfl, h, ?_⟩
      unfold Evaluator.afterRound
      simp only [h]
    | some s =>
      refine .inl ?_
      unfold Evaluator.afterRound
      simp only [h]
      cases s <;> exact ⟨_, rfl⟩

/-- Two evaluators that advance every iterator alike, and loops of the same length. -/
structure Evaluator.Related (R : Eval.Relation) (ev ev' : Evaluator) : Prop where
  advance : ∀ handle, R (ev.advance handle) (ev'.advance handle)
  budget : ev.budget = ev'.budget

namespace Eval.Congruent

variable {R : Eval.Relation} (hR : Congruent R)

include hR

/-! ## Results and lists -/

section

variable {α β γ : Type}

theorem lift {e : Except Cause α} (h : Plain e) : R (lift e) (Eval.lift e) := by
  cases e with
  | ok a => exact hR.pure a
  | error c => exact hR.raise (h.isPlain c rfl)

theorem liftWire (e : Except Wire.Error α) : R (liftWire e) (Eval.liftWire e) := by
  cases e with
  | ok a => exact hR.pure a
  | error e => exact hR.raise trivial

theorem forM {k l : γ → Eval Unit} {as : List γ} (h : ∀ a ∈ as, R (k a) (l a)) :
    R (as.forM k) (as.forM l) := by
  induction as with
  | nil => exact hR.pure ()
  | cons a as ih =>
    obtain ⟨ha, has⟩ := List.forall_mem_cons.1 h
    exact hR.bind ha fun _ => ih has

theorem mapM {k l : γ → Eval α} {as : List γ} (h : ∀ a ∈ as, R (k a) (l a)) :
    R (as.mapM k) (as.mapM l) := by
  induction as with
  | nil => exact hR.pure []
  | cons a as ih =>
    obtain ⟨ha, has⟩ := List.forall_mem_cons.1 h
    rw [List.mapM_cons, List.mapM_cons]
    exact hR.bind ha fun _ => hR.bind (ih has) fun _ => hR.pure _

theorem foldlM {k l : β → γ → Eval β} {as : List γ}
    (h : ∀ a ∈ as, ∀ state, R (k state a) (l state a)) (state : β) :
    R (as.foldlM k state) (as.foldlM l state) := by
  induction as generalizing state with
  | nil => exact hR.pure state
  | cons a as ih =>
    obtain ⟨ha, has⟩ := List.forall_mem_cons.1 h
    rw [List.foldlM_cons, List.foldlM_cons]
    exact hR.bind (ha state) fun state => ih has state

end

/-! ## Iteration -/

theorem iterate (v : Value) : R v.iterate v.iterate := by
  unfold Value.iterate
  split
  · exact hR.pure _
  · split
    · exact hR.allocate trivial
    · exact hR.raise trivial

section

variable {α : Type} {ev ev' : Evaluator} (h : ev.Related R ev')

include h

theorem foldWithin (handle : Handle) {step step' : α → Value → Eval (Walk α)}
    (hstep : ∀ a v, R (step a v) (step' a v)) (rounds : Nat) (a : α) :
    R (ev.foldWithin handle step rounds a) (ev'.foldWithin handle step' rounds a) := by
  induction rounds generalizing a with
  | zero => exact hR.exhaust
  | succ rounds ih =>
    refine hR.bind (h.advance handle) fun item => ?_
    cases item with
    | none => exact hR.pure a
    | some item =>
      refine hR.bind (hstep a item) fun walk => ?_
      cases walk with
      | on state => exact ih state
      | done state => exact hR.pure state

/-- A loop whose rounds are related. -/
theorem fold (handle : Handle) (start : α) {step step' : α → Value → Eval (Walk α)}
    (hstep : ∀ a v, R (step a v) (step' a v)) :
    R (ev.fold handle start step) (ev'.fold handle start step') := by
  unfold Evaluator.fold
  rw [h.budget]
  exact hR.foldWithin h handle hstep ev'.budget start

theorem collect (handle : Handle) : R (ev.collect handle) (ev'.collect handle) :=
  hR.bind (hR.fold h handle [] fun _ _ => hR.pure _) fun _ => hR.pure _

theorem items (v : Value) : R (ev.items v) (ev'.items v) := by
  cases v with
  | list vs => exact hR.pure vs
  | _ => exact hR.bind (hR.iterate _) fun handle => hR.collect h handle

theorem reversed (v : Value) : R (ev.reversed v) (ev'.reversed v) :=
  hR.bind (hR.items h v) fun _ => hR.allocate trivial

theorem take (handle : Handle) (n : Nat) : R (ev.take handle n) (ev'.take handle n) := by
  induction n with
  | zero => exact hR.pure []
  | succ n ih =>
    refine hR.bind (h.advance handle) fun item => ?_
    cases item with
    | none => exact hR.pure []
    | some item => exact hR.bind ih fun _ => hR.pure _

theorem row (handles : List Handle) : R (ev.row handles) (ev'.row handles) := by
  induction handles with
  | nil => exact hR.pure _
  | cons handle handles ih =>
    refine hR.bind (h.advance handle) fun item => ?_
    cases item with
    | none => exact hR.pure none
    | some item => exact hR.bind ih fun _ => hR.pure _

end

omit hR

mutual

/-- An assignment, if it may bind variables. -/
theorem assign (hR : Congruent R) (hbind : ∀ name v, R (bindVar name v) (bindVar name v))
    {ev ev' : Evaluator} (h : ev.Related R ev') : ∀ (target : Target) (v : Value),
    R (ev.assign target v) (ev'.assign target v)
  | .name name, v => by
    unfold Evaluator.assign
    exact hbind name v
  | .tuple targets, v => by
    unfold Evaluator.assign
    refine hR.bind (hR.iterate v) fun handle => hR.bind (hR.take h handle _) fun items => ?_
    split
    · exact assignAll hR hbind h targets items
    · exact hR.raise trivial

theorem assignAll (hR : Congruent R) (hbind : ∀ name v, R (bindVar name v) (bindVar name v))
    {ev ev' : Evaluator} (h : ev.Related R ev') : ∀ (targets : List Target) (vs : List Value),
    R (ev.assignAll targets vs) (ev'.assignAll targets vs)
  | [], vs => by
    unfold Evaluator.assignAll
    exact hR.pure ()
  | _ :: _, [] => by
    unfold Evaluator.assignAll
    exact hR.pure ()
  | target :: targets, v :: vs => by
    unfold Evaluator.assignAll
    exact hR.bind (assign hR hbind h target v) fun _ => assignAll hR hbind h targets vs

end

end Eval.Congruent

end Templating
