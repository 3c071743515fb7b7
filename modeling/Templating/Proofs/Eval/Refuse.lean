import Templating.Eval.Run
import Templating.Proofs.Compatible.Cursor
import Templating.Proofs.Compatible.Node
import Templating.Proofs.Tracked.Basic

/-!
# Runs that refuse calls

To evaluate a node or to advance an iterator, the evaluator is called for what is below. Here it
refuses some calls that fail. A run that makes one of them gives up at the first one, and otherwise
it does what it did before. Such a run fails with the error of the call, since errors are passed on:
only a loop consumes the signals of its body, and only a template changes signals that leave it.

* `Activity`, `Activity.call`, `Activity.body`: what the evaluator is called for, and what it then
  does.
* `Evaluator.refusing`: refuses some calls, and leaves a note of the call. `Refusal` is what is used
  of it.
* `Refused`, `Refuses`: what becomes of a run.
* `Activity.Passes`: the error of a call and that of the run that makes it.
* `Refusal.body`: **the run gives up at a call whose error it passes on**, or stays the same.
-/

namespace Templating

open Eval

/-- What the evaluator is called for. -/
inductive Activity where
  | eval (node : Node)
  | advance (handle : Handle)

namespace Activity

/-- What a call returns. -/
abbrev Result : Activity → Type
  | eval _ => Value
  | advance _ => Option Value

/-- The call of the evaluator. -/
def call : (a : Activity) → Program a.Result
  | eval node => fun ev => ev.eval node
  | advance handle => fun ev => ev.advance handle

/-- What is done in a call, with the calls one level deeper. -/
def body : (a : Activity) → Program a.Result
  | eval node => fun ev => ev.evalNode node
  | advance handle => fun ev => ev.advanceCell handle

/-- The call fails with an error. -/
def Fails (a : Activity) (ev : Evaluator) (m : Machine) (e : EvalError) : Prop :=
  ∃ m', a.call ev m = .error (.failed e) m'

theorem Fails.unique {a : Activity} {ev : Evaluator} {m : Machine} {e e' : EvalError}
    (h : a.Fails ev m e) (h' : a.Fails ev m e') : e = e' := by
  obtain ⟨n, h⟩ := h
  obtain ⟨n', h'⟩ := h'
  cases h.symm.trans h'
  rfl

/-- A call as a value. -/
def note : Activity → Value
  | eval node => .template ⟨0, none, "", none, "", "", ⟨none, [node]⟩⟩
  | advance handle => .iterator handle

theorem note_injective : Function.Injective note := by
  intro a b h
  cases a <;> cases b <;> cases h <;> rfl

end Activity

/-- A machine with a note of a call that was made from it. -/
def Machine.noted (m : Machine) (a : Activity) : Machine :=
  { m with store := m.store.push ⟨.items [a.note], false⟩ }

theorem Machine.noted_injective {m n : Machine} {a b : Activity} (h : m.noted a = n.noted b) :
    m = n ∧ a = b := by
  cases m
  cases n
  simp only [Machine.noted, Machine.mk.injEq, Array.push_eq_push, Cell.mk.injEq, Cursor.items.injEq,
    List.cons.injEq, and_true] at h ⊢
  obtain ⟨⟨hnote, hstore⟩, hrest⟩ := h
  exact ⟨⟨hstore, hrest⟩, Activity.note_injective hnote⟩

/-- Calls from some machines, and the errors with which they fail. -/
abbrev Failures := Activity → Machine → EvalError → Prop

/-- The evaluator that refuses some calls. It gives up there and leaves a note. -/
noncomputable def Evaluator.refusing (ev : Evaluator) (p : Activity → Machine → Prop) :
    Evaluator where
  eval node := open Classical in fun m =>
    if p (.eval node) m then .error .exhausted (m.noted (.eval node)) else ev.eval node m
  advance handle := open Classical in fun m =>
    if p (.advance handle) m then .error .exhausted (m.noted (.advance handle))
    else ev.advance handle m
  budget := ev.budget

/-- An evaluator, and one that refuses some of the calls that fail. -/
structure Refusal (F : Failures) (ev ev' : Evaluator) : Prop where
  fails : ∀ {a m e}, F a m e → a.Fails ev m e
  refused : ∀ {a m e}, F a m e → a.call ev' m = .error .exhausted (m.noted a)
  kept : ∀ {a m}, (∀ e, ¬ F a m e) → a.call ev' m = a.call ev m
  budget : ev.budget = ev'.budget

/-- An error that no node has located. -/
def EvalError.IsRaw (e : EvalError) : Prop := e.location = none

theorem EvalError.location_settle (e : EvalError) : e.settle.location = e.location := by
  obtain ⟨cause, location⟩ := e
  cases cause with
  | signal s => cases s <;> rfl
  | _ => rfl

/-- What becomes of a run if some calls are refused: it stays the same and its errors are of some
kind, or it fails with one of the errors and now gives up at its call. -/
inductive Refused (E : EvalError → Prop) (F : Failures) {α : Type} :
    Outcome α → Outcome α → Prop where
  | same {r : Outcome α} : (∀ e m, r = .error (.failed e) m → E e) → Refused E F r r
  | refused {b : Activity} {n m : Machine} {e : EvalError} : F b n e →
      Refused E F (.error (.failed e) m) (.error .exhausted (n.noted b))

/-- An action, and what becomes of it if some calls are refused. -/
def Refuses (E : EvalError → Prop) (F : Failures) : Relation := fun _ x y =>
  ∀ m, Refused E F (x m) (y m)

/-- The errors that are left when signals may have left a template. -/
def Failures.settled (F : Failures) : Failures := fun b n e =>
  ∃ e₀, F b n e₀ ∧ (e = e₀ ∨ e = e₀.settle)

section

variable {E E' : EvalError → Prop} {F F' : Failures} {α β : Type} {x y : Eval α} {m : Machine}

theorem Refused.mono {r r' : Outcome α} (h : Refused E F r r') (hE : ∀ e, E e → E' e)
    (hF : ∀ b n e, F b n e → F' b n e) : Refused E' F' r r' := by
  cases h with
  | same hr => exact .same fun e m he => hE e (hr e m he)
  | refused he => exact .refused (hF _ _ _ he)

theorem Refused.bind {k l : α → Eval β} (hx : Refused E F (x m) (y m))
    (hk : ∀ a, Refuses E F (k a) (l a)) : Refused E F ((x >>= k) m) ((y >>= l) m) := by
  rw [bind_apply, bind_apply]
  generalize x m = r, y m = r' at hx ⊢
  cases hx with
  | @same r hr =>
    cases r with
    | ok a m' => exact hk a m'
    | error abort m' =>
      refine .same ?_
      rintro e _ ⟨⟩
      exact hr e m' rfl
  | refused he => exact .refused he

theorem Refused.locating (location : Location) (hx : Refused E F (x m) (y m)) :
    Refused (fun e' => ∃ e, E e ∧ e' = e.locate location)
      (fun b n e' => ∃ e, F b n e ∧ e' = e.locate location) (locating location x m)
      (Eval.locating location y m) := by
  unfold Eval.locating mapError
  generalize x m = r, y m = r' at hx ⊢
  cases hx with
  | @same r hr =>
    refine .same fun e' n h => ?_
    rcases r with ⟨a, m'⟩ | ⟨e | _, m'⟩
    · cases h
    · cases h
      exact ⟨e, hr e _ rfl, rfl⟩
    · cases h
  | refused he => exact .refused ⟨_, he, rfl⟩

end

namespace Refuses

variable {E E' : EvalError → Prop} {F F' : Failures} {α β : Type} {x y : Eval α}

theorem of_ok (hx : ∀ m, ∃ a n, x m = .ok a n) : Refuses E F x x := by
  refine fun m => .same fun e n h => ?_
  obtain ⟨a, n', hok⟩ := hx m
  cases hok.symm.trans h

theorem fail {e : EvalError} (he : E e) :
    Refuses E F (throw (.failed e) : Eval α) (throw (.failed e)) := by
  refine fun m => .same ?_
  rintro _ _ ⟨⟩
  exact he

theorem mono (hx : Refuses E F x y) (hE : ∀ e, E e → E' e) (hF : ∀ b n e, F b n e → F' b n e) :
    Refuses E' F' x y :=
  fun m => (hx m).mono hE hF

theorem bind {k l : α → Eval β} (hx : Refuses E F x y) (hk : ∀ a, Refuses E F (k a) (l a)) :
    Refuses E F (x >>= k) (y >>= l) :=
  fun m => (hx m).bind hk

/-- Evaluation keeps what becomes of its parts, if its own errors are of the kind. -/
theorem congruent (hE : ∀ c, E (.ofCause c)) (F : Failures) : Congruent (Refuses E F) where
  pure a := of_ok fun _ => ⟨_, _, rfl⟩
  bind := bind
  raise _ := fail (hE _)
  signal _ := fail (hE _)
  exhaust _ := .same fun _ _ h => nomatch h
  env := of_ok fun _ => ⟨_, _, rfl⟩
  clock := of_ok fun _ => ⟨_, _, rfl⟩
  draw _ := of_ok fun _ => ⟨_, _, rfl⟩
  load text m := by
    rw [load_apply]
    cases Wire.loads? text m.fresh with
    | ok p => exact .same fun _ _ h => nomatch h
    | error e => exact fail (hE _) m
  allocate _ := of_ok fun _ => ⟨_, _, rfl⟩
  suspend _ _ _ := of_ok fun _ => ⟨_, _, rfl⟩
  emit _ := of_ok fun _ => ⟨_, _, rfl⟩
  splice _ := of_ok fun _ => ⟨_, _, rfl⟩

/-! ### Errors that are passed on -/

/-- What follows an action, where the errors go on in some way. -/
structure Onward (f : EvalError → EvalError) (k : Except EvalError α → Eval β) : Prop where
  ok : ∀ a m, ∃ b m', k (.ok a) m = .ok b m'
  error : ∀ e m, ∃ m', k (.error e) m = .error (.failed (f e)) m'

theorem attempt_bind {f : EvalError → EvalError} {k : Except EvalError α → Eval β}
    (hx : Refuses E F x y) (hk : Onward f k) (hE : ∀ e, E e → E' (f e))
    (hF : ∀ b n e, F b n e → F' b n (f e)) :
    Refuses E' F' (attempt x >>= k) (attempt y >>= k) := by
  intro m
  have hx := hx m
  rw [bind_apply, bind_apply]
  unfold attempt
  generalize x m = r, y m = r' at hx ⊢
  cases hx with
  | @same r hr =>
    refine .same fun e' n h => ?_
    rcases r with ⟨a, m'⟩ | ⟨e | _, m'⟩
    · obtain ⟨b, m'', hok⟩ := hk.ok a m'
      cases hok.symm.trans h
    · obtain ⟨m'', herror⟩ := hk.error e m'
      cases herror.symm.trans h
      exact hE e (hr e m' rfl)
    · cases h
  | @refused _ _ m' e he =>
    obtain ⟨m'', herror⟩ := hk.error e m'
    dsimp only
    rw [herror]
    exact .refused (hF _ _ _ he)

theorem capture_bind {f : EvalError → EvalError} {k : Except EvalError α × Array String → Eval β}
    (hx : Refuses E F x y) (hk : ∀ output, Onward f fun r => k (r, output))
    (hE : ∀ e, E e → E' (f e)) (hF : ∀ b n e, F b n e → F' b n (f e)) :
    Refuses E' F' (capture x >>= k) (capture y >>= k) := by
  unfold capture
  simp only [bind_assoc, pure_bind]
  refine bind (of_ok fun _ => ⟨_, _, rfl⟩) fun saved => attempt_bind hx ?_ hE hF
  exact ⟨fun a m => (hk _).ok a _, fun e m => (hk _).error e _⟩

theorem inFrame_bind {f : EvalError → EvalError} {frame : Frame}
    {k : Except EvalError α × Frame × Array String → Eval β} (hx : Refuses E F x y)
    (hk : ∀ frame output, Onward f fun r => k (r, frame, output)) (hE : ∀ e, E e → E' (f e))
    (hF : ∀ b n e, F b n e → F' b n (f e)) :
    Refuses E' F' (inFrame frame x >>= k) (inFrame frame y >>= k) := by
  unfold inFrame
  simp only [bind_assoc, pure_bind]
  refine bind (of_ok fun _ => ⟨_, _, rfl⟩) fun saved => capture_bind hx (fun output => ?_) hE hF
  exact ⟨fun a m => (hk _ _).ok a _, fun e m => (hk _ _).error e _⟩

/-- A round of a loop passes on errors that are no signals. -/
theorem round {x y : Eval Unit}
    (hx : Refuses E (fun b n e => F b n e ∧ e.cause.signal? = none) x y)
    (hE : ∀ e, E e → e.cause.signal? = none → E' e) :
    Refuses E' F (attempt x >>= Evaluator.afterRound) (attempt y >>= Evaluator.afterRound) := by
  intro m
  have hx := hx m
  rw [bind_apply, bind_apply]
  unfold attempt
  generalize x m = r, y m = r' at hx ⊢
  cases hx with
  | @same r hr =>
    refine .same fun e' n h => ?_
    rcases r with ⟨a, m'⟩ | ⟨e | _, m'⟩
    · cases h
    · dsimp only at h
      rcases Evaluator.afterRound_cases (.error e) with ⟨walk, hround⟩ | ⟨e₁, heq, hnone, hround⟩
      · rw [hround] at h
        cases h
      · obtain rfl : e = e₁ := Except.error.inj heq
        rw [hround] at h
        obtain rfl : e = e' := Abort.failed.inj (EStateM.Result.error.inj h).1
        exact hE e (hr e m' rfl) hnone
    · cases h
  | refused he =>
    dsimp only
    unfold Evaluator.afterRound
    simp only [he.2]
    exact .refused he.1

theorem binding (hE : ∀ c, E (.ofCause c)) (F : Failures) : Binding (Refuses E F) where
  bindVar _ _ := of_ok fun _ => ⟨_, _, rfl⟩
  removeVar name := by
    refine bind (of_ok fun _ => ⟨_, _, rfl⟩) fun e => ?_
    split
    · exact of_ok fun _ => ⟨_, _, rfl⟩
    · exact fail (hE _)
  scope hx := bind (of_ok fun _ => ⟨_, _, rfl⟩) fun _ => attempt_bind hx
    ⟨fun _ _ => ⟨_, _, rfl⟩, fun _ _ => ⟨_, rfl⟩⟩ (fun _ => id) fun _ _ _ => id

theorem stored (E : EvalError → Prop) (F : Failures) :
    Stored (fun _ => True) id (Refuses E F) where
  cell := by
    intro α handle k l hk m
    have hcell : m.store[handle]?.map (Cell.mapFrame id) = m.store[handle]? := by
      cases m.store[handle]? <;> simp only [Option.map, Cell.mapFrame_id]
    have hm := hk m.store[handle]? (fun c _ => c.cursor.frameHolds_true) m
    rw [hcell] at hm
    exact hm
  setCell handle c _ := by
    rw [Cell.mapFrame_id]
    exact of_ok fun _ => ⟨_, _, rfl⟩
  restoring := by
    intro α x y handle c _ hx
    rw [Cell.mapFrame_id]
    exact attempt_bind hx ⟨fun _ _ => ⟨_, _, rfl⟩, fun _ _ => ⟨_, rfl⟩⟩ (fun _ => id)
      fun _ _ _ => id

theorem resume (handle : Handle) (g : Generator) {x y : Eval (Option Value)}
    (hx : Refuses E F x y) : Refuses E F (resume handle g x) (Eval.resume handle g y) :=
  inFrame_bind hx (fun _ _ => ⟨fun _ _ => ⟨_, _, rfl⟩, fun _ _ => ⟨_, rfl⟩⟩) (fun _ => id)
    fun _ _ _ => id

/-- A template that is rendered one level deeper. A signal that leaves it becomes an error. -/
theorem deeper_captured {x y : Eval Unit} (hx : Refuses E F x y)
    (hE : ∀ c, E (.ofCause c)) (hsettle : ∀ e, E e → E e.settle) (vars : Scope) :
    Refuses E F.settled (deeper vars (captured x)) (deeper vars (captured y)) := by
  have hcaptured : Refuses E F.settled (captured x) (captured y) :=
    capture_bind hx (fun _ => ⟨fun _ _ => ⟨_, _, rfl⟩, fun _ _ => ⟨_, rfl⟩⟩) hsettle
      fun _ _ e hF => ⟨e, hF, .inr rfl⟩
  refine bind (of_ok fun _ => ⟨_, _, rfl⟩) fun m => ?_
  dsimp only
  split
  · exact fail (hE _)
  · exact inFrame_bind hcaptured (fun _ _ => ⟨fun _ _ => ⟨_, _, rfl⟩, fun _ _ => ⟨_, rfl⟩⟩)
      (fun _ => id) fun _ _ _ => id

end Refuses

/-! ## Calls -/

namespace Evaluator

variable {ev : Evaluator} {p : Activity → Machine → Prop} {a : Activity} {m : Machine}

theorem call_refusing_of (h : p a m) :
    a.call (ev.refusing p) m = .error .exhausted (m.noted a) := by
  cases a <;> exact if_pos h

theorem call_refusing_of_not (h : ¬ p a m) : a.call (ev.refusing p) m = a.call ev m := by
  cases a <;> exact if_neg h

/-- The calls that fail in some way may be refused. -/
theorem refusal {F : Failures} (hF : ∀ b n e, F b n e → b.Fails ev n e) :
    Refusal F ev (ev.refusing fun b n => ∃ e, F b n e) where
  fails := hF _ _ _
  refused h := call_refusing_of ⟨_, h⟩
  kept h := call_refusing_of_not fun ⟨e, he⟩ => h e he
  budget := rfl

end Evaluator

/-- A loop of some kind consumes the signal of a node of its body. Its container comes before. -/
def NodeKind.Consumes (kind : NodeKind) (m : Machine) (b : Activity) (n : Machine)
    (e : EvalError) : Prop :=
  match kind with
  | .forLoop _ container block => e.cause.signal?.isSome ∧
      ∃ child ∈ block.content, b = .eval child ∧ ¬ (child = container ∧ n = m)
  | _ => False

theorem NodeKind.not_consumes {kind : NodeKind} {m n : Machine} {b : Activity} {e : EvalError}
    (hkind : ∀ target container block, kind ≠ .forLoop target container block) :
    ¬ kind.Consumes m b n e := by
  intro hconsumes
  unfold NodeKind.Consumes at hconsumes
  split at hconsumes
  · exact hkind _ _ _ rfl
  · exact hconsumes

namespace Activity

/-- An error of a call that is consumed in a run from a machine. -/
def Consumes (a : Activity) (m : Machine) (b : Activity) (n : Machine) (e : EvalError) : Prop :=
  match a with
  | eval node => node.kind.Consumes m b n e
  | advance _ => False

/-- The error of a call, and the error of the run that makes the call. A node locates it, unless it
is located already, and where a template is rendered a signal that leaves it has become an error. -/
inductive Passes : Activity → EvalError → EvalError → Prop where
  | advance {handle : Handle} {e : EvalError} : Passes (.advance handle) e e
  | eval {node : Node} {e : EvalError} : Passes (.eval node) e (e.locate node.location)
  | render {node : Node} {e : EvalError} : node.kind.render?.isSome →
      Passes (.eval node) e (e.settle.locate node.location)

end Activity

/-- Where the error of an activity is located that fails by itself. -/
def Activity.location? : Activity → Option Location
  | .eval node => some node.location
  | .advance _ => none

/-- All calls that fail are among some failures, unless their errors are consumed. -/
def Failures.Complete (F : Failures) (ev : Evaluator) (a : Activity) (m : Machine) : Prop :=
  ∀ b n e, b.Fails ev n e → ¬ a.Consumes m b n e → F b n e

namespace Refusal

variable {ev ev' : Evaluator} {F : Failures} (h : Refusal F ev ev')

include h

/-- A call that is refused, or that is not. -/
theorem call_cases (a : Activity) (m : Machine) :
    (∃ e m', F a m e ∧ a.call ev m = .error (.failed e) m' ∧
      a.call ev' m = .error .exhausted (m.noted a)) ∨
    (∀ e, ¬ F a m e) ∧ a.call ev' m = a.call ev m := by
  by_cases hF : ∃ e, F a m e
  · obtain ⟨e, he⟩ := hF
    obtain ⟨m', hfails⟩ := h.fails he
    exact .inl ⟨e, m', he, hfails, h.refused he⟩
  · have hF : ∀ e, ¬ F a m e := fun e he => hF ⟨e, he⟩
    exact .inr ⟨hF, h.kept hF⟩

/-- A call whose errors are of some kind unless it is refused. -/
theorem call {E : EvalError → Prop} {F' : Failures} {a : Activity}
    (hE : ∀ m e, a.Fails ev m e → ¬ F a m e → E e) (hF : ∀ m e, F a m e → F' a m e) :
    Refuses E F' (a.call ev) (a.call ev') := by
  intro m
  rcases h.call_cases a m with ⟨e, m', he, hfails, hrefused⟩ | ⟨hnot, hkept⟩
  · rw [hfails, hrefused]
    exact .refused (hF m e he)
  · rw [hkept]
    exact .same fun e m' hfails => hE m e ⟨m', hfails⟩ (hnot e)

/-! ### Runs that consume no errors -/

section

variable {C : Prop} (hC : C → ∀ b n e, b.Fails ev n e → F b n e)

include hC

theorem call_raw (a : Activity) : Refuses (fun e => C → e.IsRaw) F (a.call ev) (a.call ev') :=
  h.call (fun m e hfails hnot hc => absurd (hC hc a m e hfails) hnot) fun _ _ => id

theorem eval (node : Node) :
    Refuses (fun e => C → e.IsRaw) F (ev.eval node) (ev'.eval node) :=
  h.call_raw hC (.eval node)

theorem related : ev.Related (Refuses (fun e => C → e.IsRaw) F) ev' :=
  ⟨fun handle => h.call_raw hC (.advance handle), h.budget⟩

/-- A render call passes on the errors of the template. -/
theorem renderNested (t : Template) (vars : Scope) :
    Refuses (fun e => C → e.IsRaw) F.settled (ev.renderNested t vars) (ev'.renderNested t vars) :=
  Refuses.deeper_captured ((Refuses.congruent (fun _ _ => rfl) F).exec fun node _ => h.eval hC node)
    (fun _ _ => rfl) (fun e he hc => (e.location_settle).trans (he hc)) vars

/-- A node of a kind that is no loop. -/
theorem evalKind {kind : NodeKind}
    (hkind : ∀ target container block, kind ≠ .forLoop target container block)
    (location : Location) :
    Refuses (fun e => C → e.IsRaw) (if kind.render?.isSome then F.settled else F)
      (ev.evalKind location kind) (ev'.evalKind location kind) := by
  have hmono {α : Type} {x y : Eval α} (hx : Refuses (fun e => C → e.IsRaw) F x y) :
      Refuses (fun e => C → e.IsRaw) (if kind.render?.isSome then F.settled else F) x y := by
    split
    · exact hx.mono (fun _ => id) fun b n e he => ⟨e, he, .inl rfl⟩
    · exact hx
  refine (Refuses.congruent (fun _ _ => rfl) _).evalKind
    ⟨fun handle => hmono ((h.related hC).advance handle), h.budget⟩
    (fun node => hmono (h.eval hC node)) (Refuses.binding (fun _ _ => rfl) _) ?_ ?_ location
  · intro hrender t vars
    rw [if_pos hrender]
    exact h.renderNested hC t vars
  · exact fun target container block hloop => absurd hloop (hkind target container block)

theorem advanceCell (handle : Handle) :
    Refuses (fun e => C → e.IsRaw) F (ev.advanceCell handle) (ev'.advanceCell handle) := by
  have hR := Refuses.congruent (E := fun e => C → e.IsRaw) (fun _ _ => rfl) F
  exact hR.advanceCell (Refuses.stored _ F) (h.related hC) (fun handle g _ =>
    (hR.generate (h.related hC) (h.eval hC) (Refuses.binding (fun _ _ => rfl) F) g).resume handle g)
    handle

end

/-! ### Loops -/

/-- The rounds of a loop pass on errors that are no signals. -/
theorem runRounds {C : Prop} (target : Target) {block : Block}
    (hquiet : ∀ child ∈ block.content, ∀ n e, F (.eval child) n e → e.cause.signal? = none)
    (hadvance : C → ∀ handle n e, (Activity.advance handle).Fails ev n e → F (.advance handle) n e)
    (heval : C → ∀ child ∈ block.content, ∀ n e, (Activity.eval child).Fails ev n e →
      F (.eval child) n e ∨ e.cause.signal?.isSome) (v : Value) :
    Refuses (fun e => C → e.IsRaw) F (ev.runRounds target block v)
      (ev'.runRounds target block v) := by
  have hexec : Refuses (fun e => C → e.IsRaw ∨ e.cause.signal?.isSome)
      (fun b n e => F b n e ∧ e.cause.signal? = none) (ev.exec block) (ev'.exec block) := by
    refine (Refuses.congruent (fun _ _ => .inl rfl) _).exec fun child hchild => ?_
    refine h.call (a := .eval child) (fun n e hfails hnot hc => ?_) fun n e he =>
      ⟨he, hquiet child hchild n e he⟩
    exact .inr ((heval hc child hchild n e hfails).resolve_left hnot)
  have hrelated : ev.Related (Refuses (fun e => C → e.IsRaw) F) ev' := by
    refine ⟨fun handle => h.call (a := .advance handle) (fun n e hfails hnot hc => ?_)
      fun _ _ => id, h.budget⟩
    exact absurd (hadvance hc handle n e hfails) hnot
  refine (Refuses.congruent (fun _ _ => rfl) F).runRounds hrelated
    (Refuses.binding (fun _ _ => rfl) F) target (hexec.round fun e he hnone hc => ?_) v
  refine (he hc).resolve_right fun hsignal => ?_
  rw [hnone] at hsignal
  cases hsignal

/-- A loop, if it does not consume any of the errors. -/
theorem runLoop {C : Prop} {target : Target} {container : Node} {block : Block} (m : Machine)
    (hescapes : ∀ b n e, F b n e → ¬ (NodeKind.forLoop target container block).Consumes m b n e)
    (hC : C → ∀ b n e, b.Fails ev n e →
      ¬ (NodeKind.forLoop target container block).Consumes m b n e → F b n e) :
    Refused (fun e => C → e.IsRaw) F (ev.runLoop target container block m)
      (ev'.runLoop target container block m) := by
  rw [Evaluator.runLoop_eq_runRounds, Evaluator.runLoop_eq_runRounds]
  -- errors of the container pass through the loop, so both runs agree on whether it is refused
  have hcontainer (e : EvalError) :
      ¬ (NodeKind.forLoop target container block).Consumes m (.eval container) m e := by
    rintro ⟨-, child, -, heq, hne⟩
    cases heq
    exact hne ⟨rfl, rfl⟩
  rcases h.call_cases (.eval container) m with ⟨e, m', he, hfails, hrefused⟩ | ⟨hnot, hkept⟩
  · rw [bind_error (show ev.eval container m = _ from hfails),
      bind_error (show ev'.eval container m = _ from hrefused)]
    exact .refused he
  · have hfirst : Refused (fun e => C → e.IsRaw) F (ev.eval container m)
        (ev'.eval container m) := by
      rw [show ev'.eval container m = _ from hkept]
      exact .same fun e m' hfails hc =>
        absurd (hC hc (.eval container) m e ⟨m', hfails⟩ (hcontainer e)) (hnot e)
    refine hfirst.bind (h.runRounds target ?_ ?_ ?_)
    · -- the container is not refused here, so none of the signals of the body is
      intro child hchild n e he
      by_contra hsignal
      refine hescapes _ _ _ he ⟨Option.isSome_iff_ne_none.2 hsignal, child, hchild, rfl, ?_⟩
      rintro ⟨rfl, rfl⟩
      exact hnot e he
    · refine fun hc handle n e hfails => hC hc _ n e hfails ?_
      rintro ⟨-, child, -, heq, -⟩
      cases heq
    · intro hc child _ n e hfails
      refine or_iff_not_imp_right.2 fun hsignal => hC hc _ n e hfails fun hconsumes => ?_
      exact hsignal hconsumes.1

/-- A node of any kind, if it does not consume any of the errors. -/
theorem evalKind_of_escapes {kind : NodeKind} {C : Prop} (m : Machine)
    (hescapes : ∀ b n e, F b n e → ¬ kind.Consumes m b n e)
    (hC : C → ∀ b n e, b.Fails ev n e → ¬ kind.Consumes m b n e → F b n e) (location : Location) :
    Refused (fun e => C → e.IsRaw) (if kind.render?.isSome then F.settled else F)
      (ev.evalKind location kind m) (ev'.evalKind location kind m) := by
  by_cases hloop : ∃ target container block, kind = .forLoop target container block
  · obtain ⟨target, container, block, rfl⟩ := hloop
    exact (h.runLoop m hescapes hC).bind fun _ => .of_ok fun _ => ⟨_, _, rfl⟩
  · have hkind (target : Target) (container : Node) (block : Block) :
        kind ≠ .forLoop target container block := fun hkind => hloop ⟨_, _, _, hkind⟩
    have hall (hc : C) (b : Activity) (n : Machine) (e : EvalError) (hfails : b.Fails ev n e) :
        F b n e := hC hc b n e hfails (NodeKind.not_consumes hkind)
    exact h.evalKind hall hkind location m

/-! ### Activities -/

/-- **A run in which some calls are refused**, if it does not consume their errors. It gives up at
one of them whose error it passes on, or it stays the same. If all calls that fail are refused, it
fails by itself only. -/
theorem body (a : Activity) (m : Machine) (hescapes : ∀ b n e, F b n e → ¬ a.Consumes m b n e) :
    Refused (fun e => F.Complete ev a m → e.location = a.location?)
      (fun b n e' => ∃ e, F b n e ∧ a.Passes e e') (a.body ev m) (a.body ev' m) := by
  cases a with
  | advance handle =>
    have hC (hc : F.Complete ev (.advance handle) m) (b : Activity) (n : Machine) (e : EvalError)
        (hfails : b.Fails ev n e) : F b n e := hc b n e hfails id
    exact (h.advanceCell hC handle m).mono (fun _ => id) fun b n e he => ⟨e, he, .advance⟩
  | eval node =>
    have hC (hc : F.Complete ev (.eval node) m) : ∀ b n e, b.Fails ev n e →
        ¬ node.kind.Consumes m b n e → F b n e := hc
    have hkind := h.evalKind_of_escapes m hescapes hC node.location
    refine (hkind.locating node.location).mono ?_ fun b n e' => ?_
    · -- the node locates an error that no node has located
      rintro _ ⟨e, he, rfl⟩ hc
      change (e.location <|> some node.location) = some node.location
      rw [he hc]
      rfl
    · rintro ⟨e, he, rfl⟩
      split at he
      · obtain ⟨e₀, he, rfl | rfl⟩ := he
        · exact ⟨_, he, .eval⟩
        · exact ⟨_, he, .render ‹_›⟩
      · exact ⟨e, he, .eval⟩

end Refusal

end Templating
