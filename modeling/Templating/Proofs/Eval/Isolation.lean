import Templating.Eval.Run
import Templating.Proofs.Compatible.Node
import Templating.Proofs.Eval.Output

/-!
# Render calls and their callers

* `Machine.SameButCaller`: two states that differ in the variables and the output of the caller.
* `deeper_uniform`: what runs one level deeper does not see these.
* `Evaluator.keywordArguments`: a call up to the point where the template starts.
* `EvalError.SameCall`: the error of a call of `render` and that of the same call of `renders`.
* `nested_renders_isolated`: **a render call is the same for every caller**, and the two methods
  differ in how they put out the text only.
-/

namespace Templating

open Eval

/-- Two states that differ in the variables and the output of the template that runs. -/
structure Machine.SameButCaller (m m' : Machine) : Prop where
  store : m'.store = m.store
  fresh : m'.fresh = m.fresh
  random : m'.random = m.random
  clock : m'.clock = m.clock
  depth : m'.frame.depth = m.frame.depth
  maxDepth : m'.frame.maxDepth = m.frame.maxDepth

/-- A state with the variables and the output of a caller. -/
def Machine.returnTo (m caller : Machine) : Machine :=
  { m with frame := caller.frame, output := caller.output }

/-- A state with the variables of a caller, and with some pieces after the output of the caller. -/
def Machine.spliceInto (m caller : Machine) (added : Array String) : Machine :=
  { m with frame := caller.frame, output := caller.output ++ added }

theorem Machine.SameButCaller.refl (m : Machine) : m.SameButCaller m :=
  ⟨rfl, rfl, rfl, rfl, rfl, rfl⟩

/-- From all callers a template starts in the same state. -/
theorem Machine.SameButCaller.below {m caller : Machine} (h : m.SameButCaller caller)
    (vars : Scope) :
    { caller with frame := caller.frame.below vars, output := #[] } =
      { m with frame := m.frame.below vars, output := #[] } := by
  obtain ⟨store, fresh, random, clock, ⟨env, depth, maxDepth⟩, output⟩ := caller
  obtain ⟨rfl, rfl, rfl, rfl, rfl, rfl⟩ := h
  rfl

namespace Eval

variable {α : Type}

/-- **What runs one level deeper is the same for all callers**, and each of them gets its variables
and its output back. -/
theorem deeper_uniform (vars : Scope) (x : Eval α) (m : Machine) :
    (∃ a, ∃ left : Machine, ∀ caller, m.SameButCaller caller →
      deeper vars x caller = .ok a (left.returnTo caller)) ∨
    (∃ e, ∃ left : Machine, ∀ caller, m.SameButCaller caller →
      deeper vars x caller = .error (.failed e) (left.returnTo caller)) ∨
    ∀ caller, m.SameButCaller caller → ¬ Outcome.Ended (deeper vars x caller) := by
  by_cases hlimit : m.frame.maxDepth ≤ m.frame.depth
  -- all callers are at the limit, or none of them is
  · refine .inr (.inl ⟨.ofCause (.recursionLimit m.frame.maxDepth), m, fun caller h => ?_⟩)
    have hstate : m.returnTo caller = caller := by
      obtain ⟨store, fresh, random, clock, frame, output⟩ := caller
      obtain ⟨rfl, rfl, rfl, rfl, -, -⟩ := h
      rfl
    rw [deeper_refused (by rw [h.depth, h.maxDepth]; exact hlimit), h.maxDepth, hstate]
    rfl
  · have hcaller {caller : Machine} (h : m.SameButCaller caller) :
        ¬ caller.frame.maxDepth ≤ caller.frame.depth := by
      rw [h.depth, h.maxDepth]
      exact hlimit
    by_cases hended : Outcome.Ended (x { m with frame := m.frame.below vars, output := #[] })
    · -- For all callers the template runs from one state, and so it ends in one way.
      obtain ⟨r, hrun⟩ := hended.attempt
      let left := Outcome.machine (x { m with frame := m.frame.below vars, output := #[] })
      have hdeeper (caller : Machine) (h : m.SameButCaller caller) :
          deeper vars x caller = settle r (left.returnTo caller) := by
        refine deeper_ok (hcaller h) ?_
        rw [h.below vars]
        exact hrun
      cases r with
      | ok a => exact .inl ⟨a, left, hdeeper⟩
      | error e => exact .inr (.inl ⟨e, left, hdeeper⟩)
    · refine .inr (.inr fun caller h hcall => hended ?_)
      rw [← h.below vars]
      exact hcall.of_deeper (hcaller h)

end Eval

namespace Evaluator

variable (ev : Evaluator)

/-- **A render call is the same for all callers**: it returns the same value and appends the same
pieces to the output, or it fails with the same error. -/
theorem callRender_uniform (method : Method) (t : Template) (vars : Scope) (m : Machine) :
    (∃ value added, ∃ left : Machine, ∀ caller, m.SameButCaller caller →
      ev.callRender method t vars caller = .ok value (left.spliceInto caller added)) ∨
    (∃ e, ∃ left : Machine, ∀ caller, m.SameButCaller caller →
      ev.callRender method t vars caller = .error (.failed e) (left.returnTo caller)) ∨
    ∀ caller, m.SameButCaller caller → ¬ Outcome.Ended (ev.callRender method t vars caller) := by
  have hnested := deeper_uniform vars (captured (ev.exec t.block)) m
  rw [← renderNested_eq] at hnested
  rcases hnested with ⟨output, left, hrun⟩ | ⟨e, left, hrun⟩ | hrun
  · left
    by_cases hmethod : method = .render
    · refine ⟨.none, output, left, fun caller h => ?_⟩
      unfold callRender
      rw [bind_ok (hrun caller h), if_pos hmethod]
      rfl
    · refine ⟨.str (String.join output.toList), #[], left, fun caller h => ?_⟩
      unfold callRender Machine.spliceInto
      rw [bind_ok (hrun caller h), if_neg hmethod, Array.append_empty]
      rfl
  · exact .inr (.inl ⟨e, left, fun caller h => bind_error (hrun caller h)⟩)
  · exact .inr (.inr fun caller h hcall => hrun caller h hcall.of_bind)

end Evaluator

/-! ## Before the call -/

theorem Method.resolve_render {method : Method} (hmethod : method.isRender) (receiver : Value) :
    resolve receiver method.name 0 = match receiver with
      | .template _ => .ok method
      | receiver => .error (.wrongArgType method.name Receiver.template.describe
          receiver.typeName) := by
  cases method with
  | render | renderString => cases receiver <;> rfl
  | _ => cases hmethod

namespace Evaluator

variable (ev : Evaluator)

/-- The template that a call of a method is made on, and its keyword arguments. -/
def keywordArguments (name : String) (object : Node) (args : List KeywordArg) :
    Eval (Template × Scope) := do
  match ← ev.eval object with
  | .template t => return (t, ← args.foldlM (ev.evalArgument name) [])
  | receiver => raise (.wrongArgType name Receiver.template.describe receiver.typeName)

theorem evalKeywordCall_eq {method : Method} (hmethod : method.isRender) (object : Node)
    (args : List KeywordArg) :
    ev.evalKeywordCall method.name object args =
      ev.keywordArguments method.name object args >>= fun call =>
        ev.callRender method call.1 call.2 := by
  have hname : renderMethod? method.name = some method := by
    cases method with
    | render | renderString => rfl
    | _ => cases hmethod
  unfold evalKeywordCall keywordArguments
  rw [hname, bind_assoc]
  congr 1
  funext receiver
  simp only [Method.resolve_render hmethod]
  cases receiver with
  | template t => simp only [lift, bind_assoc, pure_bind]
  | _ => rfl

end Evaluator

/-! ## The two methods -/

/-- The error of a call of `render`, and that of the same call of `renders`. They are the same, but
that of a repeated argument names the method. -/
inductive EvalError.SameCall : EvalError → EvalError → Prop
  | same (e : EvalError) : SameCall e e
  | repeated (name : String) (location : Option Location) :
    SameCall ⟨.duplicateArgument Method.render.name name, location⟩
      ⟨.duplicateArgument Method.renderString.name name, location⟩

theorem EvalError.SameCall.locate {e e' : EvalError} (h : e.SameCall e') (location : Location) :
    (e.locate location).SameCall (e'.locate location) := by
  cases h with
  | same => exact .same _
  | repeated => exact .repeated ..

namespace Eval

variable {α β : Type}

/-- The same outcome, up to the method that an error names. -/
inductive Outcome.SameCall : Outcome α → Outcome α → Prop
  | ok (a : α) (m : Machine) : SameCall (.ok a m) (.ok a m)
  | failed {e e' : EvalError} (h : e.SameCall e') (m : Machine) :
    SameCall (.error (.failed e) m) (.error (.failed e') m)
  | exhausted (m : Machine) : SameCall (.error .exhausted m) (.error .exhausted m)

theorem Outcome.SameCall.refl (r : Outcome α) : r.SameCall r := by
  cases r with
  | ok a m => exact .ok a m
  | error e m =>
    cases e with
    | failed e => exact .failed (.same e) m
    | exhausted => exact .exhausted m

/-- Two actions with the same outcomes, up to the method that an error names. -/
def SameCall (x y : Eval α) : Prop := ∀ m, Outcome.SameCall (x m) (y m)

namespace SameCall

theorem refl (x : Eval α) : SameCall x x := fun m => .refl (x m)

theorem bind {x y : Eval α} {k l : α → Eval β} (hx : SameCall x y)
    (hk : ∀ a, SameCall (k a) (l a)) : SameCall (x >>= k) (y >>= l) := by
  intro m
  have hfirst := hx m
  rw [bind_apply, bind_apply]
  generalize x m = r at hfirst ⊢
  generalize y m = r' at hfirst ⊢
  cases hfirst with
  | ok a m' => exact hk a m'
  | failed h m' => exact .failed h m'
  | exhausted m' => exact .exhausted m'

theorem foldlM {γ : Type} {k l : β → γ → Eval β} (h : ∀ state a, SameCall (k state a) (l state a))
    (as : List γ) (state : β) : SameCall (as.foldlM k state) (as.foldlM l state) := by
  induction as generalizing state with
  | nil => exact refl _
  | cons a as ih =>
    rw [List.foldlM_cons, List.foldlM_cons]
    exact bind (h state a) ih

end SameCall

end Eval

namespace Evaluator

variable (ev : Evaluator)

/-- Adding arguments fails at the same argument, whatever the method. -/
theorem addArguments_cases (vars : Scope) (entries : List (String × Value)) :
    (∃ all, ∀ method, entries.foldlM (addArgument method) vars = .ok all) ∨
      ∃ name, ∀ method,
        entries.foldlM (addArgument method) vars = .error (.duplicateArgument method name) := by
  induction entries generalizing vars with
  | nil => exact .inl ⟨vars, fun _ => rfl⟩
  | cons entry entries ih =>
    by_cases h : Bindings.contains entry.1 vars
    · refine .inr ⟨entry.1, fun method => ?_⟩
      rw [List.foldlM_cons, addArgument, if_pos h]
      rfl
    · have hadd (method : String) : (entry :: entries).foldlM (addArgument method) vars =
          entries.foldlM (addArgument method) (Bindings.insert entry.1 entry.2 vars) := by
        rw [List.foldlM_cons, addArgument, if_neg h]
        rfl
      simp only [hadd]
      exact ih _

theorem addArguments_sameCall (vars : Scope) (entries : List (String × Value)) :
    SameCall (lift (entries.foldlM (addArgument Method.render.name) vars))
      (lift (entries.foldlM (addArgument Method.renderString.name) vars)) := by
  intro m
  rcases addArguments_cases vars entries with ⟨all, h⟩ | ⟨name, h⟩
  · rw [h, h]
    exact .ok all m
  · rw [h, h]
    exact .failed (.repeated name none) m

theorem evalArgument_sameCall (vars : Scope) (arg : KeywordArg) :
    SameCall (ev.evalArgument Method.render.name vars arg)
      (ev.evalArgument Method.renderString.name vars arg) := by
  cases arg with
  | named name value =>
    refine .bind (.refl _) fun v => ?_
    have hone := addArguments_sameCall vars [(name, v)]
    simpa only [List.foldlM_cons, List.foldlM_nil, bind_pure] using hone
  | splat mapping =>
    exact .bind (.refl _) fun v => .bind (.refl _) fun entries => addArguments_sameCall vars entries

/-- The value of an expression, if it has one, is a template. -/
def IsTemplate (object : Node) (m : Machine) : Prop :=
  ∀ value left, ev.eval object m = .ok value left → ∃ t, value = .template t

variable {object : Node} {m : Machine}

/-- Up to the start of the template the two methods do the same. -/
theorem keywordArguments_sameCall (hobject : ev.IsTemplate object m) (args : List KeywordArg) :
    Outcome.SameCall (ev.keywordArguments Method.render.name object args m)
      (ev.keywordArguments Method.renderString.name object args m) := by
  unfold keywordArguments
  cases h : ev.eval object m with
  | error e left =>
    rw [bind_error h, bind_error h]
    exact .refl _
  | ok value left =>
    obtain ⟨t, rfl⟩ := hobject value left h
    rw [bind_ok h, bind_ok h]
    have hargs := SameCall.foldlM ev.evalArgument_sameCall args []
    exact hargs.bind (fun _ => .refl _) left

/-- A call of `render` and one of `renders` from the same state. -/
theorem callRender_methods (t : Template) (vars : Scope) (m : Machine) :
    (∃ output, ∃ m' : Machine, m'.output = m.output ∧
      ev.callRender .render t vars m = .ok .none { m' with output := m.output ++ output } ∧
      ev.callRender .renderString t vars m = .ok (.str (String.join output.toList)) m') ∨
    (∃ e, ∃ m' : Machine, m'.output = m.output ∧
      ∀ method, ev.callRender method t vars m = .error (.failed e) m') ∨
    ∃ m', ∀ method, ev.callRender method t vars m = .error .exhausted m' := by
  have hsilent := Silent.deeper vars (captured (ev.exec t.block)) m
  rw [← renderNested_eq] at hsilent
  cases h : ev.renderNested t vars m with
  | ok output m' =>
    have houtput : m'.output = m.output := by
      rw [h] at hsilent
      exact Outcome.output_of_eq (h ▸ hsilent trivial m.output)
    refine .inl ⟨output, m', houtput, ?_, bind_ok h⟩
    rw [← houtput]
    exact bind_ok h
  | error e m' =>
    cases e with
    | failed e =>
      have houtput : m'.output = m.output := by
        rw [h] at hsilent
        exact Outcome.output_of_eq (h ▸ hsilent trivial m.output)
      exact .inr (.inl ⟨e, m', houtput, fun _ => bind_error h⟩)
    | exhausted => exact .inr (.inr ⟨m', fun _ => bind_error h⟩)

/-- A keyword call of `render` and one of `renders` from the same state. The output that both begin
with is that after the arguments. -/
theorem evalKeywordCall_methods (hobject : ev.IsTemplate object m) (args : List KeywordArg)
    {before : Array String}
    (hbefore : before =
      (Outcome.machine (ev.keywordArguments Method.render.name object args m)).output) :
    (∃ output, ∃ m' : Machine, m'.output = before ∧
      ev.evalKeywordCall Method.render.name object args m =
        .ok .none { m' with output := before ++ output } ∧
      ev.evalKeywordCall Method.renderString.name object args m =
        .ok (.str (String.join output.toList)) m') ∨
    (∃ e e', ∃ m' : Machine, e.SameCall e' ∧ m'.output = before ∧
      ev.evalKeywordCall Method.render.name object args m = .error (.failed e) m' ∧
      ev.evalKeywordCall Method.renderString.name object args m = .error (.failed e') m') ∨
    ∃ m', ev.evalKeywordCall Method.render.name object args m = .error .exhausted m' ∧
      ev.evalKeywordCall Method.renderString.name object args m = .error .exhausted m' := by
  have harguments := ev.keywordArguments_sameCall hobject args
  rw [ev.evalKeywordCall_eq rfl, ev.evalKeywordCall_eq rfl]
  -- Either both get to the call with the same arguments in the same state, or none of them does.
  generalize h : ev.keywordArguments Method.render.name object args m = r at harguments hbefore
  generalize h' : ev.keywordArguments Method.renderString.name object args m = r' at harguments
  cases harguments with
  | ok call left =>
    subst hbefore
    rw [bind_ok h, bind_ok h']
    rcases ev.callRender_methods call.1 call.2 left
      with hdone | ⟨e, m', houtput, hfail⟩ | ⟨m', hout⟩
    · exact .inl hdone
    · exact .inr (.inl ⟨e, e, m', .same e, houtput, hfail _, hfail _⟩)
    · exact .inr (.inr ⟨m', hout _, hout _⟩)
  | failed herror left =>
    exact .inr (.inl ⟨_, _, left, herror, hbefore.symm, bind_error h, bind_error h'⟩)
  | exhausted left => exact .inr (.inr ⟨left, bind_error h, bind_error h'⟩)

end Evaluator

/-- What a statement that calls `render` and one that prints a call of `renders` end with. Either
both fail and leave the output as it was before the template started, or the first one appends the
pieces of text that the second one appends as a whole. -/
inductive Eval.Outcome.SamePrint (before : Array String) : Outcome Value → Outcome Value → Prop
  | failed {e e' : EvalError} {m : Machine} (herror : e.SameCall e') (houtput : m.output = before) :
    SamePrint before (.error (.failed e) m) (.error (.failed e') m)
  | done (output : Array String) (m : Machine) :
    SamePrint before (.ok .none { m with output := before ++ output })
      (.ok .none { m with output := before.push (String.join output.toList) })
  | exhausted (m : Machine) : SamePrint before (.error .exhausted m) (.error .exhausted m)

theorem Eval.Outcome.SamePrint.locating {before : Array String} {x y : Eval Value} {m : Machine}
    (h : SamePrint before (x m) (y m)) (location : Location) :
    SamePrint before (Eval.locating location x m) (Eval.locating location y m) := by
  unfold Eval.locating mapError
  generalize x m = r at h ⊢
  generalize y m = r' at h ⊢
  cases h with
  | failed herror houtput => exact .failed (herror.locate location) houtput
  | done output m' => exact .done output m'
  | exhausted m' => exact .exhausted m'

namespace Evaluator

variable {ev outer : Evaluator}

theorem runRender_of_isRenderCall {node : Node} (h : isRenderCall node) :
    asStatement (outer.runRender node) = (do let _ ← outer.eval node; return .none) := by
  unfold asStatement runRender
  simp only [h, if_true, bind_assoc, pure_bind]

/-- A statement that calls `render`, and one that prints a call of `renders`. -/
theorem statements_samePrint {object : Node} {m : Machine}
    (houter : ∀ node, outer.eval node = ev.evalNode node) (hobject : ev.IsTemplate object m)
    (args : List KeywordArg) (n n' c c' : Nat) (location callLocation : Location) :
    Outcome.SamePrint
      (Outcome.machine (ev.keywordArguments Method.render.name object args m)).output
      (outer.evalNode ⟨n, location, .render ⟨c, callLocation,
        .callMethKeywords Method.render.name object args⟩⟩ m)
      (outer.evalNode ⟨n', location, .print ⟨c', callLocation,
        .callMethKeywords Method.renderString.name object args⟩⟩ m) := by
  generalize hrender : (⟨c, callLocation, .callMethKeywords Method.render.name object args⟩ : Node)
    = render
  generalize hrenders :
    (⟨c', callLocation, .callMethKeywords Method.renderString.name object args⟩ : Node) = renders
  have heval : outer.eval render =
      locating callLocation (ev.evalKeywordCall Method.render.name object args) := by
    rw [← hrender, houter]
    rfl
  have heval' : outer.eval renders =
      locating callLocation (ev.evalKeywordCall Method.renderString.name object args) := by
    rw [← hrenders, houter]
    rfl
  -- The first statement does nothing with the value of the call, the second one puts it out.
  have hstatement : outer.evalNode ⟨n, location, .render render⟩ =
      locating location (do let _ ← outer.eval render; return .none) := by
    have hcall : isRenderCall render := by
      rw [← hrender]
      rfl
    exact congrArg (locating location) (runRender_of_isRenderCall hcall)
  have hprint : outer.evalNode ⟨n', location, .print renders⟩ =
      locating location (do emit (← outer.eval renders).text; return .none) :=
    congrArg (locating location) (bind_assoc ..)
  rw [hstatement, hprint, heval, heval']
  refine .locating ?_ location
  rcases ev.evalKeywordCall_methods hobject args rfl with
    ⟨output, m', houtput, h, h'⟩ | ⟨e, e', m', herror, houtput, h, h'⟩ | ⟨m', h, h'⟩
  · rw [bind_ok (locating_ok h callLocation), bind_ok (locating_ok h' callLocation), ← houtput]
    exact .done output m'
  · rw [bind_error (locating_failed h callLocation), bind_error (locating_failed h' callLocation)]
    exact .failed (herror.locate callLocation) houtput
  · rw [bind_error (locating_exhausted h callLocation),
      bind_error (locating_exhausted h' callLocation)]
    exact .exhausted m'

end Evaluator

/-- **Nested renders are isolated.** A render call of a template with some arguments is the same for
all callers that agree on everything but their variables and their output: it returns the same value
and appends the same pieces of text, or it fails with the same error, and the variables of the
caller stay as they are. And a statement that calls `render` and one that prints the same call of
`renders` end alike: they leave the same state and, if they succeed, append the same text. Only the
error of a repeated keyword argument names the method. -/
theorem nested_renders_isolated (budget : Nat) (m : Machine) :
    (∀ method t vars,
      (∃ value added, ∃ left : Machine, ∀ caller, m.SameButCaller caller →
        (Evaluator.within budget).callRender method t vars caller =
          .ok value (left.spliceInto caller added)) ∨
      (∃ e, ∃ left : Machine, ∀ caller, m.SameButCaller caller →
        (Evaluator.within budget).callRender method t vars caller =
          .error (.failed e) (left.returnTo caller)) ∨
      ∀ caller, m.SameButCaller caller →
        ¬ Outcome.Ended ((Evaluator.within budget).callRender method t vars caller)) ∧
    ∀ n n' c c' location callLocation object args, (Evaluator.within budget).IsTemplate object m →
      Outcome.SamePrint
        (Outcome.machine ((Evaluator.within budget).keywordArguments Method.render.name object args
          m)).output
        ((Evaluator.within (budget + 2)).eval ⟨n, location, .render ⟨c, callLocation,
          .callMethKeywords Method.render.name object args⟩⟩ m)
        ((Evaluator.within (budget + 2)).eval ⟨n', location, .print ⟨c', callLocation,
          .callMethKeywords Method.renderString.name object args⟩⟩ m) :=
  ⟨fun method t vars => (Evaluator.within budget).callRender_uniform method t vars m,
    fun n n' c c' location callLocation _ args hobject =>
      Evaluator.statements_samePrint (fun _ => rfl) hobject args n n' c c' location callLocation⟩

/-- A template that prints its argument `x`, rendered by a caller that has the template only and by
one with an `x` of its own. -/
theorem nested_renders_isolated_argument :
    let t : Template := ⟨0, none, "", none, "", "", ⟨none, [⟨1, .ofText "" .empty,
      .print ⟨2, .ofText "" .empty, .var "x"⟩⟩]⟩⟩
    let object : Node := ⟨3, .ofText "" .empty, .var "t"⟩
    let args : List KeywordArg := [.named "x" ⟨4, .ofText "" .empty, .const (.str "a")⟩]
    let m := Machine.start 7 0 .first (.ofVars [("t", .template t)] 2)
    let m' := { Machine.start 7 0 .first (.ofVars [("x", .int 1)] 2) with output := #["before"] }
    (m.SameButCaller m' ∧ ∃ value added, ∃ left : Machine,
      (Evaluator.within 4).callRender .render t [("x", .str "a")] m =
        .ok value (left.spliceInto m added) ∧
      (Evaluator.within 4).callRender .render t [("x", .str "a")] m' =
        .ok value (left.spliceInto m' added)) ∧
    (Evaluator.within 4).IsTemplate object m ∧
      Outcome.SamePrint #[]
        ((Evaluator.within 6).eval ⟨5, .ofText "" .empty, .render ⟨6, .ofText "" .empty,
          .callMethKeywords Method.render.name object args⟩⟩ m)
        ((Evaluator.within 6).eval ⟨5, .ofText "" .empty, .print ⟨6, .ofText "" .empty,
          .callMethKeywords Method.renderString.name object args⟩⟩ m) := by
  intro t object args m m'
  obtain ⟨hcalls, hstatements⟩ := nested_renders_isolated 4 m
  constructor
  · have hsame : m.SameButCaller m' := ⟨rfl, rfl, rfl, rfl, rfl, rfl⟩
    have hcall : (Evaluator.within 4).callRender .render t [("x", .str "a")] m =
        .ok .none { m with output := #["a"] } := rfl
    refine ⟨hsame, ?_⟩
    rcases hcalls .render t [("x", .str "a")] with
      ⟨value, added, left, h⟩ | ⟨e, left, h⟩ | h
    · exact ⟨value, added, left, h m (.refl m), h m' hsame⟩
    · cases hcall.symm.trans (h m (.refl m))
    · exact absurd (hcall ▸ trivial) (h m (.refl m))
  · have hobject : (Evaluator.within 4).IsTemplate object m := by
      intro value left h
      have hvalue : (Evaluator.within 4).eval object m = .ok (.template t) m := rfl
      cases hvalue.symm.trans h
      exact ⟨t, rfl⟩
    exact ⟨hobject, hstatements 5 5 6 6 (.ofText "" .empty) (.ofText "" .empty) object args hobject⟩

/-- The errors of `<?render t.render(k=1, k=2)?>` and `<?print t.renders(k=1, k=2)?>` are not the
same. -/
theorem repeated_keyword_names_method :
    let t : Template := ⟨0, none, "", none, "", "", ⟨none, []⟩⟩
    let object : Node := ⟨1, .ofText "" .empty, .var "t"⟩
    let args : List KeywordArg := [.named "k" ⟨2, .ofText "" .empty, .const (.int 1)⟩,
      .named "k" ⟨3, .ofText "" .empty, .const (.int 2)⟩]
    let m := Machine.start 6 0 .first (.ofVars [("t", .template t)] 2)
    ∃ e e' left left',
      (Evaluator.within 4).eval ⟨4, .ofText "" .empty, .render ⟨5, .ofText "" .empty,
        .callMethKeywords Method.render.name object args⟩⟩ m = .error (.failed e) left ∧
      (Evaluator.within 4).eval ⟨4, .ofText "" .empty, .print ⟨5, .ofText "" .empty,
        .callMethKeywords Method.renderString.name object args⟩⟩ m = .error (.failed e') left' ∧
      e.message = "duplicate keyword argument k in render()" ∧
      e'.message = "duplicate keyword argument k in renders()" ∧ e ≠ e' := by
  refine ⟨_, _, _, _, rfl, rfl, rfl, rfl, fun h => ?_⟩
  have hmessage : "duplicate keyword argument k in render()" =
      "duplicate keyword argument k in renders()" := congrArg EvalError.message h
  exact absurd hmessage (by decide)

end Templating
