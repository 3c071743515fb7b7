import Templating.Proofs.Eval.Refuse

/-!
# Errors point at the innermost node

When an evaluation fails, some nodes are in evaluation: each of them has called the evaluator for
the next one, and the last one has failed by itself. Here the calls of a run are told by refusing
them, so what is in evaluation does not depend on the locations of errors.

* `FailingCall`: a call in a run, which fails with an error that the run does not consume.
* `FailingCall.passes`: **the run fails with the error of the call.**
* `location_eq_or_failingCall`: a run that fails locates the error itself, or there is such a call.
* `InProgress`: the nodes in evaluation when a call fails.
* `errors_at_innermost_node`: **an error is located at the last of them.**
-/

namespace Templating

open Eval

variable {a b : Activity} {ev : Evaluator} {m n : Machine} {e e' : EvalError}

/-- A call in a run of an activity. The run is another one if the call is refused, so it makes the
call. The call fails, and its error is not a signal that a loop consumes. -/
structure FailingCall (ev : Evaluator) (a : Activity) (m : Machine) (b : Activity) (n : Machine)
    (e : EvalError) : Prop where
  made : a.body (ev.refusing fun c l => c = b ∧ l = n) m ≠ a.body ev m
  fails : b.Fails ev n e
  escapes : ¬ a.Consumes m b n e

/-- **A run fails with the error of a call that fails**, unless it consumes it. -/
theorem FailingCall.passes (h : FailingCall ev a m b n e) :
    ∃ e' m', a.body ev m = .error (.failed e') m' ∧ a.Passes e e' := by
  let F : Failures := fun c l e' => c = b ∧ l = n ∧ e' = e
  have hrefusal : Refusal F ev (ev.refusing fun c l => c = b ∧ l = n) := {
    fails := by
      rintro _ _ _ ⟨rfl, rfl, rfl⟩
      exact h.fails
    refused := fun he => Evaluator.call_refusing_of ⟨he.1, he.2.1⟩
    kept := fun hnot => Evaluator.call_refusing_of_not fun he => hnot e ⟨he.1, he.2, rfl⟩
    budget := rfl }
  have hbody := hrefusal.body a m (by
    rintro _ _ _ ⟨rfl, rfl, rfl⟩
    exact h.escapes)
  have hmade := h.made
  generalize a.body ev m = r, a.body (ev.refusing _) m = r' at hbody hmade
  cases hbody with
  | same _ => exact absurd rfl hmade
  | refused he =>
    obtain ⟨_, ⟨-, -, rfl⟩, hpasses⟩ := he
    exact ⟨_, _, rfl, hpasses⟩

/-- A run that fails locates the error itself, or there is a call that has failed. -/
theorem location_eq_or_failingCall {m' : Machine} (h : a.body ev m = .error (.failed e) m') :
    e.location = a.location? ∨ ∃ b n e', FailingCall ev a m b n e' := by
  -- all calls are refused that fail with an error that goes on
  let F : Failures := fun b n e => b.Fails ev n e ∧ ¬ a.Consumes m b n e
  let all := ev.refusing fun b n => ∃ e, F b n e
  have hbody := (Evaluator.refusal fun b n e (he : F b n e) => he.1).body a m fun _ _ _ he => he.2
  rw [h] at hbody
  change Refused _ _ _ (a.body all m) at hbody
  generalize hall : a.body all m = r at hbody
  cases hbody with
  | same hlocated => exact .inl (hlocated e m' rfl fun b n e hfails hescapes => ⟨hfails, hescapes⟩)
  | @refused b n _ _ he =>
    obtain ⟨e₁, he₁, -⟩ := he
    refine .inr ⟨b, n, e₁, fun hmade => ?_, he₁.1, he₁.2⟩
    -- if the call alone is refused, the others are refused no sooner
    let one := ev.refusing fun c l => c = b ∧ l = n
    let G : Failures := fun c l e => F c l e ∧ ¬ (c = b ∧ l = n)
    have hrefusal : Refusal G one all := by
      refine ⟨fun {c l e} he => ?_, fun he => Evaluator.call_refusing_of ⟨_, he.1⟩,
        fun {c l} hnot => ?_, rfl⟩
      · obtain ⟨l', hfails⟩ := he.1.1
        exact ⟨l', (Evaluator.call_refusing_of_not he.2).trans hfails⟩
      · by_cases hcl : c = b ∧ l = n
        · obtain ⟨rfl, rfl⟩ := hcl
          exact (Evaluator.call_refusing_of ⟨e₁, he₁⟩).trans
            (Evaluator.call_refusing_of ⟨rfl, rfl⟩).symm
        · exact (Evaluator.call_refusing_of_not fun ⟨e, he⟩ => hnot e ⟨he, hcl⟩).trans
            (Evaluator.call_refusing_of_not hcl).symm
    have hbody := hrefusal.body a m fun _ _ _ he => he.1.2
    rw [hall, show a.body one m = _ from hmade, h] at hbody
    generalize hnote : n.noted b = l at hbody
    cases hbody with
    | refused he =>
      obtain ⟨e₂, hG, -⟩ := he
      obtain ⟨rfl, rfl⟩ := Machine.noted_injective hnote
      exact hG.2 ⟨rfl, rfl⟩

/-! ## The nodes in evaluation -/

/-- The node that an activity evaluates. -/
def Activity.nodes : Activity → List Node
  | .eval node => [node]
  | .advance _ => []

/-- The nodes in evaluation when a call within a budget has failed, from the outermost one inward.
If some call in the run has failed, those of the call are in evaluation too. -/
inductive InProgress : Nat → Activity → Machine → List Node → Prop where
  | raised {budget : Nat} {a : Activity} {m : Machine} :
      (∀ b n e, ¬ FailingCall (.within budget) a m b n e) → InProgress (budget + 1) a m a.nodes
  | called {budget : Nat} {a b : Activity} {m n : Machine} {e : EvalError} {nodes : List Node} :
      FailingCall (.within budget) a m b n e → InProgress budget b n nodes →
      InProgress (budget + 1) a m (a.nodes ++ nodes)

theorem Activity.call_within (a : Activity) (budget : Nat) :
    a.call (.within (budget + 1)) = a.body (.within budget) := by
  cases a <;> rfl

theorem Activity.Fails.exists_succ {budget : Nat} (h : a.Fails (.within budget) m e) :
    ∃ k, budget = k + 1 := by
  obtain ⟨m', h⟩ := h
  cases budget with
  | zero => cases a <;> cases h
  | succ k => exact ⟨k, rfl⟩

/-- Some nodes are in evaluation when a call fails. -/
theorem Activity.Fails.exists_inProgress {budget : Nat} (h : a.Fails (.within budget) m e) :
    ∃ nodes, InProgress budget a m nodes := by
  induction budget generalizing a m e with
  | zero =>
    obtain ⟨k, hk⟩ := h.exists_succ
    cases hk
  | succ budget ih =>
    by_cases hcall : ∃ b n e, FailingCall (.within budget) a m b n e
    · obtain ⟨b, n, e₁, hcall⟩ := hcall
      obtain ⟨nodes, hnodes⟩ := ih hcall.fails
      exact ⟨_, .called hcall hnodes⟩
    · exact ⟨_, .raised fun b n e₁ hb => hcall ⟨b, n, e₁, hb⟩⟩

theorem Activity.location?_eq (a : Activity) :
    a.location? = a.nodes.getLast?.map Node.location := by
  cases a <;> rfl

/-- An error that goes on is located where it was, or at the node. -/
theorem Activity.Passes.location (h : a.Passes e e') :
    e'.location = (e.location <|> a.location?) := by
  cases h with
  | advance =>
    change e.location = (e.location <|> none)
    cases e.location <;> rfl
  | eval => rfl
  | render _ =>
    change (e.settle.location <|> _) = _
    rw [e.location_settle]
    rfl

/-- **The error of a call is located at the last node in evaluation.** -/
theorem InProgress.location {budget : Nat} {nodes : List Node} (h : InProgress budget a m nodes)
    (hfails : a.Fails (.within budget) m e) :
    e.location = nodes.getLast?.map Node.location := by
  induction h generalizing e with
  | @raised budget a m hnone =>
    obtain ⟨m', hfails⟩ := hfails
    rw [a.call_within] at hfails
    rcases location_eq_or_failingCall hfails with hlocation | ⟨b, n, e₁, hcall⟩
    · rw [hlocation, a.location?_eq]
    · exact absurd hcall (hnone b n e₁)
  | @called budget a b m n e₁ nodes hcall _ ih =>
    obtain ⟨e₂, m₂, hbody, hpasses⟩ := hcall.passes
    obtain rfl : e = e₂ := hfails.unique ⟨m₂, (congrFun (a.call_within budget) m).trans hbody⟩
    rw [hpasses.location, ih hcall.fails, a.location?_eq, List.getLast?_append]
    cases nodes.getLast? <;> rfl

/-! ## Errors -/

theorem EvalError.settle_of_signal?_eq_none (h : e.cause.signal? = none) : e.settle = e := by
  obtain ⟨cause, location⟩ := e
  cases cause with
  | signal => cases h
  | _ => rfl

theorem EvalError.locate_of_isSome (h : e.location.isSome) (location : Location) :
    e.locate location = e := by
  obtain ⟨cause, _ | l⟩ := e
  · cases h
  · rfl

/-- A located error goes on as it is. Only a signal that leaves a template becomes an error. -/
theorem Activity.Passes.eq (h : a.Passes e e') (hlocated : e.location.isSome) :
    e' = e ∨ e' = e.settle ∧ e.cause.signal?.isSome ∧
      ∃ node, a = .eval node ∧ node.kind.render?.isSome := by
  cases h with
  | advance => exact .inl rfl
  | eval => exact .inl (e.locate_of_isSome hlocated _)
  | @render node _ hrender =>
    have hlocate : e.settle.locate node.location = e.settle :=
      EvalError.locate_of_isSome (by rwa [e.location_settle]) _
    cases hsignal : e.cause.signal? with
    | none => exact .inl (hlocate.trans (EvalError.settle_of_signal?_eq_none hsignal))
    | some s => exact .inr ⟨hlocate, rfl, node, rfl, hrender⟩

/-- The evaluation of some node fails with the error of a block that fails. -/
theorem Evaluator.exec_failed {block : Block} {m' : Machine}
    (h : ev.exec block m = .error (.failed e) m') :
    ∃ child ∈ block.content, ∃ n, (Activity.eval child).Fails ev n e := by
  obtain ⟨stop, content⟩ := block
  induction content generalizing m with
  | nil => cases h
  | cons child rest ih =>
    have hexec : ev.exec ⟨stop, child :: rest⟩ = ev.eval child >>= fun _ => ev.exec ⟨stop, rest⟩ :=
      (bind_assoc ..).trans (bind_congr fun _ => pure_bind ..)
    rw [hexec] at h
    cases hchild : ev.eval child m with
    | ok v n =>
      rw [bind_ok hchild] at h
      obtain ⟨child', hmem, hfails⟩ := ih h
      exact ⟨child', List.mem_cons_of_mem _ hmem, hfails⟩
    | error abort n =>
      rw [bind_error hchild] at h
      cases h
      exact ⟨child, List.mem_cons_self, m, _, hchild⟩

theorem Evaluator.render_failed {t : Template} {m' : Machine}
    (h : ev.render t m = .error (.failed e) m') :
    ∃ child ∈ t.block.content, ∃ n e₁, (Activity.eval child).Fails ev n e₁ ∧ e = e₁.settle := by
  change captured (ev.exec t.block) m = _ at h
  have hended : Outcome.Ended (captured (ev.exec t.block) m) := by
    rw [h]
    trivial
  obtain ⟨r, hr⟩ := hended.of_captured.attempt
  rw [captured_ok hr] at h
  cases r with
  | ok _ => cases h
  | error e₁ =>
    cases h
    cases hexec : ev.exec t.block { m with output := #[] } with
    | ok _ _ =>
      rw [attempt_ok hexec] at hr
      cases hr
    | error abort n =>
      cases abort with
      | exhausted =>
        rw [attempt_exhausted hexec] at hr
        cases hr
      | failed e₂ =>
        rw [attempt_failed hexec] at hr
        cases hr
        obtain ⟨child, hchild, n, hfails⟩ := Evaluator.exec_failed hexec
        exact ⟨child, hchild, n, e₁, hfails, rfl⟩

/-- **Errors point at the innermost failing node.** If the evaluation of a node fails, the error is
located at the innermost node in evaluation. If a call fails with a located error, and no loop
consumes it, then the run that made the call fails with the same error; only a signal that leaves a
template that is rendered becomes an error, at the same location. -/
theorem errors_at_innermost_node (budget : Nat) :
    (∀ node m e m', (Evaluator.within (budget + 1)).eval node m = .error (.failed e) m' →
      (∃ nodes, InProgress (budget + 1) (.eval node) m nodes) ∧
      ∀ nodes, InProgress (budget + 1) (.eval node) m nodes →
        ∃ inner, nodes.getLast? = some inner ∧ e.location = some inner.location) ∧
    (∀ a m b n e, FailingCall (.within budget) a m b n e → e.location.isSome →
      ∃ e', a.Fails (.within (budget + 1)) m e' ∧ (e' = e ∨ e' = e.settle ∧
        e.cause.signal?.isSome ∧ ∃ node, a = .eval node ∧ node.kind.render?.isSome)) ∧
    (∀ t m e m', (Evaluator.within budget).render t m = .error (.failed e) m' →
      ∃ child ∈ t.block.content, ∃ n e₁, (Activity.eval child).Fails (.within budget) n e₁ ∧
        e = e₁.settle) ∧
    ∀ e : EvalError, e.settle.location = e.location := by
  refine ⟨fun node m e m' h => ?_, fun a m b n e hcall hlocated => ?_,
    fun t m e m' h => Evaluator.render_failed h, EvalError.location_settle⟩
  · have hfails : (Activity.eval node).Fails (.within (budget + 1)) m e := ⟨m', h⟩
    refine ⟨hfails.exists_inProgress, fun nodes hnodes => ?_⟩
    have hlocation := hnodes.location hfails
    -- the node itself is in evaluation
    obtain ⟨inner, hinner⟩ : ∃ inner, nodes.getLast? = some inner := by
      cases hnodes with
      | raised => exact ⟨node, rfl⟩
      | called _ _ => exact ⟨_, List.getLast?_eq_getLast_of_ne_nil (List.cons_ne_nil _ _)⟩
    rw [hinner] at hlocation
    exact ⟨inner, hinner, hlocation⟩
  · obtain ⟨e', m', hbody, hpasses⟩ := hcall.passes
    exact ⟨e', ⟨m', (congrFun (a.call_within budget) m).trans hbody⟩, hpasses.eq hlocated⟩

/-- A template that is rendered fails at the unknown variable `y`, which it prints. -/
theorem errors_at_innermost_node_rendered :
    let place (code : String) : Location := .ofText code .empty
    let t : Template := ⟨0, none, "", none, "", "",
      ⟨none, [⟨1, place "print", .print ⟨2, place "y", .var "y"⟩⟩]⟩⟩
    let call : Node := ⟨3, place "t.render()", .callMeth "render" ⟨4, place "t", .var "t"⟩ []⟩
    let m := Machine.start 5 0 .first (.ofVars [("t", .template t)] 2)
    (∃ m', (Evaluator.within 4).eval call m =
      .error (.failed ⟨.undefinedVariable "y", some (place "y")⟩) m') ∧
      ∃ nodes inner, InProgress 4 (.eval call) m nodes ∧ nodes.getLast? = some inner ∧
        inner.location = place "y" := by
  intro place t call m
  have hfails : ∃ m', (Evaluator.within 4).eval call m =
      .error (.failed ⟨.undefinedVariable "y", some (place "y")⟩) m' := ⟨_, rfl⟩
  refine ⟨hfails, ?_⟩
  obtain ⟨m', hfails⟩ := hfails
  obtain ⟨⟨nodes, hnodes⟩, hlocated⟩ := (errors_at_innermost_node 3).1 call m _ m' hfails
  obtain ⟨inner, hinner, hlocation⟩ := hlocated nodes hnodes
  exact ⟨nodes, inner, hnodes, hinner, (Option.some.inj hlocation).symm⟩

end Templating
