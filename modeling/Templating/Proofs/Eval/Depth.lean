import Templating.Proofs.Eval.Isolation
import Templating.Proofs.Eval.Limit
import Templating.Proofs.Eval.Watch

/-!
# How deeply render calls are nested

* `Evaluator.Attempts`: an evaluation comes to a render call.
* `Evaluator.AttemptsAt`, `Evaluator.KeepsLimit`: it does so at some depth, and it is not deeper
  than a limit.
* `Evaluator.within_follows`: with a higher limit a run does the same, unless it reaches its limit.
* `Evaluator.watched_follows`: a run that attempts no render call at its limit does not fail for it.
* `Evaluator.follows_watched`: no run goes deeper than its limit.
* `raising_the_limit`: **a limit that is not reached does not matter.**
-/

namespace Templating

open Eval

namespace Evaluator

/-- A call of a method on a receiver. -/
def finishCall (ev : Evaluator) (name : String) (args : List Node) (receiver : Value) :
    Eval Value := do
  let args ← args.mapM ev.eval
  match receiver, renderMethod? name with
  | .template t, some method =>
    if args.isEmpty then ev.callRender method t []
    else raise (.wrongArgCount .method name 0 (some 0) args.length)
  | receiver, _ => callMethod ev receiver name args

theorem evalCall_eq (ev : Evaluator) (name : String) (object : Node) (args : List Node) :
    ev.evalCall name object args = ev.eval object >>= ev.finishCall name args := rfl

theorem renderMethod?_eq_some {name : String} {method : Method}
    (h : renderMethod? name = some method) : method.isRender ∧ method.name = name := by
  obtain ⟨hname, hrender⟩ := Option.filter_eq_some_iff.1 h
  exact ⟨hrender, by simpa using List.find?_some hname⟩

end Evaluator

namespace Eval.Congruent

variable {R : Eval.Relation} {ev ev' : Evaluator} (hR : Congruent R)

include hR

theorem keywordArguments (name : String) {object : Node} {args : List KeywordArg}
    (hobject : R (ev.eval object) (ev'.eval object))
    (hargs : ∀ arg ∈ args, R (ev.eval arg.value) (ev'.eval arg.value)) :
    R (ev.keywordArguments name object args) (ev'.keywordArguments name object args) := by
  refine hR.bind hobject fun receiver => ?_
  cases receiver with
  | template t =>
    exact hR.bind (hR.foldlM (fun arg harg vars => hR.evalArgument name vars (hargs arg harg)) [])
      fun _ => hR.pure _
  | _ => exact hR.raise trivial

/-- A call that does not render a template. -/
theorem finishCall (h : ev.Related R ev') (name : String) {args : List Node} {receiver : Value}
    (hargs : ∀ node ∈ args, R (ev.eval node) (ev'.eval node))
    (hother : ∀ t, receiver = .template t → args ≠ []) :
    R (ev.finishCall name args receiver) (ev'.finishCall name args receiver) := by
  cases args with
  | nil =>
    refine hR.bind (hR.pure []) fun args => ?_
    cases receiver with
    | template t => exact absurd rfl (hother t rfl)
    | _ => exact hR.callMethod h _ name args
  | cons arg args =>
    unfold Evaluator.finishCall
    obtain ⟨harg, hrest⟩ := List.forall_mem_cons.1 hargs
    simp only [List.mapM_cons, bind_assoc, pure_bind]
    refine hR.bind harg fun v => hR.bind (hR.mapM hrest) fun vs => ?_
    split
    · exact hR.raise trivial
    · exact hR.callMethod h _ name _

end Eval.Congruent

namespace Evaluator

/-- The evaluation of a node from some state comes to the call of a template, in another state. -/
inductive Attempts (ev : Evaluator) : NodeKind → Machine → Machine → Prop
  | call {name : String} {object : Node} {t : Template} {m left : Machine}
    (hname : (renderMethod? name).isSome)
    (hobject : ev.eval object m = .ok (.template t) left) :
    Attempts ev (.callMeth name object []) m left
  | keywordCall {method : Method} {object : Node} {args : List KeywordArg} {t : Template}
    {vars : Scope} {m left : Machine} (hmethod : method.isRender)
    (hargs : ev.keywordArguments method.name object args m = .ok (t, vars) left) :
    Attempts ev (.callMethKeywords method.name object args) m left

/-- An evaluation that comes to a call ends as the call does. -/
theorem Attempts.evalKind {ev : Evaluator} {kind : NodeKind} {m left : Machine}
    (h : ev.Attempts kind m left) (location : Location) :
    ∃ method t vars, ev.evalKind location kind m = ev.callRender method t vars left := by
  cases h with
  | @call name object t _ _ hname hobject =>
    obtain ⟨method, hmethod⟩ := Option.isSome_iff_exists.1 hname
    refine ⟨method, t, [], ?_⟩
    change ev.evalCall name object [] m = _
    unfold evalCall
    rw [bind_ok hobject, hmethod]
    rfl
  | @keywordCall method object args t vars _ _ hmethod hargs =>
    refine ⟨method, t, vars, ?_⟩
    change ev.evalKeywordCall method.name object args m = _
    rw [ev.evalKeywordCall_eq hmethod, bind_ok hargs]

/-- A run with a higher limit does the same, unless the run reaches its limit and fails. -/
theorem within_follows {limit limit' : Nat} (hlimits : limit ≤ limit') (budget : Nat) :
    (∀ node, Follows limit limit' (fun _ => True) ((within budget).eval node)
      ((within budget).eval node)) ∧
    (within budget).Related (Follows limit limit' fun _ => True) (within budget) := by
  have hR := Follows.compatible limit limit' fun _ => True
  induction budget with
  | zero => exact ⟨fun _ => hR.exhaust, fun _ => hR.exhaust, rfl⟩
  | succ budget ih =>
    obtain ⟨heval, h⟩ := ih
    refine ⟨fun node => ?_, Follows.advanceCell heval (fun _ _ => id) h, rfl⟩
    exact hR.evalNode h heval (Follows.binding ..) fun _ =>
      Follows.renderNested heval hlimits trivial fun _ => id

/-! ## At the limit -/

/-- An evaluation that comes to a render call at some depth. -/
def AttemptsAt (depth : Nat) : Property := fun n node m =>
  ∃ left, (within n).Attempts node.kind m left ∧ left.frame.depth = depth

/-- An evaluation that is not deeper than a limit, and that fails if it comes to a render call at
the limit. -/
def KeepsLimit (limit : Nat) : Property := fun n node m =>
  m.frame.depth ≤ limit ∧
    (AttemptsAt limit n node m → Outcome.IsRecursion ((within n).evalNode node m))

section

variable {ev ev' : Evaluator} {limit depth : Nat} {φ : Nat → Prop} {kind : NodeKind}
  {m left : Machine} (heval : ∀ node, Follows limit limit φ (ev.eval node) (ev'.eval node))
  (hm : m.At limit depth)

include heval hm

/-- A run that follows another one comes to the same calls. -/
theorem Attempts.follow (h : ev.Attempts kind m left) :
    ev'.Attempts kind m left ∧ left.At limit depth := by
  cases h with
  | @call name object t _ _ hname hobject =>
    obtain ⟨hsame, hleft⟩ := (heval object).same hm (hobject ▸ trivial)
    rw [hobject] at hsame hleft
    exact ⟨.call hname hsame, hleft⟩
  | @keywordCall method object args t vars _ _ hmethod hargs =>
    have hfollows := (Follows.compatible limit limit φ).keywordArguments method.name
      (heval object) fun arg (_ : arg ∈ args) => heval arg.value
    obtain ⟨hsame, hleft⟩ := hfollows.same hm (hargs ▸ trivial)
    rw [hargs] at hsame hleft
    exact ⟨.keywordCall hmethod hsame, hleft⟩

end

/-- **A run fails for its limit at a render call only.** -/
theorem attempts_of_isRecursion {ev ev' : Evaluator} {limit depth : Nat}
    (heval : ∀ node, Follows limit limit (fun _ => False) (ev.eval node) (ev'.eval node))
    (h : ev.Related (Follows limit limit fun _ => False) ev') {kind : NodeKind}
    {location : Location} {m : Machine} (hm : m.At limit depth)
    (hrec : Outcome.IsRecursion (ev.evalKind location kind m)) :
    ∃ left, ev.Attempts kind m left := by
  have hR := Follows.compatible limit limit fun _ => False
  by_cases hcall : kind.render?.isSome
  · cases kind with
    | callMeth name object args =>
      change Outcome.IsRecursion (ev.evalCall name object args m) at hrec
      rw [evalCall_eq] at hrec
      cases hobject : ev.eval object m with
      | error e left =>
        rw [bind_error hobject] at hrec
        refine ((heval object).not_isRecursion hm ?_).elim
        rw [hobject]
        exact hrec
      | ok receiver left =>
        -- The receiver is there. Unless it is a template without arguments, no template is run.
        obtain ⟨-, hleft⟩ := (heval object).same hm (hobject ▸ trivial)
        rw [hobject] at hleft
        rw [bind_ok hobject] at hrec
        by_cases hrender : (∃ t, receiver = .template t) ∧ args = []
        · obtain ⟨⟨t, rfl⟩, rfl⟩ := hrender
          exact ⟨left, .call hcall hobject⟩
        · have hfinish := hR.finishCall h name (fun node (_ : node ∈ args) => heval node)
            fun t ht hargs => hrender ⟨⟨t, ht⟩, hargs⟩
          exact (hfinish.not_isRecursion hleft hrec).elim
    | callMethKeywords name object args =>
      obtain ⟨method, hname⟩ := Option.isSome_iff_exists.1 hcall
      obtain ⟨hmethod, rfl⟩ := renderMethod?_eq_some hname
      change Outcome.IsRecursion (ev.evalKeywordCall method.name object args m) at hrec
      rw [ev.evalKeywordCall_eq hmethod] at hrec
      -- The arguments do not fail for the limit, so the evaluation gets past them.
      have harguments := hR.keywordArguments method.name (heval object)
        fun arg (_ : arg ∈ args) => heval arg.value
      cases hcalled : ev.keywordArguments method.name object args m with
      | error e left =>
        rw [bind_error hcalled] at hrec
        refine (harguments.not_isRecursion hm ?_).elim
        rw [hcalled]
        exact hrec
      | ok call left => exact ⟨left, .keywordCall hmethod hcalled⟩
    | _ => cases hcall
  · have hkind := hR.evalKind h heval (Follows.binding ..) (fun hrender => absurd hrender hcall)
      location
    exact (hkind.not_isRecursion hm hrec).elim

/-- A render call at the limit fails. -/
theorem isRecursion_callRender {ev : Evaluator} {m : Machine}
    (hlimit : m.frame.maxDepth ≤ m.frame.depth) (method : Method) (t : Template) (vars : Scope) :
    Outcome.IsRecursion (ev.callRender method t vars m) := by
  have hrefused : ev.renderNested t vars m = raise (.recursionLimit m.frame.maxDepth) m := by
    rw [renderNested_eq]
    exact deeper_refused hlimit
  unfold callRender
  rw [bind_error hrefused]
  rfl

theorem isRecursion_evalNode {ev : Evaluator} {node : Node} {m : Machine} :
    Outcome.IsRecursion (ev.evalNode node m) ↔
      Outcome.IsRecursion (ev.evalKind node.location node.kind m) := by
  unfold evalNode
  cases h : ev.evalKind node.location node.kind m with
  | ok a left => rw [locating_ok h]
  | error e left =>
    cases e with
    | failed e =>
      rw [locating_failed h]
      rfl
    | exhausted => rw [locating_exhausted h]

/-- No run goes deeper than its limit. -/
theorem follows_watched (limit budget : Nat) :
    (∀ node, Follows limit limit (fun _ => True) ((within budget).eval node)
      ((watched (KeepsLimit limit) budget).eval node)) ∧
    (within budget).Related (Follows limit limit fun _ => True)
      (watched (KeepsLimit limit) budget) := by
  have hR := Follows.compatible limit limit fun _ => True
  induction budget with
  | zero => exact ⟨fun _ => hR.exhaust, fun _ => hR.exhaust, rfl⟩
  | succ budget ih =>
    obtain ⟨heval, h⟩ := ih
    refine ⟨fun node depth m hm hended => ?_, fun handle => ?_, rfl⟩
    · have hkeeps : KeepsLimit limit budget node m := by
        refine ⟨hm.frame.depth_le, ?_⟩
        rintro ⟨left, hattempt, hdepth⟩
        -- The call is made in a frame at the limit, so it is refused.
        obtain ⟨-, hleft⟩ := hattempt.follow heval hm
        obtain ⟨method, t, vars, hcall⟩ := hattempt.evalKind node.location
        rw [isRecursion_evalNode, hcall]
        have hlimit := Nat.le_of_eq (hleft.frame.maxDepth.trans hdepth.symm)
        exact isRecursion_callRender hlimit method t vars
      have hnode : Follows limit limit (fun _ => True) ((within budget).evalNode node)
          ((watched (KeepsLimit limit) budget).evalNode node) :=
        hR.evalNode h heval (Follows.binding ..) fun _ =>
          Follows.renderNested heval (Nat.le_refl limit) trivial fun _ => id
      have hrun := hnode depth m hm hended
      rw [hm.withLimit, watched_eval hkeeps]
      rw [hm.withLimit] at hrun
      exact hrun
    · rw [watched_advance]
      exact Follows.advanceCell heval (fun _ _ => id) h handle

/-- A run that attempts no render call at its limit does not fail for it. -/
theorem watched_follows (limit budget : Nat) :
    (∀ node, Follows limit limit (fun _ => False)
      ((watched (fun n node m => ¬ AttemptsAt limit n node m) budget).eval node)
      ((within budget).eval node)) ∧
    (watched (fun n node m => ¬ AttemptsAt limit n node m) budget).Related
      (Follows limit limit fun _ => False) (within budget) := by
  have hR := Follows.compatible limit limit fun _ => False
  induction budget with
  | zero => exact ⟨fun _ => hR.exhaust, fun _ => hR.exhaust, rfl⟩
  | succ budget ih =>
    obtain ⟨heval, h⟩ := ih
    refine ⟨fun node depth m hm hended => ?_, fun handle => ?_, rfl⟩
    · by_cases hnone : AttemptsAt limit budget node m
      · rw [watched_eval_of_not (not_not_intro hnone)] at hended
        exact hended.elim
      · -- With the render calls of the node the run may fail at the limit only.
        have hnode : Follows limit limit (· = limit)
            ((watched (fun n node m => ¬ AttemptsAt limit n node m) budget).evalNode node)
            ((within budget).evalNode node) := by
          refine (Follows.compatible limit limit (· = limit)).evalNode
            ⟨fun handle => (h.advance handle).weaken fun _ => False.elim, h.budget⟩
            (fun node => (heval node).weaken fun _ => False.elim) (Follows.binding ..) fun _ => ?_
          exact Follows.renderNested heval (Nat.le_refl limit) rfl fun _ => False.elim
        rw [watched_eval hnone] at hended ⊢
        obtain ⟨hlimit, hsame⟩ := hnode depth m hm hended
        refine ⟨fun hrec => hnone ?_, hsame⟩
        have hdepth := hlimit hrec
        obtain ⟨left, hattempt⟩ :=
          attempts_of_isRecursion heval h hm (isRecursion_evalNode.1 hrec)
        obtain ⟨hplain, hleft⟩ := hattempt.follow heval hm
        exact ⟨left, hplain, hleft.depth.trans hdepth⟩
    · rw [watched_advance]
      exact Follows.advanceCell heval (fun _ _ => id) h handle

end Evaluator

/-- A state without generator expressions at the start of a template. -/
theorem Machine.At.start {m : Machine} {vars : Scope} {limit : Nat}
    (hframe : m.frame = .ofVars vars limit) (hstore : ∀ cell ∈ m.store, cell.cursor.IsSimple) :
    m.At limit 0 := by
  refine ⟨?_, ⟨?_, ?_⟩, fun cell hcell => (hstore cell hcell).frameHolds _⟩
  · rw [hframe]
    rfl
  · rw [hframe]
    rfl
  · rw [hframe]
    exact Nat.zero_le limit

/-- The same state with another limit. -/
theorem Machine.withLimit_start {m : Machine} {vars : Scope} {limit : Nat}
    (hframe : m.frame = .ofVars vars limit) (hstore : ∀ cell ∈ m.store, cell.cursor.IsSimple)
    (limit' : Nat) : m.withLimit limit' = { m with frame := .ofVars vars limit' } := by
  have hcell : ∀ cell ∈ m.store, cell.mapFrame (Frame.withLimit limit') = cell := by
    intro cell hcell
    rw [Cell.mapFrame, Cursor.mapFrame_of_isSimple (hstore cell hcell)]
  have hsame : m.store.map (Cell.mapFrame (Frame.withLimit limit')) = m.store :=
    (Array.map_congr_left hcell).trans (Array.map_id' _)
  unfold withLimit
  rw [hsame, hframe]
  rfl

/-- **A limit that is not reached does not matter.** If the run of a template with some limit does
not end in the error of the limit, it ends with a higher limit in the same way: with the same output
or error, and with the same variables and the same state but for the limit. If it ends in that
error, some evaluation in it came to a render call at the depth of the limit, none was deeper, and
every render call at that depth failed. -/
theorem raising_the_limit (budget : Nat) (t : Template) (vars : Scope) (limit limit' : Nat)
    (hlimits : limit ≤ limit') (m : Machine) (hframe : m.frame = .ofVars vars limit)
    (hstore : ∀ cell ∈ m.store, cell.cursor.IsSimple)
    (hended : Outcome.Ended ((Evaluator.within budget).render t m)) :
    (¬ Outcome.IsRecursion ((Evaluator.within budget).render t m) →
      (Evaluator.within budget).render t { m with frame := .ofVars vars limit' } =
        Outcome.mapMachine (Machine.withLimit limit') ((Evaluator.within budget).render t m)) ∧
    (Outcome.IsRecursion ((Evaluator.within budget).render t m) →
      Evaluator.SomeEvaluation (Evaluator.AttemptsAt limit) budget (fun ev => ev.render t) m ∧
      Evaluator.EveryEvaluation (Evaluator.KeepsLimit limit) budget (fun ev => ev.render t) m) := by
  have hm := Machine.At.start hframe hstore
  refine ⟨fun hno => ?_, fun hrec => ⟨fun hnone => ?_, ?_⟩⟩
  · have hfollows := Follows.render (Evaluator.within_follows hlimits budget).1 t
    obtain ⟨-, hy⟩ := (hfollows 0 m hm hended).2 (.inr hno)
    rw [← hy, Machine.withLimit_start hframe hstore]
  · have hfollows := Follows.render (Evaluator.watched_follows limit budget).1 t
    refine hfollows.not_isRecursion hm ?_
    have hrun := congrArg Outcome.IsRecursion hnone
    exact hrun.mpr hrec
  · have hfollows := Follows.render (Evaluator.follows_watched limit budget).1 t
    exact (hfollows.same hm hended).1

/-- A template that renders another one, with limits 1 and 2, and with limit 0, which it reaches. -/
theorem raising_the_limit_nested :
    let inner : Template := ⟨0, none, "", none, "", "", ⟨none, []⟩⟩
    let t : Template := ⟨1, none, "", none, "", "", ⟨none, [⟨2, .ofText "" .empty,
      .callMeth Method.render.name ⟨3, .ofText "" .empty, .var "inner"⟩ []⟩]⟩⟩
    let vars : Scope := [("inner", .template inner)]
    let start (limit : Nat) := Machine.start 4 0 .first (.ofVars vars limit)
    (Evaluator.within 5).render t (start 2) =
      Outcome.mapMachine (Machine.withLimit 2) ((Evaluator.within 5).render t (start 1)) ∧
    Outcome.IsRecursion ((Evaluator.within 5).render t (start 0)) ∧
    Evaluator.SomeEvaluation (Evaluator.AttemptsAt 0) 5 (fun ev => ev.render t) (start 0) := by
  intro inner t vars start
  have hempty : ∀ cell ∈ (#[] : Array Cell), cell.cursor.IsSimple :=
    fun cell hcell => absurd hcell (Array.not_mem_empty cell)
  have hone := raising_the_limit 5 t vars 1 2 (by decide) (start 1) rfl hempty trivial
  have hzero := raising_the_limit 5 t vars 0 0 (by decide) (start 0) rfl hempty trivial
  have hrec : Outcome.IsRecursion ((Evaluator.within 5).render t (start 0)) := rfl
  exact ⟨hone.1 id, hrec, (hzero.2 hrec).1⟩

end Templating
