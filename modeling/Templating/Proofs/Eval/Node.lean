import Templating.Eval.Run
import Templating.Proofs.Eval.Call

/-!
# Evaluating trees with other identities

* `Evaluator.Renames.evalKind`, `Evaluator.Renames.evalNode`: one node, given the calls one level
  deeper.
* `Evaluator.Renames.within`: **every budget**.
-/

namespace Templating

open Eval
open Value (relabelBindings relabelBindings_eq)

variable {f : Relabel} {limit : Nat}

namespace Evaluator.Renames

variable {ev : Evaluator} (h : ev.Renames f limit)

include h

/-! ## Displays and comprehensions -/

theorem evalEntry (entries : List (String × Value)) (entry : DictEntry) :
    Eval.Renames f limit (relabelBindings f) (ev.evalEntry entries entry)
      (ev.evalEntry (relabelBindings f entries) (entry.relabel f)) := by
  cases entry with
  | pair key value =>
    refine .bind (h.eval key) fun key => .bind (h.eval value) fun value => .pure ?_
    rw [Value.text_relabel, insert_relabelBindings]
  | splat mapping =>
    refine .bind (h.eval mapping) fun mapping => .bind (.lift (splat_relabel mapping))
      fun news => .pure (merge_relabelBindings ..)

theorem comprehend {α β : Type} {r : α → β} (comp : Comprehension) (start : α)
    {each : α → Eval α} {each' : β → Eval β}
    (heach : ∀ a, Eval.Renames f limit r (each a) (each' (r a))) :
    Eval.Renames f limit r (ev.comprehend comp start each)
      (ev.comprehend (comp.relabel f) (r start) each') := by
  obtain ⟨target, container, condition⟩ := comp
  refine .bind (h.eval container) fun v => .bind (.iterate v) fun handle =>
    .inScope (h.fold handle start fun state item => ?_)
  refine .bind (h.assign target item) fun _ => .bind (h.holds condition) fun holds => ?_
  cases holds with
  | true => exact .bind (heach state) fun _ => .pure rfl
  | false => exact .pure rfl

theorem evalListComp (item : Node) (comp : Comprehension) :
    Eval.Renames f limit (Value.relabel f) (ev.evalListComp item comp)
      (ev.evalListComp (item.relabel f) (comp.relabel f)) := by
  refine .bind (h.comprehend (r := List.map (Value.relabel f)) comp [] fun items =>
    .bind (h.eval item) fun _ => .pure rfl) fun items => .pure ?_
  rw [← List.map_reverse, Value.relabel, Value.relabelAll_eq]

theorem evalDictComp (key value : Node) (comp : Comprehension) :
    Eval.Renames f limit (Value.relabel f) (ev.evalDictComp key value comp)
      (ev.evalDictComp (key.relabel f) (value.relabel f) (comp.relabel f)) :=
  .bind (h.comprehend comp [] fun entries => h.evalEntry entries (.pair key value)) fun _ =>
    .pure rfl

theorem evalGenExpr (item : Node) (comp : Comprehension) :
    Eval.Renames f limit (Value.relabel f) (ev.evalGenExpr item comp)
      (ev.evalGenExpr (item.relabel f) (comp.relabel f)) := by
  obtain ⟨target, container, condition⟩ := comp
  exact .bind (h.eval container) fun v => .bind (.iterate v) fun source => .bind .get fun m =>
    .bind (.allocate (.generator ⟨{ m.frame with env := m.frame.env.push }, source, target,
      condition, item⟩)) fun _ => .pure rfl

/-! ## Operators -/

theorem evalBinary (hf : Function.Injective f.template) (op : BinaryOp) (left right : Node) :
    Eval.Renames f limit (Value.relabel f) (ev.evalBinary op left right)
      (ev.evalBinary op (left.relabel f) (right.relabel f)) := by
  refine .bind (h.eval left) fun a => ?_
  rw [Value.isTruthy_relabel]
  cases op with
  | and =>
    cases a.isTruthy with
    | true => exact h.eval right
    | false => exact .pure rfl
  | or =>
    cases a.isTruthy with
    | true => exact .pure rfl
    | false => exact h.eval right
  | _ => exact .bind (h.eval right) fun b => .lift (Value.binary_relabel hf _ a b)

theorem evalBound (bound : Option Node) :
    Eval.Renames f limit id (ev.evalBound bound) (ev.evalBound (Node.relabelOpt f bound)) := by
  cases bound with
  | none => exact .pure rfl
  | some bound =>
    refine .bind (h.eval bound) fun v => ?_
    have hint := intArg_relabel (f := f) "slice" v
    cases v with
    | none => exact .pure rfl
    | _ =>
      refine .bind (r := id) ?_ fun _ => .pure rfl
      rw [hint]
      exact lift_id _

theorem evalSlice (object : Node) (start stop : Option Node) :
    Eval.Renames f limit (Value.relabel f) (ev.evalSlice object start stop)
      (ev.evalSlice (object.relabel f) (Node.relabelOpt f start) (Node.relabelOpt f stop)) :=
  .bind (h.eval object) fun v => .bind (h.evalBound start) fun start =>
    .bind (h.evalBound stop) fun stop => .lift (Value.getSlice_relabel v start stop)

/-! ## Calls -/

theorem callRender (method : Method) (t : Template) (vars : Scope) :
    Eval.Renames f limit (Value.relabel f) (ev.callRender method t vars)
      (ev.callRender method (t.relabel f) (relabelBindings f vars)) := by
  refine .bind (h.renderNested t vars) fun output => ?_
  split
  · exact .bind (.modify fun _ => ⟨rfl, rfl⟩) fun _ => .pure rfl
  · exact .pure rfl

theorem evalCall (hf : Function.Injective f.template) (name : String) (object : Node)
    (args : List Node) :
    Eval.Renames f limit (Value.relabel f) (ev.evalCall name object args)
      (ev.evalCall name (object.relabel f) (args.map (Node.relabel f))) := by
  refine .bind (h.eval object) fun receiver => .bind (.mapM h.eval args) fun args => ?_
  have hmethod := h.callMethod hf receiver name args
  cases receiver with
  | template t =>
    cases renderMethod? name with
    | none => exact hmethod
    | some method =>
      simp only [Value.relabel, List.isEmpty_map, List.length_map]
      split
      · exact h.callRender method t []
      · exact .raise _
  | _ => exact hmethod

omit h in
theorem addArgument_relabel (method : String) (vars : Scope) (binding : String × Value) :
    addArgument method (relabelBindings f vars) (binding.1, binding.2.relabel f) =
      (addArgument method vars binding).map (relabelBindings f) := by
  unfold addArgument
  simp only [contains_relabelBindings, insert_relabelBindings]
  split <;> rfl

theorem evalArgument (method : String) (vars : Scope) (arg : KeywordArg) :
    Eval.Renames f limit (relabelBindings f) (ev.evalArgument method vars arg)
      (ev.evalArgument method (relabelBindings f vars) (arg.relabel f)) := by
  cases arg with
  | named name value =>
    exact .bind (h.eval value) fun v => .lift (addArgument_relabel method vars (name, v))
  | splat mapping =>
    refine .bind (h.eval mapping) fun v => .bind (.lift (splat_relabel v)) fun entries => .lift ?_
    induction entries generalizing vars with
    | nil => rfl
    | cons entry entries ih =>
      have hadd := addArgument_relabel (f := f) method vars entry
      simp only [Value.relabelBindings, List.foldlM_cons, hadd]
      cases addArgument method vars entry with
      | error c => rfl
      | ok vars => exact ih vars

theorem evalKeywordCall (name : String) (object : Node) (args : List KeywordArg) :
    Eval.Renames f limit (Value.relabel f) (ev.evalKeywordCall name object args)
      (ev.evalKeywordCall name (object.relabel f) (args.map (KeywordArg.relabel f))) := by
  refine .bind (h.eval object) fun receiver => ?_
  cases renderMethod? name with
  | none => exact .raise _
  | some method =>
    simp only [resolve_relabel]
    refine .bind (lift_id _) fun method => ?_
    cases receiver with
    | template t =>
      exact .bind (.foldlM (fun vars arg => h.evalArgument name vars arg) args []) fun vars =>
        h.callRender method t vars
    | _ => exact .raise _

/-! ## Statements -/

omit h in
theorem afterRound (result : Except EvalError Unit) :
    Eval.Renames f limit (Walk.map id) (Evaluator.afterRound result)
      (Evaluator.afterRound (result.map id)) := by
  cases result with
  | ok _ => exact .pure rfl
  | error e =>
    simp only [Except.map, Evaluator.afterRound]
    split
    · exact .pure rfl
    · exact .pure rfl
    · exact .throw _

theorem runLoop (target : Target) (container : Node) (block : Block) :
    Eval.Renames f limit id (ev.runLoop target container block)
      (ev.runLoop target (container.relabel f) (block.relabel f)) :=
  .bind (h.eval container) fun v => .bind (.iterate v) fun handle =>
    h.fold handle () fun _ item => .bind (h.assign target item) fun _ =>
      .bind (h.exec block).attempt fun result => afterRound result

omit h in
theorem isRenderCall_relabel (node : Node) : isRenderCall (node.relabel f) = isRenderCall node := by
  obtain ⟨i, location, kind⟩ := node
  cases kind with
  | const value =>
    rw [Node.relabel, NodeKind.relabel]
    unfold NodeKind.ofLiteral
    cases f.tidy with
    | false => rfl
    | true =>
      cases value with
      | bool b => cases b <;> rfl
      | _ => rfl
  | _ => rfl

theorem runChain (branches : List Node) :
    Eval.Renames f limit id (ev.runChain branches)
      (ev.runChain (branches.map (Node.relabel f))) := by
  induction branches with
  | nil => exact .pure rfl
  | cons branch branches ih =>
    have hbranch := h.eval branch
    obtain ⟨i, location, kind⟩ := branch
    rw [List.map_cons]
    cases kind with
    | ifBranch condition block | elifBranch condition block =>
      refine .bind (h.eval condition) fun v => ?_
      rw [Value.isTruthy_relabel]
      split
      · exact h.exec block
      · exact ih
    | elseBranch block => exact h.exec block
    | const value =>
      -- A constant may become another kind of constant, and none of them is a branch.
      have hrest : Eval.Renames f limit id
          (ev.eval ⟨i, location, .const value⟩ >>= fun _ => ev.runChain branches)
          (ev.eval (Node.relabel f ⟨i, location, .const value⟩) >>= fun _ =>
            ev.runChain (branches.map (Node.relabel f))) := .bind hbranch fun _ => ih
      rw [Node.relabel, NodeKind.relabel] at hrest ⊢
      unfold NodeKind.ofLiteral at hrest ⊢
      revert hrest
      cases f.tidy with
      | false => exact id
      | true =>
        cases value with
        | bool b => cases b <;> exact id
        | _ => exact id
    | _ => exact .bind hbranch fun _ => ih

theorem runRender (node : Node) :
    Eval.Renames f limit id (ev.runRender node) (ev.runRender (node.relabel f)) := by
  refine .bind (h.eval node) fun v => ?_
  rw [isRenderCall_relabel, Value.text_relabel]
  split
  · exact .pure rfl
  · exact .emit _

theorem runAugAssign (hf : Function.Injective f.template) (op : AugOp) (name : String)
    (value : Node) :
    Eval.Renames f limit id (ev.runAugAssign op name value)
      (ev.runAugAssign op name (value.relabel f)) :=
  .bind (.lookupVar name) fun current => .bind (h.eval value) fun operand =>
    .bind (.lift (Value.binary_relabel hf _ current operand)) fun v => .bindVar name v

theorem runBranch (condition : Node) (block : Block) :
    Eval.Renames f limit id (ev.runBranch condition block)
      (ev.runBranch (condition.relabel f) (block.relabel f)) := by
  refine .bind (h.eval condition) fun v => ?_
  rw [Value.isTruthy_relabel]
  split
  · exact h.exec block
  · exact .pure rfl

omit h in
theorem asStatement {x y : Eval Unit} (hx : Eval.Renames f limit id x y) :
    Eval.Renames f limit (Value.relabel f) (asStatement x) (Evaluator.asStatement y) :=
  .bind hx fun _ => .pure rfl

omit h in
theorem evalKind_ofLiteral (location : Location) (value : Literal) :
    ev.evalKind location (.ofLiteral value) = pure (.ofLiteral value) := by
  unfold NodeKind.ofLiteral
  split <;> rfl

theorem evalKind (hf : f.Keeps limit) (location : Location) (kind : NodeKind) :
    Eval.Renames f limit (Value.relabel f) (ev.evalKind location kind)
      (ev.evalKind location (kind.relabel f)) := by
  cases kind with
  | noneConst | trueConst | falseConst => exact .pure rfl
  | const value =>
    have hpure : Eval.Renames f limit (Value.relabel f) (pure (.ofLiteral value))
        (pure (.ofLiteral value)) := .pure (Value.relabel_ofLiteral value).symm
    rw [NodeKind.relabel]
    split
    · rw [evalKind_ofLiteral]
      exact hpure
    · exact hpure
  | list items =>
    rw [NodeKind.relabel, Node.relabelAll_eq]
    exact .bind (.mapM h.eval items) fun vs =>
      .pure (congrArg Value.list (Value.relabelAll_eq f vs).symm)
  | listComp item comp => exact h.evalListComp item comp
  | dict entries =>
    rw [NodeKind.relabel, DictEntry.relabelAll_eq]
    exact .bind (.foldlM h.evalEntry entries []) fun _ => .pure rfl
  | dictComp key value comp => exact h.evalDictComp key value comp
  | genExpr item comp => exact h.evalGenExpr item comp
  | var name => exact .lookupVar name
  | unary op operand => exact .bind (h.eval operand) fun v => .lift (Value.unary_relabel op v)
  | binary op left right => exact h.evalBinary hf.injective op left right
  | getAttr object attr => exact .bind (h.eval object) fun v => .lift (attribute_relabel v attr)
  | getSlice object start stop => exact h.evalSlice object start stop
  | callFunc name args =>
    rw [NodeKind.relabel, Node.relabelAll_eq]
    exact .bind (.mapM h.eval args) fun vs => h.callFunction hf name vs
  | callMeth name object args =>
    rw [NodeKind.relabel, Node.relabelAll_eq]
    exact h.evalCall hf.injective name object args
  | callMethKeywords name object args =>
    rw [NodeKind.relabel, KeywordArg.relabelAll_eq]
    exact h.evalKeywordCall name object args
  | text => exact asStatement (.emit _)
  | print value =>
    refine asStatement (.bind (h.eval value) fun v => ?_)
    rw [Value.text_relabel]
    exact .emit _
  | printX value =>
    refine asStatement (.bind (h.eval value) fun v => ?_)
    rw [Value.text_relabel]
    exact .emit _
  | render value => exact asStatement (h.runRender value)
  | storeVar target value =>
    exact asStatement (.bind (h.eval value) fun v => h.assign target v)
  | augAssign op name value => exact asStatement (h.runAugAssign hf.injective op name value)
  | delVar name => exact asStatement (.removeVar name)
  | forLoop target container block => exact asStatement (h.runLoop target container block)
  | breakLoop | continueLoop => exact .raise _
  | chain branches =>
    obtain ⟨stop, content⟩ := branches
    simp only [NodeKind.relabel, Block.relabel, Node.relabelAll_eq]
    exact asStatement (h.runChain content)
  | ifBranch condition block | elifBranch condition block =>
    exact asStatement (h.runBranch condition block)
  | elseBranch block => exact asStatement (h.exec block)
  | template t =>
    have hbind : Eval.Renames f limit id (bindVar t.displayName (.template t))
        (bindVar t.displayName (.template (t.relabel f))) := .bindVar _ (.template t)
    have hname : (t.relabel f).displayName = t.displayName := by
      unfold Template.displayName
      rw [Template.name_relabel]
    rw [NodeKind.relabel, Evaluator.evalKind, Evaluator.evalKind, hname]
    exact asStatement hbind

omit h in
/-- A definition cannot fail and has no text, so that its place does not matter. -/
theorem evalKind_place (location : Location) (kind : NodeKind) :
    locating (kind.place location) (ev.evalKind (kind.place location) kind) =
      locating location (ev.evalKind location kind) := by
  cases hkind : kind.template? with
  | none => rw [NodeKind.place_of_template?_eq_none hkind]
  | some t =>
    cases kind with
    | template t => rfl
    | _ => cases hkind

theorem evalNode (hf : f.Keeps limit) (node : Node) :
    Eval.Renames f limit (Value.relabel f) (ev.evalNode node) (ev.evalNode (node.relabel f)) := by
  obtain ⟨i, location, kind⟩ := node
  have hkind := (h.evalKind hf location kind).locating location
  have hplace : ev.evalNode (Node.relabel f ⟨i, location, kind⟩) =
      locating location (ev.evalKind location (kind.relabel f)) := by
    unfold Evaluator.evalNode
    rw [Node.relabel, hf.tidy, if_pos rfl, ← NodeKind.place_relabel f]
    exact evalKind_place location (kind.relabel f)
  rw [hplace]
  exact hkind

/-! ## Budgets -/

omit h in
/-- **Every budget**: what an evaluation does does not depend on the identities. -/
theorem within (hf : f.Keeps limit) (budget : Nat) :
    (Evaluator.within budget).Renames f limit := by
  induction budget with
  | zero => exact ⟨fun _ => .throw _, fun _ => .throw _⟩
  | succ n ih => exact ⟨fun node => ih.evalNode hf node, fun handle => ih.advanceCell handle⟩

end Evaluator.Renames

end Templating
