import Templating.Proofs.Compatible.Call

/-!
# Evaluations of nodes are related

* `Eval.Congruent.evalExpression`: **an expression**, given its children. Only its comprehensions
  bind variables, and they do so in scopes of their own.
* `Eval.Congruent.evalKind`: **any kind of node**, given all nodes, and given the node if it is a
  loop.
* `Eval.Compatible.evalNode`: **any node**, given all nodes.
-/

namespace Templating

open Eval

/-- The method by which a call renders templates, if its name is that of one. -/
def NodeKind.render? : NodeKind → Option Method
  | .callMeth name _ _ | .callMethKeywords name _ _ => Evaluator.renderMethod? name
  | _ => none

namespace Eval

/-- What holds inside a scope of its own. The inner relation may be weaker, and it holds of actions
that bind variables. -/
structure Scoped (R S : Relation) : Prop where
  inner : Congruent S
  weaken : ∀ {α : Type} {x y : Eval α}, R x y → S x y
  bindVar : ∀ name v, S (bindVar name v) (bindVar name v)
  scope : ∀ {α : Type} {x y : Eval α}, S x y → R (inScope x) (inScope y)

/-- A relation that holds of the actions that change variables. -/
structure Binding (R : Relation) : Prop where
  bindVar : ∀ name v, R (bindVar name v) (bindVar name v)
  removeVar : ∀ name, R (removeVar name) (removeVar name)
  scope : ∀ {α : Type} {x y : Eval α}, R x y → R (inScope x) (inScope y)

end Eval

variable {R S : Eval.Relation} {ev ev' : Evaluator}

theorem Evaluator.Related.weaken (h : ev.Related R ev') (hS : Scoped R S) : ev.Related S ev' :=
  ⟨fun handle => hS.weaken (h.advance handle), h.budget⟩

theorem Evaluator.renderNested_eq (t : Template) (vars : Scope) :
    ev.renderNested t vars = deeper vars (captured (ev.exec t.block)) := rfl

/-- The rounds of a loop over a value. -/
def Evaluator.runRounds (ev : Evaluator) (target : Target) (block : Block) (v : Value) :
    Eval Unit := do
  let handle ← v.iterate
  ev.fold handle () fun _ item => do
    ev.assign target item
    afterRound (← attempt (ev.exec block))

theorem Evaluator.runLoop_eq_runRounds (target : Target) (container : Node) (block : Block) :
    ev.runLoop target container block = ev.eval container >>= ev.runRounds target block := rfl

theorem Evaluator.evalGenExpr_eq (item : Node) (comp : Comprehension) :
    ev.evalGenExpr item comp = (do
      let source ← (← ev.eval comp.container).iterate
      return .iterator (← suspend source comp item)) := rfl

namespace Eval.Congruent

variable (hR : Congruent R) (h : ev.Related R ev')

include hR

/-! ## Displays and comprehensions -/

theorem holds {condition : Option Node}
    (heval : ∀ node ∈ condition.toList, R (ev.eval node) (ev'.eval node)) :
    R (ev.holds condition) (ev'.holds condition) := by
  cases condition with
  | none => exact hR.pure true
  | some condition => exact hR.bind (heval condition (by simp)) fun _ => hR.pure _

theorem evalEntry (entries : List (String × Value)) {entry : DictEntry}
    (heval : ∀ node ∈ entry.children, R (ev.eval node) (ev'.eval node)) :
    R (ev.evalEntry entries entry) (ev'.evalEntry entries entry) := by
  cases entry with
  | pair key value =>
    exact hR.bind (heval key (by simp [DictEntry.children])) fun _ =>
      hR.bind (heval value (by simp [DictEntry.children])) fun _ => hR.pure _
  | splat mapping =>
    exact hR.bind (heval mapping (by simp [DictEntry.children])) fun v =>
      hR.bind (hR.lift (Value.plain_splat v)) fun _ => hR.pure _

include h

theorem comprehend (hS : Scoped R S) {α : Type} {comp : Comprehension} (start : α)
    {each each' : α → Eval α}
    (heval : ∀ node ∈ comp.children, R (ev.eval node) (ev'.eval node))
    (heach : ∀ a, R (each a) (each' a)) :
    R (ev.comprehend comp start each) (ev'.comprehend comp start each') := by
  have hS' := hS.inner
  have hcondition : R (ev.holds comp.condition) (ev'.holds comp.condition) :=
    hR.holds fun node hnode => heval node (List.mem_cons_of_mem _ hnode)
  refine hR.bind (heval comp.container List.mem_cons_self) fun v =>
    hR.bind (hR.iterate v) fun handle => hS.scope ?_
  refine hS'.fold (h.weaken hS) handle start fun state item => ?_
  refine hS'.bind (hS'.assign hS.bindVar (h.weaken hS) comp.target item) fun _ =>
    hS'.bind (hS.weaken hcondition) fun holds => ?_
  cases holds with
  | true => exact hS'.bind (hS.weaken (heach state)) fun _ => hS'.pure _
  | false => exact hS'.pure _

omit h

theorem evalGenExpr {item : Node} {comp : Comprehension}
    (heval : R (ev.eval comp.container) (ev'.eval comp.container)) :
    R (ev.evalGenExpr item comp) (ev'.evalGenExpr item comp) := by
  rw [Evaluator.evalGenExpr_eq, Evaluator.evalGenExpr_eq]
  exact hR.bind heval fun v => hR.bind (hR.iterate v) fun source =>
    hR.bind (hR.suspend source comp item) fun _ => hR.pure _

/-! ## Operators -/

theorem evalBinary (op : BinaryOp) {left right : Node} (hleft : R (ev.eval left) (ev'.eval left))
    (hright : R (ev.eval right) (ev'.eval right)) :
    R (ev.evalBinary op left right) (ev'.evalBinary op left right) := by
  refine hR.bind hleft fun a => ?_
  split
  · split
    · exact hright
    · exact hR.pure a
  · split
    · exact hR.pure a
    · exact hright
  · exact hR.bind hright fun b => hR.lift (Value.plain_binary _ a b)

theorem evalBound {bound : Option Node}
    (heval : ∀ node ∈ bound.toList, R (ev.eval node) (ev'.eval node)) :
    R (ev.evalBound bound) (ev'.evalBound bound) := by
  cases bound with
  | none => exact hR.pure none
  | some bound =>
    refine hR.bind (heval bound (by simp)) fun v => ?_
    split
    · exact hR.pure none
    · exact hR.bind (hR.lift (plain_intArg ..)) fun _ => hR.pure _

theorem evalSlice {object : Node} {start stop : Option Node}
    (hobject : R (ev.eval object) (ev'.eval object))
    (hstart : ∀ node ∈ start.toList, R (ev.eval node) (ev'.eval node))
    (hstop : ∀ node ∈ stop.toList, R (ev.eval node) (ev'.eval node)) :
    R (ev.evalSlice object start stop) (ev'.evalSlice object start stop) :=
  hR.bind hobject fun v => hR.bind (hR.evalBound hstart) fun _ =>
    hR.bind (hR.evalBound hstop) fun _ => hR.lift (Value.plain_getSlice v ..)

/-! ## Calls -/

theorem callRender (method : Method) {t : Template} {vars : Scope}
    (hrender : R (ev.renderNested t vars) (ev'.renderNested t vars)) :
    R (ev.callRender method t vars) (ev'.callRender method t vars) := by
  refine hR.bind hrender fun output => ?_
  split
  · exact hR.bind (hR.splice output) fun _ => hR.pure _
  · exact hR.pure _

include h

theorem evalCall {name : String} {object : Node} {args : List Node}
    (hobject : R (ev.eval object) (ev'.eval object))
    (hargs : ∀ node ∈ args, R (ev.eval node) (ev'.eval node))
    (hrender : (Evaluator.renderMethod? name).isSome → ∀ t vars,
      R (ev.renderNested t vars) (ev'.renderNested t vars)) :
    R (ev.evalCall name object args) (ev'.evalCall name object args) := by
  refine hR.bind hobject fun receiver => hR.bind (hR.mapM hargs) fun args => ?_
  split
  case h_1 t method hmethod =>
    split
    · exact hR.callRender method (hrender (by rw [hmethod]; rfl) t [])
    · exact hR.raise trivial
  case h_2 => exact hR.callMethod h _ name args

omit h

theorem evalArgument (method : String) (vars : Scope) {arg : KeywordArg}
    (heval : R (ev.eval arg.value) (ev'.eval arg.value)) :
    R (ev.evalArgument method vars arg) (ev'.evalArgument method vars arg) := by
  cases arg with
  | named name value => exact hR.bind heval fun v => hR.lift (plain_addArgument ..)
  | splat mapping =>
    exact hR.bind heval fun v => hR.bind (hR.lift (Value.plain_splat v)) fun entries =>
      hR.lift (.foldlM (plain_addArgument method) entries vars)

theorem evalKeywordCall {name : String} {object : Node} {args : List KeywordArg}
    (hobject : R (ev.eval object) (ev'.eval object))
    (hargs : ∀ arg ∈ args, R (ev.eval arg.value) (ev'.eval arg.value))
    (hrender : (Evaluator.renderMethod? name).isSome → ∀ t vars,
      R (ev.renderNested t vars) (ev'.renderNested t vars)) :
    R (ev.evalKeywordCall name object args) (ev'.evalKeywordCall name object args) := by
  refine hR.bind hobject fun receiver => ?_
  split
  · exact hR.raise trivial
  case h_2 method hmethod =>
    refine hR.bind (hR.lift (plain_resolve ..)) fun method => ?_
    split
    case h_1 t =>
      exact hR.bind (hR.foldlM (fun arg harg vars => hR.evalArgument name vars (hargs arg harg)) [])
        fun vars => hR.callRender method (hrender (by rw [hmethod]; rfl) t vars)
    case h_2 => exact hR.raise trivial

include h

/-- **The evaluation of an expression is related**, if that of its children is. -/
theorem evalExpression (hS : Scoped R S) {kind : NodeKind} (hkind : kind.precedence?.isSome)
    (heval : ∀ node ∈ kind.children, R (ev.eval node) (ev'.eval node))
    (hrender : kind.render?.isSome → ∀ t vars,
      R (ev.renderNested t vars) (ev'.renderNested t vars)) (location : Location) :
    R (ev.evalKind location kind) (ev'.evalKind location kind) := by
  cases kind with
  | noneConst | trueConst | falseConst | const value => exact hR.pure _
  | list items => exact hR.bind (hR.mapM heval) fun _ => hR.pure _
  | listComp item comp =>
    obtain ⟨hcomp, hitem⟩ := List.forall_mem_append.1 heval
    exact hR.bind (hR.comprehend h hS [] hcomp fun items =>
      hR.bind (hitem item List.mem_cons_self) fun _ => hR.pure _) fun _ => hR.pure _
  | dict entries =>
    have hentry : ∀ entry ∈ entries, ∀ node ∈ entry.children, R (ev.eval node) (ev'.eval node) :=
      fun entry hmem node hnode => heval node (List.mem_flatMap.2 ⟨entry, hmem, hnode⟩)
    exact hR.bind (hR.foldlM (fun entry hmem state => hR.evalEntry state (hentry entry hmem)) [])
      fun _ => hR.pure _
  | dictComp key value comp =>
    obtain ⟨hcomp, hpair⟩ := List.forall_mem_append.1 heval
    exact hR.bind (hR.comprehend h hS [] hcomp fun entries =>
      hR.evalEntry entries hpair) fun _ => hR.pure _
  | genExpr item comp => exact hR.evalGenExpr (heval _ List.mem_cons_self)
  | var name =>
    refine hR.bind hR.env fun e => ?_
    split
    · exact hR.pure _
    · exact hR.raise trivial
  | unary op operand =>
    exact hR.bind (heval operand List.mem_cons_self) fun v => hR.lift (Value.plain_unary op v)
  | binary op left right =>
    exact hR.evalBinary op (heval left (by simp [NodeKind.children]))
      (heval right (by simp [NodeKind.children]))
  | getAttr object attr =>
    exact hR.bind (heval object List.mem_cons_self) fun v => hR.lift (Value.plain_attribute v attr)
  | getSlice object start stop =>
    obtain ⟨hobject, hbounds⟩ := List.forall_mem_cons.1 heval
    obtain ⟨hstart, hstop⟩ := List.forall_mem_append.1 hbounds
    exact hR.evalSlice hobject hstart hstop
  | callFunc name args => exact hR.bind (hR.mapM heval) fun args => hR.callFunction h name args
  | callMeth name object args =>
    obtain ⟨hobject, hargs⟩ := List.forall_mem_cons.1 heval
    exact hR.evalCall h hobject hargs hrender
  | callMethKeywords name object args =>
    obtain ⟨hobject, hargs⟩ := List.forall_mem_cons.1 heval
    exact hR.evalKeywordCall hobject (fun arg harg => hargs _ (List.mem_map_of_mem harg)) hrender
  | _ => cases hkind

omit h

/-! ## Statements -/

theorem exec {block : Block}
    (heval : ∀ node ∈ block.content, R (ev.eval node) (ev'.eval node)) :
    R (ev.exec block) (ev'.exec block) :=
  hR.forM fun node hnode => hR.bind (heval node hnode) fun _ => hR.pure _

section

variable (heval : ∀ node, R (ev.eval node) (ev'.eval node))

include heval

theorem runChain (branches : List Node) : R (ev.runChain branches) (ev'.runChain branches) := by
  induction branches with
  | nil => exact hR.pure ()
  | cons branch branches ih =>
    unfold Evaluator.runChain
    split
    case h_1 condition block _ | h_2 condition block _ =>
      refine hR.bind (heval condition) fun v => ?_
      split
      · exact hR.exec fun node _ => heval node
      · exact ih
    case h_3 block _ => exact hR.exec fun node _ => heval node
    case h_4 => exact hR.bind (heval branch) fun _ => ih

theorem runRender (node : Node) : R (ev.runRender node) (ev'.runRender node) := by
  refine hR.bind (heval node) fun v => ?_
  split
  · exact hR.pure ()
  · exact hR.emit _

theorem runBranch (condition : Node) (block : Block) :
    R (ev.runBranch condition block) (ev'.runBranch condition block) := by
  refine hR.bind (heval condition) fun v => ?_
  split
  · exact hR.exec fun node _ => heval node
  · exact hR.pure ()

omit heval in
theorem asStatement {x y : Eval Unit} (hxy : R x y) :
    R (Evaluator.asStatement x) (Evaluator.asStatement y) :=
  hR.bind hxy fun _ => hR.pure _

omit heval in
theorem lookupVar (name : String) : R (lookupVar name) (Eval.lookupVar name) := by
  refine hR.bind hR.env fun e => ?_
  split
  · exact hR.pure _
  · exact hR.raise trivial

variable (hbinding : Binding R)

include hbinding

theorem runAugAssign (op : AugOp) (name : String) (value : Node) :
    R (ev.runAugAssign op name value) (ev'.runAugAssign op name value) :=
  hR.bind (hR.lookupVar name) fun current => hR.bind (heval value) fun operand =>
    hR.bind (hR.lift (Value.plain_binary _ current operand)) fun v => hbinding.bindVar name v

include h

omit heval in
/-- The rounds of a loop are related, if what a body does is. -/
theorem runRounds (target : Target) {block : Block}
    (hround : R (Eval.attempt (ev.exec block) >>= Evaluator.afterRound)
      (Eval.attempt (ev'.exec block) >>= Evaluator.afterRound)) (v : Value) :
    R (ev.runRounds target block v) (ev'.runRounds target block v) :=
  hR.bind (hR.iterate v) fun handle => hR.fold h handle () fun _ item =>
    hR.bind (hR.assign hbinding.bindVar h target item) fun _ => hround

theorem generate (g : Generator) : R (ev.generate g) (ev'.generate g) := by
  refine hR.fold h g.source none fun _ item => hR.bind (hR.assign hbinding.bindVar h g.target item)
    fun _ => hR.bind (hR.holds fun node _ => heval node) fun holds => ?_
  cases holds with
  | true => exact hR.bind (heval g.item) fun _ => hR.pure _
  | false => exact hR.pure _

/-- The evaluation of a node of any kind is related, if that of a loop is. -/
theorem evalKind {kind : NodeKind}
    (hrender : kind.render?.isSome → ∀ t vars,
      R (ev.renderNested t vars) (ev'.renderNested t vars))
    (hloop : ∀ target container block, kind = .forLoop target container block →
      R (ev.runLoop target container block) (ev'.runLoop target container block))
    (location : Location) :
    R (ev.evalKind location kind) (ev'.evalKind location kind) := by
  have hscoped : Scoped R R := ⟨hR, id, hbinding.bindVar, hbinding.scope⟩
  have hexpression (hkind : kind.precedence?.isSome) :=
    hR.evalExpression h hscoped hkind (fun node _ => heval node) hrender location
  cases kind with
  | text => exact hR.asStatement (hR.emit _)
  | print value => exact hR.asStatement (hR.bind (heval value) fun v => hR.emit _)
  | printX value => exact hR.asStatement (hR.bind (heval value) fun v => hR.emit _)
  | render value => exact hR.asStatement (hR.runRender heval value)
  | storeVar target value =>
    exact hR.asStatement (hR.bind (heval value) fun v =>
      hR.assign hbinding.bindVar h target v)
  | augAssign op name value => exact hR.asStatement (hR.runAugAssign heval hbinding op name value)
  | delVar name => exact hR.asStatement (hbinding.removeVar name)
  | forLoop target container block =>
    exact hR.asStatement (hloop target container block rfl)
  | breakLoop | continueLoop => exact hR.signal _
  | chain branches => exact hR.asStatement (hR.runChain heval branches.content)
  | ifBranch condition block | elifBranch condition block =>
    exact hR.asStatement (hR.runBranch heval condition block)
  | elseBranch block => exact hR.asStatement (hR.exec fun node _ => heval node)
  | template t => exact hR.asStatement (hbinding.bindVar ..)
  | unary op operand =>
    exact hR.bind (heval operand) fun v => hR.lift (Value.plain_unary op v)
  | binary op left right => exact hR.evalBinary op (heval left) (heval right)
  | _ => exact hexpression rfl

end

end Congruent

namespace Compatible

variable (hR : Compatible R) (h : ev.Related R ev')
  (heval : ∀ node, R (ev.eval node) (ev'.eval node)) (hbinding : Binding R)

include hR h heval hbinding

theorem runLoop (target : Target) (container : Node) (block : Block) :
    R (ev.runLoop target container block) (ev'.runLoop target container block) := by
  rw [Evaluator.runLoop_eq_runRounds, Evaluator.runLoop_eq_runRounds]
  have hexec : R (ev.exec block) (ev'.exec block) := hR.exec fun node _ => heval node
  exact hR.bind (heval container) (hR.runRounds h hbinding target (hR.round hexec))

theorem evalKind {kind : NodeKind}
    (hrender : kind.render?.isSome → ∀ t vars,
      R (ev.renderNested t vars) (ev'.renderNested t vars)) (location : Location) :
    R (ev.evalKind location kind) (ev'.evalKind location kind) :=
  hR.toCongruent.evalKind h heval hbinding hrender
    (fun target container block _ => hR.runLoop h heval hbinding target container block) location

/-- **The evaluation of any node is related**, if that of all nodes is one level deeper. -/
theorem evalNode {node : Node}
    (hrender : node.kind.render?.isSome → ∀ t vars,
      R (ev.renderNested t vars) (ev'.renderNested t vars)) :
    R (ev.evalNode node) (ev'.evalNode node) :=
  hR.locating _ (hR.evalKind h heval hbinding hrender _)

end Compatible

end Eval

end Templating
