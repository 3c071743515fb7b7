import Templating.Proofs.Confined.Call
import Templating.Proofs.Eval.Watch

/-!
# Confined evaluation of nodes

A node evaluates its children, and a chain the conditions and the blocks of its branches, which are
below it, too. What else is evaluated comes from values and iterators.

* `Evaluator.Confined.evalKind`: any kind of node whose children are within some code.
* `Evaluator.Confined.evalNode`: **any node** of some code.
* `Evaluator.Confined.watched`: **the evaluator that gives up at nodes that are not of the code** is
  confined to it.
-/

namespace Templating

open Eval

variable {code : Code} {limit : Nat}

theorem Code.forall_mem_pair {a b : Node} : (∀ n ∈ [a, b], code n) ↔ code a ∧ code b := by
  simp

namespace Evaluator.Confined

variable {ev ev' : Evaluator} {vars : Scope} {item key value : Node}
  {comp : Comprehension} (h : ev.Confined code limit ev')

include h

/-! ## Displays and comprehensions -/

theorem evalEntry {entries : List (String × Value)} (hentries : Bindings.Within code entries)
    {entry : DictEntry} (hentry : ∀ n ∈ entry.children, code n) :
    Eval.Confined code limit (Bindings.Within code) (ev.evalEntry entries entry)
      (ev'.evalEntry entries entry) := by
  cases entry with
  | pair key value =>
    obtain ⟨hkey, hvalue⟩ := Code.forall_mem_pair.1 hentry
    refine .bind (h.eval key hkey) fun k _ => .bind (h.eval value hvalue) fun v hv =>
      .pure fun b hb => ?_
    rcases Bindings.mem_insert hb with rfl | hb
    · exact hv
    · exact hentries b hb
  | splat mapping =>
    refine .bind (h.eval mapping (List.forall_mem_singleton.1 hentry)) fun v hv =>
      .bind (.splat hv) fun news hnews => .pure fun b hb => ?_
    exact (Bindings.mem_merge hb).elim (hentries b) (hnews b)

theorem comprehend {α : Type} {P : α → Prop} (hcomp : ∀ n ∈ comp.children, code n) {start : α}
    (hstart : P start) {each each' : α → Eval α}
    (heach : ∀ a, P a → Eval.Confined code limit P (each a) (each' a)) :
    Eval.Confined code limit P (ev.comprehend comp start each)
      (ev'.comprehend comp start each') := by
  obtain ⟨hcontainer, hcondition⟩ := List.forall_mem_cons.1 hcomp
  refine .bind (h.eval comp.container hcontainer) fun v hv => .bind (.iterate hv) fun handle _ =>
    .inScope (h.fold handle hstart fun a item ha hitem => ?_)
  refine .bind (h.assign comp.target hitem) fun _ _ =>
    .bind (h.holds fun n hn => hcondition n (Option.mem_toList.2 hn)) fun holds _ => ?_
  cases holds with
  | true => exact .bind (heach a ha) fun _ hb => .pure hb
  | false => exact .pure ha

theorem evalListComp (hcomp : ∀ n ∈ comp.children, code n) (hitem : code item) :
    Eval.Confined code limit (Value.Within code) (ev.evalListComp item comp)
      (ev'.evalListComp item comp) :=
  .bind (h.comprehend (P := Value.AllWithin code) hcomp .nil fun _ hvs =>
    .bind (h.eval item hitem) fun _ hv => .pure (hvs.cons hv)) fun _ hvs =>
      .pure (Value.within_list_iff.2 hvs.reverse)

theorem evalDictComp (hcomp : ∀ n ∈ comp.children, code n) (hkey : code key)
    (hvalue : code value) :
    Eval.Confined code limit (Value.Within code) (ev.evalDictComp key value comp)
      (ev'.evalDictComp key value comp) :=
  .bind (h.comprehend (P := Bindings.Within code) hcomp .nil fun _ hentries =>
    h.evalEntry hentries (Code.forall_mem_pair.2 ⟨hkey, hvalue⟩)) fun _ hentries =>
      .pure (Value.within_dict_iff.2 hentries)

/-- A generator expression. The item and the condition are of the code, so that they may be
evaluated later. -/
theorem evalGenExpr (hcomp : ∀ n ∈ comp.children, code n) (hitem : code item) :
    Eval.Confined code limit (Value.Within code) (ev.evalGenExpr item comp)
      (ev'.evalGenExpr item comp) := by
  obtain ⟨hcontainer, hcondition⟩ := List.forall_mem_cons.1 hcomp
  refine .bind (h.eval comp.container hcontainer) fun v hv => .bind (.iterate hv) fun source _ =>
    .bind .get fun m hm => .bind (.allocate ?_) fun _ _ => .pure (Value.within_iterator _)
  exact ⟨hm.env.push, List.forall_mem_cons.2 ⟨hitem, hcondition⟩⟩

/-! ## Operators -/

theorem evalBinary (op : BinaryOp) {left right : Node} (hleft : code left) (hright : code right) :
    Eval.Confined code limit (Value.Within code) (ev.evalBinary op left right)
      (ev'.evalBinary op left right) := by
  refine .bind (h.eval left hleft) fun a ha => ?_
  cases op with
  | and =>
    cases a.isTruthy with
    | true => exact h.eval right hright
    | false => exact .pure ha
  | or =>
    cases a.isTruthy with
    | true => exact .pure ha
    | false => exact h.eval right hright
  | _ =>
    exact .bind (h.eval right hright) fun b hb => .calculate
      (Value.binary_rename Renaming.censor_faithful _ a b) (by rw [ha.rename, hb.rename])

theorem evalBound {bound : Option Node} (hbound : ∀ n ∈ bound, code n) :
    Eval.Confined code limit (fun _ => True) (ev.evalBound bound) (ev'.evalBound bound) := by
  cases bound with
  | none => exact .pure trivial
  | some bound =>
    refine .bind (h.eval bound (hbound bound rfl)) fun v _ => ?_
    cases v with
    | none => exact .pure trivial
    | _ => exact .bind (.calculated _) fun _ _ => .pure trivial

theorem evalSlice {object : Node} {start stop : Option Node} (hobject : code object)
    (hstart : ∀ n ∈ start, code n) (hstop : ∀ n ∈ stop, code n) :
    Eval.Confined code limit (Value.Within code) (ev.evalSlice object start stop)
      (ev'.evalSlice object start stop) :=
  .bind (h.eval object hobject) fun v hv => .bind (h.evalBound hstart) fun start _ =>
    .bind (h.evalBound hstop) fun stop _ =>
      .calculate (Value.getSlice_rename v start stop) (by rw [hv.rename])

/-! ## Calls -/

theorem callRender (method : Method) {t : Template} (ht : t.Within code)
    (hvars : Bindings.Within code vars) :
    Eval.Confined code limit (Value.Within code) (ev.callRender method t vars)
      (ev'.callRender method t vars) := by
  refine .bind (h.renderNested ht hvars) fun output _ => ?_
  split
  · exact .bind (.modify fun _ hm => ⟨hm.env, hm.store, hm.fresh⟩) fun _ _ =>
      .pure Value.within_none
  · exact .pure (Value.within_str _)

theorem evalArgs {args : List Node} (hargs : ∀ n ∈ args, code n) :
    Eval.Confined code limit (Value.AllWithin code) (args.mapM ev.eval) (args.mapM ev'.eval) :=
  .mapM fun n hn => h.eval n (hargs n hn)

theorem evalCall (name : String) {object : Node} {args : List Node} (hobject : code object)
    (hargs : ∀ n ∈ args, code n) :
    Eval.Confined code limit (Value.Within code) (ev.evalCall name object args)
      (ev'.evalCall name object args) := by
  refine .bind (h.eval object hobject) fun receiver hreceiver => .bind (h.evalArgs hargs)
    fun vs hvs => ?_
  have hmethod := h.callMethod name hreceiver hvs
  cases receiver with
  | template t =>
    cases renderMethod? name with
    | none => exact hmethod
    | some method =>
      dsimp only
      split
      · exact h.callRender method (Value.within_template_iff.1 hreceiver) .nil
      · exact .raise _
  | _ => exact hmethod

omit h in
theorem addArgument (method : String) {vars' : Scope} {binding : String × Value}
    (hvars : Bindings.Within code vars) (hvalue : binding.2.Within code)
    (hadd : Templating.addArgument method vars binding = .ok vars') :
    Bindings.Within code vars' := by
  unfold Templating.addArgument at hadd
  split at hadd
  · cases hadd
  · cases hadd
    intro b hb
    rcases Bindings.mem_insert hb with rfl | hb
    · exact hvalue
    · exact hvars b hb

theorem evalArgument (method : String) {arg : KeywordArg} (harg : code arg.value)
    (hvars : Bindings.Within code vars) :
    Eval.Confined code limit (Bindings.Within code) (ev.evalArgument method vars arg)
      (ev'.evalArgument method vars arg) := by
  cases arg with
  | named name value =>
    exact .bind (h.eval value harg) fun v hv => .lift fun _ hadd =>
      addArgument method hvars hv hadd
  | splat mapping =>
    refine .bind (h.eval mapping harg) fun v hv => .bind (.splat hv) fun entries hentries =>
      .lift fun vars' hfold => ?_
    induction entries generalizing vars with
    | nil =>
      cases hfold
      exact hvars
    | cons entry entries ih =>
      obtain ⟨hentry, hentries⟩ := List.forall_mem_cons.1 hentries
      rw [List.foldlM_cons] at hfold
      cases hadd : Templating.addArgument method vars entry with
      | error c =>
        rw [hadd] at hfold
        cases hfold
      | ok vars₁ =>
        rw [hadd] at hfold
        exact ih (addArgument method hvars hentry hadd) hentries hfold

theorem evalKeywordCall (name : String) {object : Node} {args : List KeywordArg}
    (hobject : code object) (hargs : ∀ arg ∈ args, code arg.value) :
    Eval.Confined code limit (Value.Within code) (ev.evalKeywordCall name object args)
      (ev'.evalKeywordCall name object args) := by
  refine .bind (h.eval object hobject) fun receiver hreceiver => ?_
  cases renderMethod? name with
  | none => exact .raise _
  | some method =>
    refine .bind (.calculated _) fun method _ => ?_
    cases receiver with
    | template t =>
      exact .bind (.foldlM (P := Bindings.Within code) (fun arg harg vars hvars =>
        h.evalArgument name (hargs arg harg) hvars) .nil) fun vars hvars =>
          h.callRender method (Value.within_template_iff.1 hreceiver) hvars
    | _ => exact .raise _

/-! ## Statements -/

omit h in
theorem afterRound (result : Except EvalError Unit) :
    Eval.Confined code limit (fun _ => True) (Evaluator.afterRound result)
      (Evaluator.afterRound result) := by
  cases result with
  | ok _ => exact .pure trivial
  | error e =>
    simp only [Evaluator.afterRound]
    split
    · exact .pure trivial
    · exact .pure trivial
    · exact .throw _

theorem runLoop (target : Target) {container : Node} {block : Block} (hcontainer : code container)
    (hblock : ∀ n ∈ block.content, code n) :
    Eval.Confined code limit (fun _ => True) (ev.runLoop target container block)
      (ev'.runLoop target container block) :=
  .bind (h.eval container hcontainer) fun _ hv => .bind (.iterate hv) fun handle _ =>
    h.fold handle trivial fun _ _ _ hitem => .bind (h.assign target hitem) fun _ _ =>
      .bind (h.exec hblock).attempt fun result _ => afterRound result

/-- A chain evaluates the conditions of its branches without evaluating the branches. -/
theorem runChain (hclosed : code.Closed limit) {branches : List Node}
    (hbranches : ∀ n ∈ branches, code n) :
    Eval.Confined code limit (fun _ => True) (ev.runChain branches) (ev'.runChain branches) := by
  induction branches with
  | nil => exact .pure trivial
  | cons branch branches ih =>
    obtain ⟨hbranch, hbranches⟩ := List.forall_mem_cons.1 hbranches
    have hchildren := fun n => hclosed.children branch n hbranch
    have hrest := ih hbranches
    have heval := h.eval branch hbranch
    obtain ⟨id, location, kind⟩ := branch
    cases kind with
    | ifBranch condition block | elifBranch condition block =>
      obtain ⟨hcondition, hblock⟩ := List.forall_mem_cons.1 hchildren
      refine .bind (h.eval condition hcondition) fun v _ => ?_
      split
      · exact h.exec hblock
      · exact hrest
    | elseBranch block => exact h.exec hchildren
    | _ => exact .bind heval fun _ _ => hrest

theorem runRender (hvalue : code value) :
    Eval.Confined code limit (fun _ => True) (ev.runRender value) (ev'.runRender value) := by
  refine .bind (h.eval value hvalue) fun v _ => ?_
  split
  · exact .pure trivial
  · exact .emit _

theorem runAugAssign (op : AugOp) (name : String) (hvalue : code value) :
    Eval.Confined code limit (fun _ => True) (ev.runAugAssign op name value)
      (ev'.runAugAssign op name value) :=
  .bind (.lookupVar name) fun current hcurrent =>
    .bind (h.eval value hvalue) fun operand hoperand =>
      .bind (.calculate (Value.binary_rename Renaming.censor_faithful _ current operand)
        (by rw [hcurrent.rename, hoperand.rename])) fun _ hv => .bindVar name hv

theorem runBranch {condition : Node} {block : Block} (hcondition : code condition)
    (hblock : ∀ n ∈ block.content, code n) :
    Eval.Confined code limit (fun _ => True) (ev.runBranch condition block)
      (ev'.runBranch condition block) := by
  refine .bind (h.eval condition hcondition) fun v _ => ?_
  split
  · exact h.exec hblock
  · exact .pure trivial

omit h in
theorem asStatement {x y : Eval Unit} (hx : Eval.Confined code limit (fun _ => True) x y) :
    Eval.Confined code limit (Value.Within code) (asStatement x) (Evaluator.asStatement y) :=
  .bind hx fun _ _ => .pure Value.within_none

/-- A node whose children are of the code, whatever kind it is. -/
theorem evalKind (hclosed : code.Closed limit) (location : Location) {kind : NodeKind}
    (hkind : ∀ n ∈ kind.children, code n) :
    Eval.Confined code limit (Value.Within code) (ev.evalKind location kind)
      (ev'.evalKind location kind) := by
  cases kind with
  | noneConst => exact .pure Value.within_none
  | trueConst | falseConst => exact .pure (Value.within_bool _)
  | const value => exact .pure (Value.within_ofLiteral value)
  | list items =>
    exact .bind (h.evalArgs hkind) fun _ hvs => .pure (Value.within_list_iff.2 hvs)
  | listComp item comp =>
    obtain ⟨hcomp, hitem⟩ := List.forall_mem_append.1 hkind
    exact h.evalListComp hcomp (List.forall_mem_singleton.1 hitem)
  | dict entries =>
    refine .bind (.foldlM (P := Bindings.Within code) (fun entry hentry vs hvs =>
      h.evalEntry hvs fun n hn => hkind n (List.mem_flatMap.2 ⟨entry, hentry, hn⟩)) .nil)
      fun _ hvs => .pure (Value.within_dict_iff.2 hvs)
  | dictComp key value comp =>
    obtain ⟨hcomp, hpair⟩ := List.forall_mem_append.1 hkind
    obtain ⟨hkey, hvalue⟩ := Code.forall_mem_pair.1 hpair
    exact h.evalDictComp hcomp hkey hvalue
  | genExpr item comp =>
    obtain ⟨hcomp, hitem⟩ := List.forall_mem_append.1 hkind
    exact h.evalGenExpr hcomp (List.forall_mem_singleton.1 hitem)
  | var name => exact .lookupVar name
  | unary op operand =>
    exact .bind (h.eval operand (List.forall_mem_singleton.1 hkind)) fun v hv =>
      .calculate (Value.unary_rename op v) (by rw [hv.rename])
  | binary op left right =>
    obtain ⟨hleft, hright⟩ := Code.forall_mem_pair.1 hkind
    exact h.evalBinary op hleft hright
  | getAttr object attr =>
    exact .bind (h.eval object (List.forall_mem_singleton.1 hkind)) fun v hv =>
      .calculate (attribute_rename v attr) (by rw [hv.rename])
  | getSlice object start stop =>
    obtain ⟨hobject, hbounds⟩ := List.forall_mem_cons.1 hkind
    obtain ⟨hstart, hstop⟩ := List.forall_mem_append.1 hbounds
    exact h.evalSlice hobject (fun n hn => hstart n (Option.mem_toList.2 hn))
      fun n hn => hstop n (Option.mem_toList.2 hn)
  | callFunc name args =>
    exact .bind (h.evalArgs hkind) fun _ hvs => h.callFunction hclosed name hvs
  | callMeth name object args =>
    obtain ⟨hobject, hargs⟩ := List.forall_mem_cons.1 hkind
    exact h.evalCall name hobject hargs
  | callMethKeywords name object args =>
    obtain ⟨hobject, hargs⟩ := List.forall_mem_cons.1 hkind
    exact h.evalKeywordCall name hobject fun arg harg => hargs _ (List.mem_map_of_mem harg)
  | text => exact asStatement (.emit _)
  | print value | printX value =>
    exact asStatement (.bind (h.eval value (List.forall_mem_singleton.1 hkind)) fun _ _ =>
      .emit _)
  | render value => exact asStatement (h.runRender (List.forall_mem_singleton.1 hkind))
  | storeVar target value =>
    exact asStatement (.bind (h.eval value (List.forall_mem_singleton.1 hkind)) fun v hv =>
      h.assign target hv)
  | augAssign op name value =>
    exact asStatement (h.runAugAssign op name (List.forall_mem_singleton.1 hkind))
  | delVar name => exact asStatement (.removeVar name)
  | forLoop target container block =>
    obtain ⟨hcontainer, hblock⟩ := List.forall_mem_cons.1 hkind
    exact asStatement (h.runLoop target hcontainer hblock)
  | breakLoop | continueLoop => exact .raise _
  | chain branches => exact asStatement (h.runChain hclosed hkind)
  | ifBranch condition block | elifBranch condition block =>
    obtain ⟨hcondition, hblock⟩ := List.forall_mem_cons.1 hkind
    exact asStatement (h.runBranch hcondition hblock)
  | elseBranch block => exact asStatement (h.exec hkind)
  | template t => exact asStatement (.bindVar _ (Value.within_template_iff.2 hkind))

/-- **A node of the code is evaluated within the code.** -/
theorem evalNode (hclosed : code.Closed limit) {node : Node} (hnode : code node) :
    Eval.Confined code limit (Value.Within code) (ev.evalNode node) (ev'.evalNode node) :=
  (h.evalKind hclosed node.location fun n hn => hclosed.children node n hnode hn).locating _

omit h in
/-- **Nothing but the code is evaluated**, within any budget: the evaluator that gives up at other
nodes never does. -/
theorem watched (hclosed : code.Closed limit) (budget : Nat) :
    (Evaluator.within budget).Confined code limit
      (Evaluator.watched (fun _ node _ => code node) budget) := by
  induction budget with
  | zero => exact ⟨fun _ _ => .throw _, fun _ => .throw _, rfl⟩
  | succ n ih =>
    refine ⟨fun node hnode m hm => ?_, fun handle => ?_, rfl⟩
    · have hrun : (Evaluator.watched (fun _ node _ => code node) (n + 1)).eval node m =
          (Evaluator.watched (fun _ node _ => code node) n).evalNode node m :=
        Evaluator.watched_eval hnode
      rw [hrun]
      exact ih.evalNode hclosed hnode m hm
    · rw [Evaluator.watched_advance]
      exact ih.advanceCell handle

end Evaluator.Confined

end Templating
