import Templating.Proofs.Compatible.Node
import Templating.Proofs.Tracked.Call

/-!
# Evaluations of nodes with known iterators

* `NodeKind.parts`: the nodes that are evaluated along with a node.
* `KindTracks`: what has to be known about the parts of a node and about what it hands over to
  other frames.
* `Tracks.evalKind`, `Tracks.evalNode`: **any node**, given that.
-/

namespace Templating

open Carries (handles rename)

open Eval Knowledge

/-- The nodes that are evaluated for a branch of a chain. -/
def Node.branchParts (branch : Node) : List Node :=
  match branch.kind with
  | .ifBranch condition block | .elifBranch condition block => condition :: block.content
  | .elseBranch block => block.content
  | _ => [branch]

/-- The nodes that are evaluated along with a node of some kind, outside the rounds of a loop. The
item and the condition of a generator expression are not, and neither is the content of a
template. -/
def NodeKind.parts : NodeKind → List Node
  | .genExpr _ comp => [comp.container]
  | .forLoop _ container _ => [container]
  | .chain branches => branches.content.flatMap Node.branchParts
  | .template _ => []
  | kind => kind.children

/-- The signal that a node of some kind gives. -/
def NodeKind.signal? : NodeKind → Option LoopSignal
  | .breakLoop => some .breakLoop
  | .continueLoop => some .continueLoop
  | _ => none

/-- What has to be known about a kind of node. -/
structure KindTracks {W : Type} [Preorder W] (K : Knowledge W) (J : Judgement W)
    (kind : NodeKind) : Prop where
  eval : ∀ node ∈ kind.parts, ∀ w : W,
    J w K.Along (fun ev => ev.eval node) (fun ev => ev.eval node)
  suspend : ∀ {item comp}, kind = .genExpr item comp → ∀ {w : W} {source source' : Handle},
    K.Finds w source source' →
      J w K.Finds (fun _ => suspend source comp item) (fun _ => suspend source' comp item)
  render : kind.render?.isSome → ∀ {w : W} (t : Template) {vars vars' : Scope},
    K.Along w vars vars' →
      J w Same (fun ev => ev.renderNested t vars) (fun ev => ev.renderNested t vars')
  round : ∀ {target container block}, kind = .forLoop target container block → ∀ w : W,
    J w (WalksAlong Same) (fun ev => attempt (ev.exec block) >>= Evaluator.afterRound)
      (fun ev => attempt (ev.exec block) >>= Evaluator.afterRound)
  signal : ∀ {s}, kind.signal? = some s → ∀ {α : Type} {w : W} {Q : W → α → α → Prop},
    J w Q (fun _ => raise (.signal s)) (fun _ => raise (.signal s))

namespace Tracks

variable {W : Type} [Preorder W] {K : Knowledge W} {J : Judgement W} {w : W} (hJ : Tracks K J)
  {kind : NodeKind}

include hJ

/-! ## Displays and comprehensions -/

/-- The evaluation of some nodes one after another. -/
theorem evalAll {nodes : List Node}
    (heval : ∀ node ∈ nodes, ∀ w, J w K.Along (fun ev => ev.eval node) (fun ev => ev.eval node)) :
    J w K.Along (fun ev => nodes.mapM ev.eval) (fun ev => nodes.mapM ev.eval) := by
  have hvalues := hJ.mapM (Q := K.Along) (k := fun node ev => ev.eval node)
    (l := fun node ev => ev.eval node) (fun hw hv => hv.mono hw)
    (List.forall₂_same.2 fun node hnode w _ => heval node hnode w)
    (le_refl w)
  have hlist := hJ.bind (P := K.Along) hvalues fun _ _ _ _ hvs => hJ.pure (.of_forall₂ hvs)
  simpa only [bind_pure] using hlist

theorem holds {condition : Option Node} (heval : ∀ node ∈ condition.toList, ∀ w,
    J w K.Along (fun ev => ev.eval node) (fun ev => ev.eval node)) :
    J w Same (fun ev => ev.holds condition) (fun ev => ev.holds condition) := by
  cases condition with
  | none => exact hJ.pure rfl
  | some condition =>
    refine hJ.bind (heval condition (by simp) w) fun _ _ v v' hv => hJ.pure ?_
    exact hv.1 ▸ (Value.isTruthy_rename v).symm

omit hJ in
theorem insert {key : String} {v v' : Value} {es es' : List (String × Value)}
    (hv : K.Along w v v') (hes : K.Along w es es') :
    K.Along w (Bindings.insert key v es) (Bindings.insert key v' es') :=
  (hv.pair hes).map (F := fun p : Value × List (String × Value) => Bindings.insert key p.1 p.2)
    fun ρ _ p => Bindings.insert_mapValues (rename ρ) key p.1 p.2

omit hJ in
theorem merge {es es' news news' : List (String × Value)} (hes : K.Along w es es')
    (hnews : K.Along w news news') :
    K.Along w (Bindings.merge es news) (Bindings.merge es' news') :=
  (hes.pair hnews).map
    (F := fun p : List (String × Value) × List (String × Value) => Bindings.merge p.1 p.2)
    fun ρ _ p => Bindings.merge_mapValues (rename ρ) p.1 p.2

/-- The dict that is unpacked after `**`. -/
theorem splat {v v' : Value} (hv : K.Along w v v') :
    J w K.Along (fun _ => Eval.lift v.splat) (fun _ => Eval.lift v'.splat) := by
  refine hJ.lift (F := Value.splat) (fun ρ _ v => ?_) hv (Value.plain_splat v)
  have hsplat := splat_rename (g := .ofHandles ρ) v
  rw [funext (Value.renameBindings_eq _)] at hsplat
  exact hsplat

theorem evalEntry {es es' : List (String × Value)} {entry : DictEntry} (hes : K.Along w es es')
    (heval : ∀ node ∈ entry.children, ∀ w,
      J w K.Along (fun ev => ev.eval node) (fun ev => ev.eval node)) :
    J w K.Along (fun ev => ev.evalEntry es entry) (fun ev => ev.evalEntry es' entry) := by
  cases entry with
  | pair key value =>
    refine hJ.bind (heval key (by simp [DictEntry.children]) w) fun _ hw k k' hk =>
      hJ.bind (heval value (by simp [DictEntry.children]) _) fun _ hw' v v' hv => hJ.pure ?_
    have htext : k'.text = k.text := hk.1 ▸ Value.text_rename k
    rw [htext]
    exact Tracks.insert hv (hes.mono (hw.trans hw'))
  | splat mapping =>
    exact hJ.bind (heval mapping (by simp [DictEntry.children]) w) fun _ hw v v' hv =>
      hJ.bind (hJ.splat hv) fun _ hw' news news' hnews =>
        hJ.pure (Tracks.merge (hes.mono (hw.trans hw')) hnews)

/-- A comprehension whose state keeps a relation. -/
theorem comprehend {α : Type} {R : W → α → α → Prop}
    (hmono : ∀ {w w' : W} {a b : α}, w ≤ w' → R w a b → R w' a b) {comp : Comprehension}
    {start start' : α} {each : α → Program α}
    (heval : ∀ node ∈ comp.children, ∀ w,
      J w K.Along (fun ev => ev.eval node) (fun ev => ev.eval node))
    (hstart : R w start start')
    (heach : ∀ w a b, R w a b → J w R (each a) (each b)) :
    J w R (fun ev => ev.comprehend comp start fun a => each a ev)
      (fun ev => ev.comprehend comp start' fun a => each a ev) := by
  refine hJ.bind (heval comp.container List.mem_cons_self w) fun _ hw v v' hv =>
    hJ.bind (hJ.iterate hv) fun _ hw' handle handle' hh =>
      hJ.inScope hmono fun _ hw'' =>
        hJ.fold hmono (hh.mono hw'') (hmono ((hw.trans hw').trans hw'') hstart) ?_
  intro w₁ _ a b item item' hR hitem
  have hcondition {w : W} : J w Same (fun ev => ev.holds comp.condition)
      (fun ev => ev.holds comp.condition) :=
    hJ.holds fun node hnode => heval node (List.mem_cons_of_mem _ hnode)
  refine hJ.bind (hJ.assign comp.target hitem) fun _ hw₂ _ _ _ =>
    hJ.bind hcondition fun _ hw₃ holds _ hholds => ?_
  obtain rfl := hholds
  have hR' := hmono (hw₂.trans hw₃) hR
  cases holds with
  | true => exact hJ.bind (heach _ a b hR') fun _ _ _ _ hR => hJ.pure (.on hR)
  | false => exact hJ.pure (.on hR')

theorem evalListComp {item : Node} {comp : Comprehension}
    (hcomp : ∀ node ∈ comp.children, ∀ w,
      J w K.Along (fun ev => ev.eval node) (fun ev => ev.eval node))
    (hitem : ∀ w, J w K.Along (fun ev => ev.eval item) (fun ev => ev.eval item)) :
    J w K.Along (fun ev => ev.evalListComp item comp) (fun ev => ev.evalListComp item comp) := by
  refine hJ.bind (hJ.comprehend (R := K.Along) (fun hw hR => hR.mono hw) hcomp .nil ?_)
    fun _ _ vs vs' hvs => hJ.pure ?_
  · exact fun w items items' hitems => hJ.bind (hitem w) fun _ hw _ _ hv =>
      hJ.pure (.cons hv (hitems.mono hw))
  · exact (hvs.map (F := List.reverse) fun ρ _ vs => List.map_reverse.symm).list

theorem evalGenExpr {item : Node} {comp : Comprehension}
    (hcontainer : J w K.Along (fun ev => ev.eval comp.container) (fun ev => ev.eval comp.container))
    (hsuspend : ∀ {w source source'}, K.Finds w source source' →
      J w K.Finds (fun _ => Eval.suspend source comp item)
        (fun _ => Eval.suspend source' comp item)) :
    J w K.Along (fun ev => ev.evalGenExpr item comp) (fun ev => ev.evalGenExpr item comp) := by
  simp only [Evaluator.evalGenExpr_eq]
  exact hJ.bind hcontainer fun _ _ _ _ hv => hJ.bind (hJ.iterate hv) fun _ _ _ _ hsource =>
    hJ.bind (hsuspend hsource) fun _ _ _ _ hh => hJ.pure hh.iterator

/-! ## Operators -/

/-- A binary operator. The right operand is evaluated in a later world than the left one. -/
theorem evalBinary (op : BinaryOp) {left right : Node}
    (hleft : ∀ w, J w K.Along (fun ev => ev.eval left) (fun ev => ev.eval left))
    (hright : ∀ w, J w K.Along (fun ev => ev.eval right) (fun ev => ev.eval right)) :
    J w K.Along (fun ev => ev.evalBinary op left right)
      (fun ev => ev.evalBinary op left right) := by
  refine hJ.bind (hleft w) fun w' _ a a' ha => ?_
  have htruthy : a'.isTruthy = a.isTruthy := ha.1 ▸ Value.isTruthy_rename a
  have hboth (op : BinaryOp) : J w' K.Along
      (fun ev => ev.eval right >>= fun b => Eval.lift (Value.binary op a b))
      (fun ev => ev.eval right >>= fun b => Eval.lift (Value.binary op a' b)) :=
    hJ.bind (hright w') fun _ hw b b' hb =>
      hJ.lift (F := fun p : Value × Value => Value.binary op p.1 p.2)
        (fun _ hρ p => Value.binary_rename (.ofHandles hρ) op p.1 p.2) ((ha.mono hw).pair hb)
        (Value.plain_binary op a b)
  cases op with
  | and =>
    dsimp only
    rw [htruthy]
    split
    · exact hright w'
    · exact hJ.pure ha
  | or =>
    dsimp only
    rw [htruthy]
    split
    · exact hJ.pure ha
    · exact hright w'
  | _ => exact hboth _

theorem evalBound {bound : Option Node} (heval : ∀ node ∈ bound.toList, ∀ w,
    J w K.Along (fun ev => ev.eval node) (fun ev => ev.eval node)) :
    J w Same (fun ev => ev.evalBound bound) (fun ev => ev.evalBound bound) := by
  cases bound with
  | none => exact hJ.pure rfl
  | some bound =>
    refine hJ.bind (heval bound (by simp) w) fun _ _ v v' hv => ?_
    have hint : intArg "slice" v' = intArg "slice" v := hv.1 ▸ intArg_rename _ v
    obtain rfl := hv.1
    cases v with
    | none => exact hJ.pure rfl
    | _ =>
      exact hJ.bind (hJ.lift_same (plain_intArg ..)) fun _ _ _ _ h => hJ.pure (congrArg some h)

theorem evalSlice {object : Node} {start stop : Option Node}
    (hobject : ∀ w, J w K.Along (fun ev => ev.eval object) (fun ev => ev.eval object))
    (hstart : ∀ node ∈ start.toList, ∀ w,
      J w K.Along (fun ev => ev.eval node) (fun ev => ev.eval node))
    (hstop : ∀ node ∈ stop.toList, ∀ w,
      J w K.Along (fun ev => ev.eval node) (fun ev => ev.eval node)) :
    J w K.Along (fun ev => ev.evalSlice object start stop)
      (fun ev => ev.evalSlice object start stop) := by
  refine hJ.bind (hobject w) fun _ _ v v' hv => hJ.bind (hJ.evalBound hstart)
    fun _ hw a _ ha => hJ.bind (hJ.evalBound hstop) fun _ hw' b _ hb => ?_
  obtain rfl := ha
  obtain rfl := hb
  exact hJ.lift (F := fun v => v.getSlice a b) (fun _ _ v => Value.getSlice_rename v a b)
    (hv.mono (hw.trans hw')) (Value.plain_getSlice v a b)

/-! ## Calls -/

theorem callRender (method : Method) {t : Template} {vars vars' : Scope}
    (hrender : J w Same (fun ev => ev.renderNested t vars) (fun ev => ev.renderNested t vars')) :
    J w K.Along (fun ev => ev.callRender method t vars)
      (fun ev => ev.callRender method t vars') := by
  refine hJ.bind hrender fun _ _ output _ houtput => ?_
  obtain rfl := houtput
  split
  · exact hJ.bind (hJ.splice output) fun _ _ _ _ _ => hJ.pure (.leaf rfl)
  · exact hJ.pure (.leaf rfl)

theorem evalCall {name : String} {object : Node} {args : List Node}
    (hobject : ∀ w, J w K.Along (fun ev => ev.eval object) (fun ev => ev.eval object))
    (hargs : ∀ node ∈ args, ∀ w, J w K.Along (fun ev => ev.eval node) (fun ev => ev.eval node))
    (hrender : (Evaluator.renderMethod? name).isSome → ∀ {w} t {vars vars'}, K.Along w vars vars' →
      J w Same (fun ev => ev.renderNested t vars) (fun ev => ev.renderNested t vars')) :
    J w K.Along (fun ev => ev.evalCall name object args)
      (fun ev => ev.evalCall name object args) := by
  refine hJ.bind (hobject w) fun _ _ receiver receiver' hreceiver =>
    hJ.bind (hJ.evalAll hargs) fun w' hw vs vs' hvs => ?_
  have hreceiver' := hreceiver.mono hw
  have hlength : vs'.length = vs.length := hvs.1 ▸ List.length_map _
  have hempty : vs'.isEmpty = vs.isEmpty := hvs.1 ▸ List.isEmpty_map
  have hcall := hJ.callMethod name hreceiver' hvs
  cases receiver with
  | template t =>
    obtain rfl := hreceiver.1
    cases hmethod : Evaluator.renderMethod? name with
    | none =>
      exact hcall
    | some method =>
      simp only [rename, Value.rename, hempty, hlength]
      split
      · exact hJ.callRender method (hrender (by rw [hmethod]; rfl) t .nil)
      · exact hJ.raise trivial
  | _ =>
    obtain rfl := hreceiver.1
    exact hcall

omit hJ in
theorem natural_addArgument (method name : String) :
    NaturalOrFails fun p : Scope × Value => addArgument method p.1 (name, p.2) := by
  intro ρ _ p
  have hcontains : Bindings.contains name (rename ρ p.1) = Bindings.contains name p.1 :=
    Bindings.contains_mapValues (rename ρ) name p.1
  change addArgument method (rename ρ p.1) (name, rename ρ p.2) =
    (addArgument method p.1 (name, p.2)).map (rename ρ)
  unfold addArgument
  rw [hcontains]
  split
  · rfl
  · exact congrArg Except.ok (Bindings.insert_mapValues (rename ρ) name p.2 p.1)

omit hJ in
theorem natural_addArguments (method : String) :
    NaturalOrFails fun p : Scope × Scope => p.2.foldlM (addArgument method) p.1 := by
  rintro ρ hρ ⟨vars, entries⟩
  induction entries generalizing vars with
  | nil => rfl
  | cons entry entries ih =>
    have hadd : addArgument method (rename ρ vars) (rename ρ entry) =
        (addArgument method vars entry).map (rename ρ) :=
      natural_addArgument method entry.1 ρ hρ (vars, entry.2)
    change addArgument method (rename ρ vars) (rename ρ entry) >>=
        (rename ρ entries).foldlM (addArgument method) =
      (addArgument method vars entry >>= entries.foldlM (addArgument method)).map (rename ρ)
    rw [hadd]
    cases addArgument method vars entry with
    | error c => rfl
    | ok vars => exact ih vars

theorem evalArgument (method : String) {vars vars' : Scope} {arg : KeywordArg}
    (hvars : K.Along w vars vars')
    (heval : J w K.Along (fun ev => ev.eval arg.value) (fun ev => ev.eval arg.value)) :
    J w K.Along (fun ev => ev.evalArgument method vars arg)
      (fun ev => ev.evalArgument method vars' arg) := by
  cases arg with
  | named name value =>
    exact hJ.bind heval fun _ hw v v' hv => hJ.lift (natural_addArgument method name)
      ((hvars.mono hw).pair hv) (plain_addArgument ..)
  | splat mapping =>
    exact hJ.bind heval fun _ hw v v' hv => hJ.bind (hJ.splat hv) fun _ hw' entries _ hentries =>
      hJ.lift (natural_addArguments method) ((hvars.mono (hw.trans hw')).pair hentries)
        (.foldlM (plain_addArgument method) entries vars)

theorem evalKeywordCall {name : String} {object : Node} {args : List KeywordArg}
    (hobject : ∀ w, J w K.Along (fun ev => ev.eval object) (fun ev => ev.eval object))
    (hargs : ∀ arg ∈ args, ∀ w,
      J w K.Along (fun ev => ev.eval arg.value) (fun ev => ev.eval arg.value))
    (hrender : (Evaluator.renderMethod? name).isSome → ∀ {w} t {vars vars'}, K.Along w vars vars' →
      J w Same (fun ev => ev.renderNested t vars) (fun ev => ev.renderNested t vars')) :
    J w K.Along (fun ev => ev.evalKeywordCall name object args)
      (fun ev => ev.evalKeywordCall name object args) := by
  refine hJ.bind (hobject w) fun _ _ receiver receiver' hreceiver => ?_
  obtain rfl := hreceiver.1
  have hresolve : Method.resolve (rename K.move receiver) name 0 = Method.resolve receiver name 0 :=
    resolve_rename receiver name 0
  rw [hresolve]
  cases hmethod : Evaluator.renderMethod? name with
  | none => exact hJ.raise trivial
  | some method =>
    refine hJ.bind (hJ.lift_same (plain_resolve ..)) fun _ _ method _ hmethod' => ?_
    obtain rfl := hmethod'
    cases receiver with
    | template t =>
      exact hJ.bind (hJ.foldlM (R := K.Along)
        (k := fun vars arg ev => ev.evalArgument name vars arg)
        (fun arg harg w _ vars vars' hvars => hJ.evalArgument name hvars (hargs arg harg w)) .nil)
        fun _ _ vars vars' hvars =>
          hJ.callRender method (hrender (by rw [hmethod]; rfl) t hvars)
    | _ => exact hJ.raise trivial

/-! ## Statements -/

theorem exec {block : Block}
    (heval : ∀ node ∈ block.content, ∀ w,
      J w K.Along (fun ev => ev.eval node) (fun ev => ev.eval node)) :
    J w Same (fun ev => ev.exec block) (fun ev => ev.exec block) :=
  hJ.forM (k := fun node ev => do let _ ← ev.eval node) fun node hnode w =>
    hJ.bind (heval node hnode w) fun _ _ _ _ _ => hJ.pure rfl

theorem asStatement {x y : Program Unit} (hxy : J w Same x y) :
    J w K.Along (fun ev => Evaluator.asStatement (x ev))
      (fun ev => Evaluator.asStatement (y ev)) :=
  hJ.bind hxy fun _ _ _ _ _ => hJ.pure (.leaf rfl)

theorem lookupVar (name : String) :
    J w K.Along (fun _ => lookupVar name) (fun _ => Eval.lookupVar name) := by
  refine hJ.bind hJ.env fun _ _ e e' he => ?_
  have hvalue := he.map (F := (·.lookup? name)) fun ρ _ e => e.lookup?_rename ρ name
  cases hv : e.lookup? name with
  | none =>
    rw [hv] at hvalue
    rw [hvalue.1]
    exact hJ.raise trivial
  | some v =>
    rw [hv] at hvalue
    obtain ⟨hv', hknown⟩ := hvalue
    rw [hv']
    exact hJ.pure ⟨rfl, fun i hi => hknown i (by simpa [handles] using hi)⟩

theorem runAugAssign (op : AugOp) (name : String) {value : Node}
    (heval : ∀ w, J w K.Along (fun ev => ev.eval value) (fun ev => ev.eval value)) :
    J w Same (fun ev => ev.runAugAssign op name value)
      (fun ev => ev.runAugAssign op name value) :=
  hJ.bind (hJ.lookupVar name) fun _ _ a _ ha => hJ.bind (heval _) fun _ hw b _ hb =>
    hJ.bind (hJ.lift (F := fun p : Value × Value => Value.binary op.binary p.1 p.2)
      (fun _ hρ p => Value.binary_rename (.ofHandles hρ) _ p.1 p.2) ((ha.mono hw).pair hb)
      (Value.plain_binary _ a b)) fun _ _ _ _ hv => hJ.bindVar name hv

theorem runChain {branches : List Node}
    (heval : ∀ node ∈ branches.flatMap Node.branchParts, ∀ w,
      J w K.Along (fun ev => ev.eval node) (fun ev => ev.eval node)) :
    J w Same (fun ev => ev.runChain branches) (fun ev => ev.runChain branches) := by
  induction branches generalizing w with
  | nil => exact hJ.pure rfl
  | cons branch branches ih =>
    simp only [List.flatMap_cons, List.forall_mem_append, Node.branchParts] at heval
    obtain ⟨hbranch, hrest⟩ := heval
    have hchain {w : W} (condition : Node) (block : Block)
        (hparts : ∀ node ∈ condition :: block.content, ∀ w,
          J w K.Along (fun ev => ev.eval node) (fun ev => ev.eval node)) :
        J w Same
          (fun ev => do
            if (← ev.eval condition).isTruthy then ev.exec block else ev.runChain branches)
          (fun ev => do
            if (← ev.eval condition).isTruthy then ev.exec block else ev.runChain branches) := by
      obtain ⟨hcondition, hblock⟩ := List.forall_mem_cons.1 hparts
      refine hJ.bind (hcondition w) fun _ _ v v' hv => ?_
      have htruthy : v'.isTruthy = v.isTruthy := hv.1 ▸ Value.isTruthy_rename v
      rw [htruthy]
      split
      · exact hJ.exec hblock
      · exact ih hrest
    unfold Evaluator.runChain
    cases hkind : branch.kind with
    | ifBranch condition block | elifBranch condition block =>
      rw [hkind] at hbranch
      exact hchain condition block hbranch
    | elseBranch block =>
      rw [hkind] at hbranch
      exact hJ.exec hbranch
    | _ =>
      rw [hkind] at hbranch
      exact hJ.bind (hbranch branch List.mem_cons_self w) fun _ _ _ _ _ => ih hrest

theorem runRender {node : Node}
    (heval : ∀ w, J w K.Along (fun ev => ev.eval node) (fun ev => ev.eval node)) :
    J w Same (fun ev => ev.runRender node) (fun ev => ev.runRender node) := by
  refine hJ.bind (heval w) fun _ _ v v' hv => ?_
  have htext : v'.text = v.text := hv.1 ▸ Value.text_rename v
  rw [htext]
  split
  · exact hJ.pure rfl
  · exact hJ.emit _

theorem runBranch {condition : Node} {block : Block}
    (heval : ∀ node ∈ condition :: block.content, ∀ w,
      J w K.Along (fun ev => ev.eval node) (fun ev => ev.eval node)) :
    J w Same (fun ev => ev.runBranch condition block)
      (fun ev => ev.runBranch condition block) := by
  obtain ⟨hcondition, hblock⟩ := List.forall_mem_cons.1 heval
  refine hJ.bind (hcondition w) fun _ _ v v' hv => ?_
  have htruthy : v'.isTruthy = v.isTruthy := hv.1 ▸ Value.isTruthy_rename v
  rw [htruthy]
  split
  · exact hJ.exec hblock
  · exact hJ.pure rfl

theorem runLoop (target : Target) {container : Node} {block : Block}
    (hcontainer : ∀ w, J w K.Along (fun ev => ev.eval container) (fun ev => ev.eval container))
    (hround : ∀ w, J w (WalksAlong Same)
      (fun ev => Eval.attempt (ev.exec block) >>= Evaluator.afterRound)
      (fun ev => Eval.attempt (ev.exec block) >>= Evaluator.afterRound)) :
    J w Same (fun ev => ev.runLoop target container block)
      (fun ev => ev.runLoop target container block) :=
  hJ.bind (hcontainer w) fun _ _ _ _ hv => hJ.bind (hJ.iterate hv) fun _ _ _ _ hh =>
    hJ.fold (fun _ h => h) hh rfl fun _ _ _ _ _ _ _ hitem =>
      hJ.bind (hJ.assign target hitem) fun _ _ _ _ _ => hround _

/-! ## Nodes -/

/-- The text of a value is put out. -/
theorem emitText {F : String → String} {node : Node}
    (heval : ∀ w, J w K.Along (fun ev => ev.eval node) (fun ev => ev.eval node)) :
    J w Same (fun ev => do Eval.emit (F (← ev.eval node).text))
      (fun ev => do Eval.emit (F (← ev.eval node).text)) := by
  refine hJ.bind (heval w) fun _ _ v v' hv => ?_
  have htext : v'.text = v.text := hv.1 ▸ Value.text_rename v
  rw [htext]
  exact hJ.emit _

/-- **The evaluation of a node of some kind keeps to known iterators**, if its parts do. -/
theorem evalKind {kind : NodeKind} (h : KindTracks K J kind) (location : Location) :
    J w K.Along (fun ev => ev.evalKind location kind) (fun ev => ev.evalKind location kind) := by
  cases kind with
  | noneConst | trueConst | falseConst => exact hJ.pure (.leaf rfl)
  | const value => exact hJ.pure (.leaf (by cases value <;> rfl))
  | list items => exact hJ.bind (hJ.evalAll h.eval) fun _ _ _ _ hvs => hJ.pure hvs.list
  | listComp item comp =>
    obtain ⟨hcomp, hitem⟩ := List.forall_mem_append.1 h.eval
    exact hJ.evalListComp hcomp (hitem item List.mem_cons_self)
  | dict entries =>
    refine hJ.bind (hJ.foldlM (R := K.Along) (k := fun es entry ev => ev.evalEntry es entry)
      (fun entry hentry w _ es es' hes => hJ.evalEntry hes fun node hnode =>
        h.eval node (List.mem_flatMap.2 ⟨entry, hentry, hnode⟩)) .nil) fun _ _ _ _ hes =>
          hJ.pure hes.dict
  | dictComp key value comp =>
    obtain ⟨hcomp, hpair⟩ := List.forall_mem_append.1 h.eval
    exact hJ.bind (hJ.comprehend (R := K.Along)
      (fun hw hes => hes.mono hw) hcomp .nil fun w es es' hes =>
        hJ.evalEntry hes hpair) fun _ _ _ _ hes => hJ.pure hes.dict
  | genExpr item comp =>
    exact hJ.evalGenExpr (h.eval _ List.mem_cons_self w) (h.suspend rfl)
  | var name => exact hJ.lookupVar name
  | unary op operand =>
    exact hJ.bind (h.eval operand List.mem_cons_self w) fun _ _ v _ hv =>
      hJ.lift (fun _ _ => Value.unary_rename op) hv (Value.plain_unary op v)
  | binary op left right =>
    exact hJ.evalBinary op (h.eval left (by simp [NodeKind.parts, NodeKind.children]))
      (h.eval right (by simp [NodeKind.parts, NodeKind.children]))
  | getAttr object attr =>
    exact hJ.bind (h.eval object List.mem_cons_self w) fun _ _ v _ hv =>
      hJ.lift (F := fun v => v.attribute attr) (fun _ _ v => attribute_rename v attr) hv
        (Value.plain_attribute v attr)
  | getSlice object start stop =>
    obtain ⟨hobject, hbounds⟩ := List.forall_mem_cons.1 h.eval
    obtain ⟨hstart, hstop⟩ := List.forall_mem_append.1 hbounds
    exact hJ.evalSlice hobject hstart hstop
  | callFunc name args =>
    exact hJ.bind (hJ.evalAll h.eval) fun _ _ _ _ hvs => hJ.callFunction name hvs
  | callMeth name object args =>
    obtain ⟨hobject, hargs⟩ := List.forall_mem_cons.1 h.eval
    exact hJ.evalCall hobject hargs h.render
  | callMethKeywords name object args =>
    obtain ⟨hobject, hargs⟩ := List.forall_mem_cons.1 h.eval
    exact hJ.evalKeywordCall hobject (fun arg harg => hargs _ (List.mem_map_of_mem harg)) h.render
  | text => exact hJ.asStatement (hJ.emit _)
  | print value => exact hJ.asStatement (hJ.emitText (F := id) (h.eval value List.mem_cons_self))
  | printX value =>
    exact hJ.asStatement (hJ.emitText (F := Text.xmlEscape) (h.eval value List.mem_cons_self))
  | render value => exact hJ.asStatement (hJ.runRender (h.eval value List.mem_cons_self))
  | storeVar target value =>
    exact hJ.asStatement (hJ.bind (h.eval value List.mem_cons_self w) fun _ _ _ _ hv =>
      hJ.assign target hv)
  | augAssign op name value =>
    exact hJ.asStatement (hJ.runAugAssign op name (h.eval value List.mem_cons_self))
  | delVar name => exact hJ.asStatement (hJ.removeVar name)
  | forLoop target container block =>
    exact hJ.asStatement (hJ.runLoop target (h.eval container List.mem_cons_self) (h.round rfl))
  | breakLoop | continueLoop => exact h.signal rfl
  | chain branches => exact hJ.asStatement (hJ.runChain h.eval)
  | ifBranch condition block | elifBranch condition block =>
    exact hJ.asStatement (hJ.runBranch h.eval)
  | elseBranch block => exact hJ.asStatement (hJ.exec h.eval)
  | template t => exact hJ.asStatement (hJ.bindVar _ (.leaf rfl))

/-- **The evaluation of a node keeps to known iterators**, if its parts do. -/
theorem evalNode {node : Node} (h : KindTracks K J node.kind) :
    J w K.Along (fun ev => ev.evalNode node) (fun ev => ev.evalNode node) :=
  hJ.locating node.location (hJ.evalKind h node.location)

/-- The next item of a generator expression, in its frame. -/
theorem generate {g g' : Generator} (hg : K.Along w g g')
    (hcondition : ∀ node ∈ g.condition.toList, ∀ w,
      J w K.Along (fun ev => ev.eval node) (fun ev => ev.eval node))
    (hitem : ∀ w, J w K.Along (fun ev => ev.eval g.item) (fun ev => ev.eval g.item)) :
    J w K.Along (fun ev => ev.generate g) (fun ev => ev.generate g') := by
  obtain ⟨rfl, hknown⟩ := hg
  have hsource : K.Finds w g.source (K.move g.source) := ⟨rfl, hknown _ List.mem_cons_self⟩
  refine hJ.fold (R := K.Along) (fun hw h => h.mono hw) hsource .none fun _ _ _ _ v v' _ hv =>
    hJ.bind (hJ.assign g.target hv) fun _ _ _ _ _ => hJ.bind (hJ.holds hcondition)
      fun _ _ holds _ hholds => ?_
  obtain rfl := hholds
  cases holds with
  | true => exact hJ.bind (hitem _) fun _ _ _ _ hv => hJ.pure (.done hv.some)
  | false => exact hJ.pure (.on .none)

end Tracks

end Templating
