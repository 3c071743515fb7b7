import Mathlib
import Templating.Proofs.Eval.Frame
import Templating.Proofs.Tracked.Lax
import Templating.Proofs.Tracked.Reach

/-!
# Iterators whose code consists of expressions

The item and the condition of a generator expression are evaluated in the middle of other code, so
what they may do, an advance of an iterator may do. Here is a region of the store whose generator
expressions evaluate expressions only, and that does not refer to others. Code that knows iterators
of the region only gives no signal when it advances them. Other code runs as well, that of templates
for example, and the region stays as it is.

* `Node.IsExpression`, `Cursor.IsProper`, `Region`: expressions, iterators made of them, and
  regions.
* `Region.logic`, `Region.anyLogic`: code that knows the iterators of a region, and any code.
* `Region.keeps`: **expressions and advances in a region give no signal**, and any code keeps
  regions.
-/

namespace Templating

open Carries (handles)

open Eval

/-- The iterators of a position evaluate expressions only. -/
def Cursor.IsProper (cursor : Cursor) : Prop :=
  ∀ g, cursor = .generator g → g.item.IsExpression ∧ ∀ node ∈ g.condition, node.IsExpression

/-- A set of iterators that evaluate expressions only and that refer to one another only. -/
def Region (w : Set Handle) (s : Array Cell) : Prop :=
  ∀ h ∈ w, ∃ cell, s[h]? = some cell ∧ cell.cursor.IsProper ∧ ∀ i ∈ handles cell, i ∈ w

/-- An expression is evaluated along with nodes directly below it only. -/
theorem NodeKind.parts_subset {kind : NodeKind} (h : kind.precedence?.isSome) :
    kind.parts ⊆ kind.children := by
  cases kind with
  | genExpr item comp => simp [NodeKind.parts, NodeKind.children, Comprehension.children]
  | forLoop | chain | template => cases h
  | _ => exact List.Subset.refl _

theorem NodeKind.signal?_eq_none {kind : NodeKind} (h : kind.precedence?.isSome) :
    kind.signal? = none := by
  cases kind with
  | breakLoop | continueLoop => cases h
  | _ => rfl

/-- The code of a generator expression is in its own node. -/
theorem Node.IsExpression.of_genExpr {node item : Node} {comp : Comprehension}
    (h : node.IsExpression) (hkind : node.kind = .genExpr item comp) :
    item.IsExpression ∧ ∀ condition ∈ comp.condition, condition.IsExpression := by
  obtain ⟨-, hchildren⟩ := h
  have hmem (child : Node) (h : child ∈ comp.children ++ [item]) : child.IsExpression :=
    hchildren child (by rw [Node.children, hkind]; exact h)
  refine ⟨hmem item (by simp), fun condition hcondition => hmem condition ?_⟩
  simp [Comprehension.children, Option.mem_def.1 hcondition]

theorem EvalError.signal?_settle (e : EvalError) : e.settle.cause.signal? = none := by
  obtain ⟨cause, location⟩ := e
  cases cause with
  | signal s => cases s <;> rfl
  | _ => rfl

/-- Runs within a budget, as far as they end, that are the same within another budget. -/
abbrev Eval.EndsWithin (budget budget' : Nat) : Running :=
  Ends (Evaluator.within budget) (Evaluator.within budget')

theorem Cursor.IsSimple.isProper {cursor : Cursor} (h : cursor.IsSimple) : cursor.IsProper := by
  rintro g rfl
  exact h.elim

namespace Region

variable {w : Set Handle} {s : Array Cell} {h : Handle} {cell : Cell}

theorem lt_size (hs : Region w s) (hh : h ∈ w) : h < s.size := by
  obtain ⟨cell, hcell, -⟩ := hs h hh
  exact (Array.getElem?_eq_some_iff.1 hcell).1

/-- A new iterator outside the region. -/
theorem push (hs : Region w s) (cell : Cell) : Region w (s.push cell) := by
  intro h hh
  obtain ⟨old, hold, hproper⟩ := hs h hh
  refine ⟨old, ?_, hproper⟩
  rw [Array.getElem?_push, if_neg (Nat.ne_of_lt (hs.lt_size hh)), hold]

/-- A new iterator of the region. -/
theorem insert (hs : Region w s) (hproper : cell.cursor.IsProper)
    (hcell : ∀ i ∈ handles cell, i ∈ w) : Region (insert s.size w) (s.push cell) := by
  rintro h (rfl | hh)
  · exact ⟨cell, by simp, hproper, fun i hi => .inr (hcell i hi)⟩
  · obtain ⟨old, hold, hproper, hrefs⟩ := hs.push cell h hh
    exact ⟨old, hold, hproper, fun i hi => .inr (hrefs i hi)⟩

/-- A change of an iterator outside the region. -/
theorem set_of_notMem (hs : Region w s) (hh : h ∉ w) : Region w (s.setIfInBounds h cell) := by
  intro i hi
  rw [Array.getElem?_setIfInBounds_ne (by rintro rfl; exact hh hi)]
  exact hs i hi

/-- A change of an iterator of the region. -/
theorem set (hs : Region w s) (hh : h ∈ w) (hproper : cell.cursor.IsProper)
    (hcell : ∀ i ∈ handles cell, i ∈ w) : Region w (s.setIfInBounds h cell) := by
  intro i hi
  by_cases heq : h = i
  · subst heq
    exact ⟨cell, Array.getElem?_setIfInBounds_self_of_lt (hs.lt_size hh), hproper, hcell⟩
  · rw [Array.getElem?_setIfInBounds_ne heq]
    exact hs i hi

/-! ## Two kinds of code -/

/-- Code that knows the iterators of a region, and that gives some signals only. -/
def logic (signals : LoopSignal → Prop) : StoreLogic (Set Handle) where
  known w h := h ∈ w
  known_mono hw hh := hw hh
  move := id
  move_injective := Function.injective_id
  permits e := ∀ s, e.cause.signal? = some s → signals s
  permits_ordinary {c} hc s hs := by
    cases c with
    | signal => exact hc.elim
    | _ => cases hs
  permits_locate _ he := he
  holds := Region
  follows := Grows
  follows_refl := .refl
  follows_trans := .trans
  le_of_follows h := h.subset
  level _ _ := True
  allocate {w s cursor} hs hbuiltin hcursor :=
    ⟨_, .push w s _, hs.insert hbuiltin.isSimple.isProper hcursor, .inl rfl⟩

/-- Code that knows any iterators and that may fail for any reason. -/
def anyLogic : StoreLogic (Set Handle) where
  known _ _ := True
  known_mono _ _ := trivial
  move := id
  move_injective := Function.injective_id
  permits _ := True
  permits_ordinary _ := trivial
  permits_locate _ _ := trivial
  holds := Region
  follows := Grows
  follows_refl := .refl
  follows_trans := .trans
  le_of_follows h := h.subset
  level _ _ := True
  allocate {w s cursor} hs _ _ :=
    ⟨w, ⟨subset_rfl, by simp, fun _ h _ => h⟩, hs.push _, trivial⟩

theorem anyLogic_lax : anyLogic.Lax where
  known _ _ := trivial
  permits _ := trivial
  level _ _ := trivial
  push {w _} cell hs := ⟨w, ⟨subset_rfl, by simp, fun _ h _ => h⟩, Region.push hs cell⟩

theorem anyLogic_inside (w : Set Handle) (frame : Frame) : anyLogic.Inside w frame :=
  anyLogic_lax.inside w frame

/-- What is known of the evaluator with a budget, and of the one with a larger budget. -/
structure Keeps (budget budget' : Nat) : Prop where
  le : budget ≤ budget'
  advanceAny : ∀ w h frame, anyLogic.Leads (EndsWithin budget budget') (fun _ => (· = frame)) w
    (fun _ _ => True) fun ev => ev.advance h
  evalAny : ∀ w node, anyLogic.Leads (EndsWithin budget budget') anyLogic.Inside w (fun _ _ => True)
    fun ev => ev.eval node
  advance : ∀ {w : Set Handle} {h}, h ∈ w → ∀ frame,
    (logic fun _ => False).Leads (EndsWithin budget budget') (fun _ => (· = frame)) w
      (fun w item => ∀ i ∈ handles item, i ∈ w) fun ev => ev.advance h
  eval : ∀ w {node : Node}, node.IsExpression →
    (logic fun _ => False).Leads (EndsWithin budget budget') (logic fun _ => False).Inside w
      (fun w v => ∀ i ∈ handles v, i ∈ w) fun ev => ev.eval node

theorem Keeps.zero (budget : Nat) : Keeps 0 budget where
  le := budget.zero_le
  advanceAny _ _ _ _ _ _ hended := hended.elim
  evalAny _ _ _ _ _ hended := hended.elim
  advance _ _ _ _ _ hended := hended.elim
  eval _ _ _ _ _ _ hended := hended.elim

section

variable {T : Running} {inside : Set Handle → Frame → Prop} {α : Type} {Q : Set Handle → α → Prop}
  {S S' : LoopSignal → Prop} {x : Program α}

/-- Code that gives fewer signals. -/
theorem weaken (hT : Runs T) (hS : ∀ s, S s → S' s) (hx : (logic S).Leads T inside w Q x) :
    (logic S').Leads T inside w Q x := by
  intro m hholds hinside
  refine hT.mono (hx m hholds hinside) ?_
  rintro r ⟨w', h⟩
  refine ⟨w', h.follows, h.holds, h.inside, ?_⟩
  have hreturns := h.returns
  cases r with
  | ok a m' => exact hreturns
  | error e m' =>
    cases e with
    | failed e => exact fun s hs => hS s (hreturns s hs)
    | exhausted => exact hreturns

theorem toAny (hT : Runs T) (hx : (logic S).Leads T inside w Q x) :
    anyLogic.Leads T inside w Q x := by
  intro m hholds hinside
  refine hT.mono (hx m hholds hinside) ?_
  rintro r ⟨w', h⟩
  refine ⟨w', h.follows, h.holds, h.inside, ?_⟩
  have hreturns := h.returns
  cases r with
  | ok a m' => exact hreturns
  | error e m' =>
    cases e with
    | failed e => trivial
    | exhausted => exact hreturns

/-- A round of a loop gives no signal, whatever its body does. -/
theorem round (hT : Runs T) {x : Program Unit}
    (hx : (logic S).Leads T inside w (fun _ _ => True) x) :
    (logic S').Leads T inside w (fun _ _ => True)
      fun ev => attempt (x ev) >>= Evaluator.afterRound := by
  intro m hholds hinside
  refine hT.bind_ok (hT.attempt (hx m hholds hinside) ?_ ?_)
  · rintro _ m' ⟨w', h⟩
    exact ⟨_, _, rfl, hT.action trivial ⟨w', h.follows, h.holds, h.inside, trivial⟩⟩
  · rintro e m' ⟨w', h⟩
    refine ⟨_, _, rfl, ?_⟩
    rcases Evaluator.afterRound_cases (.error e) with ⟨walk, hround⟩ | ⟨_, he, hnone, hround⟩
    · rw [hround]
      exact hT.action trivial ⟨w', h.follows, h.holds, h.inside, trivial⟩
    · cases he
      rw [hround]
      refine hT.action trivial ⟨w', h.follows, h.holds, h.inside, fun s hs => ?_⟩
      rw [hnone] at hs
      cases hs

end

section

variable {n n' : Nat} (hkeeps : Keeps n n')

include hkeeps

/-! ## Any code keeps a region -/

theorem Keeps.anyTracks :
    Tracks anyLogic.toKnowledge (anyLogic.Judges (EndsWithin n n') anyLogic.Inside) :=
  anyLogic_lax.tracks (Ends.runs _ _) (Ends.mayExhaust hkeeps.le) hkeeps.advanceAny

theorem Keeps.anyExec (w : Set Handle) (block : Block) :
    anyLogic.Leads (EndsWithin n n') anyLogic.Inside w (fun _ _ => True)
      fun ev => ev.exec block :=
  anyLogic_lax.exec (Ends.runs _ _) (Ends.mayExhaust hkeeps.le) hkeeps.advanceAny hkeeps.evalAny
    w block

/-- A render call runs any code, and gives no signal. -/
theorem Keeps.renderNested (w : Set Handle) (t : Template) (vars : Scope) (frame : Frame) :
    (logic fun _ => False).Leads (EndsWithin n n') (fun _ => (· = frame)) w (fun _ _ => True)
      fun ev => ev.renderNested t vars := by
  refine StoreLogic.Leads.renderNested (Ends.runs _ _) (fun _ _ _ _ h => h) ?_ ?_
  · rintro limit s ⟨⟩
  · intro m hholds _ _
    refine (Ends.runs _ _).mono (hkeeps.anyExec w t.block
      { m with frame := m.frame.below vars, output := #[] } hholds (anyLogic_inside _ _)) ?_
    rintro r ⟨w', h⟩
    refine ⟨w', h.follows, h.holds, fun e _ _ s hs => ?_⟩
    rw [e.signal?_settle] at hs
    cases hs

theorem Keeps.anyEvalNode (w : Set Handle) (node : Node) :
    anyLogic.Leads (EndsWithin n n') anyLogic.Inside w (fun _ _ => True)
      fun ev => ev.evalNode node :=
  anyLogic_lax.evalNode (Ends.runs _ _) (Ends.mayExhaust hkeeps.le) hkeeps.advanceAny
    hkeeps.evalAny w node

/-! ## Code that knows the iterators of a region -/

section

variable (S : LoopSignal → Prop)

theorem Keeps.tracks :
    Tracks (logic S).toKnowledge ((logic S).Judges (EndsWithin n n') (logic S).Inside) :=
  StoreLogic.tracks_of_mayExhaust (Ends.runs _ _) (Ends.mayExhaust hkeeps.le) fun hh frame =>
    weaken (Ends.runs _ _) (fun _ => False.elim) (hkeeps.advance hh frame)

theorem Keeps.evalAs {node : Node} (hnode : node.IsExpression) (w : Set Handle) :
    (logic S).Leads (EndsWithin n n') (logic S).Inside w (fun w v => ∀ i ∈ handles v, i ∈ w)
      fun ev => ev.eval node :=
  weaken (Ends.runs _ _) (fun _ => False.elim) (hkeeps.eval w hnode)

end

/-- The evaluation of a node that gives some signals only. -/
theorem Keeps.evalNode {S : LoopSignal → Prop} {node : Node} (w : Set Handle)
    (heval : ∀ part ∈ node.kind.parts, ∀ w, (logic S).Leads (EndsWithin n n') (logic S).Inside w
      (fun w v => ∀ i ∈ handles v, i ∈ w) fun ev => ev.eval part)
    (hgenerator : ∀ item comp, node.kind = .genExpr item comp →
      item.IsExpression ∧ ∀ condition ∈ comp.condition, condition.IsExpression)
    (hbody : ∀ target container block, node.kind = .forLoop target container block →
      ∃ S' : LoopSignal → Prop, ∀ w, (logic S').Leads (EndsWithin n n') (logic S').Inside w
        (fun _ _ => True) fun ev => ev.exec block)
    (hsignal : ∀ s, node.kind.signal? = some s → S s) :
    (logic S).Leads (EndsWithin n n') (logic S).Inside w (fun w v => ∀ i ∈ handles v, i ∈ w)
      fun ev => ev.evalNode node := by
  have hT : Runs (EndsWithin n n') := Ends.runs _ _
  refine StoreLogic.Leads.evalNode hT (hkeeps.tracks S) heval ?_ ?_ ?_ ?_
  · intro item comp hkind w s source frame hsource hs hframe
    refine ⟨_, .push w s _, Region.insert hs ?_ (List.forall_mem_cons.2 ⟨hsource, hframe.1⟩),
      .inl rfl⟩
    rintro _ ⟨⟩
    exact hgenerator item comp hkind
  · exact fun w t vars _ => StoreLogic.Leads.inside_of_frame_eq hT fun frame =>
      weaken hT (fun _ => False.elim) (hkeeps.renderNested w t vars frame)
  · intro target container block hkind w
    obtain ⟨S', hexec⟩ := hbody target container block hkind
    exact round hT (hexec w)
  · rintro s hs _ ⟨⟩
    exact hsignal s hs

theorem Keeps.evalExpression {node : Node} (hnode : node.IsExpression) (w : Set Handle) :
    (logic fun _ => False).Leads (EndsWithin n n') (logic fun _ => False).Inside w
      (fun w v => ∀ i ∈ handles v, i ∈ w) fun ev => ev.evalNode node := by
  obtain ⟨hkind, hchildren⟩ := hnode
  have hkind : node.kind.precedence?.isSome := hkind
  refine hkeeps.evalNode w (fun part hpart w => hkeeps.evalAs _ (hchildren part ?_) w) ?_ ?_ ?_
  · exact NodeKind.parts_subset hkind hpart
  · exact fun item comp hgenerator => Node.IsExpression.of_genExpr ⟨hkind, hchildren⟩ hgenerator
  · intro target container block hfor
    rw [hfor] at hkind
    cases hkind
  · intro s hs
    rw [NodeKind.signal?_eq_none hkind] at hs
    cases hs

/-- An advance of an iterator of a region. -/
theorem Keeps.advanceCell (hh : h ∈ w) (frame : Frame) :
    (logic fun _ => False).Leads (EndsWithin n n') (fun _ => (· = frame)) w
      (fun w item => ∀ i ∈ handles item, i ∈ w) fun ev => ev.advanceCell h := by
  have hT : Runs (EndsWithin n n') := Ends.runs _ _
  intro m hholds hframe
  obtain ⟨⟨cursor, busy⟩, hcell, hproper, hrefs⟩ := hholds h hh
  have hrefs : ∀ i ∈ handles cursor, i ∈ w := hrefs
  have hproper : cursor.IsProper := hproper
  cases busy with
  | true =>
    refine hT.advanceCell_busy hcell ⟨w, .refl w _, hholds, hframe, ?_⟩
    rintro s ⟨⟩
  | false =>
    have hstep := StoreLogic.Leads.step hT hkeeps.advance frame hrefs ?_ ?_
      { m with store := m.store.setIfInBounds h ⟨cursor, true⟩ }
      (hholds.set hh hproper hrefs) hframe
    · -- the position after the step goes into the region, and the item comes from there
      refine StoreLogic.Leads.advanceCell hT hcell hstep fun w' s c r hfollows hholds' hsteps => ?_
      refine ⟨w', hfollows.of_size_eq (by simp) (by simp), ?_, hsteps.result⟩
      refine Region.set hholds' (hfollows.subset hh) ?_ hsteps.known
      intro g hg
      obtain ⟨g', frame', hcursor, rfl⟩ := hsteps.generator hg
      exact hproper g' hcursor
    · rintro failure - s ⟨⟩
    · rintro g rfl
      obtain ⟨hitem, hcondition⟩ := hproper g rfl
      refine ⟨trivial, StoreLogic.Leads.generate hT (hkeeps.tracks _) hrefs ?_⟩
      refine List.forall_mem_cons.2 ⟨fun w => hkeeps.eval w hitem, fun node hnode w => ?_⟩
      exact hkeeps.eval w (hcondition node (by simpa using hnode))

/-- An advance of any iterator by any code. -/
theorem Keeps.anyAdvanceCell (w : Set Handle) (h : Handle) (frame : Frame) :
    anyLogic.Leads (EndsWithin n n') (fun _ => (· = frame)) w (fun _ _ => True)
      fun ev => ev.advanceCell h := by
  have hT : Runs (EndsWithin n n') := Ends.runs _ _
  by_cases hh : h ∈ w
  · exact (toAny hT (hkeeps.advanceCell hh frame)).mono hT fun _ _ _ _ => trivial
  refine anyLogic_lax.advanceCell hT (Ends.mayExhaust hkeeps.le) hkeeps.advanceAny hkeeps.evalAny
    w h frame (fun _ hs => Region.set_of_notMem hs hh) fun _ _ hlt hfollows hs' => ?_
  refine ⟨hfollows.of_size_eq (by simp) (by simp), Region.set_of_notMem hs' fun hmem => ?_⟩
  exact hh (hfollows.new h hmem (by simpa using hlt))

end

/-- **Any code keeps a region of iterators that evaluate expressions only**, and the evaluation of
an expression or the advance of an iterator that knows the iterators of the region only gives no
signal. -/
theorem keeps {budget budget' : Nat} (hle : budget ≤ budget') : Keeps budget budget' := by
  induction budget generalizing budget' with
  | zero => exact .zero budget'
  | succ budget ih =>
    -- each call hands the evaluator with the smaller budget to the calls below it
    obtain ⟨budget', rfl⟩ : ∃ n, budget' = n + 1 := ⟨budget' - 1, by omega⟩
    have hkeeps : Keeps budget budget' := ih (by omega)
    exact {
      le := hle
      advanceAny := hkeeps.anyAdvanceCell
      evalAny := hkeeps.anyEvalNode
      advance := hkeeps.advanceCell
      eval := fun w _ hnode => hkeeps.evalExpression hnode w }

end Region

end Templating
