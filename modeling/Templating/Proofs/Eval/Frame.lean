import Templating.Proofs.Compatible.Cursor
import Templating.Proofs.Compatible.Node
import Templating.Proofs.Eval.Outcome

/-!
# What evaluations do to the frame

* `Eval.Moves`: an action leads from a frame to one that stands in a relation to it.
* `Eval.Moves.compatible`: evaluation keeps this for every preorder between frames. Only actions on
  variables need a look at the preorder, since render calls and generator expressions come back to
  the frame of the caller whatever they did.
* `expressions_keep_variables`: **an expression leaves all variables as they are.**
-/

namespace Templating

open Eval

namespace Eval

/-- An action that leads from each frame to one related to it, whether it succeeds or fails. -/
def Moves (Q : Frame → Frame → Prop) : Relation := fun _ x _ =>
  ∀ m, Outcome.Ended (x m) → Q m.frame (Outcome.machine (x m)).frame

variable {Q : Frame → Frame → Prop}

namespace Moves

section

variable {α β : Type} {x y : Eval α} {k l : α → Eval β}

/-- An action that leaves the frame alone. -/
theorem of_frame_eq (hrefl : ∀ frame, Q frame frame)
    (h : ∀ m, Outcome.Ended (x m) → (Outcome.machine (x m)).frame = m.frame) : Moves Q x y := by
  intro m hended
  rw [h m hended]
  exact hrefl _

theorem bind (htrans : ∀ a b c, Q a b → Q b c → Q a c) (hx : Moves Q x y)
    (hk : ∀ a, Moves Q (k a) (l a)) : Moves Q (x >>= k) (y >>= l) := by
  intro m hended
  have hfirst := hx m hended.of_bind
  cases h : x m with
  | error e m' =>
    rw [bind_error h]
    rwa [h] at hfirst
  | ok a m' =>
    rw [bind_ok h] at hended ⊢
    rw [h] at hfirst
    exact htrans _ _ _ hfirst (hk a m' hended)

theorem attempt (hx : Moves Q x y) : Moves Q (attempt x) (Eval.attempt y) := by
  intro m hended
  have hfirst := hx m
  cases h : x m with
  | ok a m' =>
    rw [attempt_ok h]
    rw [h] at hfirst
    exact hfirst trivial
  | error e m' =>
    rw [h] at hfirst
    cases e with
    | failed e =>
      rw [attempt_failed h]
      exact hfirst trivial
    | exhausted =>
      rw [attempt_exhausted h] at hended
      exact hended.elim

theorem mapError (f : EvalError → EvalError) (hx : Moves Q x y) :
    Moves Q (mapError f x) (Eval.mapError f y) := by
  intro m hended
  have hfirst := hx m
  unfold Eval.mapError at hended ⊢
  cases h : x m with
  | ok a m' =>
    rw [h] at hfirst
    exact hfirst trivial
  | error e m' =>
    rw [h] at hfirst hended
    cases e with
    | failed e => exact hfirst trivial
    | exhausted => exact hended.elim

end

/-! ## Actions that come back to the frame -/

section

variable {α : Type} {x : Eval α}

theorem captured {x y : Eval Unit} (hx : Moves Q x y) :
    Moves Q (captured x) (Eval.captured y) := by
  intro m hended
  have hinner := hended.of_captured
  obtain ⟨r, h⟩ := hinner.attempt
  rw [captured_ok h]
  have hframe : Q m.frame (Outcome.machine (x { m with output := #[] })).frame := hx _ hinner
  cases r.mapError EvalError.settle <;> exact hframe

theorem deeper (hrefl : ∀ frame, Q frame frame) (vars : Scope) (x y : Eval α) :
    Moves Q (deeper vars x) (Eval.deeper vars y) := by
  refine of_frame_eq hrefl fun m hended => ?_
  by_cases hlimit : m.frame.maxDepth ≤ m.frame.depth
  · rw [deeper_refused hlimit]
    rfl
  · obtain ⟨r, h⟩ := (hended.of_deeper hlimit).attempt
    rw [deeper_ok hlimit h]
    cases r <;> rfl

theorem resume (hrefl : ∀ frame, Q frame frame) (handle : Handle) (g g' : Generator)
    (x y : Eval (Option Value)) : Moves Q (resume handle g x) (Eval.resume handle g' y) := by
  refine of_frame_eq hrefl fun m hended => ?_
  obtain ⟨r, h⟩ := hended.of_resume.attempt
  rw [resume_ok h]
  cases r <;> rfl

theorem restoring (hrefl : ∀ frame, Q frame frame) (htrans : ∀ a b c, Q a b → Q b c → Q a c)
    (handle : Handle) (cell : Cell) {x y : Eval α} (hx : Moves Q x y) :
    Moves Q (restoring handle cell x) (Eval.restoring handle cell y) := by
  refine bind htrans hx.attempt fun r => ?_
  refine of_frame_eq hrefl fun m _ => ?_
  cases r <;> rfl

end

/-- Evaluation keeps what a preorder says about the frame, if it does not touch variables. -/
theorem compatible (hrefl : ∀ frame, Q frame frame) (htrans : ∀ a b c, Q a b → Q b c → Q a c) :
    Compatible (Moves Q) where
  pure a := of_frame_eq hrefl fun _ _ => rfl
  bind := bind htrans
  raise _ := of_frame_eq hrefl fun _ _ => rfl
  signal s := of_frame_eq hrefl fun _ _ => rfl
  exhaust := of_frame_eq hrefl fun _ _ => rfl
  env := of_frame_eq hrefl fun _ _ => rfl
  clock := of_frame_eq hrefl fun _ _ => rfl
  draw bound := of_frame_eq hrefl fun _ _ => rfl
  load text := by
    refine of_frame_eq hrefl fun m _ => ?_
    rw [load_apply]
    cases Wire.loads? text m.fresh <;> rfl
  allocate _ := of_frame_eq hrefl fun _ _ => rfl
  suspend source comp item := of_frame_eq hrefl fun _ _ => rfl
  emit text := of_frame_eq hrefl fun _ _ => rfl
  splice output := of_frame_eq hrefl fun _ _ => rfl
  locating location := mapError _
  round {x y} hx := by
    refine bind htrans hx.attempt fun r => of_frame_eq hrefl fun m _ => ?_
    rcases Evaluator.afterRound_cases r with ⟨walk, h⟩ | ⟨e, -, -, h⟩ <;> rw [h] <;> rfl

theorem stored (hrefl : ∀ frame, Q frame frame) (htrans : ∀ a b c, Q a b → Q b c → Q a c) :
    Stored (fun _ => True) id (Moves Q) where
  cell := by
    intro α handle k l hk m hended
    exact hk m.store[handle]? (fun c _ => c.cursor.frameHolds_true) m hended
  setCell handle _ _ := of_frame_eq hrefl fun _ _ => rfl
  restoring := by
    intro α x y handle c _ hx
    exact restoring hrefl htrans handle c hx

end Moves

end Eval

/-! ## Expressions -/

/-- Two frames that differ in the innermost scope at most. -/
def Frame.SameOuter (a b : Frame) : Prop :=
  b.env.outer = a.env.outer ∧ b.depth = a.depth ∧ b.maxDepth = a.maxDepth

theorem Frame.SameOuter.refl (a : Frame) : a.SameOuter a := ⟨rfl, rfl, rfl⟩

theorem Frame.SameOuter.trans (a b c : Frame) (hab : a.SameOuter b) (hbc : b.SameOuter c) :
    a.SameOuter c :=
  ⟨hbc.1.trans hab.1, hbc.2.1.trans hab.2.1, hbc.2.2.trans hab.2.2⟩

/-- A frame whose innermost scope is new differs from the outer one by that scope only. -/
theorem Frame.SameOuter.pop {a b : Frame} (h : SameOuter { a with env := a.env.push } b) :
    { b with env := b.env.pop } = a := by
  obtain ⟨henv, hdepth, hmax⟩ := h
  obtain ⟨⟨inner, outer⟩, depth, maxDepth⟩ := b
  dsimp only at henv hdepth hmax
  subst henv hdepth hmax
  rfl

/-- Actions that leave the frame as it is, where a scope of its own may be filled. -/
theorem Eval.Moves.scoped : Scoped (Moves Eq) (Moves Frame.SameOuter) where
  inner := (Moves.compatible Frame.SameOuter.refl Frame.SameOuter.trans).toCongruent
  weaken {α x y} hx := by
    intro m hended
    rw [← hx m hended]
    exact .refl _
  bindVar name v := fun m _ => ⟨rfl, rfl, rfl⟩
  scope {α x y} hx := by
    refine Moves.of_frame_eq (fun _ => rfl) fun m hended => ?_
    have hinner := hx _ hended.of_inScope
    obtain ⟨r, h⟩ := hended.of_inScope.attempt
    rw [inScope_ok h]
    cases r <;> exact hinner.pop

/-- A tree of expressions: no node of it is a statement, or the definition of a template. -/
inductive Node.IsExpression : Node → Prop where
  | intro {node : Node} : node.precedence?.isSome →
      (∀ child ∈ node.children, child.IsExpression) → node.IsExpression

/-- The evaluators of all budgets leave the frame as it is when they advance iterators. -/
theorem Eval.Moves.related (budget : Nat) :
    (Evaluator.within budget).Related (Moves Eq) (.within budget) := by
  have hR : Compatible (Moves Eq) := Moves.compatible (fun _ => rfl) fun _ _ _ => Eq.trans
  induction budget with
  | zero => exact ⟨fun _ => hR.exhaust, rfl⟩
  | succ budget ih =>
    refine ⟨fun handle => ?_, rfl⟩
    -- A generator expression runs statements in a frame of its own, and comes back.
    exact hR.advanceCell (Moves.stored (fun _ => rfl) fun _ _ _ => Eq.trans) ih
      (fun handle g _ => .resume (fun _ => rfl) handle g _ _ _) handle

/-- The evaluation of an expression leaves the frame as it is. -/
theorem Node.IsExpression.moves {node : Node} (hnode : node.IsExpression) (budget : Nat) :
    Moves Eq ((Evaluator.within budget).eval node) ((Evaluator.within budget).eval node) := by
  have hR : Compatible (Moves Eq) := Moves.compatible (fun _ => rfl) fun _ _ _ => Eq.trans
  induction budget generalizing node with
  | zero => exact hR.exhaust
  | succ budget ih =>
    obtain ⟨hkind, hchildren⟩ := hnode
    refine hR.locating _ (hR.evalExpression (Moves.related budget) Moves.scoped hkind
      (fun child hchild => ih (hchildren child hchild)) (fun _ t vars => ?_) _)
    -- The template may be anything, its statements run in a frame of their own.
    exact Moves.deeper (fun _ => rfl) vars _ _

/-- **An expression leaves all variables as they are**, whether it succeeds or fails: the same
scopes bind the same names to the same values in the same order. Neither the variables of its
comprehensions nor the templates it renders and the generator expressions it advances change any of
them. -/
theorem expressions_keep_variables (node : Node) (hnode : node.IsExpression) (budget : Nat)
    (m : Machine) (hended : Outcome.Ended ((Evaluator.within budget).eval node m)) :
    (Outcome.machine ((Evaluator.within budget).eval node m)).frame.env = m.frame.env := by
  rw [← hnode.moves budget m hended]

/-- The comprehension `[y for x in [2]]` fails inside its scope, and the variable `x` outside keeps
its value. -/
theorem expressions_keep_variables_comprehension :
    let node : Node := ⟨0, .ofText "" .empty, .listComp ⟨1, .ofText "" .empty, .var "y"⟩
      ⟨.name "x", ⟨2, .ofText "" .empty, .list [⟨3, .ofText "" .empty, .const (.int 2)⟩]⟩, none⟩⟩
    let m := Machine.start 4 0 .first (.ofVars [("x", .int 1)] 2)
    node.IsExpression ∧ Outcome.Ended ((Evaluator.within 5).eval node m) ∧
      (Outcome.machine ((Evaluator.within 5).eval node m)).frame.env = .ofVars [("x", .int 1)] := by
  intro node m
  have hnode : node.IsExpression := by
    refine .intro rfl fun child hchild => ?_
    simp only [Node.children, NodeKind.children, Comprehension.children, Option.toList_none,
      List.cons_append, List.nil_append, List.mem_cons, List.not_mem_nil, or_false, node] at hchild
    rcases hchild with rfl | rfl
    · refine .intro rfl fun item hitem => ?_
      simp only [Node.children, NodeKind.children, List.mem_cons, List.not_mem_nil,
        or_false] at hitem
      subst hitem
      exact .intro rfl fun _ hchild => absurd hchild List.not_mem_nil
    · exact .intro rfl fun _ hchild => absurd hchild List.not_mem_nil
  have hended : Outcome.Ended ((Evaluator.within 5).eval node m) := trivial
  exact ⟨hnode, hended, expressions_keep_variables node hnode 5 m hended⟩

end Templating
