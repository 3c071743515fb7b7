import Templating.Proofs.Eval.Frame

/-!
# What evaluations leave in place

* `Frame.SameShape`: frames with the same number of scopes and the same depths.
* `Eval.Appends`: an action appends to the output and looks at nothing that is in it.
* `evaluation_appends`: **the evaluation of a node keeps the shape of the frame and appends to the
  output**, and rendering a template leaves the output as it was.
-/

namespace Templating

open Eval

/-! ## The shape of the frame -/

/-- Two frames with the same number of scopes, at the same depth and with the same limit. -/
structure Frame.SameShape (a b : Frame) : Prop where
  scopes : b.env.depth = a.env.depth
  depth : b.depth = a.depth
  maxDepth : b.maxDepth = a.maxDepth

theorem Frame.SameShape.refl (a : Frame) : a.SameShape a := ⟨rfl, rfl, rfl⟩

theorem Frame.SameShape.trans (a b c : Frame) (hab : a.SameShape b) (hbc : b.SameShape c) :
    a.SameShape c :=
  ⟨hbc.scopes.trans hab.scopes, hbc.depth.trans hab.depth, hbc.maxDepth.trans hab.maxDepth⟩

namespace Environment

theorem depth_pop_of_push {e f : Environment} (h : f.depth = e.push.depth) :
    f.pop.depth = e.depth := by
  obtain ⟨inner, outer⟩ := f
  -- There is a scope outside the innermost one, since `e` has one.
  cases outer with
  | nil => exact absurd h (by simp [depth, scopes, push])
  | cons scope outer => exact Nat.succ.inj h

theorem length_removeFrom {name : String} {scopes : List Scope} {value : Value}
    {rest : List Scope} (h : removeFrom name scopes = some (value, rest)) :
    rest.length = scopes.length := by
  induction scopes generalizing rest with
  | nil => cases h
  | cons scope outer ih =>
    unfold removeFrom at h
    split at h
    · cases h
      rfl
    · obtain ⟨⟨_, outer'⟩, houter, hrest⟩ := Option.map_eq_some_iff.1 h
      cases hrest
      exact congrArg Nat.succ (ih houter)

/-- The removal of a variable leaves all scopes, even empty ones. -/
theorem depth_remove? {e e' : Environment} {name : String} {value : Value}
    (h : e.remove? name = some (value, e')) : e'.depth = e.depth := by
  unfold remove? at h
  split at h
  · cases h
    rfl
  · obtain ⟨⟨_, outer⟩, houter, he⟩ := Option.map_eq_some_iff.1 h
    cases he
    exact congrArg Nat.succ (length_removeFrom houter)

end Environment

namespace Eval

/-- The actions on variables keep the number of scopes. -/
theorem Moves.binding : Binding (Moves Frame.SameShape) where
  bindVar name v := fun m _ => ⟨Environment.depth_bind .., rfl, rfl⟩
  removeVar name := by
    intro m _
    unfold removeVar
    rw [bind_ok (x := env) (t := m) rfl]
    cases h : m.frame.env.remove? name with
    | none => exact .refl _
    | some found =>
      obtain ⟨value, e⟩ := found
      exact ⟨Environment.depth_remove? h, rfl, rfl⟩
  scope {α x y} hx := by
    intro m hended
    have hinner := hx _ hended.of_inScope
    obtain ⟨r, h⟩ := hended.of_inScope.attempt
    rw [inScope_ok h]
    have hscopes := Environment.depth_pop_of_push hinner.scopes
    cases r <;> exact ⟨hscopes, hinner.depth, hinner.maxDepth⟩

/-! ## The output -/

variable {α β : Type}

/-- An outcome with another output. -/
def Outcome.withOutput (output : Array String) : Outcome α → Outcome α
  | .ok a m => .ok a { m with output }
  | .error e m => .error e { m with output }

theorem Outcome.output_of_eq {r : Outcome α} {output : Array String}
    (h : r = r.withOutput output) : r.machine.output = output := by
  rw [h]
  cases r <;> rfl

/-- An action that appends some pieces to the output. What it appends, how it ends and what else it
does is the same whatever the output holds before. -/
def Appends : Relation := fun _ x _ => ∀ m, Outcome.Ended (x m) →
  ∃ added : Array String, ∀ output, x { m with output } = Outcome.withOutput (output ++ added) (x m)

/-- An action that leaves the output as it is and does the same whatever it holds. -/
def Silent (x : Eval α) : Prop := ∀ m, Outcome.Ended (x m) →
  ∀ output, x { m with output } = Outcome.withOutput output (x m)

theorem Silent.appends {x y : Eval α} (h : Silent x) : Appends x y := by
  intro m hended
  refine ⟨#[], fun output => ?_⟩
  rw [Array.append_empty]
  exact h m hended output

theorem Silent.captured (x : Eval Unit) : Silent (captured x) := by
  intro m hended output
  -- The inner run begins with an empty output, whatever the outer one holds.
  obtain ⟨r, h⟩ := hended.of_captured.attempt
  rw [captured_ok h, captured_ok (m := { m with output }) h]
  cases r <;> rfl

theorem Silent.deeper (vars : Scope) (x : Eval α) : Silent (deeper vars x) := by
  intro m hended output
  by_cases hlimit : m.frame.maxDepth ≤ m.frame.depth
  · rw [deeper_refused hlimit, deeper_refused (m := { m with output }) hlimit]
    rfl
  · obtain ⟨r, h⟩ := (hended.of_deeper hlimit).attempt
    rw [deeper_ok hlimit h, deeper_ok (m := { m with output }) hlimit h]
    cases r <;> rfl

theorem Silent.resume (handle : Handle) (g : Generator) (x : Eval (Option Value)) :
    Silent (resume handle g x) := by
  intro m hended output
  obtain ⟨r, h⟩ := hended.of_resume.attempt
  rw [resume_ok h, resume_ok (m := { m with output }) h]
  cases r <;> rfl

namespace Appends

section

variable {x y : Eval α} {k l : α → Eval β}

theorem bind (hx : Appends x y) (hk : ∀ a, Appends (k a) (l a)) :
    Appends (x >>= k) (y >>= l) := by
  intro m hended
  obtain ⟨first, hfirst⟩ := hx m hended.of_bind
  cases h : x m with
  | error e m' =>
    refine ⟨first, fun output => ?_⟩
    have hrun := hfirst output
    rw [h] at hrun
    rw [bind_error h, bind_error hrun]
    rfl
  | ok a m' =>
    rw [bind_ok h] at hended
    -- The second action appends the same pieces after those of the first one.
    obtain ⟨second, hsecond⟩ := hk a m' hended
    refine ⟨first ++ second, fun output => ?_⟩
    have hrun := hfirst output
    rw [h] at hrun
    rw [bind_ok h, bind_ok hrun, ← Array.append_assoc]
    exact hsecond (output ++ first)

theorem attempt (hx : Appends x y) : Appends (attempt x) (Eval.attempt y) := by
  intro m hended
  obtain ⟨added, hadded⟩ := hx m hended.of_attempt
  refine ⟨added, fun output => ?_⟩
  have hrun := hadded output
  cases h : x m with
  | ok a m' =>
    rw [h] at hrun
    rw [attempt_ok h, attempt_ok hrun]
    rfl
  | error e m' =>
    rw [h] at hrun
    cases e with
    | failed e =>
      rw [attempt_failed h, attempt_failed hrun]
      rfl
    | exhausted =>
      rw [attempt_exhausted h, attempt_exhausted hrun]
      rfl

theorem mapError (f : EvalError → EvalError) (hx : Appends x y) :
    Appends (mapError f x) (Eval.mapError f y) := by
  intro m hended
  obtain ⟨added, hadded⟩ := hx m hended.of_mapError
  refine ⟨added, fun output => ?_⟩
  have hrun := hadded output
  unfold Eval.mapError
  cases h : x m with
  | ok a m' =>
    rw [h] at hrun
    rw [hrun]
    rfl
  | error e m' =>
    rw [h] at hrun
    rw [hrun]
    cases e <;> rfl

end

variable {x y : Eval α}

/-- An action on something else than the output. -/
theorem of_silent (h : ∀ m output, x { m with output } = Outcome.withOutput output (x m)) :
    Appends x y :=
  Silent.appends fun m _ => h m

theorem compatible : Compatible Appends where
  pure a := of_silent fun _ _ => rfl
  bind := bind
  raise _ := of_silent fun _ _ => rfl
  signal s := of_silent fun _ _ => rfl
  exhaust := of_silent fun _ _ => rfl
  env := of_silent fun _ _ => rfl
  clock := of_silent fun _ _ => rfl
  draw bound := of_silent fun _ _ => rfl
  load text := by
    refine of_silent fun m output => ?_
    rw [load_apply, load_apply]
    cases Wire.loads? text m.fresh <;> rfl
  allocate _ := of_silent fun _ _ => rfl
  suspend source comp item := of_silent fun _ _ => rfl
  emit text := fun m _ => ⟨#[text], fun output => rfl⟩
  splice output := fun m _ => ⟨output, fun _ => rfl⟩
  locating location := mapError _
  round {x y} hx := by
    refine bind hx.attempt fun r => of_silent fun m output => ?_
    rcases Evaluator.afterRound_cases r with ⟨walk, h⟩ | ⟨e, -, -, h⟩ <;> rw [h] <;> rfl

theorem stored : Stored (fun _ => True) id Appends where
  cell := by
    intro α handle k l hk m hended
    exact hk m.store[handle]? (fun c _ => c.cursor.frameHolds_true) m hended
  setCell handle _ _ := of_silent fun _ _ => rfl
  restoring := by
    intro α x y handle c _ hx
    refine bind hx.attempt fun r => of_silent fun m output => ?_
    cases r <;> rfl

theorem binding : Binding Appends where
  bindVar name v := of_silent fun _ _ => rfl
  removeVar name := by
    refine of_silent fun m output => ?_
    unfold removeVar
    rw [bind_ok (x := env) (t := m) rfl, bind_ok (x := env) (s := { m with output }) rfl]
    cases m.frame.env.remove? name <;> rfl
  scope {α x y} hx := by
    refine bind (of_silent fun _ _ => rfl) fun _ => bind hx.attempt fun r => ?_
    refine bind (of_silent fun _ _ => rfl) fun _ => of_silent fun m output => ?_
    cases r <;> rfl

end Appends

/-! ## Evaluation -/

/-- A relation that evaluation keeps, if it holds of every action in a frame of its own. -/
theorem Compatible.within {R : Relation} (hR : Compatible R) (hstored : Stored (fun _ => True) id R)
    (hbinding : Binding R)
    (hdeeper : ∀ {α : Type} vars (x : Eval α), R (deeper vars x) (deeper vars x))
    (hresume : ∀ handle g x, R (resume handle g x) (resume handle g x)) (budget : Nat) :
    (∀ node, R ((Evaluator.within budget).eval node) ((Evaluator.within budget).eval node)) ∧
      (Evaluator.within budget).Related R (.within budget) := by
  induction budget with
  | zero => exact ⟨fun _ => hR.exhaust, fun _ => hR.exhaust, rfl⟩
  | succ budget ih =>
    obtain ⟨heval, h⟩ := ih
    refine ⟨fun node => ?_, fun handle => ?_, rfl⟩
    -- A template may be anything, and so may the items of a generator expression: both run in a
    -- frame of their own.
    · exact hR.evalNode h heval hbinding fun _ t vars => hdeeper vars _
    · exact hR.advanceCell hstored h (fun handle g _ => hresume handle g _) handle

end Eval

/-- The evaluators of all budgets keep the shape of the frame. -/
theorem Evaluator.within_sameShape (budget : Nat) (node : Node) :
    Moves Frame.SameShape ((within budget).eval node) ((within budget).eval node) :=
  ((Moves.compatible .refl .trans).within (Moves.stored .refl .trans) Moves.binding
    (fun vars x => .deeper .refl vars x x) (fun handle g x => .resume .refl handle g g x x)
    budget).1 node

/-- The evaluators of all budgets append to the output. -/
theorem Evaluator.within_appends (budget : Nat) (node : Node) :
    Appends ((within budget).eval node) ((within budget).eval node) :=
  (Appends.compatible.within Appends.stored Appends.binding
    (fun vars x => (Silent.deeper vars x).appends)
    (fun handle g x => (Silent.resume handle g x).appends) budget).1 node

/-- **The evaluation of a node keeps the shape of the frame and appends to the output**, whether it
ends with a value, an error or a signal. What the output held before changes neither the outcome nor
what is appended. Rendering a template leaves the output as it was. -/
theorem evaluation_appends (budget : Nat) (m : Machine) :
    (∀ node, Outcome.Ended ((Evaluator.within budget).eval node m) →
      m.frame.SameShape (Outcome.machine ((Evaluator.within budget).eval node m)).frame ∧
      ∃ added, (Outcome.machine ((Evaluator.within budget).eval node m)).output = m.output ++ added ∧
        ∀ output, (Evaluator.within budget).eval node { m with output } =
          Outcome.withOutput (output ++ added) ((Evaluator.within budget).eval node m)) ∧
    ∀ t, Outcome.Ended ((Evaluator.within budget).render t m) →
      m.frame.SameShape (Outcome.machine ((Evaluator.within budget).render t m)).frame ∧
      (Outcome.machine ((Evaluator.within budget).render t m)).output = m.output ∧
      ∀ output, (Evaluator.within budget).render t { m with output } =
        Outcome.withOutput output ((Evaluator.within budget).render t m) := by
  refine ⟨fun node hended => ?_, fun t hended => ?_⟩
  · refine ⟨Evaluator.within_sameShape budget node m hended, ?_⟩
    obtain ⟨added, hadded⟩ := Evaluator.within_appends budget node m hended
    -- What is appended shows in the run from the output that is there.
    exact ⟨added, Outcome.output_of_eq (hadded m.output), hadded⟩
  · have hblock : Moves Frame.SameShape ((Evaluator.within budget).exec t.block)
        ((Evaluator.within budget).exec t.block) :=
      (Moves.compatible .refl .trans).exec fun node _ => Evaluator.within_sameShape budget node
    have hsilent := Silent.captured ((Evaluator.within budget).exec t.block) m hended
    exact ⟨hblock.captured m hended, Outcome.output_of_eq (hsilent m.output), hsilent⟩

/-- A loop that prints an item and then fails at an unknown variable. Its item is appended to the
output, but not if the loop is in a template that is rendered. -/
theorem evaluation_appends_failing_loop :
    let loop : Node := ⟨0, .ofText "" .empty, .forLoop (.name "x")
      ⟨1, .ofText "" .empty, .list [⟨2, .ofText "" .empty, .const (.int 7)⟩]⟩
      ⟨none, [⟨3, .ofText "" .empty, .print ⟨4, .ofText "" .empty, .var "x"⟩⟩,
        ⟨5, .ofText "" .empty, .print ⟨6, .ofText "" .empty, .var "y"⟩⟩]⟩⟩
    let t : Template := ⟨7, none, "", none, "", "", ⟨none, [loop]⟩⟩
    let m := { Machine.start 8 0 .first (.ofVars [] 2) with output := #["before"] }
    Outcome.Ended ((Evaluator.within 5).eval loop m) ∧
      (∃ added, (Outcome.machine ((Evaluator.within 5).eval loop m)).output =
        #["before"] ++ added) ∧
      Outcome.Ended ((Evaluator.within 5).render t m) ∧
      (Outcome.machine ((Evaluator.within 5).render t m)).output = #["before"] := by
  intro loop t m
  have hloop : Outcome.Ended ((Evaluator.within 5).eval loop m) := trivial
  have hrender : Outcome.Ended ((Evaluator.within 5).render t m) := trivial
  obtain ⟨heval, hrenders⟩ := evaluation_appends 5 m
  obtain ⟨-, added, hadded, -⟩ := heval loop hloop
  exact ⟨hloop, ⟨added, hadded⟩, hrender, (hrenders t hrender).2.1⟩

end Templating
