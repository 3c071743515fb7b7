import Templating.Proofs.Compatible.Cursor
import Templating.Proofs.Compatible.Node
import Templating.Proofs.Eval.Outcome

/-!
# The limit of nested render calls

* `Machine.withLimit`: the same state with another limit.
* `Machine.At`: a state in which all frames have a limit and keep it.
* `Eval.Follows`: a run from such a state, and the run of other code with another limit. The second
  one does the same, unless the first one reaches its limit and fails.
* `Eval.Follows.compatible`, `Eval.Follows.deeper`, `Eval.Follows.resume`: evaluation keeps this.
-/

namespace Templating

open Eval

/-! ## States and limits -/

/-- A frame with another limit. -/
def Frame.withLimit (limit : Nat) (frame : Frame) : Frame := { frame with maxDepth := limit }

/-- A state with another limit, also for the generator expressions in the store. -/
def Machine.withLimit (limit : Nat) (m : Machine) : Machine :=
  { m with store := m.store.map (Cell.mapFrame (Frame.withLimit limit)),
           frame := m.frame.withLimit limit }

/-- A frame with some limit, which is at most that deep. -/
structure Frame.Within (limit : Nat) (frame : Frame) : Prop where
  maxDepth : frame.maxDepth = limit
  depth_le : frame.depth ≤ limit

/-- A state at some depth, in which all frames have some limit. -/
structure Machine.At (limit depth : Nat) (m : Machine) : Prop where
  depth : m.frame.depth = depth
  frame : m.frame.Within limit
  store : ∀ cell ∈ m.store, cell.cursor.FrameHolds (Frame.Within limit)

theorem Frame.Within.withLimit {limit : Nat} {frame : Frame} (h : frame.Within limit) :
    frame.withLimit limit = frame := by
  obtain ⟨env, depth, maxDepth⟩ := frame
  obtain ⟨rfl, -⟩ := h
  rfl

/-- A state in which all frames have a limit does not change with that limit. -/
theorem Machine.At.withLimit {limit depth : Nat} {m : Machine} (h : m.At limit depth) :
    m.withLimit limit = m := by
  have hcell : ∀ cell ∈ m.store, cell.mapFrame (Frame.withLimit limit) = cell := by
    intro cell hmem
    have hgood := h.store cell hmem
    obtain ⟨cursor, busy⟩ := cell
    -- Only the position of a generator expression has a frame.
    cases cursor with
    | generator g =>
      have hframe : g.frame.withLimit limit = g.frame := Frame.Within.withLimit hgood
      simp only [Cell.mapFrame, Cursor.mapFrame, Generator.mapFrame, hframe]
    | _ => rfl
  have hstore : m.store.map (Cell.mapFrame (Frame.withLimit limit)) = m.store :=
    (Array.map_congr_left hcell).trans (Array.map_id' _)
  unfold Machine.withLimit
  rw [hstore, h.frame.withLimit]

namespace Machine.At

variable {limit depth : Nat} {m : Machine}

/-- The state with other variables. -/
theorem modifyEnv (h : m.At limit depth) (env : Environment) :
    { m with frame := { m.frame with env } }.At limit depth :=
  ⟨h.depth, ⟨h.frame.maxDepth, h.frame.depth_le⟩, h.store⟩

/-- The state with another cell in the store. -/
theorem setCell (h : m.At limit depth) (handle : Handle) {cell : Cell}
    (hcell : cell.cursor.FrameHolds (Frame.Within limit)) :
    { m with store := m.store.setIfInBounds handle cell }.At limit depth := by
  refine ⟨h.depth, h.frame, fun c hc => ?_⟩
  rcases Array.mem_or_eq_of_mem_setIfInBounds hc with hold | rfl
  · exact h.store c hold
  · exact hcell

/-- The state with a further cell in the store. -/
theorem push (h : m.At limit depth) {cell : Cell}
    (hcell : cell.cursor.FrameHolds (Frame.Within limit)) :
    { m with store := m.store.push cell }.At limit depth := by
  refine ⟨h.depth, h.frame, fun c hc => ?_⟩
  rcases Array.mem_push.1 hc with hold | rfl
  · exact h.store c hold
  · exact hcell

end Machine.At

/-! ## Outcomes -/

/-- The error is that of the limit. -/
def EvalError.IsRecursion (e : EvalError) : Prop := e.category = .recursionError

/-- Only the evaluator fails for the limit, and no calculation does. -/
theorem Cause.IsPlain.category_ne {c : Cause} (h : c.IsPlain) : c.category ≠ .recursionError := by
  intro hlimit
  cases c with
  | recursionLimit limit => exact h
  | wire e => cases e <;> cases hlimit
  | _ => cases hlimit

/-- The evaluation ended for the limit. -/
def Abort.IsRecursion : Abort → Prop
  | .failed e => e.IsRecursion
  | .exhausted => False

/-- An attempt ended for the limit. -/
def Eval.Refused {α : Type} : Except EvalError α → Prop
  | .error e => e.IsRecursion
  | .ok _ => False

namespace Eval

variable {α β : Type}

/-- The run ended for the limit. -/
def Outcome.IsRecursion : Outcome α → Prop
  | .error e _ => e.IsRecursion
  | .ok _ _ => False

theorem Outcome.IsRecursion.ended {r : Outcome α} (h : r.IsRecursion) : r.Ended := by
  cases r with
  | ok a m => trivial
  | error e m =>
    cases e with
    | failed e => trivial
    | exhausted => exact h

theorem isRecursion_settle (r : Except EvalError α) (m : Machine) :
    Outcome.IsRecursion (settle r m) ↔ Refused r := by
  cases r <;> rfl

/-- An error that leaves all loops is that of the limit if it was so before. -/
theorem isRecursion_settled {e : EvalError} : e.settle.IsRecursion ↔ e.IsRecursion := by
  obtain ⟨cause, location⟩ := e
  cases cause with
  | signal s => cases s <;> exact iff_of_false (by intro h; cases h) (by intro h; cases h)
  | _ => rfl

/-- A loop passes on the error of the limit, which is no signal. -/
theorem isRecursion_afterRound (r : Except EvalError Unit) (m : Machine) :
    Outcome.IsRecursion (Evaluator.afterRound r m) ↔ Refused r := by
  cases r with
  | ok _ => rfl
  | error e =>
    obtain ⟨cause, location⟩ := e
    cases cause with
    | signal s => cases s <;> exact iff_of_false id (by intro h; cases h)
    | _ => rfl

/-- A run with one limit from some state, and a run with another limit. If the first one ends at its
limit, the depth has some property. Otherwise, or if the limits are the same, the second run ends
like the first one. -/
def Follows (limit limit' : Nat) (φ : Nat → Prop) : Relation := fun _ x y =>
  ∀ depth m, m.At limit depth → Outcome.Ended (x m) →
    (Outcome.IsRecursion (x m) → φ depth) ∧
    (limit = limit' ∨ ¬ Outcome.IsRecursion (x m) →
      (Outcome.machine (x m)).At limit depth ∧
      y (m.withLimit limit') = Outcome.mapMachine (Machine.withLimit limit') (x m))

namespace Follows

variable {limit limit' : Nat} {φ : Nat → Prop} {x y : Eval α} {k l : α → Eval β}

/-- An action that succeeds and stays at the same depth. -/
theorem of_ok
    (h : ∀ depth m, m.At limit depth → ∃ a m', x m = .ok a m' ∧ m'.At limit depth ∧
      y (m.withLimit limit') = .ok a (m'.withLimit limit')) : Follows limit limit' φ x y := by
  intro depth m hm _
  obtain ⟨a, m', hx, hm', hy⟩ := h depth m hm
  rw [hx, hy]
  exact ⟨False.elim, fun _ => ⟨hm', rfl⟩⟩

/-- A new iterator, with another limit if it is a generator expression. -/
theorem allocate {c c' : Cursor} (hgood : c.FrameHolds (Frame.Within limit))
    (hcell : Cell.mapFrame (Frame.withLimit limit') ⟨c, false⟩ = ⟨c', false⟩) :
    Follows limit limit' φ (allocate c) (Eval.allocate c') := by
  refine of_ok fun depth m hm => ⟨_, _, rfl, hm.push hgood, ?_⟩
  have hsize : (m.withLimit limit').store.size = m.store.size := Array.size_map
  have hpush : (m.store.push ⟨c, false⟩).map (Cell.mapFrame (Frame.withLimit limit')) =
      (m.withLimit limit').store.push ⟨c', false⟩ := by
    rw [Array.map_push, hcell]
    rfl
  rw [← hsize]
  exact congrArg (fun store => EStateM.Result.ok _ { m.withLimit limit' with store }) hpush.symm

theorem setCell (handle : Handle) {c : Cell} (hgood : c.cursor.FrameHolds (Frame.Within limit)) :
    Follows limit limit' φ (setCell handle c)
      (Eval.setCell handle (c.mapFrame (Frame.withLimit limit'))) := by
  refine of_ok fun depth m hm => ⟨(), _, rfl, hm.setCell handle hgood, ?_⟩
  exact congrArg (fun store => EStateM.Result.ok () { m.withLimit limit' with store })
    Array.map_setIfInBounds.symm

/-- An action that fails, but not for the limit. -/
theorem raise {c : Cause} (h : c.category ≠ .recursionError) :
    Follows limit limit' φ (raise c : Eval α) (Eval.raise c) :=
  fun _ _ hm _ => ⟨fun hrec => (h hrec).elim, fun _ => ⟨hm, rfl⟩⟩

theorem bind (hx : Follows limit limit' φ x y) (hk : ∀ a, Follows limit limit' φ (k a) (l a)) :
    Follows limit limit' φ (x >>= k) (y >>= l) := by
  intro depth m hm hended
  obtain ⟨hlimit, hsame⟩ := hx depth m hm hended.of_bind
  cases h : x m with
  | error e m' =>
    rw [h] at hlimit hsame
    rw [bind_error h]
    refine ⟨hlimit, fun hcase => ?_⟩
    obtain ⟨hm', hy⟩ := hsame hcase
    exact ⟨hm', bind_error hy⟩
  | ok a m' =>
    rw [h] at hsame
    rw [bind_ok h] at hended ⊢
    -- The first action did not end at its limit, so the other run has got to the same point.
    obtain ⟨hm', hy⟩ := hsame (.inr id)
    rw [bind_ok hy]
    exact hk a depth m' hm' hended

/-- An attempt, and what follows if it did not end at the limit. -/
theorem attempt (hx : Follows limit limit' φ x y) {depth : Nat} {m : Machine}
    (hm : m.At limit depth) (hended : Outcome.Ended (x m)) :
    ∃ r m', Eval.attempt x m = .ok r m' ∧ (Refused r → φ depth) ∧
      (limit = limit' ∨ ¬ Refused r → m'.At limit depth ∧
        Eval.attempt y (m.withLimit limit') = .ok r (m'.withLimit limit')) := by
  obtain ⟨hlimit, hsame⟩ := hx depth m hm hended
  cases h : x m with
  | ok a m' =>
    rw [h] at hlimit hsame
    refine ⟨.ok a, m', attempt_ok h, hlimit, fun hcase => ?_⟩
    obtain ⟨hm', hy⟩ := hsame hcase
    exact ⟨hm', attempt_ok hy⟩
  | error e m' =>
    rw [h] at hlimit hsame hended
    cases e with
    | failed e =>
      refine ⟨.error e, m', attempt_failed h, hlimit, fun hcase => ?_⟩
      obtain ⟨hm', hy⟩ := hsame hcase
      exact ⟨hm', attempt_failed hy⟩
    | exhausted => exact hended.elim

/-- An attempt whose failure for the limit is passed on. -/
theorem attempt_bind {k l : Except EvalError α → Eval β} (hx : Follows limit limit' φ x y)
    (hk : ∀ r, Follows limit limit' (fun _ => True) (k r) (l r))
    (hpass : ∀ r m, Outcome.IsRecursion (k r m) ↔ Refused r) :
    Follows limit limit' φ (Eval.attempt x >>= k) (Eval.attempt y >>= l) := by
  intro depth m hm hended
  obtain ⟨r, m', hattempt, hlimit, hsame⟩ := hx.attempt hm hended.of_bind.of_attempt
  rw [bind_ok hattempt] at hended ⊢
  refine ⟨fun hrec => hlimit ((hpass r _).1 hrec), fun hcase => ?_⟩
  -- If the whole did not fail for the limit, neither did the attempt.
  obtain ⟨hm', hy⟩ := hsame (hcase.imp_right (mt (hpass r _).2))
  rw [bind_ok hy]
  exact (hk r depth m' hm' hended).2 hcase

theorem settle (r : Except EvalError α) :
    Follows limit limit' (fun _ => True) (settle r) (Eval.settle r) := by
  intro depth m hm _
  refine ⟨fun _ => trivial, fun _ => ?_⟩
  cases r with
  | ok a => exact ⟨hm, rfl⟩
  | error e => exact ⟨hm, rfl⟩

theorem mapError {f : EvalError → EvalError} (hf : ∀ e, (f e).category = e.category)
    (hx : Follows limit limit' φ x y) :
    Follows limit limit' φ (mapError f x) (Eval.mapError f y) := by
  intro depth m hm hended
  obtain ⟨hlimit, hsame⟩ := hx depth m hm hended.of_mapError
  unfold Eval.mapError
  cases h : x m with
  | ok a m' =>
    rw [h] at hlimit hsame
    refine ⟨hlimit, fun hcase => ?_⟩
    obtain ⟨hm', hy⟩ := hsame hcase
    exact ⟨hm', by rw [hy]; rfl⟩
  | error e m' =>
    rw [h] at hlimit hsame
    cases e with
    | failed e =>
      have hrec : (f e).IsRecursion ↔ e.IsRecursion := by
        unfold EvalError.IsRecursion
        rw [hf]
      refine ⟨fun hlocated => hlimit (hrec.1 hlocated), fun hcase => ?_⟩
      obtain ⟨hm', hy⟩ := hsame (hcase.imp_right (mt hrec.2))
      exact ⟨hm', by rw [hy]; rfl⟩
    | exhausted =>
      refine ⟨hlimit, fun hcase => ?_⟩
      obtain ⟨hm', hy⟩ := hsame hcase
      exact ⟨hm', by rw [hy]; rfl⟩

theorem weaken {ψ : Nat → Prop} (h : ∀ depth, φ depth → ψ depth)
    (hx : Follows limit limit' φ x y) : Follows limit limit' ψ x y := by
  intro depth m hm hended
  obtain ⟨hlimit, hsame⟩ := hx depth m hm hended
  exact ⟨fun hrec => h depth (hlimit hrec), hsame⟩

end Follows

/-! ## The rules -/

namespace Follows

variable (limit limit' : Nat) (φ : Nat → Prop)

/-- **Evaluation with another limit follows**, apart from the actions in other frames. -/
theorem compatible : Compatible (Follows limit limit' φ) where
  pure a := of_ok fun _ m hm => ⟨a, m, rfl, hm, rfl⟩
  bind := bind
  raise hplain := raise hplain.category_ne
  signal s := raise (by intro h; cases h)
  exhaust := fun _ _ _ hended => hended.elim
  env := of_ok fun _ m hm => ⟨m.frame.env, m, rfl, hm, rfl⟩
  clock := of_ok fun _ m hm => ⟨m.clock, m, rfl, hm, rfl⟩
  draw bound := of_ok fun _ m hm =>
    ⟨_, { m with random := _ }, rfl, ⟨hm.depth, hm.frame, hm.store⟩, rfl⟩
  load text := by
    intro depth m hm _
    rw [load_apply, load_apply]
    cases h : Wire.loads? text m.fresh with
    | ok loaded =>
      have h' : Wire.loads? text (m.withLimit limit').fresh = .ok loaded := h
      rw [h']
      exact ⟨False.elim, fun _ => ⟨⟨hm.depth, hm.frame, hm.store⟩, rfl⟩⟩
    | error e =>
      have h' : Wire.loads? text (m.withLimit limit').fresh = .error e := h
      have hraise : (Cause.wire e).category ≠ .recursionError :=
        Cause.IsPlain.category_ne (c := .wire e) trivial
      rw [h']
      exact raise hraise depth m hm trivial
  allocate {cursor} hsimple := by
    have hcell : Cell.mapFrame (Frame.withLimit limit') ⟨cursor, false⟩ = ⟨cursor, false⟩ := by
      rw [Cell.mapFrame, Cursor.mapFrame_of_isSimple hsimple]
    exact allocate (hsimple.frameHolds _) hcell
  suspend source comp item := by
    intro depth m hm hended
    have hgood : Cursor.FrameHolds (Frame.Within limit)
        (.generator ⟨{ m.frame with env := m.frame.env.push }, source, comp.target,
          comp.condition, item⟩) := ⟨hm.frame.maxDepth, hm.frame.depth_le⟩
    exact allocate hgood rfl depth m hm trivial
  emit text := of_ok fun _ m hm =>
    ⟨(), { m with output := m.output.push text }, rfl, ⟨hm.depth, hm.frame, hm.store⟩, rfl⟩
  splice output := of_ok fun _ m hm =>
    ⟨(), { m with output := m.output ++ output }, rfl, ⟨hm.depth, hm.frame, hm.store⟩, rfl⟩
  locating location := mapError fun _ => rfl
  round {x y} hx := by
    refine hx.attempt_bind (fun r => ?_) isRecursion_afterRound
    rcases Evaluator.afterRound_cases r with ⟨walk, h⟩ | ⟨e, -, -, h⟩
    · rw [h]
      exact of_ok fun _ m hm => ⟨walk, m, rfl, hm, rfl⟩
    · rw [h]
      exact settle (.error e)

theorem binding : Binding (Follows limit limit' φ) where
  bindVar name v := of_ok fun _ m hm => ⟨(), _, rfl, hm.modifyEnv _, rfl⟩
  removeVar name := by
    refine (compatible limit limit' φ).bind (compatible limit limit' φ).env fun e => ?_
    cases e.remove? name with
    | none => exact raise (by intro h; cases h)
    | some found => exact of_ok fun _ m hm => ⟨(), _, rfl, hm.modifyEnv _, rfl⟩
  scope {α x y} hx := by
    have hpush : Follows limit limit' φ (modifyEnv Environment.push)
        (modifyEnv Environment.push) :=
      of_ok fun _ m hm => ⟨(), _, rfl, hm.modifyEnv _, rfl⟩
    have hpop : Follows limit limit' (fun _ => True) (modifyEnv Environment.pop)
        (modifyEnv Environment.pop) :=
      of_ok fun _ m hm => ⟨(), _, rfl, hm.modifyEnv _, rfl⟩
    exact hpush.bind fun _ => hx.attempt_bind (fun r => hpop.bind fun _ => settle r) fun r m =>
      isRecursion_settle r _

theorem stored : Stored (Frame.Within limit) (Frame.withLimit limit') (Follows limit limit' φ) where
  cell := by
    intro α handle k l hk depth m hm hended
    have hcell : (m.withLimit limit').store[handle]? =
        m.store[handle]?.map (Cell.mapFrame (Frame.withLimit limit')) := Array.getElem?_map ..
    have hgood : ∀ c ∈ m.store[handle]?, c.cursor.FrameHolds (Frame.Within limit) := by
      intro c hc
      exact hm.store c (Array.mem_of_getElem? hc)
    obtain ⟨hlimit, hsame⟩ := hk m.store[handle]? hgood depth m hm hended
    refine ⟨hlimit, fun hcase => ?_⟩
    rw [← hcell] at hsame
    exact hsame hcase
  setCell handle c hgood := setCell handle hgood
  restoring := by
    intro α x y handle c hgood hx
    refine hx.attempt_bind (fun r => ?_) fun r m => ?_
    · cases r with
      | ok a => exact settle (.ok a)
      | error e => exact (setCell handle hgood).bind fun _ => settle (.error e)
    · cases r <;> rfl

variable {limit limit' φ}

theorem captured {x y : Eval Unit} (hx : Follows limit limit' φ x y) :
    Follows limit limit' φ (captured x) (Eval.captured y) := by
  intro depth m hm hended
  have hm₀ : Machine.At limit depth { m with output := #[] } := ⟨hm.depth, hm.frame, hm.store⟩
  obtain ⟨r, m', hattempt, hlimit, hsame⟩ := hx.attempt hm₀ hended.of_captured
  rw [captured_ok hattempt]
  have hrec : Outcome.IsRecursion ((do Eval.settle (r.mapError EvalError.settle); return m'.output)
      { m' with output := m.output }) ↔ Refused r := by
    cases r with
    | ok a => rfl
    | error e => exact isRecursion_settled
  refine ⟨fun h => hlimit (hrec.1 h), fun hcase => ?_⟩
  obtain ⟨hm', hy⟩ := hsame (hcase.imp_right (mt hrec.2))
  rw [captured_ok (m := m.withLimit limit') hy]
  cases r <;> exact ⟨⟨hm'.depth, hm'.frame, hm'.store⟩, rfl⟩

/-- **An action one level deeper follows**, also if it is refused. -/
theorem deeper {α : Type} {x y : Eval α} {ψ : Nat → Prop} (hlimits : limit ≤ limit')
    (hφ : φ limit) (hψ : ∀ depth, ψ (depth + 1) → φ depth) (vars : Scope)
    (hx : Follows limit limit' ψ x y) :
    Follows limit limit' φ (deeper vars x) (Eval.deeper vars y) := by
  intro depth m hm hended
  have hmax := hm.frame.maxDepth
  have hdepth := hm.depth
  by_cases hlimit : m.frame.maxDepth ≤ m.frame.depth
  · -- A frame at the limit is refused, and with the same limit the other run is the same one.
    have hle := hm.frame.depth_le
    have heq : depth = limit := by omega
    rw [deeper_refused hlimit]
    refine ⟨fun _ => heq ▸ hφ, fun hcase => ?_⟩
    rcases hcase with rfl | hcase
    · rw [hm.withLimit, deeper_refused hlimit]
      exact ⟨hm, congrArg (EStateM.Result.error _) hm.withLimit.symm⟩
    · exact (hcase rfl).elim
  · have hlimit' : ¬ (m.withLimit limit').frame.maxDepth ≤ (m.withLimit limit').frame.depth := by
      change ¬ limit' ≤ m.frame.depth
      omega
    have hm₀ : Machine.At limit (depth + 1)
        { m with frame := m.frame.below vars, output := #[] } :=
      ⟨congrArg (· + 1) hdepth, ⟨hmax, show m.frame.depth + 1 ≤ limit by omega⟩, hm.store⟩
    obtain ⟨r, m', hattempt, hψr, hsame⟩ := hx.attempt hm₀ (hended.of_deeper hlimit)
    rw [deeper_ok hlimit hattempt]
    refine ⟨fun h => hψ depth (hψr ((isRecursion_settle r _).1 h)), fun hcase => ?_⟩
    obtain ⟨hm', hy⟩ := hsame (hcase.imp_right (mt (isRecursion_settle r _).2))
    rw [deeper_ok hlimit' hy]
    cases r <;> exact ⟨⟨hdepth, hm.frame, hm'.store⟩, rfl⟩

/-- A step of a generator expression, at whatever depth it was defined. -/
theorem resume {x y : Eval (Option Value)} (hφ : ∀ depth depth', φ depth → φ depth')
    (handle : Handle) {g : Generator} (hg : g.frame.Within limit)
    (hx : Follows limit limit' φ x y) :
    Follows limit limit' φ (resume handle g x)
      (Eval.resume handle (g.mapFrame (Frame.withLimit limit')) y) := by
  intro depth m hm hended
  have hm₀ : Machine.At limit g.frame.depth { m with frame := g.frame, output := #[] } :=
    ⟨rfl, hg, hm.store⟩
  obtain ⟨r, m', hattempt, hlimit, hsame⟩ := hx.attempt hm₀ hended.of_resume
  rw [resume_ok hattempt]
  -- The frame of the caller is back, and the one of the generator goes to the store.
  have hrec : Outcome.IsRecursion (finish handle (.generator { g with frame := m'.frame }, r)
      { m' with frame := m.frame, output := m.output }) ↔ Refused r := isRecursion_settle r _
  refine ⟨fun h => hφ _ _ (hlimit (hrec.1 h)), fun hcase => ?_⟩
  obtain ⟨hm', hy⟩ := hsame (hcase.imp_right (mt hrec.2))
  rw [resume_ok (m := m.withLimit limit') (g := g.mapFrame (Frame.withLimit limit')) hy]
  have hback : Machine.At limit depth { m' with frame := m.frame, output := m.output } :=
    ⟨hm.depth, hm.frame, hm'.store⟩
  have hfinish : Follows limit limit' (fun _ => True)
      (finish handle (.generator { g with frame := m'.frame }, r))
      (finish handle (.generator { g with frame := m'.frame.withLimit limit' }, r)) :=
    (setCell handle (c := ⟨.generator { g with frame := m'.frame }, false⟩) hm'.frame).bind
      fun _ => settle r
  have hsettled : Outcome.Ended (finish handle (.generator { g with frame := m'.frame }, r)
      { m' with frame := m.frame, output := m.output }) := by
    cases r <;> trivial
  exact (hfinish depth _ hback hsettled).2 hcase

/-! ## Evaluators -/

section

variable {ev ev' : Evaluator} {ψ : Nat → Prop}
  (heval : ∀ node, Follows limit limit' ψ (ev.eval node) (ev'.eval node))

include heval

theorem render (t : Template) : Follows limit limit' ψ (ev.render t) (ev'.render t) :=
  captured ((compatible limit limit' ψ).exec fun node _ => heval node)

theorem renderNested (hlimits : limit ≤ limit') (hφ : φ limit)
    (hψ : ∀ depth, ψ (depth + 1) → φ depth) (t : Template) (vars : Scope) :
    Follows limit limit' φ (ev.renderNested t vars) (ev'.renderNested t vars) :=
  deeper hlimits hφ hψ vars (render heval t)

theorem advanceCell (hψ : ∀ depth depth', ψ depth → ψ depth')
    (h : ev.Related (Follows limit limit' ψ) ev') (handle : Handle) :
    Follows limit limit' ψ (ev.advanceCell handle) (ev'.advanceCell handle) := by
  have hR := compatible limit limit' ψ
  refine hR.advanceCell (stored limit limit' ψ) h (fun handle g hg => ?_) handle
  exact resume hψ handle hg (hR.generate h heval (binding limit limit' ψ) g)

end

/-- A run that cannot reach its limit does not fail for it. -/
theorem not_isRecursion (hx : Follows limit limit' (fun _ => False) x y) {depth : Nat} {m : Machine}
    (hm : m.At limit depth) : ¬ Outcome.IsRecursion (x m) :=
  fun hrec => (hx depth m hm hrec.ended).1 hrec

/-- With the same limit the two runs end in the same way. -/
theorem same {φ : Nat → Prop} (hx : Follows limit limit φ x y) {depth : Nat} {m : Machine}
    (hm : m.At limit depth) (hended : Outcome.Ended (x m)) :
    y m = x m ∧ (Outcome.machine (x m)).At limit depth := by
  obtain ⟨hm', hy⟩ := (hx depth m hm hended).2 (.inl rfl)
  rw [hm.withLimit] at hy
  rw [hy]
  cases h : x m with
  | ok a m' =>
    rw [h] at hm'
    exact ⟨congrArg _ hm'.withLimit, hm'⟩
  | error e m' =>
    rw [h] at hm'
    exact ⟨congrArg _ hm'.withLimit, hm'⟩

end Follows

end Eval

end Templating
