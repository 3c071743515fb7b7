import Templating.Eval.Run
import Templating.Proofs.Eval.Outcome
import Templating.Proofs.Tracked.Basic

/-!
# Runs of computations

A statement about the runs of a computation from a machine is made for one evaluator, or for the
evaluators of all budgets that are large enough. What follows from it for computations that are put
together is the same in both cases.

* `Runs`: what a way to speak about runs has to be closed under.
* `Ends`, `Ends.runs`: **a run that ends**, with an evaluator and in the same way with another one.
* `Halts`, `Halts.runs`: **a computation that ends**, in the same way with all large budgets.
* `Runs.captured`, `Runs.deeper`, `Runs.stepGenerator`, `Runs.advanceCell`: what happens in a frame
  of its own, and what is put back afterwards.
-/

namespace Templating

open Eval

/-- A way to say that runs of a computation from a machine end in some way. -/
abbrev Running := ∀ ⦃α : Type⦄, Program α → Machine → (Outcome α → Prop) → Prop

/-- What can be said of a computation follows from what can be said of its parts. -/
structure Runs (T : Running) : Prop where
  mono : ∀ {α : Type} {x : Program α} {m : Machine} {Q P : Outcome α → Prop}, T x m Q →
    (∀ r, Q r → P r) → T x m P
  action : ∀ {α : Type} {x : Eval α} {m : Machine} {Q : Outcome α → Prop},
    Outcome.Ended (x m) → Q (x m) → T (fun _ => x) m Q
  bind : ∀ {α β : Type} {x : Program α} {k : α → Program β} {m : Machine} {Q : Outcome α → Prop}
    {P : Outcome β → Prop}, T x m Q → (∀ a m', Q (.ok a m') → T (k a) m' P) →
    (∀ e m', Q (.error (.failed e) m') → P (.error (.failed e) m')) →
    T (fun ev => x ev >>= fun a => k a ev) m P
  attempt : ∀ {α : Type} {x : Program α} {m : Machine} {Q : Outcome α → Prop}
    {P : Outcome (Except EvalError α) → Prop}, T x m Q →
    (∀ a m', Q (.ok a m') → P (.ok (.ok a) m')) →
    (∀ e m', Q (.error (.failed e) m') → P (.ok (.error e) m')) →
    T (fun ev => attempt (x ev)) m P
  /-- What holds of all outcomes of a computation may be used. -/
  always : ∀ {α : Type} {x : Program α} {m : Machine} {Q P : Outcome α → Prop}, T x m Q →
    (∀ ev, P (x ev m)) → T x m fun r => Q r ∧ P r
  /-- A computation that does what another one does from another machine. -/
  transport : ∀ {α : Type} {x y : Program α} {m n : Machine} {Q : Outcome α → Prop},
    (∀ ev, x ev m = y ev n) → T y n Q → T x m Q

/-- A computation with a bound for which a higher bound makes no difference once it has ended. -/
def Extends {α : Type} (x : Nat → Program α) : Prop :=
  ∀ n n' (ev : Evaluator) (m : Machine), n ≤ n' → Outcome.Ended (x n ev m) →
    x n' ev m = x n ev m

/-- What can be said of runs that may exhaust their budget. -/
structure MayExhaust (T : Running) : Prop where
  exhaust : ∀ {α : Type} {m : Machine} {Q : Outcome α → Prop}, T (fun _ => throw .exhausted) m Q
  budget : ∀ {α : Type} {x : Nat → Program α} {m : Machine} {Q : Outcome α → Prop}, Extends x →
    (∀ n, T (x n) m Q) → T (fun ev => x ev.budget ev) m Q

/-- If a run with an evaluator ends, it does so in a certain way, and a run with another evaluator
does the same. -/
def Ends (ev ev' : Evaluator) : Running := fun _ x m Q =>
  Outcome.Ended (x ev m) → x ev' m = x ev m ∧ Q (x ev m)

/-- The runs with all budgets that are large enough end in the same way. -/
def Halts : Running := fun _ x m Q =>
  ∃ n r, (∀ b, n ≤ b → x (.within b) m = r) ∧ Outcome.Ended r ∧ Q r

theorem Ends.runs (ev ev' : Evaluator) : Runs (Ends ev ev') where
  mono hx hQ hended := ⟨(hx hended).1, hQ _ (hx hended).2⟩
  action hended hQ _ := ⟨rfl, hQ⟩
  bind {α β x k m Q P} hx hk herror := by
    intro hended
    dsimp only at hended ⊢
    obtain ⟨heq, hQ⟩ := hx hended.of_bind
    cases h : x ev m with
    | ok a m' =>
      rw [h] at heq hQ
      rw [bind_ok h] at hended ⊢
      rw [bind_ok heq]
      exact hk a m' hQ hended
    | error e m' =>
      rw [h] at heq hQ
      rw [bind_error h] at hended ⊢
      rw [bind_error heq]
      cases e with
      | failed e => exact ⟨rfl, herror e m' hQ⟩
      | exhausted => exact hended.elim
  attempt {α x m Q P} hx hok herror := by
    intro hended
    dsimp only at hended ⊢
    obtain ⟨heq, hQ⟩ := hx hended.of_attempt
    cases h : x ev m with
    | ok a m' =>
      rw [h] at heq hQ
      rw [attempt_ok h, attempt_ok heq]
      exact ⟨rfl, hok a m' hQ⟩
    | error e m' =>
      rw [h] at heq hQ
      cases e with
      | failed e =>
        rw [attempt_failed h, attempt_failed heq]
        exact ⟨rfl, herror e m' hQ⟩
      | exhausted =>
        rw [attempt_exhausted h] at hended
        exact hended.elim
  always hx hP hended := ⟨(hx hended).1, (hx hended).2, hP ev⟩
  transport heq hy := by
    intro hended
    rw [heq ev] at hended ⊢
    rw [heq ev']
    exact hy hended

/-- Runs with another evaluator whose budget may be larger. -/
theorem Ends.mayExhaust {ev ev' : Evaluator} (hbudget : ev.budget ≤ ev'.budget) :
    MayExhaust (Ends ev ev') where
  exhaust hended := hended.elim
  budget {α x m Q} hextends hx := by
    intro hended
    dsimp only at hended ⊢
    obtain ⟨heq, hQ⟩ := hx ev.budget hended
    refine ⟨(hextends _ _ ev' m hbudget ?_).trans heq, hQ⟩
    rwa [heq]

theorem Halts.runs : Runs Halts where
  mono := by
    rintro α x m Q P ⟨n, r, heq, hended, hr⟩ hQ
    exact ⟨n, r, heq, hended, hQ r hr⟩
  action hended hQ := ⟨0, _, fun _ _ => rfl, hended, hQ⟩
  bind {α β x k m Q P} hx hk herror := by
    obtain ⟨n, r, heq, hended, hQ⟩ := hx
    cases r with
    | ok a m' =>
      obtain ⟨n', r', heq', hended', hP⟩ := hk a m' hQ
      refine ⟨max n n', r', fun b hb => ?_, hended', hP⟩
      exact (bind_ok (heq b (by omega))).trans (heq' b (by omega))
    | error e m' =>
      cases e with
      | failed e => exact ⟨n, _, fun b hb => bind_error (heq b hb), trivial, herror e m' hQ⟩
      | exhausted => exact hended.elim
  attempt {α x m Q P} hx hok herror := by
    obtain ⟨n, r, heq, hended, hQ⟩ := hx
    cases r with
    | ok a m' => exact ⟨n, _, fun b hb => attempt_ok (heq b hb), trivial, hok a m' hQ⟩
    | error e m' =>
      cases e with
      | failed e => exact ⟨n, _, fun b hb => attempt_failed (heq b hb), trivial, herror e m' hQ⟩
      | exhausted => exact hended.elim
  always {α x m Q P} hx hP := by
    obtain ⟨n, r, heq, hended, hQ⟩ := hx
    exact ⟨n, r, heq, hended, hQ, heq n le_rfl ▸ hP _⟩
  transport heq hy := by
    obtain ⟨n, r, hr, hended, hQ⟩ := hy
    exact ⟨n, r, fun b hb => (heq _).trans (hr b hb), hended, hQ⟩

/-- A computation that ends within some bound ends if its bound is the budget. -/
theorem Halts.budget {α : Type} {x : Nat → Program α} {m : Machine} {Q : Outcome α → Prop}
    (hextends : Extends x) {n : Nat} (h : Halts (x n) m Q) :
    Halts (fun ev => x ev.budget ev) m Q := by
  obtain ⟨k, r, heq, hended, hQ⟩ := h
  refine ⟨max k n, r, fun b hb => ?_, hended, hQ⟩
  have hrun := heq b (by omega)
  rw [← hrun]
  exact hextends n b _ m (by omega) (hrun ▸ hended)

/-- The evaluation of a node ends if it ends with the calls one level deeper. -/
theorem Halts.eval {node : Node} {m : Machine} {Q : Outcome Value → Prop}
    (h : Halts (fun ev => ev.evalNode node) m Q) : Halts (fun ev => ev.eval node) m Q := by
  obtain ⟨n, r, heq, hended, hQ⟩ := h
  refine ⟨n + 1, r, fun b hb => ?_, hended, hQ⟩
  obtain ⟨b, rfl⟩ : ∃ k, b = k + 1 := ⟨b - 1, by omega⟩
  exact heq b (by omega)

/-- The advance of an iterator ends if it ends with the calls one level deeper. -/
theorem Halts.advance {handle : Handle} {m : Machine} {Q : Outcome (Option Value) → Prop}
    (h : Halts (fun ev => ev.advanceCell handle) m Q) :
    Halts (fun ev => ev.advance handle) m Q := by
  obtain ⟨n, r, heq, hended, hQ⟩ := h
  refine ⟨n + 1, r, fun b hb => ?_, hended, hQ⟩
  obtain ⟨b, rfl⟩ : ∃ k, b = k + 1 := ⟨b - 1, by omega⟩
  exact heq b (by omega)

/-- What follows a part of a run that ends may do something else, where it does the same. -/
theorem Eval.Outcome.Ended.bind_congr {α β : Type} {x : Eval α} {k l : α → Eval β} {m : Machine}
    (h : Outcome.Ended ((x >>= k) m))
    (hkl : ∀ a m', x m = .ok a m' → Outcome.Ended (k a m') → l a m' = k a m') :
    (x >>= l) m = (x >>= k) m := by
  cases hx : x m with
  | ok a m' =>
    rw [bind_ok hx] at h ⊢
    rw [bind_ok hx]
    exact hkl a m' hx h
  | error e m' => rw [bind_error hx, bind_error hx]

/-- A loop that ends does the same if it may take more rounds. -/
theorem Evaluator.extends_foldWithin {α : Type} (h : Handle)
    (step : α → Value → Program (Walk α)) (a : α) :
    Extends fun rounds ev => ev.foldWithin h (fun a v => step a v ev) rounds a := by
  intro n n' ev m hle hended
  induction n generalizing n' a m with
  | zero => exact hended.elim
  | succ n ih =>
    obtain ⟨n', rfl⟩ : ∃ k, n' = k + 1 := ⟨n' - 1, by omega⟩
    refine Outcome.Ended.bind_congr hended fun item m₁ _ hended => ?_
    cases item with
    | none => rfl
    | some v =>
      refine Outcome.Ended.bind_congr hended fun walk m₂ _ hended => ?_
      cases walk with
      | on a => exact ih a n' m₂ (by omega) hended
      | done a => rfl

/-! ## Actions that return their errors -/

/-- An action that returns errors and has none itself. -/
def NeverFails {α : Type} (x : Eval α) : Prop := ∀ m e m', x m ≠ .error (.failed e) m'

theorem NeverFails.attempt {α : Type} (x : Eval α) : NeverFails (attempt x) := by
  intro m e m' h
  unfold Eval.attempt at h
  cases hx : x m with
  | ok a m'' =>
    rw [hx] at h
    cases h
  | error e m'' =>
    rw [hx] at h
    cases e <;> cases h

theorem NeverFails.bind {α β : Type} {x : Eval α} {k : α → Eval β} (hx : NeverFails x)
    (hk : ∀ a, NeverFails (k a)) : NeverFails (x >>= k) := by
  intro m e m' h
  rw [bind_apply] at h
  cases hxm : x m with
  | ok a m'' =>
    rw [hxm] at h
    exact hk a m'' e m' h
  | error e m'' =>
    rw [hxm] at h
    cases h
    exact hx m _ _ hxm

theorem NeverFails.inFrame {α : Type} (frame : Frame) (x : Eval α) :
    NeverFails (inFrame frame x) := by
  have hmodify {β : Type} (f : Machine → β × Machine) : NeverFails (modifyGet f : Eval β) :=
    fun _ _ _ h => nomatch h
  have hpure {β : Type} (b : β) : NeverFails (Pure.pure b) := fun _ _ _ h => nomatch h
  have hcapture : NeverFails (capture x) :=
    (hmodify _).bind fun _ => (NeverFails.attempt x).bind fun _ => (hmodify _).bind fun _ => hpure _
  exact (hmodify _).bind fun _ => hcapture.bind fun _ => (hmodify _).bind fun _ => hpure _

/-- A step of an iterator does not fail. It returns its error along with the position. -/
theorem Evaluator.step_ne_failed (ev : Evaluator) (cursor : Cursor) (m : Machine) (e : EvalError)
    (m' : Machine) : ev.step cursor m ≠ .error (.failed e) m' := by
  have hpure {α : Type} (a : α) : NeverFails (Pure.pure a) := fun _ _ _ h => nomatch h
  have hflagged (inner : Handle) (markers : Markers) (index : Int64) (first : Bool)
      (current : Option Value) : NeverFails (ev.stepFlagged inner markers index first current) := by
    cases current with
    | none => exact hpure _
    | some item =>
      unfold stepFlagged
      dsimp only
      cases markers.last with
      | false => exact hpure _
      | true => exact (NeverFails.attempt _).bind fun r => by cases r <;> exact hpure _
  -- wherever a step may fail, the error is caught and comes back as a result
  suffices NeverFails (ev.step cursor) from this m e m'
  cases cursor with
  | items rest => cases rest <;> exact hpure _
  | range next step remaining => cases remaining <;> exact hpure _
  | enumerate inner index =>
    refine (NeverFails.attempt _).bind fun r => ?_
    rcases r with e | _ | item <;> exact hpure _
  | flagged inner markers index first next =>
    cases next with
    | unknown =>
      refine (NeverFails.attempt _).bind fun r => ?_
      cases r with
      | error e => exact hpure _
      | ok current => exact hflagged inner markers index first current
    | pending item => exact hflagged inner markers index first (some item)
    | ended => exact hpure _
  | zip inners =>
    cases inners with
    | nil => exact hpure _
    | cons inner inners => exact (NeverFails.attempt _).bind fun r => hpure _
  | generator g => exact (NeverFails.inFrame _ _).bind fun r => hpure _
  | supplied rest failure =>
    cases rest with
    | cons item rest => exact hpure _
    | nil => cases failure <;> exact hpure _
  | relay inner => exact (NeverFails.attempt _).bind fun r => hpure _

/-! ## Frames and outputs that are put back -/

namespace Runs

variable {T : Running} (hT : Runs T) {α : Type} {m : Machine} {Q : Outcome α → Prop}

include hT

/-- A result that is known, and what is done with it. -/
theorem bind_ok {β : Type} {x : Program α} {k : α → Program β} {P : Outcome β → Prop}
    (hx : T x m fun r => ∃ a m', r = .ok a m' ∧ T (k a) m' P) :
    T (fun ev => x ev >>= fun a => k a ev) m P := by
  refine hT.bind hx ?_ ?_
  · rintro a m' ⟨_, _, h, hk⟩
    cases h
    exact hk
  · rintro e m' ⟨_, _, h, _⟩
    cases h

theorem capture {x : Program α} {P : Outcome (Except EvalError α × Array String) → Prop}
    (hx : T x { m with output := #[] } Q)
    (hok : ∀ a m', Q (.ok a m') → P (.ok (.ok a, m'.output) { m' with output := m.output }))
    (herror : ∀ e m', Q (.error (.failed e) m') →
      P (.ok (.error e, m'.output) { m' with output := m.output })) :
    T (fun ev => Eval.capture (x ev)) m P := by
  refine hT.bind_ok (hT.action trivial ⟨m.output, { m with output := #[] }, rfl, ?_⟩)
  refine hT.bind_ok (hT.attempt hx (fun a m' h => ?_) fun e m' h => ?_)
  · exact ⟨_, _, rfl, hT.action trivial (hok a m' h)⟩
  · exact ⟨_, _, rfl, hT.action trivial (herror e m' h)⟩

/-- An action in another frame comes back to the frame and to the output. -/
theorem inFrame {x : Program α} {frame : Frame}
    {P : Outcome (Except EvalError α × Frame × Array String) → Prop}
    (hx : T x { m with frame, output := #[] } Q)
    (hok : ∀ a m', Q (.ok a m') → P (.ok (.ok a, m'.frame, m'.output)
      { m' with frame := m.frame, output := m.output }))
    (herror : ∀ e m', Q (.error (.failed e) m') → P (.ok (.error e, m'.frame, m'.output)
      { m' with frame := m.frame, output := m.output })) :
    T (fun ev => Eval.inFrame frame (x ev)) m P := by
  refine hT.bind_ok (hT.action trivial ⟨m.frame, { m with frame }, rfl, ?_⟩)
  refine hT.bind_ok (hT.capture hx (fun a m' h => ?_) fun e m' h => ?_)
  · exact ⟨_, _, rfl, hT.action trivial (hok a m' h)⟩
  · exact ⟨_, _, rfl, hT.action trivial (herror e m' h)⟩

/-- The output of a template, where a signal has become an error. -/
theorem captured {x : Program Unit} {Q : Outcome Unit → Prop} {P : Outcome (Array String) → Prop}
    (hx : T x { m with output := #[] } Q)
    (hok : ∀ m', Q (.ok () m') → P (.ok m'.output { m' with output := m.output }))
    (herror : ∀ e m', Q (.error (.failed e) m') →
      P (.error (.failed e.settle) { m' with output := m.output })) :
    T (fun ev => Eval.captured (x ev)) m P := by
  refine hT.bind_ok (hT.capture hx (fun _ m' h => ?_) fun e m' h => ?_)
  · exact ⟨_, _, rfl, hT.action trivial (hok m' h)⟩
  · exact ⟨_, _, rfl, hT.action trivial (herror e m' h)⟩

theorem deeper {x : Program α} {vars : Scope} {P : Outcome α → Prop}
    (hlimit : m.frame.maxDepth ≤ m.frame.depth →
      P (.error (.failed (.ofCause (.recursionLimit m.frame.maxDepth))) m))
    (hx : ¬ m.frame.maxDepth ≤ m.frame.depth →
      T x { m with frame := m.frame.below vars, output := #[] } Q)
    (hok : ∀ a m', Q (.ok a m') → P (.ok a { m' with frame := m.frame, output := m.output }))
    (herror : ∀ e m', Q (.error (.failed e) m') →
      P (.error (.failed e) { m' with frame := m.frame, output := m.output })) :
    T (fun ev => Eval.deeper vars (x ev)) m P := by
  refine hT.bind_ok (hT.action trivial ⟨m, m, rfl, ?_⟩)
  by_cases hrefused : m.frame.maxDepth ≤ m.frame.depth
  · simp only [hrefused, if_true]
    exact hT.action trivial (hlimit hrefused)
  · simp only [hrefused, if_false]
    refine hT.bind_ok (hT.inFrame (hx hrefused) (fun a m' h => ?_) fun e m' h => ?_)
    · exact ⟨_, _, rfl, hT.action trivial (hok a m' h)⟩
    · exact ⟨_, _, rfl, hT.action trivial (herror e m' h)⟩

/-- A step of a generator expression, which is an action in its frame. -/
theorem stepGenerator {g : Generator} {Q : Outcome (Option Value) → Prop}
    {P : Outcome (Cursor × Except EvalError (Option Value)) → Prop}
    (hx : T (fun ev => ev.generate g) { m with frame := g.frame, output := #[] } Q)
    (hok : ∀ item m', Q (.ok item m') → P (.ok (.generator { g with frame := m'.frame }, .ok item)
      { m' with frame := m.frame, output := m.output }))
    (herror : ∀ e m', Q (.error (.failed e) m') →
      P (.ok (.generator { g with frame := m'.frame }, .error e)
        { m' with frame := m.frame, output := m.output })) :
    T (fun ev => ev.step (.generator g)) m P := by
  refine hT.bind_ok (hT.inFrame hx (fun item m' h => ?_) fun e m' h => ?_)
  · exact ⟨_, _, rfl, hT.action trivial (hok item m' h)⟩
  · exact ⟨_, _, rfl, hT.action trivial (herror e m' h)⟩

theorem advanceCell_none {h : Handle} {P : Outcome (Option Value) → Prop}
    (hcell : m.store[h]? = none) (hP : P (.ok none m)) : T (fun ev => ev.advanceCell h) m P := by
  refine hT.bind_ok (hT.action trivial ⟨m, m, rfl, ?_⟩)
  simp only [hcell]
  exact hT.action trivial hP

/-- An advance of an iterator that is being advanced fails. -/
theorem advanceCell_busy {h : Handle} {cursor : Cursor} {P : Outcome (Option Value) → Prop}
    (hcell : m.store[h]? = some ⟨cursor, true⟩)
    (hP : P (.error (.failed (.ofCause .alreadyExecuting)) m)) :
    T (fun ev => ev.advanceCell h) m P := by
  refine hT.bind_ok (hT.action trivial ⟨m, m, rfl, ?_⟩)
  simp only [hcell]
  exact hT.action trivial hP

/-- An advance of an iterator that is not being advanced. -/
theorem advanceCell {h : Handle} {cursor : Cursor} (hcell : m.store[h]? = some ⟨cursor, false⟩)
    {Q : Outcome (Cursor × Except EvalError (Option Value)) → Prop}
    {P : Outcome (Option Value) → Prop}
    (hstep : T (fun ev => ev.step cursor)
      { m with store := m.store.setIfInBounds h ⟨cursor, true⟩ } Q)
    (hok : ∀ c item m', Q (.ok (c, .ok item) m') →
      P (.ok item { m' with store := m'.store.setIfInBounds h ⟨c, false⟩ }))
    (herror : ∀ c e m', Q (.ok (c, .error e) m') →
      P (.error (.failed e) { m' with store := m'.store.setIfInBounds h ⟨c, false⟩ })) :
    T (fun ev => ev.advanceCell h) m P := by
  refine hT.bind_ok (hT.action trivial ⟨m, m, rfl, ?_⟩)
  simp only [hcell]
  refine hT.bind_ok (hT.action trivial ⟨(), _, rfl, ?_⟩)
  have halways := hT.always (P := fun r => ∀ e m', r ≠ .error (.failed e) m') hstep fun ev e m' =>
    ev.step_ne_failed cursor _ e m'
  refine hT.bind halways ?_ ?_
  · rintro ⟨c, r⟩ m' ⟨h, -⟩
    refine hT.bind_ok (hT.action trivial ⟨(), _, rfl, ?_⟩)
    cases r with
    | ok item => exact hT.action trivial (hok c item m' h)
    | error e => exact hT.action trivial (herror c e m' h)
  · rintro e m' ⟨-, h⟩
    exact (h e m' rfl).elim

end Runs

end Templating
