import Templating.Proofs.Eval.Region

/-!
# Sessions

* `Session.Step`, `Session.Runs`: evaluations, renders and advances one after another, as a host
  makes them.
* `Session.Step.leads`: a step does what it does through evaluations, blocks and advances.
* `Session.Step.run_of_le`: **a larger budget makes no difference** once a step has ended.
-/

namespace Templating

open Carries (handles)

open Eval

/-- What a host does with an evaluation: it evaluates a node, runs a block, renders a template, or
advances an iterator. -/
inductive Session.Step where
  | eval (node : Node)
  | exec (block : Block)
  | render (t : Template)
  | advance (h : Handle)

/-- A machine, and the iterators that were obtained from it in results. -/
structure Session where
  machine : Machine
  obtained : List Handle

namespace Session

/-- Does a step, and returns the iterators in its result. -/
def Step.run (ev : Evaluator) : Step → Eval (List Handle)
  | .eval node => return handles (← ev.eval node)
  | .exec block => do
    ev.exec block
    return []
  | .render t => do
    let _ ← ev.render t
    return []
  | .advance h => return handles (← ev.advance h)

/-- The iterators that a host has: those it has obtained, and those in variables. -/
def Has (s : Session) (h : Handle) : Prop := h ∈ s.obtained ∨ h ∈ handles s.machine.frame

/-- The host advances iterators only that it has. -/
def Allows (s : Session) : Step → Prop
  | .advance h => s.Has h
  | _ => True

/-- A sequence of steps. A step that fails leaves the session as it was when it failed. -/
inductive Runs (s : Session) : Session → Prop where
  | refl : Runs s s
  | ok {t : Session} {step : Step} {budget : Nat} {hs : List Handle} {m : Machine} : Runs s t →
      t.Allows step → step.run (.within budget) t.machine = .ok hs m → Runs s ⟨m, hs ++ t.obtained⟩
  | failed {t : Session} {step : Step} {budget : Nat} {e : EvalError} {m : Machine} : Runs s t →
      t.Allows step → step.run (.within budget) t.machine = .error (.failed e) m →
      Runs s ⟨m, t.obtained⟩

/-- A step consists of an evaluation, of a block or of an advance. -/
theorem Step.leads {W : Type} [Preorder W] {L : StoreLogic W} {T : Running} (hT : Templating.Runs T)
    {w : W} (step : Step)
    (heval : ∀ node, L.Leads T L.Inside w (fun w v => ∀ h ∈ handles v, L.known w h)
      fun ev => ev.eval node)
    (hexec : ∀ block, L.Leads T L.Inside w (fun _ _ => True) fun ev => ev.exec block)
    (hadvance : ∀ h, step = .advance h → L.Leads T L.Inside w
      (fun w item => ∀ h ∈ handles item, L.known w h) fun ev => ev.advance h)
    (hsettle : ∀ e, L.permits e → L.permits e.settle) :
    L.Leads T L.Inside w (fun w hs => ∀ h ∈ hs, L.known w h) fun ev => step.run ev := by
  cases step with
  | eval node => exact .bind hT (heval node) fun _ _ _ h => .pure hT h
  | exec block => exact .bind hT (hexec block) fun _ _ _ _ => .pure hT (by simp)
  | render t =>
    have hrender : L.Leads T L.Inside w (fun _ _ => True) fun ev => ev.render t := by
      intro m hholds hinside
      refine hT.captured (hexec t.block { m with output := #[] } hholds hinside) ?_ ?_
      · rintro m' ⟨w', h⟩
        exact ⟨w', h.follows, h.holds, h.inside, trivial⟩
      · rintro e m' ⟨w', h⟩
        exact ⟨w', h.follows, h.holds, h.inside, hsettle e h.returns⟩
    exact .bind hT hrender fun _ _ _ _ => .pure hT (by simp)
  | advance h => exact .bind hT (hadvance h rfl) fun _ _ _ h => .pure hT h

/-- **A larger budget makes no difference** once a step has ended. -/
theorem Step.run_of_le (step : Step) {n n' : Nat} (hle : n ≤ n') {m : Machine}
    (hended : Outcome.Ended (step.run (.within n) m)) :
    step.run (.within n') m = step.run (.within n) m := by
  have hT : Templating.Runs (EndsWithin n n') := Ends.runs _ _
  have hkeeps := Region.keeps hle
  have hleads := step.leads hT (L := Region.anyLogic) (w := ∅)
    (fun node => (hkeeps.evalAny ∅ node).mono hT fun _ _ _ _ _ _ => trivial) (hkeeps.anyExec ∅)
    (fun h _ => StoreLogic.Leads.inside_of_frame_eq hT fun frame =>
      (hkeeps.advanceAny ∅ h frame).mono hT fun _ _ _ _ _ _ => trivial) fun _ _ => trivial
  -- the empty region is in every store
  exact (hleads m (fun _ h => h.elim) (Region.anyLogic_inside _ _) hended).1

/-- A step that ends at all has the outcome that all large budgets lead to. -/
theorem Step.run_eq {step : Step} {n budget : Nat} {m : Machine} {r : Outcome (List Handle)}
    (hr : ∀ b, n ≤ b → step.run (.within b) m = r)
    (hended : Outcome.Ended (step.run (.within budget) m)) : step.run (.within budget) m = r :=
  (step.run_of_le (Nat.le_max_right n budget) hended).symm.trans (hr _ (Nat.le_max_left n budget))

end Session

end Templating
