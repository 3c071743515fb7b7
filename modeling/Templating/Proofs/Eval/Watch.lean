import Templating.Eval.Run
import Templating.Proofs.Eval.Outcome

/-!
# Watching the evaluations of a run

What a run does on its way does not show in its outcome. Here the evaluator is watched: it gives up
where an evaluation of a node does not have some property. A run that ends in the same way when it
is watched has evaluated nodes with that property only.

* `Evaluator.watched`: the evaluator that gives up.
* `Evaluator.EveryEvaluation`, `Evaluator.SomeEvaluation`: what holds of every evaluation of a run,
  or of one.
* `Evaluator.everyEvaluation_eval_iff`: **every evaluation is this one and those below it.**
-/

namespace Templating

open Eval

/-- A property of the evaluation of a node from some state, with the budget for what is below. -/
abbrev Evaluator.Property := Nat → Node → Machine → Prop

open Classical in
mutual

/-- Evaluates a node, and gives up at the first evaluation that does not have a property. -/
noncomputable def evalWatched (property : Evaluator.Property) : Nat → Node → Eval Value
  | 0 => fun _ => throw .exhausted
  | n + 1 => fun node m =>
    if property n node m then
      Evaluator.evalNode ⟨evalWatched property n, advanceWatched property n, n⟩ node m
    else .error .exhausted m

/-- Takes the next item of an iterator, and gives up likewise. -/
noncomputable def advanceWatched (property : Evaluator.Property) :
    Nat → Handle → Eval (Option Value)
  | 0 => fun _ => throw .exhausted
  | n + 1 => fun handle =>
    Evaluator.advanceCell ⟨evalWatched property n, advanceWatched property n, n⟩ handle

end

namespace Evaluator

variable {property : Property}

/-- The evaluator that gives up where a property does not hold. -/
noncomputable def watched (property : Property) (budget : Nat) : Evaluator :=
  ⟨evalWatched property budget, advanceWatched property budget, budget⟩

theorem watched_eval {n : Nat} {node : Node} {m : Machine} (h : property n node m) :
    (watched property (n + 1)).eval node m = (watched property n).evalNode node m := by
  change evalWatched property (n + 1) node m = _
  unfold evalWatched
  rw [if_pos h]
  rfl

theorem watched_eval_of_not {n : Nat} {node : Node} {m : Machine} (h : ¬ property n node m) :
    (watched property (n + 1)).eval node m = .error .exhausted m := by
  change evalWatched property (n + 1) node m = _
  unfold evalWatched
  exact if_neg h

theorem watched_advance (n : Nat) (handle : Handle) :
    (watched property (n + 1)).advance handle = (watched property n).advanceCell handle := by
  change advanceWatched property (n + 1) handle = _
  unfold advanceWatched
  rfl

/-- **Every evaluation of a node in a run has a property**: the run stays the same if the evaluator
gives up where the property does not hold. -/
def EveryEvaluation {α : Type} (property : Property) (budget : Nat) (run : Evaluator → Eval α)
    (m : Machine) : Prop :=
  run (watched property budget) m = run (within budget) m

/-- Some evaluation of a node in a run has a property. -/
def SomeEvaluation {α : Type} (property : Property) (budget : Nat) (run : Evaluator → Eval α)
    (m : Machine) : Prop :=
  ¬ EveryEvaluation (fun n node m => ¬ property n node m) budget run m

/-- In the evaluation of a node every evaluation has a property if this one has it, and if those
below it have it. -/
theorem everyEvaluation_eval_iff {n : Nat} {node : Node} {m : Machine}
    (hended : Outcome.Ended ((within (n + 1)).eval node m)) :
    EveryEvaluation property (n + 1) (fun ev => ev.eval node) m ↔
      property n node m ∧ EveryEvaluation property n (fun ev => ev.evalNode node) m := by
  by_cases hproperty : property n node m
  · have hrun := watched_eval hproperty
    constructor
    · intro h
      exact ⟨hproperty, hrun.symm.trans h⟩
    · rintro ⟨-, h⟩
      exact hrun.trans h
  · refine iff_of_false (fun h => ?_) fun h => hproperty h.1
    -- The watched run is exhausted, and the run itself is not.
    have hrun : (watched property (n + 1)).eval node m = (within (n + 1)).eval node m := h
    rw [watched_eval_of_not hproperty] at hrun
    rw [← hrun] at hended
    exact hended

end Evaluator

end Templating
