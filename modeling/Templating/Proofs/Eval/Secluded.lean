import Templating.Eval.Run
import Templating.Proofs.Compatible.Cursor
import Templating.Proofs.Eval.Outcome

/-!
# Iterators do not see variables

An iterator is advanced for the code that runs, but not in its frame: a sequence, a range and the
iterators around others have none, and a generator expression has its own. So an advance is the same
whatever the variables are, and it leaves them and the output as they are.

* `Eval.Secluded`: an action that does not see variables and output, nor change them.
* `Eval.Secluded.inFrame`: what runs in a frame of its own is secluded, whatever it is.
* `Evaluator.Secluded.step`, `Evaluator.Secluded.advanceCell`: steps of iterators and advances are,
  if the advances of other iterators are.
* `Evaluator.secluded_within`: **no advance sees variables.**
-/

namespace Templating

open Eval

/-- A machine in the middle of other code: with other variables and other output. -/
def Machine.around (m : Machine) (frame : Frame) (output : Array String) : Machine :=
  { m with frame, output }

namespace Eval

/-- An action that is the same whatever the variables and the output are, and that leaves both as
they are. -/
def Secluded {α : Type} (x : Eval α) : Prop := ∀ m frame output, Outcome.Ended (x m) →
  x (m.around frame output) = Outcome.mapMachine (·.around frame output) (x m)

namespace Secluded

variable {α β : Type} {x : Eval α} {k : α → Eval β} {m m' : Machine}

theorem ok {a : α} (hx : Secluded x) (h : x m = .ok a m') (frame : Frame)
    (output : Array String) : x (m.around frame output) = .ok a (m'.around frame output) := by
  rw [hx m frame output (by rw [h]; trivial), h]
  rfl

theorem failed {e : EvalError} (hx : Secluded x) (h : x m = .error (.failed e) m') (frame : Frame)
    (output : Array String) :
    x (m.around frame output) = .error (.failed e) (m'.around frame output) := by
  rw [hx m frame output (by rw [h]; trivial), h]
  rfl

theorem exhausted (hx : Secluded x) (h : ¬ Outcome.Ended (x m)) (frame : Frame)
    (output : Array String) : ∃ m', x (m.around frame output) = .error .exhausted m' := by
  cases hrun : x (m.around frame output) with
  | ok a m' =>
    have hback : x m = _ := hx.ok hrun m.frame m.output
    rw [hback] at h
    exact (h trivial).elim
  | error e m' =>
    cases e with
    | failed e =>
      have hback : x m = _ := hx.failed hrun m.frame m.output
      rw [hback] at h
      exact (h trivial).elim
    | exhausted => exact ⟨m', rfl⟩

theorem pure (a : α) : Secluded (Pure.pure a : Eval α) := fun _ _ _ _ => rfl

theorem raise (cause : Cause) : Secluded (raise cause : Eval α) := fun _ _ _ _ => rfl

theorem exhaust : Secluded (throw .exhausted : Eval α) := fun _ _ _ h => h.elim

theorem settle (r : Except EvalError α) : Secluded (settle r) := by
  cases r <;> exact fun _ _ _ _ => rfl

theorem allocate (cursor : Cursor) : Secluded (allocate cursor) := fun _ _ _ _ => rfl

theorem setCell (handle : Handle) (cell : Cell) : Secluded (setCell handle cell) :=
  fun _ _ _ _ => rfl

/-- The store is the same in the middle of other code. -/
theorem cell (handle : Handle) {k : Option Cell → Eval α} (hk : ∀ cell, Secluded (k cell)) :
    Secluded (do k (← get).store[handle]?) :=
  fun m => hk m.store[handle]? m

theorem bind (hx : Secluded x) (hk : ∀ a, Secluded (k a)) : Secluded (x >>= k) := by
  intro m frame output hended
  have hfirst := hx m frame output hended.of_bind
  cases h : x m with
  | error e m' =>
    rw [h] at hfirst
    rw [bind_error h, bind_error hfirst]
    rfl
  | ok a m' =>
    rw [h] at hfirst
    rw [bind_ok h] at hended ⊢
    rw [bind_ok hfirst]
    exact hk a m' frame output hended

theorem attempt (hx : Secluded x) : Secluded (attempt x) := by
  intro m frame output hended
  have hinner := hx m frame output hended.of_attempt
  cases h : x m with
  | ok a m' =>
    rw [h] at hinner
    rw [attempt_ok h, attempt_ok hinner]
    rfl
  | error e m' =>
    rw [h] at hinner
    cases e with
    | failed e =>
      rw [attempt_failed h, attempt_failed hinner]
      rfl
    | exhausted =>
      rw [attempt_exhausted h] at hended
      exact hended.elim

/-- What runs in a frame of its own is secluded, whatever it is. -/
theorem inFrame (own : Frame) (x : Eval α) : Secluded (inFrame own x) := by
  intro m frame output hended
  -- the frame and the output at the start are replaced, and put back after the run
  obtain ⟨r, hrun⟩ := hended.of_inFrame.attempt
  rw [inFrame_ok hrun, inFrame_ok (m := m.around frame output) hrun]
  rfl

end Secluded

end Eval

namespace Evaluator

/-- No iterator sees the variables when it is advanced. -/
def Secluded (ev : Evaluator) : Prop := ∀ handle, Eval.Secluded (ev.advance handle)

/-- A value is made an iterator without a look at the variables. -/
theorem secluded_iterate (v : Value) : Eval.Secluded v.iterate := by
  unfold Value.iterate
  split
  · exact .pure _
  · split
    · exact .allocate _
    · exact .raise _

namespace Secluded

variable {ev : Evaluator} (h : ev.Secluded)

include h

theorem row (handles : List Handle) : Eval.Secluded (ev.row handles) := by
  induction handles with
  | nil => exact .pure _
  | cons handle handles ih =>
    refine .bind (h handle) fun item => ?_
    cases item with
    | none => exact .pure _
    | some item => exact .bind ih fun _ => .pure _

theorem stepFlagged (inner : Handle) (markers : Markers) (index : Int64) (first : Bool)
    (current : Option Value) :
    Eval.Secluded (ev.stepFlagged inner markers index first current) := by
  unfold Evaluator.stepFlagged
  cases current with
  | none => exact .pure _
  | some item =>
    dsimp only
    cases markers.last with
    | false => exact .pure _
    | true =>
      refine .bind (.attempt (h inner)) fun next => ?_
      cases next <;> exact .pure _

theorem step (cursor : Cursor) : Eval.Secluded (ev.step cursor) := by
  cases cursor with
  | items rest => cases rest <;> exact .pure _
  | range next step remaining => cases remaining <;> exact .pure _
  | enumerate inner index =>
    refine .bind (.attempt (h inner)) fun next => ?_
    rcases next with e | _ | item <;> exact .pure _
  | flagged inner markers index first next =>
    cases next with
    | unknown =>
      refine .bind (.attempt (h inner)) fun current => ?_
      cases current with
      | error e => exact .pure _
      | ok current => exact h.stepFlagged inner markers index first current
    | pending item => exact h.stepFlagged inner markers index first (some item)
    | ended => exact .pure _
  | zip inners =>
    cases inners with
    | nil => exact .pure _
    | cons inner inners => exact .bind (.attempt (h.row (inner :: inners))) fun _ => .pure _
  | generator g =>
    -- a generator expression runs code, but in its own frame
    exact .bind (.inFrame g.frame _) fun _ => .pure _
  | supplied rest failure =>
    cases rest with
    | cons item rest => exact .pure _
    | nil => cases failure <;> exact .pure _
  | relay inner => exact .bind (.attempt (h inner)) fun _ => .pure _

theorem advanceCell (handle : Handle) : Eval.Secluded (ev.advanceCell handle) := by
  rw [advanceCell_eq]
  refine .cell handle fun cell => ?_
  rcases cell with _ | ⟨cursor, _ | _⟩
  · exact .pure _
  · exact .bind (.setCell _ _) fun _ => .bind (h.step cursor) fun _ => .bind (.setCell _ _) fun _ =>
      .settle _
  · exact .raise _

end Secluded

/-- **No advance sees the variables**, whatever the budget is. -/
theorem secluded_within (budget : Nat) : (within budget).Secluded := by
  induction budget with
  | zero => exact fun _ => .exhaust
  | succ budget ih => exact ih.advanceCell

end Evaluator

end Templating
