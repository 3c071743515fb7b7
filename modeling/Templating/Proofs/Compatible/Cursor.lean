import Templating.Proofs.Compatible.Basic

/-!
# Advances of iterators are related

A step of an iterator returns its error along with the position, and the error goes on once the
position is in the store. Here a step is written so that the error goes on at once, after the
position was put back.

* `Eval.restoring`: puts a position back if an action fails.
* `Eval.Stored`: a relation that holds of reading and writing iterators.
* `Eval.Congruent.advanceCell`: **any iterator**. What generator expressions do in their own frames
  is left to the relation.
-/

namespace Templating

open Eval

/-! ## Frames of iterators -/

/-- A generator expression in a changed frame. -/
def Generator.mapFrame (ρ : Frame → Frame) (g : Generator) : Generator :=
  { g with frame := ρ g.frame }

/-- The position of an iterator; that of a generator expression is in a changed frame. -/
def Cursor.mapFrame (ρ : Frame → Frame) : Cursor → Cursor
  | .generator g => .generator (g.mapFrame ρ)
  | cursor => cursor

/-- What holds of the frame of a generator expression, if the position is that of one. -/
def Cursor.FrameHolds (good : Frame → Prop) : Cursor → Prop
  | .generator g => good g.frame
  | _ => True

/-- A cell with a position in a changed frame. -/
def Cell.mapFrame (ρ : Frame → Frame) (cell : Cell) : Cell := ⟨cell.cursor.mapFrame ρ, cell.busy⟩

@[simp] theorem Cursor.mapFrame_id (cursor : Cursor) : cursor.mapFrame id = cursor := by
  cases cursor <;> rfl

@[simp] theorem Cell.mapFrame_id (cell : Cell) : cell.mapFrame id = cell := by
  simp [mapFrame]

theorem Cursor.mapFrame_of_isSimple {cursor : Cursor} (h : cursor.IsSimple) (ρ : Frame → Frame) :
    cursor.mapFrame ρ = cursor := by
  cases cursor with
  | generator g => exact h.elim
  | _ => rfl

theorem Cursor.IsSimple.frameHolds {cursor : Cursor} (h : cursor.IsSimple)
    (good : Frame → Prop) : cursor.FrameHolds good := by
  cases cursor with
  | generator g => exact h.elim
  | _ => trivial

theorem Cursor.frameHolds_true (cursor : Cursor) : cursor.FrameHolds fun _ => True := by
  cases cursor <;> trivial

namespace Eval

variable {α : Type}

/-- Runs an action and puts a cell into the store if it fails. -/
def restoring (handle : Handle) (cell : Cell) (x : Eval α) : Eval α := do
  match ← attempt x with
  | .ok a => return a
  | .error e =>
    setCell handle cell
    throw (.failed e)

/-- Ends a step of an iterator: puts the position into the store and returns the item. -/
def finish (handle : Handle) (stepped : Cursor × Except EvalError (Option Value)) :
    Eval (Option Value) := do
  setCell handle ⟨stepped.1, false⟩
  settle stepped.2

/-- One step of a generator expression, which is an action in its frame. -/
def resume (handle : Handle) (g : Generator) (x : Eval (Option Value)) : Eval (Option Value) := do
  let (result, frame, _) ← inFrame g.frame x
  finish handle (.generator { g with frame }, result)

theorem resume_ok {handle : Handle} {g : Generator} {x : Eval (Option Value)} {m m' : Machine}
    {r : Except EvalError (Option Value)}
    (h : attempt x { m with frame := g.frame, output := #[] } = .ok r m') :
    resume handle g x m = finish handle (.generator { g with frame := m'.frame }, r)
      { m' with frame := m.frame, output := m.output } :=
  bind_ok (inFrame_ok h)

theorem resume_exhausted {handle : Handle} {g : Generator} {x : Eval (Option Value)}
    {m m' : Machine} (h : x { m with frame := g.frame, output := #[] } = .error .exhausted m') :
    resume handle g x m = .error .exhausted m' :=
  bind_error (inFrame_exhausted h)

theorem Outcome.Ended.of_resume {handle : Handle} {g : Generator} {x : Eval (Option Value)}
    {m : Machine} (h : Outcome.Ended (resume handle g x m)) :
    Outcome.Ended (x { m with frame := g.frame, output := #[] }) :=
  h.of_bind.of_inFrame

/-- A step that passes on the error of an action and leaves the position as it was. -/
theorem attempt_finish {x : Eval α} {cursor : Cursor}
    {k : Except EvalError α → Eval (Cursor × Except EvalError (Option Value))}
    (herror : ∀ e, k (.error e) = pure (cursor, .error e)) (handle : Handle) :
    attempt x >>= k >>= finish handle =
      restoring handle ⟨cursor, false⟩ x >>= fun a => k (.ok a) >>= finish handle := by
  funext m
  simp only [bind_apply, restoring]
  cases hx : x m with
  | ok a m' =>
    simp only [attempt_ok hx]
    rfl
  | error e m' =>
    cases e with
    | failed e =>
      simp only [attempt_failed hx, herror]
      rfl
    | exhausted => simp only [attempt_exhausted hx]

/-- A relation that holds of reading and writing iterators. Those of the two sides differ in frames,
and all frames on the first side are good ones. -/
structure Stored (good : Frame → Prop) (ρ : Frame → Frame) (R : Relation) : Prop where
  cell : ∀ {α : Type} (handle : Handle) {k l : Option Cell → Eval α},
    (∀ cell, (∀ c ∈ cell, c.cursor.FrameHolds good) → R (k cell) (l (cell.map (Cell.mapFrame ρ)))) →
      R (do k (← get).store[handle]?) (do l (← get).store[handle]?)
  setCell : ∀ handle {c : Cell}, c.cursor.FrameHolds good →
    R (setCell handle c) (setCell handle (c.mapFrame ρ))
  restoring : ∀ {α : Type} {x y : Eval α} (handle : Handle) {c : Cell},
    c.cursor.FrameHolds good → R x y →
      R (restoring handle c x) (restoring handle (c.mapFrame ρ) y)

end Eval

namespace Evaluator

variable (ev : Evaluator)

/-- Advances the iterator of a cell. -/
def advanceAt (handle : Handle) : Option Cell → Eval (Option Value)
  | none => return none
  | some ⟨_, true⟩ => raise .alreadyExecuting
  | some ⟨cursor, false⟩ => do
    setCell handle ⟨cursor, true⟩
    ev.step cursor >>= finish handle

theorem advanceCell_eq (handle : Handle) :
    ev.advanceCell handle = (do ev.advanceAt handle (← get).store[handle]?) := by
  funext m
  unfold advanceCell advanceAt
  simp only [bind_apply]
  rfl

theorem step_generator (handle : Handle) (g : Generator) :
    ev.step (.generator g) >>= finish handle = resume handle g (ev.generate g) := by
  funext m
  simp only [step, resume, bind_apply]
  cases inFrame g.frame (ev.generate g) m <;> rfl

end Evaluator

namespace Eval.Congruent

variable {good : Frame → Prop} {ρ : Frame → Frame} {R : Eval.Relation} {ev ev' : Evaluator}
  (hR : Congruent R) (hstored : Stored good ρ R) (h : ev.Related R ev')

include hR hstored

/-- A step that has got an item or has come to the end. -/
theorem finish (handle : Handle) {c : Cursor} (hsimple : c.IsSimple) (item : Option Value) :
    R (Pure.pure (c, .ok item) >>= finish handle)
      (Pure.pure (c, .ok item) >>= Eval.finish handle) := by
  have hset := hstored.setCell handle (c := ⟨c, false⟩) (hsimple.frameHolds good)
  rw [Cell.mapFrame, Cursor.mapFrame_of_isSimple hsimple] at hset
  have hreturn := hR.bind hset fun _ => hR.pure item
  exact hreturn

/-- A step that passes on the error of an action. -/
theorem attempt {α : Type} (handle : Handle) {c : Cursor} (hsimple : c.IsSimple)
    {x y : Eval α} {k l : Except EvalError α → Eval (Cursor × Except EvalError (Option Value))}
    (hxy : R x y) (hk : ∀ e, k (.error e) = Pure.pure (c, .error e))
    (hl : ∀ e, l (.error e) = Pure.pure (c, .error e))
    (hok : ∀ a, R (k (.ok a) >>= Eval.finish handle) (l (.ok a) >>= Eval.finish handle)) :
    R (attempt x >>= k >>= Eval.finish handle) (Eval.attempt y >>= l >>= Eval.finish handle) := by
  have hrestoring := hstored.restoring handle (c := ⟨c, false⟩) (hsimple.frameHolds good) hxy
  rw [Cell.mapFrame, Cursor.mapFrame_of_isSimple hsimple] at hrestoring
  rw [attempt_finish hk, attempt_finish hl]
  exact hR.bind hrestoring hok

include h

theorem stepFlagged (handle inner : Handle) (markers : Markers) (index : Int64) (first : Bool)
    (current : Option Value) :
    R (ev.stepFlagged inner markers index first current >>= Eval.finish handle)
      (ev'.stepFlagged inner markers index first current >>= Eval.finish handle) := by
  have hend (next : Lookahead) (index : Int64) (first : Bool) (item : Option Value) :=
    hR.finish hstored handle (c := .flagged inner markers index first next) trivial item
  cases current with
  | none => exact hend ..
  | some item =>
    unfold Evaluator.stepFlagged
    dsimp only
    cases markers.last with
    | false => exact hend ..
    | true =>
      exact hR.attempt hstored handle (c := .flagged inner markers index first .unknown) trivial
        (h.advance inner) (fun _ => rfl) (fun _ => rfl) fun next => hend ..

/-- A step of an iterator that has no frame of its own. -/
theorem step (handle : Handle) {cursor : Cursor} (hsimple : cursor.IsSimple) :
    R (ev.step cursor >>= Eval.finish handle) (ev'.step cursor >>= Eval.finish handle) := by
  have hend {cursor : Cursor} (hsimple : cursor.IsSimple) (item : Option Value) :=
    hR.finish hstored handle hsimple item
  cases cursor with
  | items rest => cases rest <;> exact hend (by trivial) _
  | range next step remaining => cases remaining <;> exact hend (by trivial) _
  | enumerate inner index =>
    refine hR.attempt hstored handle (c := .enumerate inner index) trivial (h.advance inner)
      (fun _ => rfl) (fun _ => rfl) fun next => ?_
    cases next <;> exact hend (by trivial) _
  | flagged inner markers index first next =>
    cases next with
    | unknown =>
      exact hR.attempt hstored handle (c := .flagged inner markers index first .unknown) trivial
        (h.advance inner) (fun _ => rfl) (fun _ => rfl) fun current =>
          hR.stepFlagged hstored h handle inner markers index first current
    | pending item => exact hR.stepFlagged hstored h handle inner markers index first (some item)
    | ended => exact hend (by trivial) _
  | zip inners =>
    cases inners with
    | nil => exact hend (by trivial) _
    | cons inner inners =>
      exact hR.attempt hstored handle (c := .zip (inner :: inners)) trivial
        (hR.row h (inner :: inners)) (fun _ => rfl) (fun _ => rfl) fun items => hend (by trivial) _
  | generator g => exact hsimple.elim
  | supplied rest failure =>
    cases rest with
    | cons item rest => exact hend (by trivial) _
    | nil =>
      cases failure with
      | none => exact hend (by trivial) _
      | some failure =>
        have hfail := hR.bind (hstored.setCell handle (c := ⟨.supplied [] none, false⟩) trivial)
          fun _ =>
          hR.raise (α := Option Value) (c := .supplied failure) trivial
        exact hfail
  | relay inner =>
    exact hR.attempt hstored handle (c := .relay inner) trivial (h.advance inner)
      (fun _ => rfl) (fun _ => rfl) fun next => hend (by trivial) _

/-- **An advance of an iterator is related**, if a step of a generator expression is. -/
theorem advanceCell
    (hresume : ∀ handle g, good g.frame → R (resume handle g (ev.generate g))
      (resume handle (g.mapFrame ρ) (ev'.generate g))) (handle : Handle) :
    R (ev.advanceCell handle) (ev'.advanceCell handle) := by
  rw [Evaluator.advanceCell_eq, Evaluator.advanceCell_eq]
  refine hstored.cell handle fun cell hcell => ?_
  rcases cell with _ | ⟨cursor, _ | _⟩
  · exact hR.pure none
  · have hgood : cursor.FrameHolds good := hcell _ rfl
    refine hR.bind (hstored.setCell handle (c := ⟨cursor, true⟩) hgood) fun _ => ?_
    cases cursor with
    | generator g =>
      rw [Evaluator.step_generator]
      exact Evaluator.step_generator ev' handle (g.mapFrame ρ) ▸ hresume handle g hgood
    | _ => exact hR.step hstored h handle trivial
  · exact hR.raise trivial

end Eval.Congruent

end Templating
