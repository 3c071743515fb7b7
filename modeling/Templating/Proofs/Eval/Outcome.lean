import Templating.Eval.Machine
import Templating.Proofs.Action

/-!
# Outcomes

* `Eval.Outcome`: what an action ended with, and `Outcome.machine`, what it left behind.
* `Outcome.mapMachine`: an outcome that left something else behind.
* `Outcome.Ended`: an evaluation did not run out of its budget. Only then it has an outcome that the
  template knows of.
* `attempt_ok`, `attempt_failed`, `attempt_exhausted`: what catching an error does in each case, and
  `locating_ok` and so on for locating it.
* `inScope_ok`, `capture_ok`, `inFrame_ok`: what is put back after an action.
* `captured`, `deeper`: the two halves of a nested render call.
-/

namespace Templating

/-- The frame one level deeper, with some variables. -/
def Frame.below (frame : Frame) (vars : Scope) : Frame :=
  ⟨.ofVars vars, frame.depth + 1, frame.maxDepth⟩

namespace Eval

variable {α β : Type}

/-- What an action ended with. -/
abbrev Outcome (α : Type) := EStateM.Result Abort Machine α

/-- The machine after an action. -/
def Outcome.machine : Outcome α → Machine
  | .ok _ m => m
  | .error _ m => m

/-- An outcome in another state. -/
def Outcome.mapMachine (f : Machine → Machine) : Outcome α → Outcome α
  | .ok a m => .ok a (f m)
  | .error e m => .error e (f m)

/-- The budget was not exhausted. -/
def Outcome.Ended : Outcome α → Prop
  | .error .exhausted _ => False
  | _ => True

variable {x : Eval α} {m m' : Machine}

theorem attempt_ok {a : α} (h : x m = .ok a m') : attempt x m = .ok (.ok a) m' := by
  unfold attempt
  rw [h]

theorem attempt_failed {e : EvalError} (h : x m = .error (.failed e) m') :
    attempt x m = .ok (.error e) m' := by
  unfold attempt
  rw [h]

theorem attempt_exhausted (h : x m = .error .exhausted m') :
    attempt x m = .error .exhausted m' := by
  unfold attempt
  rw [h]

theorem locating_ok {a : α} (h : x m = .ok a m') (location : Location) :
    locating location x m = .ok a m' := by
  unfold locating mapError
  rw [h]

theorem locating_failed {e : EvalError} (h : x m = .error (.failed e) m') (location : Location) :
    locating location x m = .error (.failed (e.locate location)) m' := by
  unfold locating mapError
  rw [h]

theorem locating_exhausted (h : x m = .error .exhausted m') (location : Location) :
    locating location x m = .error .exhausted m' := by
  unfold locating mapError
  rw [h]

/-- An action that ended can be caught. -/
theorem Outcome.Ended.attempt (h : Outcome.Ended (x m)) :
    ∃ r, attempt x m = .ok r (Outcome.machine (x m)) := by
  cases hx : x m with
  | ok a m' => exact ⟨.ok a, attempt_ok hx⟩
  | error e m' =>
    rw [hx] at h
    cases e with
    | failed e => exact ⟨.error e, attempt_failed hx⟩
    | exhausted => exact h.elim

/-- An action that ended as a whole ended in its first part. -/
theorem Outcome.Ended.of_bind {k : α → Eval β} (h : Outcome.Ended ((x >>= k) m)) :
    Outcome.Ended (x m) := by
  rw [bind_apply] at h
  cases hx : x m with
  | ok a m' => trivial
  | error e m' =>
    rw [hx] at h
    cases e with
    | failed e => trivial
    | exhausted => exact h

/-- Catching an error changes whether the budget is exhausted in no way. -/
theorem Outcome.Ended.of_attempt (h : Outcome.Ended (Eval.attempt x m)) : Outcome.Ended (x m) := by
  cases hx : x m with
  | ok a m' => trivial
  | error e m' =>
    cases e with
    | failed e => trivial
    | exhausted =>
      rw [attempt_exhausted hx] at h
      exact h

theorem Outcome.Ended.of_mapError {f : EvalError → EvalError}
    (h : Outcome.Ended (Eval.mapError f x m)) : Outcome.Ended (x m) := by
  unfold Eval.mapError at h
  cases hx : x m with
  | ok a m' => trivial
  | error e m' =>
    rw [hx] at h
    cases e with
    | failed e => trivial
    | exhausted => exact h

/-! ## What is put back -/

variable {r : Except EvalError α} {frame : Frame}

theorem inScope_ok
    (h : attempt x { m with frame := { m.frame with env := m.frame.env.push } } = .ok r m') :
    inScope x m = settle r { m' with frame := { m'.frame with env := m'.frame.env.pop } } := by
  unfold inScope
  rw [bind_ok (x := modifyEnv _)
    (t := { m with frame := { m.frame with env := m.frame.env.push } }) rfl, bind_ok h]
  rfl

theorem capture_ok (h : attempt x { m with output := #[] } = .ok r m') :
    capture x m = .ok (r, m'.output) { m' with output := m.output } := by
  unfold capture
  rw [bind_ok (x := modifyGet _) (t := { m with output := #[] }) rfl, bind_ok h]
  rfl

theorem capture_exhausted (h : x { m with output := #[] } = .error .exhausted m') :
    capture x m = .error .exhausted m' := by
  unfold capture
  rw [bind_ok (x := modifyGet _) (t := { m with output := #[] }) rfl]
  exact bind_error (attempt_exhausted h)

theorem inFrame_ok (h : attempt x { m with frame, output := #[] } = .ok r m') :
    inFrame frame x m =
      .ok (r, m'.frame, m'.output) { m' with frame := m.frame, output := m.output } := by
  have hcapture := capture_ok (m := { m with frame }) h
  unfold inFrame
  rw [bind_ok (x := modifyGet _) (t := { m with frame }) rfl, bind_ok hcapture]
  rfl

theorem inFrame_exhausted (h : x { m with frame, output := #[] } = .error .exhausted m') :
    inFrame frame x m = .error .exhausted m' := by
  unfold inFrame
  rw [bind_ok (x := modifyGet _) (t := { m with frame }) rfl]
  exact bind_error (capture_exhausted (m := { m with frame }) h)

theorem Outcome.Ended.of_inScope (h : Outcome.Ended (inScope x m)) :
    Outcome.Ended (x { m with frame := { m.frame with env := m.frame.env.push } }) := by
  unfold inScope at h
  rw [bind_ok (x := modifyEnv _)
    (t := { m with frame := { m.frame with env := m.frame.env.push } }) rfl] at h
  exact h.of_bind.of_attempt

theorem Outcome.Ended.of_capture (h : Outcome.Ended (capture x m)) :
    Outcome.Ended (x { m with output := #[] }) := by
  unfold capture at h
  rw [bind_ok (x := modifyGet _) (t := { m with output := #[] }) rfl] at h
  exact h.of_bind.of_attempt

theorem Outcome.Ended.of_inFrame (h : Outcome.Ended (inFrame frame x m)) :
    Outcome.Ended (x { m with frame, output := #[] }) := by
  unfold inFrame at h
  rw [bind_ok (x := modifyGet _) (t := { m with frame }) rfl] at h
  exact h.of_bind.of_capture

/-! ## Rendering -/

/-- Runs an action with an empty output and returns what it put out. A signal that has left every
loop is an error. -/
def captured (x : Eval Unit) : Eval (Array String) := do
  let (result, output) ← capture x
  settle (result.mapError EvalError.settle)
  return output

/-- Runs an action one level deeper. It sees the given variables and no others. -/
def deeper (vars : Scope) (x : Eval α) : Eval α := do
  let frame := (← get).frame
  if frame.maxDepth ≤ frame.depth then raise (.recursionLimit frame.maxDepth)
  else
    let (result, _, _) ← inFrame ⟨.ofVars vars, frame.depth + 1, frame.maxDepth⟩ x
    settle result

theorem captured_ok {x : Eval Unit} {r : Except EvalError Unit}
    (h : attempt x { m with output := #[] } = .ok r m') :
    captured x m = (do settle (r.mapError EvalError.settle); return m'.output)
      { m' with output := m.output } := by
  unfold captured
  rw [bind_ok (capture_ok h)]

theorem Outcome.Ended.of_captured {x : Eval Unit} (h : Outcome.Ended (captured x m)) :
    Outcome.Ended (x { m with output := #[] }) := h.of_bind.of_capture

theorem deeper_refused {vars : Scope} (hlimit : m.frame.maxDepth ≤ m.frame.depth) :
    deeper vars x m = raise (.recursionLimit m.frame.maxDepth) m := by
  unfold deeper
  rw [bind_ok (x := get) (t := m) rfl, if_pos hlimit]

theorem deeper_ok {vars : Scope} (hlimit : ¬ m.frame.maxDepth ≤ m.frame.depth)
    (h : attempt x { m with frame := m.frame.below vars, output := #[] } = .ok r m') :
    deeper vars x m = settle r { m' with frame := m.frame, output := m.output } := by
  unfold deeper
  rw [bind_ok (x := get) (t := m) rfl, if_neg hlimit]
  exact bind_ok (inFrame_ok h)

theorem Outcome.Ended.of_deeper {vars : Scope} (h : Outcome.Ended (deeper vars x m))
    (hlimit : ¬ m.frame.maxDepth ≤ m.frame.depth) :
    Outcome.Ended (x { m with frame := m.frame.below vars, output := #[] }) := by
  unfold deeper at h
  rw [bind_ok (x := get) (t := m) rfl, if_neg hlimit] at h
  exact h.of_bind.of_inFrame

end Eval

end Templating
