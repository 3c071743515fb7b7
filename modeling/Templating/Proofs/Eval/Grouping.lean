import Templating.Eval.Run
import Templating.Proofs.Eval.Outcome
import Templating.Proofs.Value.Multiple
import Templating.Syntax.Printer

/-!
# Chains of one operator without parentheses

A right operand of `+`, `*`, `and` or `or` with the same operator is written without parentheses, so
that both groupings of a chain are written alike.

* `Node.IsRightChain`, `Node.IsLeftChain`: `a op (b op c)` and `(a op b) op c`.
* `format_chain`: both are written alike, whatever the operands.
* `Node.Gives`: what a node evaluates to where it leaves the machine as it is.
* `groupings_alike`: **both groupings of variables evaluate to one value, or both fail**, or one of
  them passes a limit, unless dates are shifted by months unevenly.
* `groupings_differ`: in these cases they do differ.
-/

namespace Templating

open Eval

namespace Node

/-- `a op (b op c)`. -/
def IsRightChain (n : Node) (op : BinaryOp) (a b c : Node) : Prop :=
  ∃ inner, n.kind = .binary op a inner ∧ inner.kind = .binary op b c

/-- `(a op b) op c`. -/
def IsLeftChain (n : Node) (op : BinaryOp) (a b c : Node) : Prop :=
  ∃ inner, n.kind = .binary op inner c ∧ inner.kind = .binary op a b

/-- A node evaluates to a value or fails for a cause, and leaves the machine as it is. -/
def Gives (budget : Nat) (n : Node) (m : Machine) : Except Cause Value → Prop
  | .ok v => (Evaluator.within budget).eval n m = .ok v m
  | .error cause =>
    ∃ e, (Evaluator.within budget).eval n m = .error (.failed e) m ∧ e.cause = cause

variable {op : BinaryOp} {budget : Nat} {m : Machine} {k : NodeKind}
  {n left right first second third : Node} {a b c v : Value} {cause : Cause}
  {r s : Except Cause Value}

theorem eval_eq (h : n.kind = k) :
    (Evaluator.within (budget + 1)).eval n =
      locating n.location (Evaluator.evalKind (.within budget) n.location k) := by
  subst h
  rfl

/-- A node gives what its kind calculates. -/
theorem gives_of_evalKind (hk : n.kind = k)
    (h : Evaluator.evalKind (.within budget) n.location k m = lift r m) :
    n.Gives (budget + 1) m r := by
  cases r with
  | ok v => exact (congrFun (eval_eq hk) m).trans (locating_ok h _)
  | error cause => exact ⟨_, (congrFun (eval_eq hk) m).trans (locating_failed h _), rfl⟩

/-- The value that a variable is bound to. -/
theorem gives_var {x : String} (hn : n.kind = .var x) (hx : m.frame.env.lookup? x = some v) :
    n.Gives (budget + 1) m (.ok v) := by
  refine gives_of_evalKind hn ?_
  change lookupVar x m = _
  unfold lookupVar
  rw [bind_ok (x := Eval.env) (t := m) rfl, hx]
  rfl

/-- The operator is applied to the values of its operands. -/
theorem gives_binary (hn : n.kind = .binary op left right) (hleft : left.Gives budget m (.ok a))
    (hright : right.Gives budget m (.ok b)) : n.Gives (budget + 1) m (Value.binary op a b) := by
  refine gives_of_evalKind hn ?_
  change (Evaluator.within budget).evalBinary op left right m = _
  unfold Evaluator.evalBinary
  rw [bind_ok hleft]
  cases op
  case and | or =>
    simp only [Value.binary]
    split
    · first | exact hright | rfl
    · first | exact hright | rfl
  all_goals
    dsimp only
    rw [bind_ok hright]

theorem gives_error_left (hn : n.kind = .binary op left right)
    (hleft : left.Gives budget m (.error cause)) : n.Gives (budget + 1) m (.error cause) := by
  obtain ⟨e, he, hcause⟩ := hleft
  refine ⟨e.locate n.location, (congrFun (eval_eq hn) m).trans (locating_failed ?_ _), hcause⟩
  exact bind_error he

theorem gives_error_right (hop : op.isShortCircuit = false) (hn : n.kind = .binary op left right)
    (hleft : left.Gives budget m (.ok a)) (hright : right.Gives budget m (.error cause)) :
    n.Gives (budget + 1) m (.error cause) := by
  obtain ⟨e, he, hcause⟩ := hright
  refine ⟨e.locate n.location, (congrFun (eval_eq hn) m).trans (locating_failed ?_ _), hcause⟩
  change (Evaluator.within budget).evalBinary op left right m = _
  unfold Evaluator.evalBinary
  rw [bind_ok hleft]
  cases op <;> first
    | exact Bool.noConfusion hop
    | exact bind_error he

/-- `and` and `or` never fail by themselves. -/
theorem binary_of_isShortCircuit (hop : op.isShortCircuit = true) (a b : Value) :
    ∃ v, Value.binary op a b = .ok v := by
  cases op <;> first
    | exact Bool.noConfusion hop
    | exact ⟨_, rfl⟩

theorem isShortCircuit_of_binary_error (h : Value.binary op a b = .error cause) :
    op.isShortCircuit = false := by
  by_contra hop
  obtain ⟨v, hv⟩ := binary_of_isShortCircuit ((Bool.not_eq_false _).mp hop) a b
  rw [hv] at h
  cases h

theorem gives_rightChain (hn : n.IsRightChain op first second third)
    (hfirst : first.Gives (budget + 2) m (.ok a)) (hsecond : second.Gives (budget + 1) m (.ok b))
    (hthird : third.Gives (budget + 1) m (.ok c)) :
    n.Gives (budget + 3) m (Value.groupRight op a b c) := by
  obtain ⟨inner, hn, hinner⟩ := hn
  have hgives := gives_binary hinner hsecond hthird
  cases hbinary : Value.binary op b c with
  | ok v =>
    rw [Value.groupRight_of_ok hbinary]
    rw [hbinary] at hgives
    exact gives_binary hn hfirst hgives
  | error cause =>
    rw [Value.groupRight_of_error hbinary]
    rw [hbinary] at hgives
    exact gives_error_right (isShortCircuit_of_binary_error hbinary) hn hfirst hgives

theorem gives_leftChain (hn : n.IsLeftChain op first second third)
    (hfirst : first.Gives (budget + 1) m (.ok a)) (hsecond : second.Gives (budget + 1) m (.ok b))
    (hthird : third.Gives (budget + 2) m (.ok c)) :
    n.Gives (budget + 3) m (Value.groupLeft op a b c) := by
  obtain ⟨inner, hn, hinner⟩ := hn
  have hgives := gives_binary hinner hfirst hsecond
  cases hbinary : Value.binary op a b with
  | ok v =>
    rw [Value.groupLeft_of_ok hbinary]
    rw [hbinary] at hgives
    exact gives_binary hn hgives hthird
  | error cause =>
    rw [Value.groupLeft_of_error hbinary]
    rw [hbinary] at hgives
    exact gives_error_left hn hgives

/-! ## Written forms -/

theorem format_binary (hn : n.kind = .binary op left right) (hop : op ≠ .getItem) :
    n.format 0 =
      parenthesize (.binary op left right) left.kind (left.format 0) ++ " " ++ op.symbol ++ " " ++
        parenthesize (.binary op left right) right.kind (right.format 0) := by
  obtain ⟨id, location, kind⟩ := n
  subst hn
  exact if_neg hop

/-- An operand with the same associative operator is written without parentheses. -/
theorem parenthesize_same (hop : op.isAssociative) (left right left' right' : Node)
    (text : String) :
    parenthesize (.binary op left right) (.binary op left' right') text = text :=
  if_neg fun h => h.elim (Nat.lt_irrefl _) fun h => h.2.elim (· rfl) (· hop)

/-- **The groupings of a chain are written alike.** -/
theorem format_chain (hop : op.isAssociative) (hright : right.IsRightChain op first second third)
    (hleft : left.IsLeftChain op first second third) : right.format 0 = left.format 0 := by
  obtain ⟨inner, hright, hinner⟩ := hright
  obtain ⟨inner', hleft, hinner'⟩ := hleft
  have hitem : op ≠ .getItem := by
    rintro rfl
    cases hop
  rw [format_binary hright hitem, format_binary hleft hitem, hinner, hinner',
    parenthesize_same hop, parenthesize_same hop, format_binary hinner hitem,
    format_binary hinner' hitem]
  -- parentheses of an operand depend on the operator only
  simp only [String.append_assoc]
  rfl

end Node

/-! ## Groupings evaluated -/

/-- `and` and `or` select one of three operands, whatever the grouping. -/
theorem Value.shortCircuit_grouping {op : BinaryOp} (hop : op.isShortCircuit = true)
    (a b c : Value) :
    ∃ v, groupRight op a b c = .ok v ∧ groupLeft op a b c = .ok v := by
  cases op <;> first | exact Bool.noConfusion hop | skip
  case and =>
    refine ⟨_, rfl, congrArg Except.ok ?_⟩
    cases ha : a.isTruthy <;> simp [ha]
  case or =>
    refine ⟨_, rfl, congrArg Except.ok ?_⟩
    cases ha : a.isTruthy <;> simp [ha]

variable {op : BinaryOp} {x y z : String} {a b c : Value} {m : Machine}
  {first second third right left : Node}

/-- The variable `name`. -/
def Node.named (name : String) : Node := ⟨0, .ofText name .empty, .var name⟩

/-- `x op (y op z)`. -/
def Node.rightChain (op : BinaryOp) : Node :=
  ⟨1, .ofText "" .empty, .binary op (named "x")
    ⟨2, .ofText "" .empty, .binary op (named "y") (named "z")⟩⟩

/-- `(x op y) op z`. -/
def Node.leftChain (op : BinaryOp) : Node :=
  ⟨1, .ofText "" .empty, .binary op
    ⟨2, .ofText "" .empty, .binary op (named "x") (named "y")⟩ (named "z")⟩

/-- A machine where `x`, `y` and `z` are bound to values. -/
def Machine.binding (a b c : Value) : Machine :=
  .start 3 0 .first (.ofVars [("x", a), ("y", b), ("z", c)] 1)

theorem gives_rightChain_binding {r : Except Cause Value} (h : Value.groupRight op a b c = r) :
    (Node.rightChain op).Gives 3 (.binding a b c) r :=
  h ▸ Node.gives_rightChain ⟨_, rfl, rfl⟩ (Node.gives_var rfl rfl) (Node.gives_var rfl rfl)
    (Node.gives_var rfl rfl)

theorem gives_leftChain_binding {r : Except Cause Value} (h : Value.groupLeft op a b c = r) :
    (Node.leftChain op).Gives 3 (.binding a b c) r :=
  h ▸ Node.gives_leftChain ⟨_, rfl, rfl⟩ (Node.gives_var rfl rfl) (Node.gives_var rfl rfl)
    (Node.gives_var rfl rfl)

/-- **Both groupings of a chain are written alike and evaluate alike.** Evaluated on variables that
are bound to values other than floats, they give one value, or both fail, or one of them fails
because it passes a limit on the way; `and` and `or` always give one value. Sums in which dates are
shifted by months unevenly are excepted. -/
theorem groupings_alike (hop : op.isAssociative) (hx : m.frame.env.lookup? x = some a)
    (hy : m.frame.env.lookup? y = some b) (hz : m.frame.env.lookup? z = some c)
    (ha : a.family ≠ .float) (hb : b.family ≠ .float) (hc : c.family ≠ .float)
    (hshift : op = .add → ¬ Value.ShiftsUnevenly a b c) (hfirst : first.kind = .var x)
    (hsecond : second.kind = .var y) (hthird : third.kind = .var z)
    (hright : right.IsRightChain op first second third)
    (hleft : left.IsLeftChain op first second third) (budget : Nat) :
    right.format 0 = left.format 0 ∧
      ∃ r s, right.Gives (budget + 3) m r ∧ left.Gives (budget + 3) m s ∧
        Value.SameOrLimit r s ∧ (op.isShortCircuit → ∃ v, r = .ok v ∧ s = .ok v) := by
  refine ⟨Node.format_chain hop hright hleft, Value.groupRight op a b c, Value.groupLeft op a b c,
    Node.gives_rightChain hright (Node.gives_var hfirst hx) (Node.gives_var hsecond hy)
      (Node.gives_var hthird hz),
    Node.gives_leftChain hleft (Node.gives_var hfirst hx) (Node.gives_var hsecond hy)
      (Node.gives_var hthird hz), ?_, fun hop => Value.shortCircuit_grouping hop a b c⟩
  by_cases hshort : op.isShortCircuit
  · obtain ⟨v, hv, hv'⟩ := Value.shortCircuit_grouping hshort a b c
    exact .of_eq (hv.trans hv'.symm)
  · cases op <;> first
      | exact Bool.noConfusion hop
      | exact absurd rfl hshort
      | exact Value.add_grouping ha hb hc (hshift rfl)
      | exact Value.mul_grouping ha hb hc

/-- January 28 is shifted by two months as by one month twice. -/
theorem groupings_alike_shifted :
    let january : Value := .date ⟨2021, 1, 28, 0, 0, 0, 0, by decide⟩
    let march : Value := .date ⟨2021, 3, 28, 0, 0, 0, 0, by decide⟩
    let month : Value := .months ⟨1⟩
    let m := Machine.binding january month month
    ¬ Value.ShiftsUnevenly january month month ∧
      (Node.rightChain .add).Gives 3 m (.ok march) ∧ (Node.leftChain .add).Gives 3 m (.ok march) ∧
      (Node.rightChain .add).format 0 = (Node.leftChain .add).format 0 ∧
      ∃ r s, (Node.rightChain .add).Gives 3 m r ∧ (Node.leftChain .add).Gives 3 m s ∧
        Value.SameOrLimit r s := by
  intro january march month m
  have hshift : ¬ Value.ShiftsUnevenly january month month := by
    rintro (hmoved | ⟨-, d, hd, hlt⟩)
    · exact absurd hmoved (by decide)
    · obtain rfl : d = ⟨2021, 1, 28, 0, 0, 0, 0, by decide⟩ := by
        simpa [january, month] using hd
      exact absurd hlt (by decide)
  have hright : (Node.rightChain .add).IsRightChain .add (.named "x") (.named "y") (.named "z") :=
    ⟨_, rfl, rfl⟩
  have hleft : (Node.leftChain .add).IsLeftChain .add (.named "x") (.named "y") (.named "z") :=
    ⟨_, rfl, rfl⟩
  obtain ⟨hformat, r, s, hr, hs, hsame, -⟩ :=
    groupings_alike (x := "x") (y := "y") (z := "z") (a := january) (b := month) (c := month)
      (m := m) (by rfl) rfl rfl rfl Value.Family.noConfusion Value.Family.noConfusion
      Value.Family.noConfusion (fun _ => hshift) rfl rfl rfl hright hleft 0
  exact ⟨hshift, gives_rightChain_binding rfl, gives_leftChain_binding rfl, hformat, r, s, hr, hs,
    hsame⟩

/-- The groupings of some chains differ. The last day of January, shifted by a month twice, is
March 28 or March 31, and months and a duration have no sum. One grouping alone may exceed the
integers, leave the calendar, repeat a text -1 times, or repeat it too often. -/
theorem groupings_differ :
    let right (op : BinaryOp) (a b c : Value) := (Node.rightChain op).Gives 3 (.binding a b c)
    let left (op : BinaryOp) (a b c : Value) := (Node.leftChain op).Gives 3 (.binding a b c)
    let january : Value := .date ⟨2021, 1, 31, 0, 0, 0, 0, by decide⟩
    let march (day : Nat) (h : Date.Valid 2021 3 day 0 0 0 0) : Value :=
      .date ⟨2021, 3, day, 0, 0, 0, 0, h⟩
    let days (n : Int64) : Value := .duration ⟨n, 0, 0, by decide, by decide⟩
    (right .add january (.months ⟨1⟩) (.months ⟨1⟩) (.ok (march 31 (by decide))) ∧
      left .add january (.months ⟨1⟩) (.months ⟨1⟩) (.ok (march 28 (by decide))) ∧
      (march 31 (by decide)).equal (march 28 (by decide)) = false) ∧
    (right .add january (.months ⟨1⟩) (days 1)
        (.error (.binaryUnsupported "monthdelta" .add "timedelta")) ∧
      left .add january (.months ⟨1⟩) (days 1) (.ok (march 1 (by decide)))) ∧
    (right .add (.int Int64.maxValue) (.int 1) (.int (-1)) (.ok (.int Int64.maxValue)) ∧
      left .add (.int Int64.maxValue) (.int 1) (.int (-1))
        (.error (.integerOverflow "addition"))) ∧
    (right .add (.date .last) (days 1) (days (-1)) (.ok (.date .last)) ∧
      left .add (.date .last) (days 1) (days (-1)) (.error (.calendar .outOfRange))) ∧
    (right .mul (.str "a") (.int (-1)) (.int (-1)) (.ok (.str "a")) ∧
      left .mul (.str "a") (.int (-1)) (.int (-1)) (.error .negativeRepetition)) ∧
    right .mul (.str "a") (.int 0x20000000) (.int 0) (.ok (.str "")) ∧
      left .mul (.str "a") (.int 0x20000000) (.int 0)
        (.error (.repetitionTooLarge 0x20000000 0x10000000)) := by
  intro right left january march days
  have hmonth : Value.groupLeft .add january (.months ⟨1⟩) (days 1) =
      .ok (march 1 (by decide)) :=
    (Value.groupLeft_of_ok rfl).trans
      (Value.date_add_duration_iff (d := ⟨2021, 2, 28, 0, 0, 0, 0, by decide⟩).2 (by decide))
  have hlast : Value.groupRight .add (.date .last) (days 1) (days (-1)) = .ok (.date .last) :=
    (Value.groupRight_of_ok rfl).trans
      (Value.date_add_duration_iff (a := .zero).2 (by decide))
  exact ⟨⟨gives_rightChain_binding rfl, gives_leftChain_binding rfl, by decide⟩,
    ⟨gives_rightChain_binding rfl, gives_leftChain_binding hmonth⟩,
    ⟨gives_rightChain_binding rfl, gives_leftChain_binding rfl⟩,
    ⟨gives_rightChain_binding hlast, gives_leftChain_binding rfl⟩,
    ⟨gives_rightChain_binding rfl, gives_leftChain_binding rfl⟩,
    gives_rightChain_binding rfl, gives_leftChain_binding rfl⟩

end Templating
