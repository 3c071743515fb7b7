import Templating.Proofs.Eval.Frame
import Templating.Proofs.Eval.Secluded
import Templating.Proofs.Value.Bindings

/-!
# Destructuring

An assignment reads a tuple level by level and binds names on its way. Since iterators do not see
variables, this is the same as reading all items first and binding the names after that.

* `Target.names`, `Target.namesBefore`: the names of a target in reading order.
* `Evaluator.Deals`, `Evaluator.Rejects`: a value has as many items as a tuple has targets, or not.
* `Evaluator.Unpacks`, `Evaluator.Breaks`: the names of a target with their items, or those before
  the tuple that fails.
* `Evaluator.Unpacks.assign`, `Evaluator.Breaks.assign`: an assignment binds these names.
* `Evaluator.Destructures`: what an assignment does, given by these.
* `destructuring_reads_then_binds`: **every assignment does this.**
-/

namespace Templating

open Eval

/-! ## Targets -/

mutual

/-- The names of a target in reading order. -/
def Target.names : Target → List String
  | .name x => [x]
  | .tuple targets => Target.namesAll targets

/-- The names of some targets in reading order. -/
def Target.namesAll : List Target → List String
  | [] => []
  | target :: targets => target.names ++ Target.namesAll targets

end

/-- The target at a place, which is given by positions in tuples from the outermost one inward. -/
def Target.at? : Target → List Nat → Option Target
  | target, [] => some target
  | .tuple targets, i :: place => targets[i]?.bind (·.at? place)
  | .name _, _ :: _ => none

/-- The names before a place in reading order. -/
def Target.namesBefore : Target → List Nat → List String
  | .tuple targets, i :: place =>
    Target.namesAll (targets.take i) ++ ((targets[i]?.map (·.namesBefore place)).getD [])
  | _, _ => []

theorem Target.namesAll_append (targets targets' : List Target) :
    namesAll (targets ++ targets') = namesAll targets ++ namesAll targets' := by
  induction targets with
  | nil => rfl
  | cons t targets ih => rw [List.cons_append, namesAll, namesAll, ih, List.append_assoc]

/-- The names before a place are the first ones of the target. -/
theorem Target.namesBefore_prefix (t : Target) (place : List Nat) :
    t.namesBefore place <+: t.names := by
  induction place generalizing t with
  | nil => cases t <;> exact List.nil_prefix
  | cons i place ih =>
    cases t with
    | name x => exact List.nil_prefix
    | tuple targets =>
      rw [namesBefore, names]
      conv => rhs; rw [← List.take_append_drop i targets, namesAll_append]
      refine (List.prefix_append_right_inj _).2 ?_
      cases htarget : targets[i]? with
      | none => exact List.nil_prefix
      | some t =>
        obtain ⟨hi, rfl⟩ := List.getElem?_eq_some_iff.1 htarget
        rw [List.drop_eq_getElem_cons hi, namesAll]
        exact (ih targets[i]).trans (List.prefix_append _ _)

/-! ## Bindings -/

/-- A frame with some names bound one after another in the innermost scope. -/
def Frame.bindAll (frame : Frame) (bs : Scope) : Frame :=
  { frame with env := { frame.env with inner := Bindings.merge frame.env.inner bs } }

theorem Frame.bindAll_append (frame : Frame) (bs bs' : Scope) :
    frame.bindAll (bs ++ bs') = (frame.bindAll bs).bindAll bs' := by
  simp [bindAll, Bindings.merge, List.foldl_append]

/-- A later state in which no other names than some have other values, and these in the innermost
scope only. -/
structure Machine.OnlyBinds (names : List String) (m m' : Machine) : Prop where
  frame : m.frame.SameOuter m'.frame
  output : m'.output = m.output
  others : ∀ x ∉ names,
    Bindings.lookup? x m'.frame.env.inner = Bindings.lookup? x m.frame.env.inner

theorem Machine.onlyBinds_bindAll {names : List String} {bs : Scope}
    (h : bs.map Prod.fst ⊆ names) (m m₁ : Machine) :
    m.OnlyBinds names (m₁.around (m.frame.bindAll bs) m.output) := by
  refine ⟨⟨rfl, rfl, rfl⟩, rfl, fun x hx => ?_⟩
  have hnone : Bindings.lookup? x bs.reverse = none := by
    rw [Bindings.lookup?_eq_none_iff, List.map_reverse, List.mem_reverse]
    exact fun hmem => hx (h hmem)
  change Bindings.lookup? x (Bindings.merge m.frame.env.inner bs) = _
  rw [Bindings.lookup?_merge_reverse, hnone, Option.none_or]

namespace Evaluator

variable (ev : Evaluator)

/-! ## What is read -/

/-- An iterator gives some items one after another. -/
inductive Draws (handle : Handle) : Machine → List Value → Machine → Prop where
  | nil (m : Machine) : Draws handle m [] m
  | cons {v : Value} {vs : List Value} {m m₁ m₂ : Machine}
      (hadvance : ev.advance handle m = .ok (some v) m₁) (rest : Draws handle m₁ vs m₂) :
      Draws handle m (v :: vs) m₂

/-- A value has exactly `n` items. To know this it is asked `n + 1` times. -/
inductive Deals (n : Nat) (v : Value) (m : Machine) : List Value → Machine → Prop where
  | intro {handle : Handle} {items : List Value} {m₁ m₂ m₃ : Machine}
      (hiterate : v.iterate m = .ok handle m₁) (hdraws : ev.Draws handle m₁ items m₂)
      (hlength : items.length = n) (hend : ev.advance handle m₂ = .ok none m₃) :
      Deals n v m items m₃

/-- A value does not have exactly `n` items, or fails. It is asked a number of times. -/
inductive Rejects (n : Nat) (v : Value) (m : Machine) : Nat → EvalError → Machine → Prop where
  | notIterable {e : EvalError} {m₁ : Machine} (hiterate : v.iterate m = .error (.failed e) m₁) :
      Rejects n v m 0 e m₁
  | failed {handle : Handle} {items : List Value} {e : EvalError} {m₁ m₂ m₃ : Machine}
      (hiterate : v.iterate m = .ok handle m₁) (hdraws : ev.Draws handle m₁ items m₂)
      (hlength : items.length ≤ n) (hfail : ev.advance handle m₂ = .error (.failed e) m₃) :
      Rejects n v m (items.length + 1) e m₃
  | tooMany {handle : Handle} {items : List Value} {m₁ m₂ : Machine}
      (hiterate : v.iterate m = .ok handle m₁) (hdraws : ev.Draws handle m₁ items m₂)
      (hlength : items.length = n + 1) :
      Rejects n v m items.length (.ofCause (.unpackMismatch n n true)) m₂
  | tooFew {handle : Handle} {items : List Value} {m₁ m₂ m₃ : Machine}
      (hiterate : v.iterate m = .ok handle m₁) (hdraws : ev.Draws handle m₁ items m₂)
      (hlength : items.length < n) (hend : ev.advance handle m₂ = .ok none m₃) :
      Rejects n v m (items.length + 1) (.ofCause (.unpackMismatch n items.length false)) m₃

mutual

/-- A target takes a value: every tuple gets as many items as it has targets, and each name gets the
item at its place. -/
inductive Unpacks : Target → Value → Machine → Scope → Machine → Prop where
  | name (x : String) (v : Value) (m : Machine) : Unpacks (.name x) v m [(x, v)] m
  | tuple {targets : List Target} {v : Value} {items : List Value} {bs : Scope}
      {m m₁ m₂ : Machine} (hdeals : ev.Deals targets.length v m items m₁)
      (hall : UnpacksAll targets items m₁ bs m₂) : Unpacks (.tuple targets) v m bs m₂

/-- Targets take as many values. -/
inductive UnpacksAll : List Target → List Value → Machine → Scope → Machine → Prop where
  | nil (m : Machine) : UnpacksAll [] [] m [] m
  | cons {target : Target} {targets : List Target} {v : Value} {vs : List Value} {bs bs' : Scope}
      {m m₁ m₂ : Machine} (hfirst : Unpacks target v m bs m₁)
      (hrest : UnpacksAll targets vs m₁ bs' m₂) :
      UnpacksAll (target :: targets) (v :: vs) m (bs ++ bs') m₂

end

mutual

/-- A target does not take a value, since the tuple at a place rejects its value. The names before
the place get their items. -/
inductive Breaks : Target → Value → Machine → List Nat → Scope → EvalError → Machine → Prop where
  | here {targets : List Target} {v : Value} {asked : Nat} {e : EvalError} {m m₁ : Machine}
      (hrejects : ev.Rejects targets.length v m asked e m₁) : Breaks (.tuple targets) v m [] [] e m₁
  | inside {targets : List Target} {v : Value} {items : List Value} {place : List Nat} {bs : Scope}
      {e : EvalError} {m m₁ m₂ : Machine} (hdeals : ev.Deals targets.length v m items m₁)
      (hbreaks : BreaksAll targets items m₁ place bs e m₂) :
      Breaks (.tuple targets) v m place bs e m₂

/-- One of some targets does not take its value. The place starts with the position of the
target. -/
inductive BreaksAll :
    List Target → List Value → Machine → List Nat → Scope → EvalError → Machine → Prop where
  | head {target : Target} {targets : List Target} {v : Value} {vs : List Value}
      {place : List Nat} {bs : Scope} {e : EvalError} {m m₁ : Machine}
      (hbreaks : Breaks target v m place bs e m₁) :
      BreaksAll (target :: targets) (v :: vs) m (0 :: place) bs e m₁
  | tail {target : Target} {targets : List Target} {v : Value} {vs : List Value} {i : Nat}
      {place : List Nat} {bs bs' : Scope} {e : EvalError} {m m₁ m₂ : Machine}
      (hfirst : ev.Unpacks target v m bs m₁)
      (hbreaks : BreaksAll targets vs m₁ (i :: place) bs' e m₂) :
      BreaksAll (target :: targets) (v :: vs) m ((i + 1) :: place) (bs ++ bs') e m₂

end

variable {ev} {handle : Handle} {v : Value} {vs items : List Value} {t : Target}
  {targets : List Target} {n : Nat} {bs : Scope} {e : EvalError} {place : List Nat}
  {asked : Nat} {m m₁ m₂ : Machine}

/-! ## Taking items -/

/-- Items that an iterator gives are the first ones that are taken from it. -/
theorem Draws.take (h : ev.Draws handle m vs m₁) (n : Nat) :
    ev.take handle (vs.length + n) m = (do return vs ++ (← ev.take handle n)) m₁ := by
  induction h with
  | nil m => rw [List.length_nil, Nat.zero_add, bind_apply]; cases ev.take handle n m <;> rfl
  | @cons v vs m m₁ m₂ hadvance _ ih =>
    rw [List.length_cons, Nat.add_right_comm, Evaluator.take, bind_ok hadvance]
    change (ev.take handle (vs.length + n) >>= fun vs => pure (v :: vs)) m₁ = _
    rw [bind_apply, ih, bind_apply, bind_apply]
    cases ev.take handle n m₂ <;> rfl

theorem Draws.take_all (h : ev.Draws handle m vs m₁) : ev.take handle vs.length m = .ok vs m₁ := by
  have htake := h.take 0
  rw [Nat.add_zero] at htake
  rw [htake]
  change EStateM.Result.ok (vs ++ []) m₁ = _
  rw [List.append_nil]

theorem Draws.take_end (h : ev.Draws handle m vs m₁) (hend : ev.advance handle m₁ = .ok none m₂)
    (hlength : vs.length < n) : ev.take handle n m = .ok vs m₂ := by
  obtain ⟨k, rfl⟩ := Nat.exists_eq_add_of_lt hlength
  rw [Nat.add_assoc, h.take, bind_apply, Evaluator.take, bind_ok hend]
  change EStateM.Result.ok (vs ++ []) m₂ = _
  rw [List.append_nil]

theorem Draws.take_error {a : Abort} (h : ev.Draws handle m vs m₁)
    (hfail : ev.advance handle m₁ = .error a m₂) (hlength : vs.length < n) :
    ev.take handle n m = .error a m₂ := by
  obtain ⟨k, rfl⟩ := Nat.exists_eq_add_of_lt hlength
  rw [Nat.add_assoc, h.take, bind_apply, Evaluator.take, bind_error hfail]

/-- An iterator gives a number of items, or ends or fails before. -/
theorem draws_cases (ev : Evaluator) (handle : Handle) (n : Nat) (m : Machine) :
    (∃ vs m₁, ev.Draws handle m vs m₁ ∧ vs.length = n) ∨
      ∃ vs m₁, ev.Draws handle m vs m₁ ∧ vs.length < n ∧
        ((∃ m₂, ev.advance handle m₁ = .ok none m₂) ∨
          ∃ a m₂, ev.advance handle m₁ = .error a m₂) := by
  induction n generalizing m with
  | zero => exact .inl ⟨[], m, .nil m, rfl⟩
  | succ n ih =>
    cases hadvance : ev.advance handle m with
    | error a m₁ => exact .inr ⟨[], m, .nil m, Nat.succ_pos n, .inr ⟨a, m₁, hadvance⟩⟩
    | ok item m₁ =>
      cases item with
      | none => exact .inr ⟨[], m, .nil m, Nat.succ_pos n, .inl ⟨m₁, hadvance⟩⟩
      | some v =>
        obtain ⟨vs, m₂, hdraws, hlength⟩ | ⟨vs, m₂, hdraws, hlength, hlast⟩ := ih m₁
        · exact .inl ⟨v :: vs, m₂, .cons hadvance hdraws, by simp [hlength]⟩
        · exact .inr ⟨v :: vs, m₂, .cons hadvance hdraws, by simpa using hlength, hlast⟩

/-! ## Tuples -/

theorem assign_name (x : String) (v : Value) (m : Machine) :
    ev.assign (.name x) v m = .ok () (m.around (m.frame.bindAll [(x, v)]) m.output) := by
  rw [assign]
  rfl

/-- A tuple that has taken its items. -/
def dealt (ev : Evaluator) (targets : List Target) (items : List Value) : Eval Unit :=
  if items.length = targets.length then ev.assignAll targets items
  else raise (.unpackMismatch targets.length (min items.length targets.length)
    (targets.length < items.length))

theorem assign_tuple (hiterate : v.iterate m = .ok handle m₁)
    (htake : ev.take handle (targets.length + 1) m₁ = .ok items m₂) :
    ev.assign (.tuple targets) v m = ev.dealt targets items m₂ := by
  rw [assign, bind_ok hiterate, bind_ok htake]
  rfl

theorem Deals.assign (h : ev.Deals targets.length v m items m₁) :
    ev.assign (.tuple targets) v m = ev.assignAll targets items m₁ := by
  obtain ⟨hiterate, hdraws, hlength, hend⟩ := h
  rw [assign_tuple hiterate (hdraws.take_end hend (by omega)), dealt, if_pos hlength]

theorem Rejects.assign (h : ev.Rejects targets.length v m asked e m₁) :
    ev.assign (.tuple targets) v m = .error (.failed e) m₁ := by
  cases h with
  | notIterable hiterate => rw [Evaluator.assign, bind_error hiterate]
  | failed hiterate hdraws hlength hfail =>
    rw [Evaluator.assign, bind_ok hiterate, bind_error (hdraws.take_error hfail (by omega))]
  | tooMany hiterate hdraws hlength =>
    have htake := hdraws.take_all
    rw [hlength] at htake
    rw [assign_tuple hiterate htake, dealt, if_neg (by omega), hlength, Nat.min_eq_right (by omega),
      decide_eq_true (by omega)]
    rfl
  | tooFew hiterate hdraws hlength hend =>
    rw [assign_tuple hiterate (hdraws.take_end hend (by omega)), dealt, if_neg (by omega),
      Nat.min_eq_left (by omega), decide_eq_false (by omega)]
    rfl

/-- A value is an iterator at once, or it is none. -/
theorem iterate_cases (v : Value) (m : Machine) :
    (∃ handle m₁, v.iterate m = .ok handle m₁) ∨ ∃ e m₁, v.iterate m = .error (.failed e) m₁ := by
  unfold Value.iterate
  split
  · exact .inl ⟨_, m, rfl⟩
  · cases v.sequence? with
    | some items => exact .inl ⟨_, _, rfl⟩
    | none => exact .inr ⟨_, m, rfl⟩

/-! ## In the middle of other code -/

theorem Draws.around (hev : ev.Secluded) (h : ev.Draws handle m vs m₁) (frame : Frame)
    (output : Array String) :
    ev.Draws handle (m.around frame output) vs (m₁.around frame output) := by
  induction h with
  | nil m => exact .nil _
  | cons hadvance _ ih => exact .cons ((hev handle).ok hadvance frame output) ih

theorem Deals.around (hev : ev.Secluded) (h : ev.Deals n v m items m₁) (frame : Frame)
    (output : Array String) :
    ev.Deals n v (m.around frame output) items (m₁.around frame output) := by
  obtain ⟨hiterate, hdraws, hlength, hend⟩ := h
  exact .intro ((secluded_iterate v).ok hiterate frame output) (hdraws.around hev frame output)
    hlength ((hev _).ok hend frame output)

theorem Rejects.around (hev : ev.Secluded) (h : ev.Rejects n v m asked e m₁) (frame : Frame)
    (output : Array String) :
    ev.Rejects n v (m.around frame output) asked e (m₁.around frame output) := by
  cases h with
  | notIterable hiterate => exact .notIterable ((secluded_iterate v).failed hiterate frame output)
  | failed hiterate hdraws hlength hfail =>
    exact .failed ((secluded_iterate v).ok hiterate frame output) (hdraws.around hev frame output)
      hlength ((hev _).failed hfail frame output)
  | tooMany hiterate hdraws hlength =>
    exact .tooMany ((secluded_iterate v).ok hiterate frame output) (hdraws.around hev frame output)
      hlength
  | tooFew hiterate hdraws hlength hend =>
    exact .tooFew ((secluded_iterate v).ok hiterate frame output) (hdraws.around hev frame output)
      hlength ((hev _).ok hend frame output)

/-- A value has the items for a tuple or is rejected, unless an advance exhausts the budget. -/
theorem deals_or_rejects (hev : ev.Secluded) (targets : List Target) (v : Value) (m : Machine) :
    (∃ items m₁, ev.Deals targets.length v m items m₁) ∨
      (∃ asked e m₁, ev.Rejects targets.length v m asked e m₁) ∨
      (∃ handle m₁, ¬ Outcome.Ended (ev.advance handle m₁)) ∧
        ∀ frame output, ¬ Outcome.Ended (ev.assign (.tuple targets) v (m.around frame output)) := by
  obtain ⟨handle, m₁, hiterate⟩ | ⟨e, m₁, hiterate⟩ := iterate_cases v m
  · obtain ⟨vs, m₂, hdraws, hlength⟩ | ⟨vs, m₂, hdraws, hlength, hlast⟩ :=
      draws_cases ev handle (targets.length + 1) m₁
    · exact .inr (.inl ⟨_, _, m₂, .tooMany hiterate hdraws hlength⟩)
    · obtain ⟨m₃, hend⟩ | ⟨a, m₃, hfail⟩ := hlast
      · by_cases hexact : vs.length = targets.length
        · exact .inl ⟨vs, m₃, .intro hiterate hdraws hexact hend⟩
        · exact .inr (.inl ⟨_, _, m₃, .tooFew hiterate hdraws (by omega) hend⟩)
      · cases a with
        | failed e => exact .inr (.inl ⟨_, e, m₃, .failed hiterate hdraws (by omega) hfail⟩)
        | exhausted =>
          have hexhausted : ¬ Outcome.Ended (ev.advance handle m₂) := by
            rw [hfail]
            exact id
          refine .inr (.inr ⟨⟨handle, m₂, hexhausted⟩, fun frame output hended => ?_⟩)
          -- then the advance exhausts the budget in the middle of other code as well
          obtain ⟨m₄, hfail⟩ := (hev handle).exhausted hexhausted frame output
          have htake := (hdraws.around hev frame output).take_error hfail hlength
          rw [Evaluator.assign, bind_ok ((secluded_iterate v).ok hiterate frame output),
            bind_error htake] at hended
          exact hended
  · exact .inr (.inl ⟨0, e, m₁, .notIterable hiterate⟩)

/-! ## Assignments -/

mutual

/-- An assignment binds the names of a target that takes the value. -/
theorem Unpacks.assign (hev : ev.Secluded) : ∀ {t : Target} {v : Value} {m m₁ : Machine}
    {bs : Scope}, ev.Unpacks t v m bs m₁ → ∀ frame output,
    ev.assign t v (m.around frame output) = .ok () (m₁.around (frame.bindAll bs) output)
  | _, _, _, _, _, .name x v m, frame, output => assign_name x v _
  | _, _, _, _, _, .tuple hdeals hall, frame, output => by
    rw [(hdeals.around hev frame output).assign]
    exact hall.assignAll hev frame output

theorem UnpacksAll.assignAll (hev : ev.Secluded) : ∀ {targets : List Target} {vs : List Value}
    {m m₁ : Machine} {bs : Scope}, ev.UnpacksAll targets vs m bs m₁ → ∀ frame output,
    ev.assignAll targets vs (m.around frame output) = .ok () (m₁.around (frame.bindAll bs) output)
  | _, _, _, _, _, .nil m, frame, output => by
    unfold Evaluator.assignAll
    rfl
  | _, _, _, _, _, .cons hfirst hrest, frame, output => by
    -- the first names are bound already, but the iterators of the rest do not see them
    rw [Evaluator.assignAll, bind_ok (hfirst.assign hev frame output), Frame.bindAll_append]
    exact hrest.assignAll hev _ output

end

mutual

/-- An assignment that fails has bound the names before the tuple that fails. -/
theorem Breaks.assign (hev : ev.Secluded) : ∀ {t : Target} {v : Value} {m m₁ : Machine}
    {place : List Nat} {bs : Scope} {e : EvalError}, ev.Breaks t v m place bs e m₁ →
    ∀ frame output, ev.assign t v (m.around frame output) =
      .error (.failed e) (m₁.around (frame.bindAll bs) output)
  | _, _, _, _, _, _, _, .here hrejects, frame, output => (hrejects.around hev frame output).assign
  | _, _, _, _, _, _, _, .inside hdeals hbreaks, frame, output => by
    rw [(hdeals.around hev frame output).assign]
    exact hbreaks.assignAll hev frame output

theorem BreaksAll.assignAll (hev : ev.Secluded) : ∀ {targets : List Target} {vs : List Value}
    {m m₁ : Machine} {place : List Nat} {bs : Scope} {e : EvalError},
    ev.BreaksAll targets vs m place bs e m₁ →
    ∀ frame output, ev.assignAll targets vs (m.around frame output) =
      .error (.failed e) (m₁.around (frame.bindAll bs) output)
  | _, _, _, _, _, _, _, .head hbreaks, frame, output => by
    rw [Evaluator.assignAll, bind_error (hbreaks.assign hev frame output)]
  | _, _, _, _, _, _, _, .tail hfirst hbreaks, frame, output => by
    rw [Evaluator.assignAll, bind_ok (hfirst.assign hev frame output), Frame.bindAll_append]
    exact hbreaks.assignAll hev _ output

end

mutual

/-- A target takes a value or breaks at a tuple, unless an advance exhausts the budget. -/
theorem unpacks_or_breaks (hev : ev.Secluded) : ∀ (t : Target) (v : Value) (m : Machine),
    (∃ bs m₁, ev.Unpacks t v m bs m₁) ∨ (∃ place bs e m₁, ev.Breaks t v m place bs e m₁) ∨
      (∃ handle m₁, ¬ Outcome.Ended (ev.advance handle m₁)) ∧
        ∀ frame output, ¬ Outcome.Ended (ev.assign t v (m.around frame output))
  | .name x, v, m => .inl ⟨[(x, v)], m, .name x v m⟩
  | .tuple targets, v, m => by
    -- the tuple has taken all its items before the first of them is looked into
    obtain ⟨items, m₁, hdeals⟩ | ⟨asked, e, m₁, hrejects⟩ | hexhausted :=
      deals_or_rejects hev targets v m
    · obtain ⟨bs, m₂, hall⟩ | ⟨place, bs, e, m₂, hbreaks⟩ | ⟨hadvance, hall⟩ :=
        unpacksAll_or_breaksAll hev targets items m₁ (by cases hdeals; assumption)
      · exact .inl ⟨bs, m₂, .tuple hdeals hall⟩
      · exact .inr (.inl ⟨place, bs, e, m₂, .inside hdeals hbreaks⟩)
      · refine .inr (.inr ⟨hadvance, fun frame output => ?_⟩)
        rw [(hdeals.around hev frame output).assign]
        exact hall frame output
    · exact .inr (.inl ⟨[], [], e, m₁, .here hrejects⟩)
    · exact .inr (.inr hexhausted)

theorem unpacksAll_or_breaksAll (hev : ev.Secluded) : ∀ (targets : List Target) (vs : List Value)
    (m : Machine), vs.length = targets.length →
    (∃ bs m₁, ev.UnpacksAll targets vs m bs m₁) ∨
      (∃ place bs e m₁, ev.BreaksAll targets vs m place bs e m₁) ∨
      (∃ handle m₁, ¬ Outcome.Ended (ev.advance handle m₁)) ∧
        ∀ frame output, ¬ Outcome.Ended (ev.assignAll targets vs (m.around frame output))
  | [], [], m, _ => .inl ⟨[], m, .nil m⟩
  | t :: targets, v :: vs, m, hlength => by
    obtain ⟨bs, m₁, hfirst⟩ | ⟨place, bs, e, m₁, hbreaks⟩ | ⟨hadvance, hfirst⟩ :=
      unpacks_or_breaks hev t v m
    · obtain ⟨bs', m₂, hrest⟩ | ⟨place, bs', e, m₂, hbreaks⟩ | ⟨hadvance, hrest⟩ :=
        unpacksAll_or_breaksAll hev targets vs m₁ (by simpa using hlength)
      · exact .inl ⟨bs ++ bs', m₂, .cons hfirst hrest⟩
      · cases hbreaks with
        | head hbreaks => exact .inr (.inl ⟨_, _, e, m₂, .tail hfirst (.head hbreaks)⟩)
        | tail hnext hbreaks => exact .inr (.inl ⟨_, _, e, m₂, .tail hfirst (.tail hnext hbreaks)⟩)
      · refine .inr (.inr ⟨hadvance, fun frame output hended => ?_⟩)
        rw [Evaluator.assignAll, bind_ok (hfirst.assign hev frame output)] at hended
        exact hrest _ output hended
    · exact .inr (.inl ⟨_, bs, e, m₁, .head hbreaks⟩)
    · refine .inr (.inr ⟨hadvance, fun frame output hended => ?_⟩)
      rw [Evaluator.assignAll] at hended
      exact hfirst frame output hended.of_bind

end

/-- An assignment binds the names of the target or those before the tuple that fails, unless an
advance exhausts the budget. -/
theorem assign_cases (hev : ev.Secluded) (t : Target) (v : Value) (m : Machine) :
    (∃ bs m₁, ev.Unpacks t v m bs m₁ ∧
      ev.assign t v m = .ok () (m₁.around (m.frame.bindAll bs) m.output)) ∨
    (∃ place bs e m₁, ev.Breaks t v m place bs e m₁ ∧
      ev.assign t v m = .error (.failed e) (m₁.around (m.frame.bindAll bs) m.output)) ∨
    (∃ handle m₁, ¬ Outcome.Ended (ev.advance handle m₁)) ∧ ¬ Outcome.Ended (ev.assign t v m) := by
  obtain ⟨bs, m₁, hu⟩ | ⟨place, bs, e, m₁, hb⟩ | ⟨hadvance, hnone⟩ := unpacks_or_breaks hev t v m
  · exact .inl ⟨bs, m₁, hu, hu.assign hev m.frame m.output⟩
  · exact .inr (.inl ⟨place, bs, e, m₁, hb, hb.assign hev m.frame m.output⟩)
  · exact .inr (.inr ⟨hadvance, hnone m.frame m.output⟩)

/-- An assignment succeeds exactly if all items can be read. -/
theorem assign_eq_ok_iff (hev : ev.Secluded) {t : Target} {v : Value} {m m' : Machine} :
    ev.assign t v m = .ok () m' ↔
      ∃ bs m₁, ev.Unpacks t v m bs m₁ ∧ m' = m₁.around (m.frame.bindAll bs) m.output := by
  constructor
  · intro h
    obtain ⟨bs, m₁, hu, hok⟩ | ⟨place, bs, e, m₁, -, herror⟩ | ⟨-, hnone⟩ := assign_cases hev t v m
    · rw [hok] at h
      cases h
      exact ⟨bs, m₁, hu, rfl⟩
    · rw [herror] at h
      cases h
    · rw [h] at hnone
      exact (hnone trivial).elim
  · rintro ⟨bs, m₁, hu, rfl⟩
    exact hu.assign hev m.frame m.output

/-- An assignment fails exactly if some tuple rejects its value. -/
theorem assign_eq_failed_iff (hev : ev.Secluded) {t : Target} {v : Value} {m m' : Machine}
    {e : EvalError} : ev.assign t v m = .error (.failed e) m' ↔
      ∃ place bs m₁, ev.Breaks t v m place bs e m₁ ∧
        m' = m₁.around (m.frame.bindAll bs) m.output := by
  constructor
  · intro h
    obtain ⟨bs, m₁, -, hok⟩ | ⟨place, bs, e', m₁, hb, herror⟩ | ⟨-, hnone⟩ := assign_cases hev t v m
    · rw [hok] at h
      cases h
    · rw [herror] at h
      cases h
      exact ⟨place, bs, m₁, hb, rfl⟩
    · rw [h] at hnone
      exact (hnone trivial).elim
  · rintro ⟨place, bs, m₁, hb, rfl⟩
    exact hb.assign hev m.frame m.output

/-! ## Names -/

mutual

theorem Unpacks.names : ∀ {t : Target} {v : Value} {m m₁ : Machine} {bs : Scope},
    ev.Unpacks t v m bs m₁ → bs.map Prod.fst = t.names
  | _, _, _, _, _, .name x v m => rfl
  | _, _, _, _, _, .tuple _ hall => hall.names

theorem UnpacksAll.names : ∀ {targets : List Target} {vs : List Value} {m m₁ : Machine}
    {bs : Scope}, ev.UnpacksAll targets vs m bs m₁ → bs.map Prod.fst = Target.namesAll targets
  | _, _, _, _, _, .nil m => rfl
  | _, _, _, _, _, .cons hfirst hrest => by
    rw [List.map_append, hfirst.names, hrest.names, Target.namesAll]

end

/-- The tuple at a place of a target rejects its value, and the names before it are bound. -/
structure BrokenAt (ev : Evaluator) (t : Target) (place : List Nat) (bs : Scope) (e : EvalError)
    (m₁ : Machine) : Prop where
  names : bs.map Prod.fst = t.namesBefore place
  rejects : ∃ targets v m asked, t.at? place = some (.tuple targets) ∧
    ev.Rejects targets.length v m asked e m₁ ∧ asked ≤ targets.length + 1

theorem Rejects.asked_le (h : ev.Rejects n v m asked e m₁) : asked ≤ n + 1 := by
  cases h <;> omega

mutual

theorem Breaks.brokenAt : ∀ {t : Target} {v : Value} {m m₁ : Machine} {place : List Nat}
    {bs : Scope} {e : EvalError}, ev.Breaks t v m place bs e m₁ → ev.BrokenAt t place bs e m₁
  | _, _, _, _, _, _, _, .here hrejects =>
    ⟨rfl, _, _, _, _, rfl, hrejects, hrejects.asked_le⟩
  | _, _, _, _, _, _, _, .inside _ hbreaks => hbreaks.brokenAt

theorem BreaksAll.brokenAt : ∀ {targets : List Target} {vs : List Value} {m m₁ : Machine}
    {place : List Nat} {bs : Scope} {e : EvalError},
    ev.BreaksAll targets vs m place bs e m₁ → ev.BrokenAt (.tuple targets) place bs e m₁
  | _, _, _, _, _, _, _, .head hbreaks => by
    obtain ⟨hnames, hrejects⟩ := hbreaks.brokenAt
    exact ⟨by simpa [Target.namesBefore, Target.namesAll] using hnames,
      by simpa [Target.at?] using hrejects⟩
  | _, _, _, _, _, _, _, .tail hfirst hbreaks => by
    obtain ⟨hnames, hrejects⟩ := hbreaks.brokenAt
    refine ⟨?_, by simpa [Target.at?] using hrejects⟩
    rw [List.map_append, hfirst.names, hnames]
    simp [Target.namesBefore, Target.namesAll]

end

/-! ## The reference -/

/-- If a value has given more items than the outermost tuple has targets, or has ended before, an
assignment fails and binds nothing. -/
structure Miscounted (ev : Evaluator) (t : Target) (v : Value) (m : Machine) (targets items : Nat)
    (handle : Handle) (m₂ : Machine) : Prop where
  tooMany : items = targets + 1 → ev.assign t v m =
    .error (.failed (.ofCause (.unpackMismatch targets targets true)))
      (m₂.around m.frame m.output)
  tooFew : items < targets → ∀ m₃, ev.advance handle m₂ = .ok none m₃ → ev.assign t v m =
    .error (.failed (.ofCause (.unpackMismatch targets items false))) (m₃.around m.frame m.output)

/-- What an assignment does: it reads all items, and binds the names that come before the tuple that
rejects its value, or all of them. -/
structure Destructures (ev : Evaluator) (t : Target) (v : Value) (m : Machine) : Prop where
  success : ∀ m', ev.assign t v m = .ok () m' ↔
    ∃ bs m₁, ev.Unpacks t v m bs m₁ ∧ m' = m₁.around (m.frame.bindAll bs) m.output
  failure : ∀ e m', ev.assign t v m = .error (.failed e) m' ↔
    ∃ place bs m₁, ev.Breaks t v m place bs e m₁ ∧ m' = m₁.around (m.frame.bindAll bs) m.output
  names : ∀ bs m₁, ev.Unpacks t v m bs m₁ → bs.map Prod.fst = t.names
  brokenAt : ∀ place bs e m₁, ev.Breaks t v m place bs e m₁ → ev.BrokenAt t place bs e m₁
  miscounted : ∀ targets handle items m₁ m₂, t = .tuple targets → v.iterate m = .ok handle m₁ →
    ev.Draws handle m₁ items m₂ → ev.Miscounted t v m targets.length items.length handle m₂
  last : ∀ bs x, Bindings.lookup? x (m.frame.bindAll bs).env.inner =
    (Bindings.lookup? x bs.reverse).or (Bindings.lookup? x m.frame.env.inner)
  scope : Outcome.Ended (ev.assign t v m) →
    m.OnlyBinds t.names (Outcome.machine (ev.assign t v m))
  ends : (∀ handle m₁, Outcome.Ended (ev.advance handle m₁)) → Outcome.Ended (ev.assign t v m)

theorem Secluded.destructures (hev : ev.Secluded) (t : Target) (v : Value) (m : Machine) :
    ev.Destructures t v m := by
  constructor
  case success => exact fun m' => assign_eq_ok_iff hev
  case failure => exact fun e m' => assign_eq_failed_iff hev
  case names => exact fun bs m₁ h => h.names
  case brokenAt => exact fun place bs e m₁ h => h.brokenAt
  case miscounted =>
    rintro targets handle items m₁ m₂ rfl hiterate hdraws
    constructor
    -- the outermost tuple rejects the value, so no name comes before
    · intro hlength
      exact Breaks.assign hev (.here (.tooMany hiterate hdraws hlength)) m.frame m.output
    · intro hlength m₃ hend
      exact Breaks.assign hev (.here (.tooFew hiterate hdraws hlength hend)) m.frame m.output
  case last => exact fun bs x => Bindings.lookup?_merge_reverse _ bs x
  case scope =>
    intro hended
    obtain ⟨bs, m₁, hu, hok⟩ | ⟨place, bs, e, m₁, hb, herror⟩ | ⟨-, hnone⟩ := assign_cases hev t v m
    · rw [hok]
      exact m.onlyBinds_bindAll (hu.names ▸ List.Subset.refl _) m₁
    · rw [herror]
      exact m.onlyBinds_bindAll (hb.brokenAt.names ▸ (t.namesBefore_prefix place).subset) m₁
    · exact absurd hended hnone
  case ends =>
    intro hends
    obtain ⟨bs, m₁, -, hok⟩ | ⟨place, bs, e, m₁, -, herror⟩ | ⟨⟨handle, m₁, hadvance⟩, -⟩ :=
      assign_cases hev t v m
    · rw [hok]
      trivial
    · rw [herror]
      trivial
    · exact absurd (hends handle m₁) hadvance

end Evaluator

/-- **Destructuring reads all items and then binds names.** It succeeds if each tuple meets a value
with as many items as it has targets. Then each name of the target is bound to the item at its
place, and to the last one if it is repeated. If a tuple meets another value, the names before the
tuple are bound, which are none for the outermost one. A tuple asks its value for at most one item
more than it has targets, so an assignment ends if each advance does. The iterators of all
evaluators are advanced without a look at the variables. -/
theorem destructuring_reads_then_binds :
    (∀ budget, (Evaluator.within budget).Secluded) ∧
    ∀ ev : Evaluator, ev.Secluded → ∀ (t : Target) (v : Value) (m : Machine),
      ev.Destructures t v m :=
  ⟨Evaluator.secluded_within, fun _ hev t v m => hev.destructures t v m⟩

/-- A name that occurs twice, a number where a tuple is expected, and an iterator without an end. -/
theorem destructuring_reads_then_binds_nested :
    let ev := Evaluator.within 3
    let endless : Evaluator := ⟨fun _ => return .none, fun _ => return some (.int 0), 0⟩
    let twice := Target.tuple [.name "a", .name "a"]
    let nested := Target.tuple [.name "a", .tuple [.name "b"]]
    let v := Value.list [.int 1, .int 2]
    let m := Machine.start 0 0 .first (.ofVars [("a", .none), ("c", .none)] 2)
    ev.Secluded ∧ endless.Secluded ∧
      (∃ bs m₁, ev.Unpacks twice v m bs m₁ ∧ bs.map Prod.fst = ["a", "a"]) ∧
      (∃ place bs e m₁, ev.Breaks nested v m place bs e m₁ ∧ ev.BrokenAt nested place bs e m₁) ∧
      endless.assign nested (.iterator 0) m =
        .error (.failed (.ofCause (.unpackMismatch 2 2 true))) m := by
  intro ev endless twice nested v m
  have hev : ev.Secluded := destructuring_reads_then_binds.1 3
  have hendless : endless.Secluded := fun _ => .pure _
  have hok : ∃ m', ev.assign twice v m = .ok () m' := ⟨_, rfl⟩
  have hfails : ∃ e m', ev.assign nested v m = .error (.failed e) m' := ⟨_, _, rfl⟩
  refine ⟨hev, hendless, ?_, ?_, ?_⟩
  · obtain ⟨m', hok⟩ := hok
    have hreference := destructuring_reads_then_binds.2 ev hev twice v m
    obtain ⟨bs, m₁, hunpacks, -⟩ := (hreference.success m').1 hok
    exact ⟨bs, m₁, hunpacks, hreference.names bs m₁ hunpacks⟩
  · obtain ⟨e, m', hfails⟩ := hfails
    have hreference := destructuring_reads_then_binds.2 ev hev nested v m
    obtain ⟨place, bs, m₁, hbreaks, -⟩ := (hreference.failure e m').1 hfails
    exact ⟨place, bs, e, m₁, hbreaks, hreference.brokenAt place bs e m₁ hbreaks⟩
  · have hreference := destructuring_reads_then_binds.2 endless hendless nested (.iterator 0) m
    have hdraws : endless.Draws 0 m [.int 0, .int 0, .int 0] m :=
      .cons rfl (.cons rfl (.cons rfl (.nil m)))
    have hrejects : endless.Rejects 2 (.iterator 0) m 3 (.ofCause (.unpackMismatch 2 2 true)) m :=
      .tooMany rfl hdraws rfl
    exact (hreference.failure _ m).2 ⟨[], [], m, .here hrejects, rfl⟩

end Templating
