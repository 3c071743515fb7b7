import Templating.Proofs.Eval.Twin

/-!
# A spare iterator

An iterator that nothing refers to makes no difference to an evaluation: it only has a place in the
store, so that the iterators made after it have other places.

* `Spare.place`: where an iterator is when there is a spare one.
* `Spare.Twins`: two machines that differ in a spare iterator of the second one, and in what they
  have put out.
* `Spare.Agree`: their runs end alike and put out the same.
* `Machine.IsClosed.run`: **evaluation keeps to the iterators that there are**, since a spare one
  makes no difference to it.
-/

namespace Templating

open Carries (handles rename)

open Eval Knowledge

/-- All iterators that the store and the variables refer to are in the store. -/
structure Machine.IsClosed (m : Machine) : Prop where
  cells : ∀ (i : Handle) (cell : Cell), m.store[i]? = some cell →
    ∀ h ∈ handles cell, h < m.store.size
  frame : ∀ h ∈ handles m.frame, h < m.store.size

namespace Spare

/-- There is one more iterator at a place. -/
abbrev shift (k : Handle) : Shift := ⟨k, 1, Set.univ⟩

/-- Where an iterator is if there is a spare one at a place. -/
abbrev place (k : Handle) : Handle → Handle := (shift k).place

/-- The iterators below a number are known. In the second run there is a spare one. -/
abbrev knowledge (k : Handle) : Knowledge Nat := (shift k).knowledge

/-- Two machines of which the second one has a spare iterator at a place. What they have put out may
be different. -/
abbrev Twins (k : Handle) (m m' : Machine) : Prop := (shift k).Twins (shift k).Inside m m'

/-- Two machines after a while. Both have put out the same meanwhile. -/
abbrev Follow (k : Handle) (m m' n n' : Machine) : Prop :=
  (shift k).Follow (shift k).Inside m m' n n'

/-- Two runs from two machines end alike. -/
abbrev Agree (k : Handle) (m m' : Machine) {α : Type} (Q : Nat → α → α → Prop)
    (r r' : Outcome α) : Prop := (shift k).Agree (shift k).Inside m m' Q r r'

/-- Two computations end alike if they begin with machines that differ in a spare iterator. -/
abbrev Judges (k : Handle) (ev : Evaluator) : Judgement Nat :=
  (shift k).Judges (shift k).Inside ev

variable {k h n : Handle} {m m' : Machine}

/-- All iterators of the first machine are known. -/
theorem known_iff : (knowledge k).known n h ↔ h < n :=
  ⟨fun hh => hh.1, fun hlt => ⟨hlt, fun _ => trivial⟩⟩

/-- Whatever happens to the spare iterator. -/
theorem setSpare (h : Twins k m m') (cell : Cell) :
    Twins k m { m' with store := m'.store.setIfInBounds k cell } :=
  h.setFurther le_rfl (Nat.lt_succ_self k) cell

/-! ## Machines without dangling iterators -/

theorem isClosed (h : Twins k m m') : m.IsClosed where
  cells := by
    intro i cell hcell j hj
    have hknown := (h.cells i fun _ => trivial).2
    rw [hcell, handles_some] at hknown
    exact (hknown j hj).1
  frame := fun i hi => (h.frame.2 i hi).1

/-- A machine, and the same machine with a new iterator. -/
theorem twins_push (hm : m.IsClosed) (cell : Cell) :
    Twins m.store.size m { m with store := m.store.push cell } := by
  have hold {α : Type} [Carries α] {a : α} (h : ∀ i ∈ handles a, i < m.store.size) :
      (knowledge m.store.size).Along m.store.size a a :=
    ⟨((Carries.rename_eq_self_iff _ a).2 fun i hi => Shift.place_of_lt (h i hi)).symm,
      fun i hi => known_iff.2 (h i hi)⟩
  refine ⟨le_rfl, by simp, fun i _ => ?_, hold hm.frame, rfl, rfl, rfl⟩
  by_cases hi : i < m.store.size
  · rw [Shift.place_of_lt hi, Array.getElem?_push_lt hi, Array.getElem?_eq_getElem hi]
    refine hold fun j hj => hm.cells i _ (Array.getElem?_eq_getElem hi) j ?_
    rwa [handles_some] at hj
  · have hle := Nat.not_lt.1 hi
    rw [Shift.place_of_le hle, Array.getElem?_eq_none hle,
      Array.getElem?_eq_none (by simpa using hle)]
    exact .none

end Spare

/-- **Evaluation keeps to the iterators that there are.** A spare iterator shows which ones a run
knows of. -/
theorem Machine.IsClosed.run {m : Machine} (hm : m.IsClosed) {α : Type} {ev : Evaluator}
    {x : Program α} {Q : Nat → α → α → Prop}
    (hx : Spare.Judges m.store.size ev m.store.size Q x x) (hended : Outcome.Ended (x ev m)) :
    (Outcome.machine (x ev m)).IsClosed ∧ m.store.size ≤ (Outcome.machine (x ev m)).store.size ∧
      ∀ a m₁, x ev m = .ok a m₁ → ∃ b, Q m₁.store.size a b := by
  have hagree : Spare.Agree m.store.size m _ Q (x ev m) (x ev _) :=
    hx m _ rfl (Spare.twins_push hm ⟨.items [], false⟩)
  generalize x ev m = r at hagree hended ⊢
  generalize x ev _ = r' at hagree
  cases hagree with
  | ok hfollow hQ =>
    refine ⟨Spare.isClosed hfollow.twins, hfollow.le, ?_⟩
    rintro _ _ ⟨⟩
    exact ⟨_, hQ⟩
  | failed hfollow =>
    refine ⟨Spare.isClosed hfollow.twins, hfollow.le, ?_⟩
    rintro _ _ ⟨⟩
  | exhausted => exact hended.elim

end Templating
