import Templating.Proofs.Eval.Steady

/-!
# Advances of iterators that run no code

An iterator over a sequence or a range, or one that the functions on sequences make of other
iterators, only changes the store when it is advanced. What it does is given step by step here.

* `Yields`: a computation that changes nothing but the store.
* `Steps`, `Pulls`, `PullsEach`: a step of a cursor, an advance, and one of each of some iterators.
* `Pulls.of_steps`: an advance is a step of the cursor while the iterator is marked.
* `Steps.enumerate`, `Steps.marked`, `Steps.zip` and so on: **a step for every kind of cursor**,
  given the advances of the iterators inside.
-/

namespace Templating

open Eval

/-- The index after the one of an item. -/
def Markers.following (markers : Markers) (index : Int64) : Int64 :=
  if markers.index then addSaturating index 1 else index

/-- What is known of the next item once one has been taken in advance. -/
def Markers.lookahead (markers : Markers) (next : Option Value) : Lookahead :=
  if markers.last then (match next with
    | some v => .pending v
    | none => .ended)
  else .unknown

namespace Markers

variable {markers : Markers}

theorem lookahead_of_not_last (h : markers.last = false) (next : Option Value) :
    markers.lookahead next = .unknown := by
  simp [lookahead, h]

theorem lookahead_none (h : markers.last) : markers.lookahead none = .ended := by
  simp [lookahead, h]

theorem lookahead_some (h : markers.last) (v : Value) :
    markers.lookahead (some v) = .pending v := by
  simp [lookahead, h]

/-- The mark of the last item does not show. -/
theorem row_of_not_last (h : markers.last = false) (index : Int64) (first isLast isLast' : Bool)
    (v : Value) : markers.row index first isLast v = markers.row index first isLast' v := by
  simp [row, h]

/-- The index does not show. -/
theorem row_congr {i j : Int64} (h : markers.index → i = j) (first isLast : Bool) (v : Value) :
    markers.row i first isLast v = markers.row j first isLast v := by
  unfold row
  split
  · rw [h ‹_›]
  · rfl

end Markers

/-- From a store, a computation gives a result and leads to another store, and changes nothing
else. -/
def Yields {α : Type} (s : Array Cell) (x : Program α) (a : α) (s' : Array Cell) : Prop :=
  ∀ m : Machine, Gives x { m with store := s } (.ok a { m with store := s' })

/-- An advance of an iterator takes an item or comes to the end. -/
abbrev Pulls (s : Array Cell) (h : Handle) (item : Option Value) (s' : Array Cell) : Prop :=
  Yields s (fun ev => ev.advance h) item s'

/-- A step of a cursor leads to another one. -/
abbrev Steps (s : Array Cell) (cursor cursor' : Cursor) (item : Option Value) (s' : Array Cell) :
    Prop :=
  Yields s (fun ev => ev.step cursor) (cursor', .ok item) s'

/-- An item of each of some iterators is taken, or one of them has come to its end. -/
abbrev PullsEach (s : Array Cell) (hs : List Handle) (items : Option (List Value))
    (s' : Array Cell) : Prop :=
  Yields s (fun ev => ev.row hs) items s'

variable {s s' s'' : Array Cell} {h inner : Handle} {inners : List Handle} {cursor cursor' : Cursor}
  {item next : Option Value} {items : Option (List Value)} {v : Value} {index : Int64}
  {first : Bool} {markers : Markers} {rest : List Value}

namespace Yields

variable {α β : Type} {x : Program α} {k : α → Program β} {a : α} {b : β}

theorem pure (a : α) : Yields s (fun _ => Pure.pure a) a s := fun _ => .action rfl trivial

theorem bind (hx : Yields s x a s') (hk : Yields s' (k a) b s'') :
    Yields s (fun ev => x ev >>= fun a => k a ev) b s'' := fun m => (hx m).bind_ok (hk m)

theorem attempt (hx : Yields s x a s') : Yields s (fun ev => Eval.attempt (x ev)) (.ok a) s' := by
  intro m
  refine Halts.runs.attempt (hx m) ?_ ?_
  · rintro _ _ ⟨⟩
    rfl
  · rintro _ _ ⟨⟩

theorem allocate (cursor : Cursor) :
    Yields s (fun _ => Eval.allocate cursor) s.size (s.push ⟨cursor, false⟩) :=
  fun _ => .action rfl trivial

end Yields

/-- An advance is a step of the cursor while the iterator is marked. -/
theorem Pulls.of_steps (hcell : s[h]? = some ⟨cursor, false⟩)
    (hstep : Steps (s.setIfInBounds h ⟨cursor, true⟩) cursor cursor' item s') :
    Pulls s h item (s'.setIfInBounds h ⟨cursor', false⟩) := by
  intro m
  refine Halts.advance (Halts.runs.advanceCell hcell (hstep m) ?_ ?_)
  · rintro _ _ _ ⟨⟩
    rfl
  · rintro _ _ _ ⟨⟩

namespace PullsEach

theorem nil : PullsEach s [] (some []) s := .pure _

/-- The iterators after one that has come to its end are left alone. -/
theorem ended (hpull : Pulls s inner none s') : PullsEach s (inner :: inners) none s' :=
  hpull.bind (.pure _)

theorem cons (hpull : Pulls s inner (some v) s') (heach : PullsEach s' inners items s'') :
    PullsEach s (inner :: inners) (items.map (v :: ·)) s'' :=
  hpull.bind (heach.bind (.pure _))

end PullsEach

namespace Steps

theorem items_nil : Steps s (.items []) (.items []) none s := .pure _

theorem items_cons : Steps s (.items (v :: rest)) (.items rest) (some v) s := .pure _

theorem range_zero {step : Int64} : Steps s (.range index step 0) (.range index step 0) none s :=
  .pure _

theorem range_succ {step : Int64} {remaining : Nat} :
    Steps s (.range index step (remaining + 1)) (.range (addSaturating index step) step remaining)
      (some (.int index)) s := .pure _

theorem enumerate_ended (hpull : Pulls s inner none s') :
    Steps s (.enumerate inner index) (.enumerate inner index) none s' :=
  hpull.attempt.bind (.pure _)

theorem enumerate (hpull : Pulls s inner (some v) s') :
    Steps s (.enumerate inner index) (.enumerate inner (addSaturating index 1))
      (some (.list [.int index, v])) s' :=
  hpull.attempt.bind (.pure _)

theorem zip_nil : Steps s (.zip []) (.zip []) none s := .pure _

theorem zip (heach : PullsEach s (inner :: inners) items s') :
    Steps s (.zip (inner :: inners)) (.zip (inner :: inners)) (items.map .list) s' :=
  heach.attempt.bind (.pure _)

/-! ### Markers -/

theorem marked_ended : Steps s (.flagged inner markers index first .ended)
    (.flagged inner markers index first .ended) none s := .pure _

theorem marked_unknown_ended (hpull : Pulls s inner none s') :
    Steps s (.flagged inner markers index first .unknown)
      (.flagged inner markers index first .ended) none s' :=
  hpull.attempt.bind (.pure _)

/-- An item that is not at hand is taken first. -/
theorem marked_unknown (hpull : Pulls s inner (some v) s')
    (hstep : Steps s' (.flagged inner markers index first (.pending v)) cursor' item s'') :
    Steps s (.flagged inner markers index first .unknown) cursor' item s'' :=
  hpull.attempt.bind hstep

/-- The item at hand. If the last item is marked, the next one is taken in advance. -/
theorem marked (hnext : if markers.last then Pulls s inner next s' else next = none ∧ s' = s) :
    Steps s (.flagged inner markers index first (.pending v))
      (.flagged inner markers (markers.following index) false (markers.lookahead next))
      (some (markers.row index first next.isNone v)) s' := by
  have hrun : Yields s (fun ev => ev.stepFlagged inner markers index first (some v))
      (.flagged inner markers (markers.following index) false (markers.lookahead next),
        .ok (some (markers.row index first next.isNone v))) s' := by
    unfold Evaluator.stepFlagged Markers.lookahead
    cases hlast : markers.last with
    | false =>
      rw [hlast] at hnext
      obtain ⟨rfl, rfl⟩ := hnext
      exact .pure _
    | true =>
      rw [hlast] at hnext
      refine Yields.bind (Yields.attempt hnext) ?_
      cases next <;> exact .pure _
  exact hrun

end Steps

end Templating
