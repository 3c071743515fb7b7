import Templating.Eval.Cursor
import Templating.Proofs.Tracked.Basic

/-!
# Steps of iterators with known iterators

* `Cursor.IsOwn`: a position of an iterator that the language makes itself.
* `Sequential.step`: **one step of an iterator without a frame of its own.**
-/

namespace Templating

open Carries (handles rename)

open Eval Knowledge

/-- A position of an iterator whose items do not come from outside. -/
def Cursor.IsOwn : Cursor → Prop
  | .supplied .. | .relay _ => False
  | _ => True

theorem Cursor.IsBuiltin.isSimple {cursor : Cursor} (h : cursor.IsBuiltin) : cursor.IsSimple := by
  cases cursor <;> trivial

theorem Cursor.IsBuiltin.isOwn {cursor : Cursor} (h : cursor.IsBuiltin) : cursor.IsOwn := by
  cases cursor <;> trivial

theorem Markers.natural_row (markers : Markers) (index : Int64) (first last : Bool) :
    Natural (markers.row index first last) := by
  intro ρ _ v
  unfold Markers.row
  cases markers.index <;> cases markers.first <;> cases markers.last <;> rfl

namespace Knowledge

variable {W : Type} [Preorder W] (K : Knowledge W)

/-- Where an iterator stands after a step from a position, and the item or the error. -/
structure Stepped (cursor : Cursor) (w : W)
    (r r' : Cursor × Except EvalError (Option Value)) : Prop where
  simple : r.1.IsSimple
  own : cursor.IsOwn → r.1.IsOwn
  cursor : K.Along w r.1 r'.1
  result : K.OrFails K.Along w r.2 r'.2

end Knowledge

namespace Sequential

variable {W : Type} [Preorder W] {K : Knowledge W} {J : Judgement W} {w : W}
  (hJ : Sequential K J)

include hJ

/-- One item of each of some iterators. -/
theorem row {hs hs' : List Handle} (hh : K.FindsAll w hs hs') :
    J w K.Along (fun ev => ev.row hs) (fun ev => ev.row hs') := by
  obtain ⟨rfl, hknown⟩ := hh
  induction hs generalizing w with
  | nil => exact hJ.pure (.some .nil)
  | cons h hs ih =>
    obtain ⟨hh, hrest⟩ := List.forall_mem_cons.1 hknown
    refine hJ.bind (hJ.advance ⟨rfl, hh⟩) fun _ hw item item' hitem => ?_
    obtain ⟨rfl, rfl⟩ | ⟨v, v', rfl, rfl, hv⟩ := hitem.option_cases
    · exact hJ.pure .none
    · refine hJ.bind (ih fun i hi => K.known_mono hw (hrest i hi)) fun _ hw' items items' hitems =>
        hJ.pure ?_
      obtain ⟨rfl, rfl⟩ | ⟨vs, vs', rfl, rfl, hvs⟩ := hitems.option_cases
      · exact .none
      · exact .some (.cons (hv.mono hw') hvs)

omit hJ in
theorem row_markers (markers : Markers) (index : Int64) (first last : Bool) {v v' : Value}
    (h : K.Along w v v') :
    K.Along w (markers.row index first last v) (markers.row index first last v') :=
  h.map (markers.natural_row index first last)

/-- The next item is at hand or the iterator has come to its end. -/
theorem stepFlagged {start : Cursor} {inner inner' : Handle} (markers : Markers) (index : Int64)
    (first : Bool) {current current' : Option Value} (hinner : K.Finds w inner inner')
    (hcurrent : K.Along w current current') :
    J w (K.Stepped start) (fun ev => ev.stepFlagged inner markers index first current)
      (fun ev => ev.stepFlagged inner' markers index first current') := by
  -- the position that a step ends with, whatever is known about the next item
  have hend {w : W} {r r' : Except EvalError (Option Value)} (hinner : K.Finds w inner inner')
      (index : Int64) (first : Bool) {next next' : Lookahead} (hnext : K.Along w next next')
      (hr : K.OrFails K.Along w r r') :
      J w (K.Stepped start) (fun _ => Pure.pure (.flagged inner markers index first next, r))
        (fun _ => Pure.pure (.flagged inner' markers index first next', r')) := by
    obtain ⟨rfl, hknown⟩ := hinner
    obtain ⟨rfl, hnext⟩ := hnext
    exact hJ.pure ⟨trivial, fun _ => trivial,
      ⟨rfl, List.forall_mem_cons.2 ⟨hknown, hnext⟩⟩, hr⟩
  obtain ⟨rfl, rfl⟩ | ⟨item, item', rfl, rfl, hitem⟩ := hcurrent.option_cases
  · exact hend hinner index first (.leaf rfl) (.ok .none)
  · unfold Evaluator.stepFlagged
    dsimp only
    cases markers.last with
    | false =>
      exact hend hinner _ _ (.leaf rfl) (.ok (row_markers markers index first true hitem).some)
    | true =>
      refine hJ.bind (hJ.attempt (hJ.advance hinner)) fun _ hw r r' hr => ?_
      have hinner := hinner.mono hw
      have hrow (last : Bool) := (row_markers markers index first last (hitem.mono hw)).some
      obtain ⟨e, rfl, rfl, he⟩ | ⟨rfl, rfl⟩ | ⟨next, next', rfl, rfl, hnext⟩ := hr.option_cases
      · exact hend hinner index first (.leaf rfl) (.error he)
      · exact hend hinner _ _ (.leaf rfl) (.ok (hrow true))
      · exact hend hinner _ _ ⟨congrArg _ hnext.1, hnext.2⟩ (.ok (hrow false))

/-- **One step of an iterator without a frame of its own.** A failure that its supplier reports has
to be one that may arise. -/
theorem step {cursor cursor' : Cursor} (hsimple : cursor.IsSimple)
    (hsupplied : ∀ failure, ¬ cursor.IsOwn → K.permits (.ofCause (.supplied failure)))
    (hcursor : K.Along w cursor cursor') :
    J w (K.Stepped cursor) (fun ev => ev.step cursor) (fun ev => ev.step cursor') := by
  obtain ⟨rfl, hknown⟩ := hcursor
  have hstay {w : W} {r r' : Except EvalError (Option Value)}
      (hknown : ∀ i ∈ handles cursor, K.known w i) (hr : K.OrFails K.Along w r r') :
      K.Stepped cursor w (cursor, r) (rename K.move cursor, r') :=
    ⟨hsimple, id, ⟨rfl, hknown⟩, hr⟩
  cases cursor with
  | items rest =>
    cases rest with
    | nil => exact hJ.pure (hstay hknown (.ok .none))
    | cons item rest =>
      obtain ⟨hitem, hrest⟩ := List.forall_mem_append.1 hknown
      exact hJ.pure ⟨trivial, id, ⟨rfl, hrest⟩, .ok (Along.some ⟨rfl, hitem⟩)⟩
  | range next step remaining =>
    cases remaining with
    | zero => exact hJ.pure (hstay hknown (.ok .none))
    | succ remaining => exact hJ.pure ⟨trivial, id, .leaf rfl, .ok (.leaf rfl)⟩
  | enumerate inner index =>
    have hinner := List.forall_mem_singleton.1 hknown
    refine hJ.bind (hJ.attempt (hJ.advance ⟨rfl, hinner⟩)) fun w' hw r r' hr => ?_
    have hknown' := fun i hi => K.known_mono hw (hknown i hi)
    obtain ⟨e, rfl, rfl, he⟩ | ⟨rfl, rfl⟩ | ⟨item, item', rfl, rfl, hitem⟩ := hr.option_cases
    · exact hJ.pure (hstay hknown' (.error he))
    · exact hJ.pure (hstay hknown' (.ok .none))
    · exact hJ.pure ⟨trivial, id, ⟨rfl, hknown'⟩,
        .ok (Along.cons (.leaf rfl) (Along.cons hitem .nil)).list.some⟩
  | flagged inner markers index first next =>
    obtain ⟨hinner, hnext⟩ := List.forall_mem_cons.1 hknown
    cases next with
    | unknown =>
      refine hJ.bind (hJ.attempt (hJ.advance ⟨rfl, hinner⟩)) fun w' hw r r' hr => ?_
      cases hr with
      | error he => exact hJ.pure (hstay (fun i hi => K.known_mono hw (hknown i hi)) (.error he))
      | ok hitem => exact hJ.stepFlagged markers index first ⟨rfl, K.known_mono hw hinner⟩ hitem
    | pending item =>
      exact hJ.stepFlagged markers index first ⟨rfl, hinner⟩ (Along.some ⟨rfl, hnext⟩)
    | ended => exact hJ.pure (hstay hknown (.ok .none))
  | zip inners =>
    cases inners with
    | nil => exact hJ.pure (hstay hknown (.ok .none))
    | cons inner inners =>
      refine hJ.bind (hJ.attempt (hJ.row ⟨rfl, hknown⟩)) fun w' hw r r' hr => hJ.pure ?_
      have hknown' := fun i hi => K.known_mono hw (hknown i hi)
      obtain ⟨e, rfl, rfl, he⟩ | ⟨rfl, rfl⟩ | ⟨items, items', rfl, rfl, hitems⟩ := hr.option_cases
      · exact hstay hknown' (.error he)
      · exact hstay hknown' (.ok .none)
      · exact hstay hknown' (.ok hitems.list.some)
  | generator g => exact hsimple.elim
  | supplied rest failure =>
    cases rest with
    | cons item rest =>
      obtain ⟨hitem, hrest⟩ := List.forall_mem_append.1 hknown
      exact hJ.pure ⟨trivial, id, ⟨rfl, hrest⟩, .ok (Along.some ⟨rfl, hitem⟩)⟩
    | nil =>
      cases failure with
      | none => exact hJ.pure (hstay hknown (.ok .none))
      | some failure =>
        exact hJ.pure ⟨trivial, id, .leaf rfl, .error (hsupplied failure id)⟩
  | relay inner =>
    have hinner := List.forall_mem_singleton.1 hknown
    refine hJ.bind (hJ.attempt (hJ.advance ⟨rfl, hinner⟩)) fun w' hw r r' hr => hJ.pure ?_
    exact hstay (fun i hi => K.known_mono hw (hknown i hi)) hr

end Sequential

end Templating
