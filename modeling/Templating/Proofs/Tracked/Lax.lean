import Templating.Proofs.Tracked.Store

/-!
# What any code keeps in the store

Some facts about the store do not depend on which iterators the code knows, nor on how it fails. To
show one of them it is enough to look at new iterators and at the iterators that are advanced.

* `StoreLogic.Lax`: a logic that knows all iterators and permits all errors.
* `Lax.evalNode`, `Lax.advanceCell`: **nodes and iterators keep it**, if the calls one level deeper
  do and if it outlasts a change of the iterator.
-/

namespace Templating

open Carries (handles)

open Eval

namespace StoreLogic

variable {W : Type} [Preorder W]

/-- All iterators are known and all errors may arise. There may be new iterators. -/
structure Lax (L : StoreLogic W) : Prop where
  known : ∀ w h, L.known w h
  permits : ∀ e, L.permits e
  level : ∀ depth maxDepth, L.level depth maxDepth
  push : ∀ {w s} (cell : Cell), L.holds w s →
    ∃ w', L.follows w s w' (s.push cell) ∧ L.holds w' (s.push cell)

namespace Lax

variable {L : StoreLogic W} (hL : L.Lax)

include hL

theorem inside (w : W) (frame : Frame) : L.Inside w frame :=
  ⟨fun h _ => hL.known w h, hL.level _ _⟩

section

variable {T : Running} (hT : Runs T) (hE : MayExhaust T)
  (hadvance : ∀ w h frame, L.Leads T (fun _ => (· = frame)) w (fun _ _ => True)
    fun ev => ev.advance h)

include hT

/-- All values of nodes are known. -/
theorem eval_known
    (heval : ∀ w node, L.Leads T L.Inside w (fun _ _ => True) fun ev => ev.eval node)
    (w : W) (node : Node) :
    L.Leads T L.Inside w (fun w v => ∀ h ∈ handles v, L.known w h) fun ev => ev.eval node :=
  (heval w node).mono hT fun _ _ _ _ h _ => hL.known _ h

include hadvance

/-- All items of an iterator are known. -/
theorem advance_known (w : W) (h : Handle) (frame : Frame) :
    L.Leads T (fun _ => (· = frame)) w (fun w item => ∀ i ∈ handles item, L.known w i)
      fun ev => ev.advance h :=
  (hadvance w h frame).mono hT fun _ _ _ _ i _ => hL.known _ i

include hE

theorem tracks : Tracks L.toKnowledge (L.Judges T L.Inside) :=
  tracks_of_mayExhaust hT hE fun _ frame => hL.advance_known hT hadvance _ _ frame

variable (heval : ∀ w node, L.Leads T L.Inside w (fun _ _ => True) fun ev => ev.eval node)

include heval

theorem exec (w : W) (block : Block) :
    L.Leads T L.Inside w (fun _ _ => True) fun ev => ev.exec block :=
  Leads.exec hT (hL.tracks hT hE hadvance) fun node _ w => hL.eval_known hT heval w node

theorem renderNested (w : W) (t : Template) (vars : Scope) :
    L.Leads T L.Inside w (fun _ _ => True) fun ev => ev.renderNested t vars := by
  refine Leads.renderNested hT (fun _ _ _ hw h => h.mono hw) (fun _ => hL.permits _) ?_
  intro m hholds _ _
  have hexec := hL.exec hT hE hadvance heval w t.block
    { m with frame := m.frame.below vars, output := #[] } hholds (hL.inside w _)
  refine hT.mono hexec ?_
  rintro r ⟨w', h⟩
  exact ⟨w', h.follows, h.holds, fun _ _ _ => hL.permits _⟩

/-- The evaluation of a node. -/
theorem evalNode (w : W) (node : Node) :
    L.Leads T L.Inside w (fun _ _ => True) fun ev => ev.evalNode node := by
  have hnode : L.Leads T L.Inside w (fun w v => ∀ h ∈ handles v, L.known w h)
      fun ev => ev.evalNode node := by
    refine Leads.evalNode hT (hL.tracks hT hE hadvance)
      (fun part _ w => hL.eval_known hT heval w part) ?_
      (fun w t vars _ => hL.renderNested hT hE hadvance heval w t vars)
      (fun _ _ block _ w => Leads.round hT (hL.exec hT hE hadvance heval w block))
      fun _ _ => hL.permits _
    intro _ _ _ w s _ frame _ hs _
    obtain ⟨w', hfollows, hholds⟩ := hL.push _ hs
    exact ⟨w', hfollows, hholds, hL.known _ _⟩
  exact hnode.mono hT fun _ _ _ _ => trivial

/-- An advance of an iterator, if its cell may be changed. -/
theorem advanceCell (w : W) (h : Handle) (frame : Frame)
    (hset : ∀ {s} (cell : Cell), L.holds w s → L.holds w (s.setIfInBounds h cell))
    (hback : ∀ {s w' s'} (cell cell' : Cell), h < s.size →
      L.follows w (s.setIfInBounds h cell) w' s' → L.holds w' s' →
      L.follows w s w' (s'.setIfInBounds h cell') ∧ L.holds w' (s'.setIfInBounds h cell')) :
    L.Leads T (fun _ => (· = frame)) w (fun _ _ => True) fun ev => ev.advanceCell h := by
  intro m hholds hframe
  cases hcell : m.store[h]? with
  | none => exact hT.advanceCell_none hcell ⟨w, L.follows_refl .., hholds, hframe, trivial⟩
  | some cell =>
    obtain ⟨cursor, _ | _⟩ := cell
    · have hlt : h < m.store.size := (Array.getElem?_eq_some_iff.1 hcell).1
      have hstep : L.Leads T (fun _ => (· = frame)) w (L.Steps cursor)
          fun ev => ev.step cursor := by
        refine Leads.step hT (fun _ frame => hL.advance_known hT hadvance _ _ frame) frame
          (fun _ _ => hL.known _ _) (fun _ _ => hL.permits _) ?_
        rintro g rfl
        exact ⟨hL.level _ _, Leads.generate hT (hL.tracks hT hE hadvance) (fun _ _ => hL.known _ _)
          fun node _ w => hL.eval_known hT heval w node⟩
      refine Leads.advanceCell hT hcell (hstep
        { m with store := m.store.setIfInBounds h ⟨cursor, true⟩ } (hset _ hholds) hframe)
        fun w' s c r hfollows hholds' _ => ?_
      obtain ⟨hafter, hholds''⟩ := hback _ ⟨c, false⟩ hlt hfollows hholds'
      refine ⟨w', hafter, hholds'', ?_⟩
      cases r with
      | ok _ => trivial
      | error _ => exact hL.permits _
    · exact hT.advanceCell_busy hcell ⟨w, L.follows_refl .., hholds, hframe, hL.permits _⟩

end

end Lax

end StoreLogic

end Templating
