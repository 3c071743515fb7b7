import Mathlib
import Templating.Eval.Run
import Templating.Proofs.Tracked.Lax

/-!
# Runs that leave iterators alone

Whether a run advances an iterator on its way does not show in its outcome. Here the evaluator gives
up where one of some iterators is advanced. A run that ends in the same way with it has not advanced
any of them, and has not changed them either, since the state of an iterator changes by advances
only.

* `Evaluator.sparing`, `Evaluator.Spares`: the evaluator that gives up, and a run that advances none
  of some iterators.
* `Evaluator.spares_advance_iff`: **no advance spares the iterator itself.**
* `Untouched`: a later store in which some iterators are as before.
* `Evaluator.Spares.untouched_runAll`: **nodes that spare iterators leave them as they are.**
-/

namespace Templating

open Eval

open Classical in
mutual

/-- Evaluates a node, and gives up at the first advance of some iterators. -/
noncomputable def evalSparing (w : Set Handle) : Nat → Node → Eval Value
  | 0 => fun _ => throw .exhausted
  | n + 1 => fun node => Evaluator.evalNode ⟨evalSparing w n, advanceSparing w n, n⟩ node

/-- Takes the next item of an iterator, unless it is one of them. -/
noncomputable def advanceSparing (w : Set Handle) : Nat → Handle → Eval (Option Value)
  | 0 => fun _ => throw .exhausted
  | n + 1 => fun h =>
    if h ∈ w then throw .exhausted
    else Evaluator.advanceCell ⟨evalSparing w n, advanceSparing w n, n⟩ h

end

/-- A store and a later one. Some iterators are as before. -/
structure Untouched (w : Set Handle) (s s' : Array Cell) : Prop where
  size_le : s.size ≤ s'.size
  same : ∀ h ∈ w, h < s.size → s'[h]? = s[h]?

namespace Untouched

variable {w : Set Handle} {s s' s'' : Array Cell} {h : Handle} {cell cell' : Cell}

theorem refl (w : Set Handle) (s : Array Cell) : Untouched w s s := ⟨le_rfl, fun _ _ _ => rfl⟩

theorem trans (h : Untouched w s s') (h' : Untouched w s' s'') : Untouched w s s'' :=
  ⟨h.size_le.trans h'.size_le, fun i hi hlt =>
    (h'.same i hi (hlt.trans_le h.size_le)).trans (h.same i hi hlt)⟩

theorem push (w : Set Handle) (s : Array Cell) (cell : Cell) : Untouched w s (s.push cell) := by
  refine ⟨by simp, fun h _ hlt => ?_⟩
  rw [Array.getElem?_push_lt hlt, Array.getElem?_eq_getElem hlt]

/-- Another iterator may change before and afterwards. -/
theorem set (hh : h ∉ w) (hs : Untouched w (s.setIfInBounds h cell) s') :
    Untouched w s (s'.setIfInBounds h cell') := by
  refine ⟨by simpa using hs.size_le, fun i hi hlt => ?_⟩
  have hne : h ≠ i := fun heq => hh (heq ▸ hi)
  rw [Array.getElem?_setIfInBounds_ne hne, hs.same i hi (by simpa using hlt),
    Array.getElem?_setIfInBounds_ne hne]

/-- What holds of a store as far as some iterators are not touched. -/
def logic (w : Set Handle) : StoreLogic Unit where
  known _ _ := True
  known_mono _ _ := trivial
  move := id
  move_injective := Function.injective_id
  permits _ := True
  permits_ordinary _ := trivial
  permits_locate _ _ := trivial
  holds _ _ := True
  follows _ s _ s' := Untouched w s s'
  follows_refl _ s := .refl w s
  follows_trans := .trans
  le_of_follows _ := le_rfl
  level _ _ := True
  allocate {_ s _} _ _ _ := ⟨(), .push w s _, trivial, trivial⟩

theorem logic_lax (w : Set Handle) : (logic w).Lax where
  known _ _ := trivial
  permits _ := trivial
  level _ _ := trivial
  push {_ s} cell _ := ⟨(), .push w s cell, trivial⟩

end Untouched

namespace Evaluator

variable {w : Set Handle} {budget n : Nat} {h : Handle} {m : Machine} {node : Node}

/-- The evaluator that gives up at advances of some iterators. -/
noncomputable def sparing (w : Set Handle) (budget : Nat) : Evaluator :=
  ⟨evalSparing w budget, advanceSparing w budget, budget⟩

/-- **A run advances none of some iterators**: it stays the same if the evaluator gives up where one
of them is advanced. -/
def Spares {α : Type} (w : Set Handle) (budget : Nat) (run : Program α) (m : Machine) : Prop :=
  run (sparing w budget) m = run (within budget) m

theorem sparing_eval (n : Nat) (node : Node) :
    (sparing w (n + 1)).eval node = (sparing w n).evalNode node := by
  change evalSparing w (n + 1) node = _
  unfold evalSparing
  rfl

theorem sparing_advance (hh : h ∉ w) (n : Nat) :
    (sparing w (n + 1)).advance h = (sparing w n).advanceCell h := by
  change advanceSparing w (n + 1) h = _
  unfold advanceSparing
  exact if_neg hh

theorem sparing_advance_of_mem (hh : h ∈ w) (n : Nat) (m : Machine) :
    (sparing w n).advance h m = .error .exhausted m := by
  change advanceSparing w n h m = _
  cases n with
  | zero =>
    unfold advanceSparing
    rfl
  | succ n =>
    unfold advanceSparing
    rw [if_pos hh]
    rfl

/-- The evaluation of a node spares what the calls below it spare. -/
theorem spares_eval_iff :
    Spares w (n + 1) (fun ev => ev.eval node) m ↔ Spares w n (fun ev => ev.evalNode node) m := by
  unfold Spares
  dsimp only
  rw [sparing_eval]
  rfl

/-- **An advance does not spare the iterator itself**, and otherwise what the step spares. -/
theorem spares_advance_iff (hended : Outcome.Ended ((within (n + 1)).advance h m)) :
    Spares w (n + 1) (fun ev => ev.advance h) m ↔
      h ∉ w ∧ Spares w n (fun ev => ev.advanceCell h) m := by
  unfold Spares
  dsimp only
  by_cases hh : h ∈ w
  · refine iff_of_false (fun heq => ?_) fun hspares => hspares.1 hh
    rw [← heq, sparing_advance_of_mem hh] at hended
    exact hended
  · rw [sparing_advance hh]
    exact (and_iff_right hh).symm

/-! ## What is spared stays as it is -/

/-- What the evaluator does as long as it does not give up. -/
abbrev Sparing (w : Set Handle) (budget : Nat) : Running :=
  Ends (sparing w budget) (sparing w budget)

/-- Evaluations and advances leave the iterators that they spare alone. -/
theorem sparing_leads (w : Set Handle) (budget : Nat) :
    (∀ v node, (Untouched.logic w).Leads (Sparing w budget) (Untouched.logic w).Inside v
      (fun _ _ => True) fun ev => ev.eval node) ∧
    ∀ v h frame, (Untouched.logic w).Leads (Sparing w budget) (fun _ => (· = frame)) v
      (fun _ _ => True) fun ev => ev.advance h := by
  induction budget with
  | zero =>
    refine ⟨fun _ node m _ _ hended => ?_, fun _ h _ m _ _ hended => ?_⟩
    · change Outcome.Ended (evalSparing w 0 node m) at hended
      unfold evalSparing at hended
      exact hended.elim
    · change Outcome.Ended (advanceSparing w 0 h m) at hended
      unfold advanceSparing at hended
      exact hended.elim
  | succ budget ih =>
    -- the calls below are made with the smaller budget
    obtain ⟨heval, hadvance⟩ := ih
    have hT : Runs (Sparing w budget) := Ends.runs _ _
    have hE : MayExhaust (Sparing w budget) := Ends.mayExhaust le_rfl
    have hlax := Untouched.logic_lax w
    refine ⟨fun v node m hm hinside hended => ?_, fun v h frame m hm hframe hended => ?_⟩
    · dsimp only at hended ⊢
      rw [sparing_eval] at hended ⊢
      exact hlax.evalNode hT hE hadvance heval v node m hm hinside hended
    · dsimp only at hended ⊢
      by_cases hh : h ∈ w
      · rw [sparing_advance_of_mem hh] at hended
        exact hended.elim
      · rw [sparing_advance hh] at hended ⊢
        refine hlax.advanceCell hT hE hadvance heval v h frame (fun _ _ => trivial) ?_ m hm hframe
          hended
        exact fun _ _ _ hfollows _ => ⟨Untouched.set hh hfollows, trivial⟩

/-- The evaluation of some nodes one after another. An error of one of them does not keep the next
ones from being evaluated. -/
def runAll (ev : Evaluator) (nodes : List Node) : Eval Unit :=
  nodes.forM fun node => do
    let _ ← attempt (ev.eval node)

/-- **Nodes that spare iterators leave them as they are.** -/
theorem Spares.untouched_runAll {nodes : List Node} {m' : Machine}
    (hspares : Spares w budget (fun ev => ev.runAll nodes) m)
    (hrun : (within budget).runAll nodes m = .ok () m') : Untouched w m.store m'.store := by
  have hT : Runs (Sparing w budget) := Ends.runs _ _
  have hL := Untouched.logic_lax w
  obtain ⟨heval, hadvance⟩ := sparing_leads w budget
  have hall : (Untouched.logic w).Leads (Sparing w budget) (Untouched.logic w).Inside ()
      (fun _ _ => True) fun ev => ev.runAll nodes := by
    have htracks := hL.tracks hT (Ends.mayExhaust le_rfl) hadvance
    refine StoreLogic.Leads.mono hT (htracks.forM fun node _ v => ?_) fun _ _ _ _ => trivial
    refine StoreLogic.Leads.bind hT (StoreLogic.Leads.attempt hT (heval v node)) ?_
    exact fun _ _ _ _ => StoreLogic.Leads.pure hT ⟨(), rfl⟩
  have hsame : (sparing w budget).runAll nodes m = .ok () m' := Eq.trans hspares hrun
  obtain ⟨-, v, hreached⟩ := hall m trivial (hL.inside _ _) (by
    dsimp only
    rw [hsame]
    trivial)
  have hfollows := hreached.follows
  dsimp only at hfollows
  rw [hsame] at hfollows
  exact hfollows

end Evaluator

end Templating
