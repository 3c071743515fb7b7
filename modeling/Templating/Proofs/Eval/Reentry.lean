import Templating.Proofs.Eval.Session
import Templating.Proofs.Tracked.Free

/-!
# No iterator consumes itself

An iterator that is being advanced fails if it is advanced once more. This cannot happen if the
iterators that the variables refer to form no cycle: whatever is evaluated during the advance knows
iterators only that do not refer to the one that is being advanced.

* `Evaluator.guarded`: the evaluator that gives up where an iterator that is being advanced can be
  reached.
* `Reentry.keeps`: **it never gives up** while it knows free iterators only.
* `no_iterator_consumes_itself`: **so it is for every session** that begins without cycles.
-/

namespace Templating

open Carries (handles)

open Eval

/-- No iterator that is being advanced can be reached from an iterator. -/
def Machine.Unblocked (m : Machine) (h : Handle) : Prop :=
  ∀ i, Templating.Reaches m.store h i → ∀ cell, m.store[i]? = some cell → cell.busy = false

open Classical in
mutual

/-- Evaluates a node, and gives up if the variables refer to an iterator that is being advanced. -/
noncomputable def evalGuarded : Nat → Node → Eval Value
  | 0 => fun _ => throw .exhausted
  | n + 1 => fun node m =>
    if ∀ h ∈ handles m.frame, m.Unblocked h then
      Evaluator.evalNode ⟨evalGuarded n, advanceGuarded n, n⟩ node m
    else .error .exhausted m

/-- Takes the next item of an iterator, and gives up if the iterator is being advanced or refers to
one that is. -/
noncomputable def advanceGuarded : Nat → Handle → Eval (Option Value)
  | 0 => fun _ => throw .exhausted
  | n + 1 => fun h m =>
    if m.Unblocked h then Evaluator.advanceCell ⟨evalGuarded n, advanceGuarded n, n⟩ h m
    else .error .exhausted m

end

/-- The evaluator that gives up where an iterator that is being advanced can be reached: from the
variables at hand when a node is evaluated, and from an iterator when it is advanced. A generator
expression that is advanced evaluates nodes in its own frame, so its variables are looked at. -/
noncomputable def Evaluator.guarded (budget : Nat) : Evaluator :=
  ⟨evalGuarded budget, advanceGuarded budget, budget⟩

/-- Runs within a budget, as far as they end, that are the same if the evaluator gives up where an
iterator that is being advanced can be reached. -/
abbrev Eval.EndsGuarded (budget : Nat) : Running :=
  Ends (Evaluator.within budget) (Evaluator.guarded budget)

theorem Eval.EndsGuarded.eval {n : Nat} {node : Node} {m : Machine} {Q : Outcome Value → Prop}
    (hclear : ∀ h ∈ handles m.frame, m.Unblocked h)
    (h : EndsGuarded n (fun ev => ev.evalNode node) m Q) :
    EndsGuarded (n + 1) (fun ev => ev.eval node) m Q := by
  intro hended
  obtain ⟨heq, hQ⟩ := h hended
  refine ⟨?_, hQ⟩
  change evalGuarded (n + 1) node m = _
  unfold evalGuarded
  exact (if_pos hclear).trans heq

theorem Eval.EndsGuarded.advance {n : Nat} {h : Handle} {m : Machine}
    {Q : Outcome (Option Value) → Prop} (hclear : m.Unblocked h)
    (hrun : EndsGuarded n (fun ev => ev.advanceCell h) m Q) :
    EndsGuarded (n + 1) (fun ev => ev.advance h) m Q := by
  intro hended
  obtain ⟨heq, hQ⟩ := hrun hended
  refine ⟨?_, hQ⟩
  change advanceGuarded (n + 1) h m = _
  unfold advanceGuarded
  exact (if_pos hclear).trans heq

theorem Free.unblocked {m : Machine} {h : Handle} (hh : Free m.store h) : m.Unblocked h :=
  fun _ hi _ hcell => (hh.of_reaches hi).not_busy hcell

namespace Reentry

/-- Code that knows free iterators only, and that never finds one that is being advanced. -/
def logic : StoreLogic (Set Handle) where
  known w h := h ∈ w
  known_mono hw hh := hw hh
  move := id
  move_injective := Function.injective_id
  permits e := e.cause ≠ .alreadyExecuting
  permits_ordinary {c} hc := by
    rintro rfl
    exact hc
  permits_locate _ he := he
  holds := FreeWorld
  follows := Evolves
  follows_refl := .refl
  follows_trans := .trans
  le_of_follows h := h.subset
  level _ _ := True
  allocate {w s cursor} hw hbuiltin hrefs := by
    obtain ⟨hholds, hevolves⟩ := hw.insert hbuiltin.isOwn hrefs
    exact ⟨_, hevolves, hholds, .inl rfl⟩

theorem settle_ne {e : EvalError} (he : e.cause ≠ .alreadyExecuting) :
    e.settle.cause ≠ .alreadyExecuting := by
  obtain ⟨cause, location⟩ := e
  cases cause with
  | signal s => cases s <;> exact fun h => nomatch h
  | _ => exact he

/-- What is known of the evaluator with a budget. -/
structure Keeps (budget : Nat) : Prop where
  advance : ∀ {w : Set Handle} {h}, h ∈ w → ∀ frame,
    logic.Leads (EndsGuarded budget) (fun _ => (· = frame)) w
      (fun w item => ∀ i ∈ handles item, i ∈ w) fun ev => ev.advance h
  eval : ∀ w node, logic.Leads (EndsGuarded budget) logic.Inside w
    (fun w v => ∀ i ∈ handles v, i ∈ w) fun ev => ev.eval node

variable {n : Nat} (hkeeps : Keeps n)

include hkeeps

theorem Keeps.tracks :
    Tracks logic.toKnowledge (logic.Judges (EndsGuarded n) logic.Inside) :=
  StoreLogic.tracks_of_mayExhaust (Ends.runs _ _) (Ends.mayExhaust le_rfl) hkeeps.advance

theorem Keeps.exec (w : Set Handle) (block : Block) :
    logic.Leads (EndsGuarded n) logic.Inside w (fun _ _ => True) fun ev => ev.exec block :=
  StoreLogic.Leads.exec (Ends.runs _ _) hkeeps.tracks fun node _ w => hkeeps.eval w node

theorem Keeps.renderNested {w : Set Handle} (t : Template) {vars : Scope}
    (hvars : ∀ i ∈ handles vars, i ∈ w) :
    logic.Leads (EndsGuarded n) logic.Inside w (fun _ _ => True)
      fun ev => ev.renderNested t vars := by
  refine StoreLogic.Leads.renderNested (Ends.runs _ _) (fun _ _ _ hw h => h.mono hw)
    (fun limit h => nomatch h) ?_
  intro m hholds _ _
  have hinside : logic.Inside w (m.frame.below vars) :=
    ⟨List.forall_mem_append.2 ⟨hvars, fun _ h => nomatch h⟩, trivial⟩
  refine (Ends.runs _ _).mono (hkeeps.exec w t.block
    { m with frame := m.frame.below vars, output := #[] } hholds hinside) ?_
  rintro r ⟨w', h⟩
  refine ⟨w', h.follows, h.holds, ?_⟩
  rintro e m' rfl
  exact settle_ne h.returns

theorem Keeps.evalNode (w : Set Handle) (node : Node) :
    logic.Leads (EndsGuarded n) logic.Inside w (fun w v => ∀ i ∈ handles v, i ∈ w)
      fun ev => ev.evalNode node := by
  have hT : Runs (EndsGuarded n) := Ends.runs _ _
  refine StoreLogic.Leads.evalNode hT hkeeps.tracks (fun part _ w => hkeeps.eval w part) ?_ ?_ ?_ ?_
  · intro item comp _ w s source frame hsource hw hframe
    let cursor : Cursor := .generator ⟨frame, source, comp.target, comp.condition, item⟩
    have hown : cursor.IsOwn := trivial
    have hrefs : ∀ i ∈ handles cursor, i ∈ w := List.forall_mem_cons.2 ⟨hsource, hframe.1⟩
    obtain ⟨hholds, hevolves⟩ := FreeWorld.insert hw hown hrefs
    exact ⟨_, hevolves, hholds, .inl rfl⟩
  · exact fun w t vars hvars => hkeeps.renderNested t hvars
  · exact fun _ _ block _ w => StoreLogic.Leads.round hT (hkeeps.exec w block)
  · exact fun s _ h => nomatch h

/-- An advance of a free iterator. Its step knows the iterators only that stay free meanwhile. -/
theorem Keeps.advanceCell {w : Set Handle} {h : Handle} (hh : h ∈ w) (frame : Frame) :
    logic.Leads (EndsGuarded n) (fun _ => (· = frame)) w (fun w item => ∀ i ∈ handles item, i ∈ w)
      fun ev => ev.advanceCell h := by
  have hT : Runs (EndsGuarded n) := Ends.runs _ _
  intro m hw hframe
  have hw : FreeWorld w m.store := hw
  obtain ⟨hcell, hown, -⟩ := hw.free h hh
  rename_i cursor
  obtain ⟨hu, -, hrefs⟩ := hw.enter hh hcell
  have hstep := StoreLogic.Leads.step hT hkeeps.advance frame hrefs
    (fun _ hnot => absurd hown hnot) ?_
    { m with store := m.store.setIfInBounds h ⟨cursor, true⟩ } hu hframe
  · refine StoreLogic.Leads.advanceCell hT hcell hstep fun u' s c r hfollows hholds hsteps => ?_
    obtain ⟨hholds', hevolves⟩ := hw.leave hh rfl hfollows hholds (hsteps.own hown) hsteps.known
    refine ⟨w ∪ u', hevolves, hholds', ?_⟩
    have hresult := hsteps.result
    cases r with
    | ok item => exact fun i hi => .inr (hresult i hi)
    | error e => exact hresult
  · rintro g rfl
    exact ⟨trivial, StoreLogic.Leads.generate hT hkeeps.tracks hrefs fun node _ w =>
      hkeeps.eval w node⟩

omit hkeeps

/-- **The evaluator never finds an iterator that is being advanced**, while it knows free iterators
only. -/
theorem keeps (budget : Nat) : Keeps budget := by
  induction budget with
  | zero =>
    exact ⟨fun _ _ _ _ _ hended => hended.elim, fun _ _ _ _ _ hended => hended.elim⟩
  | succ budget ih =>
    -- the guard holds: the iterators at hand are free, and so are those that they refer to
    refine ⟨fun hh frame m hw hframe => ?_, fun w node m hw hframe => ?_⟩
    · exact EndsGuarded.advance (FreeWorld.free hw _ hh).unblocked
        (ih.advanceCell hh frame m hw hframe)
    · exact EndsGuarded.eval (fun h hh => (FreeWorld.free hw h (hframe.1 h hh)).unblocked)
        (ih.evalNode w node m hw hframe)

end Reentry

/-! ## Sessions -/

namespace Session

/-- All iterators at hand are free. -/
def InWorld (s : Session) (w : Set Handle) : Prop :=
  FreeWorld w s.machine.store ∧ Reentry.logic.Inside w s.machine.frame ∧ ∀ h ∈ s.obtained, h ∈ w

variable {s t : Session} {w : Set Handle} {step : Step}

theorem InWorld.mem_of_has (hs : s.InWorld w) {h : Handle} (hh : s.Has h) : h ∈ w :=
  hh.elim (hs.2.2 h) (hs.2.1.1 h)

/-- A step knows free iterators only. -/
theorem InWorld.leads (hs : s.InWorld w) (hstep : s.Allows step) (budget : Nat) :
    Reentry.logic.Leads (EndsGuarded budget) Reentry.logic.Inside w (fun w hs => ∀ h ∈ hs, h ∈ w)
      fun ev => step.run ev := by
  have hkeeps := Reentry.keeps budget
  refine Step.leads (Ends.runs _ _) step (hkeeps.eval w) (hkeeps.exec w) ?_
    fun _ => Reentry.settle_ne
  rintro h rfl
  exact StoreLogic.Leads.inside_of_frame_eq (Ends.runs _ _)
    (hkeeps.advance (hs.mem_of_has hstep))

/-- **What a step preserves**: all iterators at hand are free. -/
theorem InWorld.after (hs : s.InWorld w) (hstep : s.Allows step) {budget : Nat}
    (hended : Outcome.Ended (step.run (.within budget) s.machine)) :
    ∃ w', w ⊆ w' ∧ Reentry.logic.Reached Reentry.logic.Inside w s.machine.store
      (fun w hs => ∀ h ∈ hs, h ∈ w) w' (step.run (.within budget) s.machine) := by
  obtain ⟨-, w', h⟩ := hs.leads hstep budget s.machine hs.1 hs.2.1 hended
  exact ⟨w', h.le, h⟩

/-- **What a session preserves.** -/
theorem Runs.inWorld (hrun : Runs s t) (hs : ∃ w, s.InWorld w) : ∃ w, t.InWorld w := by
  induction hrun with
  | refl => exact hs
  | ok _ hstep hok ih =>
    obtain ⟨w, hw⟩ := ih
    obtain ⟨w', hle, h⟩ := hw.after hstep (by rw [hok]; trivial)
    rw [hok] at h
    exact ⟨w', h.holds, h.inside,
      List.forall_mem_append.2 ⟨h.returns, fun i hi => hle (hw.2.2 i hi)⟩⟩
  | failed _ hstep hfailed ih =>
    obtain ⟨w, hw⟩ := ih
    obtain ⟨w', hle, h⟩ := hw.after hstep (by rw [hfailed]; trivial)
    rw [hfailed] at h
    exact ⟨w', h.holds, h.inside, fun i hi => hle (hw.2.2 i hi)⟩

end Session

/-- The iterators that the variables refer to form no cycle. None of them is being advanced, and
none of them gets its items from outside. -/
structure Machine.IsAcyclic (m : Machine) : Prop where
  cell : ∀ h, m.Reaches h → ∃ cursor, m.store[h]? = some ⟨cursor, false⟩ ∧ cursor.IsOwn
  acyclic : ∀ h, m.Reaches h → ¬ Relation.TransGen (Refers m.store) h h

theorem Machine.IsAcyclic.inWorld {m : Machine} (hm : m.IsAcyclic) :
    Session.InWorld ⟨m, []⟩ {h | m.Reaches h} := by
  have hfree (h : Handle) (hh : m.Reaches h) : Free m.store h := by
    obtain ⟨v, hv, hreaches⟩ := hh
    refine .of_acyclic fun i hi => ?_
    have hi : m.Reaches i := ⟨v, hv, hreaches.trans hi⟩
    exact ⟨hm.cell i hi, hm.acyclic i hi⟩
  refine ⟨⟨hfree, fun h hh i hi => Machine.Reaches.refers hh hi⟩,
    ⟨fun _ hh => .of_mem hh, trivial⟩, ?_⟩
  simp

/-- **No iterator consumes itself.** In every session that begins with variables whose iterators
form no cycle, no step fails since an iterator is being advanced already. At every point of a step,
where a node is evaluated or an iterator is advanced, no iterator that is being advanced can be
reached: a guard that looks for one there changes nothing. -/
theorem no_iterator_consumes_itself (m : Machine) (hm : m.IsAcyclic) (s : Session)
    (hrun : Session.Runs ⟨m, []⟩ s) (step : Session.Step) (hstep : s.Allows step) (budget : Nat)
    (hended : Outcome.Ended (step.run (.within budget) s.machine)) :
    step.run (.guarded budget) s.machine = step.run (.within budget) s.machine ∧
      ∀ e m', step.run (.within budget) s.machine = .error (.failed e) m' →
        e.cause ≠ .alreadyExecuting := by
  obtain ⟨w, hw⟩ := hrun.inWorld ⟨_, hm.inWorld⟩
  have hleads := hw.leads hstep budget
  refine ⟨(hleads s.machine hw.1 hw.2.1 hended).1, fun e m' h => ?_⟩
  exact hleads.permits hw.1 hw.2.1 h

/-- The generator expression `(x for x in it)` over a shared iterator is made, and then advanced. -/
theorem no_iterator_consumes_itself_generator :
    let spot : Location := .ofText "" .empty
    let node : Node :=
      ⟨0, spot, .genExpr ⟨1, spot, .var "x"⟩ ⟨.name "x", ⟨2, spot, .var "it"⟩, none⟩⟩
    let m : Machine := { Machine.start 3 0 .first (.ofVars [("it", .iterator 0)] 2) with
      store := #[⟨.items [.int 7], false⟩] }
    let step : Session.Step := .advance 1
    m.IsAcyclic ∧ ∃ s, (Session.Step.eval node).run (.within 5) m = .ok [1] s.machine ∧
      Session.Runs ⟨m, []⟩ s ∧ s.Allows step ∧
      Outcome.Ended (step.run (.within 5) s.machine) ∧
      step.run (.guarded 5) s.machine = step.run (.within 5) s.machine ∧
      ∀ e m', step.run (.within 5) s.machine = .error (.failed e) m' →
        e.cause ≠ .alreadyExecuting := by
  intro spot node m step
  have hrefers (i : Handle) : ¬ Refers m.store 0 i := by
    rintro ⟨cell, hcell, hi⟩
    cases hcell
    cases hi
  have hreaches (h : Handle) (hh : m.Reaches h) : h = 0 := by
    obtain ⟨v, hv, hreaches⟩ := hh
    obtain rfl : v = 0 := List.mem_singleton.1 hv
    rcases Relation.ReflTransGen.cases_head hreaches with h | ⟨i, hi, -⟩
    · exact h.symm
    · exact absurd hi (hrefers i)
  have hm : m.IsAcyclic := by
    refine ⟨fun h hh => ?_, fun h hh hcycle => ?_⟩
    · obtain rfl := hreaches h hh
      exact ⟨.items [.int 7], rfl, trivial⟩
    · obtain rfl := hreaches h hh
      obtain ⟨i, hi, -⟩ := Relation.TransGen.head'_iff.1 hcycle
      exact hrefers i hi
  let s : Session := ⟨Outcome.machine ((Session.Step.eval node).run (.within 5) m), [1]⟩
  have hmade : (Session.Step.eval node).run (.within 5) m = .ok [1] s.machine := rfl
  have hfirst : Session.Allows ⟨m, []⟩ (.eval node) := trivial
  have hrun : Session.Runs ⟨m, []⟩ s := .ok .refl hfirst hmade
  have hallows : s.Allows step := .inl List.mem_cons_self
  exact ⟨hm, s, hmade, hrun, hallows, trivial,
    no_iterator_consumes_itself m hm s hrun step hallows 5 trivial⟩

end Templating
