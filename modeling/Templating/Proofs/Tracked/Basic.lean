import Mathlib.Data.List.Forall2
import Mathlib.Order.Defs.PartialOrder
import Templating.Proofs.Builtin.Formats
import Templating.Proofs.Builtin.Plain
import Templating.Proofs.Compatible.Basic
import Templating.Proofs.Value.Natural

/-!
# Evaluation with known iterators

Many facts about evaluations hold as long as the iterators at hand are of some sort, which
evaluation never leaves: it makes new iterators of that sort, and gets others only from values that
it has. A judgement on actions that knows which iterators there are is shown to hold of every
evaluation by checking it for the few actions and the few ways to put actions together that the
evaluator has. It speaks of two runs, in the second of which the iterators may have other places.

* `Knowledge`: which iterators are known, where the second run has them, and which errors may arise.
* `Knowledge.Along`: data with known iterators only, and the same data of the second run.
* `Tracks`: what a judgement has to be closed under.
* `Tracks.lift`: **calculations on values**. They make up no iterators, so nothing needs to be known
  about them but that they only compare them.
* `Tracks.items`, `Tracks.assign`: loops and assignments.
-/

namespace Templating

open Carries (handles rename)

/-- A computation that needs an evaluator. -/
abbrev Program (α : Type) := Evaluator → Eval α

/-- A position of an iterator that is made from a value or by a builtin. -/
def Cursor.IsBuiltin : Cursor → Prop
  | .generator _ | .supplied .. | .relay _ => False
  | _ => True

/-- What is known in a world. More is known in a later one. -/
structure Knowledge (W : Type) [Preorder W] where
  known : W → Handle → Prop
  known_mono : ∀ {w w' h}, w ≤ w' → known w h → known w' h
  /-- The places of the iterators in the second run. -/
  move : Handle → Handle
  move_injective : Function.Injective move
  /-- The errors that may arise. -/
  permits : EvalError → Prop
  permits_ordinary : ∀ {c : Cause}, c.IsOrdinary → permits (.ofCause c)
  permits_locate : ∀ {e} (location : Location), permits e → permits (e.locate location)

/-- The same result in both runs. -/
def Same {W α : Type} : W → α → α → Prop := fun _ a b => a = b

/-- A loop that goes on or ends in both runs alike. -/
inductive WalksAlong {W α : Type} (R : W → α → α → Prop) (w : W) : Walk α → Walk α → Prop where
  | on {a b : α} : R w a b → WalksAlong R w (.on a) (.on b)
  | done {a b : α} : R w a b → WalksAlong R w (.done a) (.done b)

theorem WalksAlong.same {W α : Type} (w : W) (walk : Walk α) : WalksAlong Same w walk walk := by
  cases walk with
  | on a => exact .on rfl
  | done a => exact .done rfl

namespace Knowledge

variable {W : Type} [Preorder W] (K : Knowledge W)

/-- Data of the first run in which all iterators are known, and the same data of the second run. -/
def Along {α : Type} [Carries α] (w : W) (a b : α) : Prop :=
  b = rename K.move a ∧ ∀ h ∈ handles a, K.known w h

/-- A known iterator, and its place in the second run. -/
def Finds (w : W) (h h' : Handle) : Prop := h' = K.move h ∧ K.known w h

/-- Known iterators, and their places in the second run. -/
def FindsAll (w : W) (hs hs' : List Handle) : Prop :=
  hs' = hs.map K.move ∧ ∀ h ∈ hs, K.known w h

/-- Related results, or the same error, which is one that may arise. -/
inductive OrFails {α : Type} (R : W → α → α → Prop) (w : W) :
    Except EvalError α → Except EvalError α → Prop where
  | ok {a b : α} : R w a b → OrFails R w (.ok a) (.ok b)
  | error {e : EvalError} : K.permits e → OrFails R w (.error e) (.error e)

variable {K} {w w' : W}

theorem OrFails.mono {α : Type} {R : W → α → α → Prop} {r r' : Except EvalError α}
    (h : K.OrFails R w r r') (hR : ∀ a b, R w a b → R w' a b) : K.OrFails R w' r r' := by
  cases h with
  | ok h => exact .ok (hR _ _ h)
  | error h => exact .error h

section

variable {α β : Type} [Carries α] [Carries β]

theorem Along.mono {a b : α} (h : K.Along w a b) (hw : w ≤ w') : K.Along w' a b :=
  ⟨h.1, fun i hi => K.known_mono hw (h.2 i hi)⟩

theorem Finds.mono {h h' : Handle} (hh : K.Finds w h h') (hw : w ≤ w') : K.Finds w' h h' :=
  ⟨hh.1, K.known_mono hw hh.2⟩

/-- Data without iterators. -/
theorem Along.leaf {a : α} (h : handles a = []) : K.Along w a a := by
  refine ⟨((Carries.rename_eq_self_iff _ a).2 ?_).symm, ?_⟩ <;> simp [h]

theorem Along.pair {a a' : α} {b b' : β} (ha : K.Along w a a') (hb : K.Along w b b') :
    K.Along w (a, b) (a', b') :=
  ⟨Prod.ext ha.1 hb.1, List.forall_mem_append.2 ⟨ha.2, hb.2⟩⟩

theorem Along.some {a a' : α} (ha : K.Along w a a') : K.Along w (some a) (some a') :=
  ⟨congrArg Option.some ha.1, by simpa [handles] using ha.2⟩

theorem Along.of_some {a a' : α} (h : K.Along w (Option.some a) (Option.some a')) :
    K.Along w a a' :=
  ⟨Option.some.inj h.1, by simpa [handles] using h.2⟩

theorem Along.none : K.Along w (none : Option α) none := .leaf rfl

/-- What is nothing in one run is nothing in the other one. -/
theorem Along.option_cases {o o' : Option α} (h : K.Along w o o') :
    (o = Option.none ∧ o' = Option.none) ∨
      ∃ a a', o = Option.some a ∧ o' = Option.some a' ∧ K.Along w a a' := by
  obtain ⟨rfl, hknown⟩ := h
  cases o with
  | none => exact .inl ⟨rfl, rfl⟩
  | some a => exact .inr ⟨a, rename K.move a, rfl, rfl, Along.of_some ⟨rfl, hknown⟩⟩

/-- An item that both runs ask for: both fail alike, both are at the end, or both have an item. -/
theorem OrFails.option_cases {r r' : Except EvalError (Option α)}
    (h : K.OrFails K.Along w r r') :
    (∃ e, r = .error e ∧ r' = .error e ∧ K.permits e) ∨
      (r = .ok Option.none ∧ r' = .ok Option.none) ∨
      ∃ a a', r = .ok (Option.some a) ∧ r' = .ok (Option.some a') ∧ K.Along w a a' := by
  cases h with
  | error he => exact .inl ⟨_, rfl, rfl, he⟩
  | ok hitem =>
    obtain ⟨rfl, rfl⟩ | ⟨a, a', rfl, rfl, ha⟩ := hitem.option_cases
    · exact .inr (.inl ⟨rfl, rfl⟩)
    · exact .inr (.inr ⟨a, a', rfl, rfl, ha⟩)

theorem Along.nil : K.Along w ([] : List α) [] := .leaf rfl

theorem Along.cons {a a' : α} {as as' : List α} (ha : K.Along w a a') (has : K.Along w as as') :
    K.Along w (a :: as) (a' :: as') := by
  refine ⟨by rw [ha.1, has.1]; rfl, ?_⟩
  exact List.forall_mem_append.2 ⟨ha.2, has.2⟩

theorem Along.of_cons {a : α} {as : List α} {bs : List α} (h : K.Along w (a :: as) bs) :
    ∃ a' as', bs = a' :: as' ∧ K.Along w a a' ∧ K.Along w as as' := by
  obtain ⟨ha, has⟩ := List.forall_mem_append.1 h.2
  exact ⟨_, _, h.1, ⟨rfl, ha⟩, rfl, has⟩

theorem Along.cell {cursor cursor' : Cursor} (h : K.Along w cursor cursor') (busy : Bool) :
    K.Along w (⟨cursor, busy⟩ : Cell) ⟨cursor', busy⟩ := by
  refine ⟨?_, h.2⟩
  rw [h.1]
  rfl

theorem Along.of_forall₂ {as bs : List α} (h : List.Forall₂ (K.Along w) as bs) :
    K.Along w as bs := by
  induction h with
  | nil => exact .nil
  | cons hab _ ih => exact .cons hab ih

theorem Along.forall₂ {as bs : List α} (h : K.Along w as bs) :
    List.Forall₂ (K.Along w) as bs := by
  induction as generalizing bs with
  | nil => exact h.1 ▸ .nil
  | cons a as ih =>
    obtain ⟨a', as', rfl, ha, has⟩ := h.of_cons
    exact .cons ha (ih has)

theorem FindsAll.of_forall₂ {hs hs' : List Handle} (h : List.Forall₂ (K.Finds w) hs hs') :
    K.FindsAll w hs hs' := by
  induction h with
  | nil => exact ⟨rfl, by simp⟩
  | cons hfinds _ ih =>
    exact ⟨by rw [hfinds.1, ih.1]; rfl, List.forall_mem_cons.2 ⟨hfinds.2, ih.2⟩⟩

/-- The result of a calculation that only compares iterators. -/
theorem Along.map {F : α → β} (hF : Natural F) {a a' : α} (h : K.Along w a a') :
    K.Along w (F a) (F a') :=
  ⟨by rw [h.1, hF K.move K.move_injective], fun i hi => h.2 i (hF.handles_subset a hi)⟩

end

/-! ### Values -/

theorem Along.list {vs vs' : List Value} (h : K.Along w vs vs') :
    K.Along w (Value.list vs) (.list vs') :=
  h.map (F := Value.list) fun _ _ vs => congrArg Value.list (Value.renameAll_eq _ vs).symm

theorem Along.dict {es es' : List (String × Value)} (h : K.Along w es es') :
    K.Along w (Value.dict es) (.dict es') :=
  h.map (F := Value.dict) fun _ _ es => congrArg Value.dict (Value.renameBindings_eq _ es).symm

theorem Along.of_list {vs : List Value} {v : Value} (h : K.Along w (Value.list vs) v) :
    ∃ vs', v = .list vs' ∧ K.Along w vs vs' := by
  refine ⟨_, h.1, Value.renameAll_eq _ vs, fun i hi => h.2 i ?_⟩
  change i ∈ Value.handlesAll vs
  rwa [Value.handlesAll_eq]

theorem Along.of_dict {es : List (String × Value)} {v : Value} (h : K.Along w (Value.dict es) v) :
    ∃ es', v = .dict es' ∧ K.Along w es es' := by
  refine ⟨_, h.1, Value.renameBindings_eq _ es, fun i hi => h.2 i ?_⟩
  change i ∈ Value.handlesBindings es
  rwa [Value.handlesBindings_eq]

theorem Finds.iterator {h h' : Handle} (hh : K.Finds w h h') :
    K.Along w (Value.iterator h) (.iterator h') :=
  ⟨congrArg Value.iterator hh.1, by simpa [handles, Value.handles] using hh.2⟩

end Knowledge

open Eval Knowledge

/-- A statement about two computations of a type that begin in a world and whose results are to
be related in the world in which they end. -/
abbrev Judgement (W : Type) :=
  ∀ ⦃α : Type⦄, W → (W → α → α → Prop) → Program α → Program α → Prop

/-- A judgement that holds of advances of known iterators and of what is made of them. -/
structure Sequential {W : Type} [Preorder W] (K : Knowledge W) (J : Judgement W) : Prop where
  pure : ∀ {α : Type} {w : W} {Q : W → α → α → Prop} {a b : α},
    Q w a b → J w Q (fun _ => Pure.pure a) (fun _ => Pure.pure b)
  bind : ∀ {α β : Type} {w : W} {Q : W → α → α → Prop} {P : W → β → β → Prop}
    {x y : Program α} {k l : α → Program β}, J w Q x y →
    (∀ w', w ≤ w' → ∀ a b, Q w' a b → J w' P (k a) (l b)) →
    J w P (fun ev => x ev >>= fun a => k a ev) (fun ev => y ev >>= fun b => l b ev)
  attempt : ∀ {α : Type} {w : W} {Q : W → α → α → Prop} {x y : Program α}, J w Q x y →
    J w (K.OrFails Q) (fun ev => attempt (x ev)) (fun ev => attempt (y ev))
  advance : ∀ {w : W} {h h' : Handle}, K.Finds w h h' →
    J w K.Along (fun ev => ev.advance h) (fun ev => ev.advance h')

/-- The first items of a known iterator. -/
theorem Sequential.take {W : Type} [Preorder W] {K : Knowledge W} {J : Judgement W}
    (hJ : Sequential K J) {w : W} {h h' : Handle} (hh : K.Finds w h h') (n : Nat) :
    J w K.Along (fun ev => ev.take h n) (fun ev => ev.take h' n) := by
  induction n generalizing w with
  | zero => exact hJ.pure .nil
  | succ n ih =>
    refine hJ.bind (hJ.advance hh) fun w₁ hw₁ item item' hitem => ?_
    obtain ⟨rfl, rfl⟩ | ⟨v, v', rfl, rfl, hv⟩ := hitem.option_cases
    · exact hJ.pure .nil
    · exact hJ.bind (ih (hh.mono hw₁)) fun w₂ hw₂ items items' hitems =>
        hJ.pure (.cons (hv.mono hw₂) hitems)

/-- A judgement that holds of the actions of the evaluator, and that the ways to put actions
together keep. -/
structure Tracks {W : Type} [Preorder W] (K : Knowledge W) (J : Judgement W) : Prop extends
    Sequential K J where
  raise : ∀ {α : Type} {w : W} {Q : W → α → α → Prop} {c : Cause}, c.IsOrdinary →
    J w Q (fun _ => raise c) (fun _ => Eval.raise c)
  locating : ∀ {α : Type} {w : W} {Q : W → α → α → Prop} {x y : Program α}
    (location : Location), J w Q x y →
    J w Q (fun ev => locating location (x ev)) (fun ev => Eval.locating location (y ev))
  /-- A loop over a known iterator, with a relation between the states that is kept. -/
  fold : ∀ {α : Type} {w : W} {R : W → α → α → Prop} {a b : α} {h h' : Handle}
    {step step' : α → Value → Program (Walk α)},
    (∀ {w w' : W} {a b : α}, w ≤ w' → R w a b → R w' a b) → K.Finds w h h' → R w a b →
    (∀ w', w ≤ w' → ∀ a b v v', R w' a b → K.Along w' v v' →
      J w' (WalksAlong R) (step a v) (step' b v')) →
    J w R (fun ev => ev.fold h a fun a v => step a v ev)
      (fun ev => ev.fold h' b fun b v => step' b v ev)
  env : ∀ {w : W}, J w K.Along (fun _ => env) (fun _ => Eval.env)
  bindVar : ∀ {w : W} (name : String) {v v' : Value}, K.Along w v v' →
    J w Same (fun _ => bindVar name v) (fun _ => Eval.bindVar name v')
  removeVar : ∀ {w : W} (name : String), J w Same (fun _ => removeVar name)
    (fun _ => Eval.removeVar name)
  inScope : ∀ {α : Type} {w : W} {Q : W → α → α → Prop} {x y : Program α},
    (∀ {w w' : W} {a b : α}, w ≤ w' → Q w a b → Q w' a b) → (∀ w', w ≤ w' → J w' Q x y) →
    J w Q (fun ev => inScope (x ev)) (fun ev => Eval.inScope (y ev))
  clock : ∀ {w : W}, J w Same (fun _ => clock) (fun _ => Eval.clock)
  draw : ∀ {w : W} (bound : Nat), J w Same (fun _ => Builtin.draw bound)
    (fun _ => Builtin.draw bound)
  load : ∀ {w : W} (text : String), J w K.Along (fun _ => load text) (fun _ => Eval.load text)
  allocate : ∀ {w : W} {cursor cursor' : Cursor}, cursor.IsBuiltin → K.Along w cursor cursor' →
    J w K.Finds (fun _ => allocate cursor) (fun _ => Eval.allocate cursor')
  emit : ∀ {w : W} (text : String), J w Same (fun _ => emit text) (fun _ => Eval.emit text)
  splice : ∀ {w : W} (output : Array String), J w Same (fun _ => splice output)
    (fun _ => Eval.splice output)

namespace Tracks

variable {W : Type} [Preorder W] {K : Knowledge W} {J : Judgement W} {w : W} (hJ : Tracks K J)

include hJ

/-! ## Results and lists -/

section

variable {α β γ : Type} {Q : W → α → α → Prop}

/-- A calculation on data that may fail and that only compares iterators. -/
theorem lift [Carries α] [Carries β] {F : α → Except Cause β} (hF : NaturalOrFails F) {a a' : α}
    (h : K.Along w a a') (hplain : Plain (F a)) :
    J w K.Along (fun _ => lift (F a)) (fun _ => Eval.lift (F a')) := by
  rw [h.1, hF K.move K.move_injective]
  cases hFa : F a with
  | ok b => exact hJ.pure ⟨rfl, fun i hi => h.2 i (hF.handles_subset hFa hi)⟩
  | error c => exact hJ.raise (hplain.isOrdinary c hFa)

/-- A calculation that does not depend on iterators. -/
theorem lift_same {e : Except Cause γ} (hplain : Plain e) :
    J w Same (fun _ => Eval.lift e) (fun _ => Eval.lift e) := by
  cases he : e with
  | ok b => exact hJ.pure rfl
  | error c => exact hJ.raise (hplain.isOrdinary c he)

theorem liftWire (e : Except Wire.Error γ) :
    J w Same (fun _ => liftWire e) (fun _ => Eval.liftWire e) := by
  cases e with
  | ok b => exact hJ.pure rfl
  | error e => exact hJ.raise trivial

theorem forM {k : γ → Program Unit} {as : List γ}
    (h : ∀ a ∈ as, ∀ w, J w Same (k a) (k a)) :
    J w Same (fun ev => as.forM fun a => k a ev) (fun ev => as.forM fun a => k a ev) := by
  induction as generalizing w with
  | nil => exact hJ.pure rfl
  | cons a as ih =>
    obtain ⟨ha, has⟩ := List.forall_mem_cons.1 h
    exact hJ.bind (ha w) fun w' _ _ _ _ => ih has

theorem mapM {w₀ : W} {Q : W → α → α → Prop}
    (hmono : ∀ {w w' : W} {a b : α}, w ≤ w' → Q w a b → Q w' a b) {k l : γ → Program α}
    {as bs : List γ} (h : List.Forall₂ (fun a b => ∀ w, w₀ ≤ w → J w Q (k a) (l b)) as bs)
    (hw : w₀ ≤ w) :
    J w (fun w => List.Forall₂ (Q w)) (fun ev => as.mapM fun a => k a ev)
      (fun ev => bs.mapM fun b => l b ev) := by
  induction h generalizing w with
  | nil => exact hJ.pure .nil
  | cons hab _ ih =>
    simp only [List.mapM_cons]
    exact hJ.bind (hab w hw) fun w₁ hw₁ a b hQ => hJ.bind (ih (hw.trans hw₁))
      fun w₂ hw₂ as bs hQs => hJ.pure (.cons (hmono hw₂ hQ) hQs)

theorem foldlM {R : W → α → α → Prop} {k : α → γ → Program α} {as : List γ}
    (h : ∀ a ∈ as, ∀ w', w ≤ w' → ∀ s s', R w' s s' → J w' R (k s a) (k s' a)) {s s' : α}
    (hs : R w s s') :
    J w R (fun ev => as.foldlM (fun s a => k s a ev) s)
      (fun ev => as.foldlM (fun s a => k s a ev) s') := by
  induction as generalizing w s s' with
  | nil => exact hJ.pure hs
  | cons a as ih =>
    obtain ⟨ha, has⟩ := List.forall_mem_cons.1 h
    simp only [List.foldlM_cons]
    exact hJ.bind (ha w le_rfl s s' hs) fun w₁ hw₁ s s' hs =>
      ih (fun a ha w' hw' => has a ha w' (hw₁.trans hw')) hs

end

/-! ## Iteration -/

omit hJ in
theorem sequence? {v v' : Value} (h : K.Along w v v') : K.Along w v.sequence? v'.sequence? := by
  refine h.map (F := Value.sequence?) fun ρ _ v => ?_
  have hmap {α : Type} (f : α → Value) (as : List α) (hf : ∀ a, rename ρ (f a) = f a) :
      some (as.map f) = rename ρ (some (as.map f)) :=
    congrArg some (((List.map_map (g := rename ρ)).trans
      (List.map_congr_left fun a _ => hf a)).symm)
  cases v with
  | list items => exact congrArg some (Value.renameAll_eq _ items)
  | dict entries =>
    change some ((Value.renameBindings _ entries).map _) = _
    rw [Value.renameBindings_eq, List.map_map]
    exact hmap _ entries fun _ => rfl
  | str s => exact hmap _ s.toList fun _ => rfl
  | _ => rfl

theorem iterate {v v' : Value} (h : K.Along w v v') :
    J w K.Finds (fun _ => v.iterate) (fun _ => v'.iterate) := by
  have hsequence : J w K.Finds
      (fun _ => v.sequence?.elim (Eval.raise (.notIterable v.typeName))
        fun items => Eval.allocate (.items items))
      (fun _ => v'.sequence?.elim (Eval.raise (.notIterable v'.typeName))
        fun items => Eval.allocate (.items items)) := by
    have hname : v'.typeName = v.typeName := h.1 ▸ Value.typeName_rename v
    obtain ⟨hv', hknown⟩ := Tracks.sequence? h
    rw [hv', hname]
    cases hv : v.sequence? with
    | none => exact hJ.raise trivial
    | some items =>
      rw [hv] at hknown
      have hitems : K.Along w (Cursor.items items) (.items (rename K.move items)) :=
        ⟨rfl, fun i hi => hknown i (by simpa [handles] using hi)⟩
      exact hJ.allocate trivial hitems
  obtain rfl := h.1
  cases v with
  | iterator handle => exact hJ.pure ⟨rfl, h.2 handle (List.mem_singleton_self handle)⟩
  | _ => exact hsequence

variable {h h' : Handle}

theorem collect (hh : K.Finds w h h') :
    J w K.Along (fun ev => ev.collect h) (fun ev => ev.collect h') := by
  refine hJ.bind (Q := K.Along) (hJ.fold (fun hw hab => hab.mono hw) hh .nil ?_) ?_
  · exact fun w' _ items items' v v' hitems hv => hJ.pure (.on (.cons hv hitems))
  · exact fun w' _ items items' hitems => hJ.pure (hitems.map fun ρ _ vs => List.map_reverse.symm)

theorem items {v v' : Value} (h : K.Along w v v') :
    J w K.Along (fun ev => ev.items v) (fun ev => ev.items v') := by
  have hcollect : J w K.Along (fun ev => v.iterate >>= fun handle => ev.collect handle)
      (fun ev => v'.iterate >>= fun handle => ev.collect handle) :=
    hJ.bind (hJ.iterate h) fun _ _ _ _ hh => hJ.collect hh
  cases v with
  | list vs =>
    obtain ⟨vs', rfl, hvs⟩ := h.of_list
    exact hJ.pure hvs
  | _ =>
    obtain rfl := h.1
    exact hcollect

theorem reversed {v v' : Value} (h : K.Along w v v') :
    J w K.Finds (fun ev => ev.reversed v) (fun ev => ev.reversed v') := by
  refine hJ.bind (hJ.items h) fun _ _ vs vs' hvs => hJ.allocate trivial ?_
  exact hvs.map (F := fun vs => Cursor.items vs.reverse) fun ρ _ vs =>
    congrArg Cursor.items List.map_reverse.symm

omit hJ

mutual

/-- An assignment of a value with known iterators. -/
theorem assign (hJ : Tracks K J) {w : W} : ∀ (target : Target) {v v' : Value}, K.Along w v v' →
    J w Same (fun ev => ev.assign target v) (fun ev => ev.assign target v')
  | .name name, v, v', h => by
    simp only [Evaluator.assign]
    exact hJ.bindVar name h
  | .tuple targets, v, v', h => by
    simp only [Evaluator.assign]
    refine hJ.bind (hJ.iterate h) fun _ _ handle handle' hh => hJ.bind (hJ.toSequential.take hh _)
      fun _ _ items items' hitems => ?_
    have hlength : items'.length = items.length := hitems.1 ▸ List.length_map _
    rw [hlength]
    split
    · exact assignAll hJ targets hitems
    · exact hJ.raise trivial

theorem assignAll (hJ : Tracks K J) {w : W} : ∀ (targets : List Target) {vs vs' : List Value},
    K.Along w vs vs' →
      J w Same (fun ev => ev.assignAll targets vs) (fun ev => ev.assignAll targets vs')
  | [], vs, vs', _ => by
    simp only [Evaluator.assignAll]
    exact hJ.pure rfl
  | _ :: _, [], vs', h => by
    obtain rfl := h.1
    simp only [rename, List.map_nil, Evaluator.assignAll]
    exact hJ.pure rfl
  | target :: targets, v :: vs, vs', h => by
    obtain ⟨v', vs', rfl, hv, hvs⟩ := h.of_cons
    exact hJ.bind (assign hJ target hv) fun _ hw _ _ _ => assignAll hJ targets (hvs.mono hw)

end

end Tracks

end Templating
