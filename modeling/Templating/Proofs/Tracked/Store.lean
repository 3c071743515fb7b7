import Templating.Proofs.Compatible.Cursor
import Templating.Proofs.Compatible.Node
import Templating.Proofs.Tracked.Cursor
import Templating.Proofs.Tracked.Node
import Templating.Proofs.Tracked.Run

/-!
# What evaluation keeps in the store

* `StoreLogic`: what holds of the store in a world, and which worlds and stores follow one another.
* `StoreLogic.Leads`: a computation that begins in a world ends in a later one, where its result is
  known.
* `Leads.deeper`, `Leads.captured`, `Leads.advance`: render calls and advances, which come back to
  the frame of the caller.
* `StoreLogic.tracks`, `StoreLogic.sequential`: **these are judgements that evaluation keeps**, if
  they hold of the advances of iterators and of loops.
-/

namespace Templating

open Carries (handles rename)

open Eval Knowledge

/-- A round of a generator expression, which takes an item of the source. -/
def Evaluator.generateRound (ev : Evaluator) (g : Generator) (item : Value) :
    Eval (Walk (Option Value)) := do
  ev.assign g.target item
  if ← ev.holds g.condition then return .done (some (← ev.eval g.item)) else return .on none

/-- What holds of the state of a loop that goes on or ends. -/
def Walk.Holds {α : Type} (Q : α → Prop) : Walk α → Prop
  | .on a | .done a => Q a

/-- What holds of the store of a machine in a world, and how worlds and stores follow one
another. -/
structure StoreLogic (W : Type) [Preorder W] extends Knowledge W where
  holds : W → Array Cell → Prop
  /-- A world and a store, and those after a while. -/
  follows : W → Array Cell → W → Array Cell → Prop
  follows_refl : ∀ w s, follows w s w s
  follows_trans : ∀ {w₁ w₂ w₃ s₁ s₂ s₃}, follows w₁ s₁ w₂ s₂ → follows w₂ s₂ w₃ s₃ →
    follows w₁ s₁ w₃ s₃
  le_of_follows : ∀ {w w' s s'}, follows w s w' s' → w ≤ w'
  /-- The depths at which templates run. -/
  level : Nat → Nat → Prop
  allocate : ∀ {w s} {cursor : Cursor}, holds w s → cursor.IsBuiltin →
    (∀ h ∈ handles cursor, known w h) → ∃ w', follows w s w' (s.push ⟨cursor, false⟩) ∧
      holds w' (s.push ⟨cursor, false⟩) ∧ known w' s.size

namespace StoreLogic

variable {W : Type} [Preorder W] (L : StoreLogic W)

/-- A frame whose variables contain known iterators only. -/
def Inside (w : W) (frame : Frame) : Prop :=
  (∀ h ∈ handles frame, L.known w h) ∧ L.level frame.depth frame.maxDepth

/-- What a run ends with: a certain result, or an error that may arise. -/
def Returns {α : Type} (w : W) (Q : W → α → Prop) : Outcome α → Prop
  | .ok a _ => Q w a
  | .error (.failed e) _ => L.permits e
  | .error .exhausted _ => False

/-- A certain result, or an error that may arise. -/
def OrPermits {α : Type} (Q : W → α → Prop) (w : W) : Except EvalError α → Prop
  | .ok a => Q w a
  | .error e => L.permits e

/-- A world in which a run ends that began in another one. -/
structure Reached (inside : W → Frame → Prop) {α : Type} (w : W) (s : Array Cell)
    (Q : W → α → Prop) (w' : W) (r : Outcome α) : Prop where
  follows : L.follows w s w' (Outcome.machine r).store
  holds : L.holds w' (Outcome.machine r).store
  inside : inside w' (Outcome.machine r).frame
  returns : L.Returns w' Q r

/-- The runs from a machine in a world end in a later world. -/
def Leads (T : Running) (inside : W → Frame → Prop) {α : Type} (w : W) (Q : W → α → Prop)
    (x : Program α) : Prop :=
  ∀ m, L.holds w m.store → inside w m.frame →
    T x m fun r => ∃ w', L.Reached inside w m.store Q w' r

/-- The same as a judgement. It does not look at the second run. -/
def Judges (T : Running) (inside : W → Frame → Prop) : Judgement W := fun _ w Q x _ =>
  L.Leads T inside w (fun w a => ∃ b, Q w a b) x

variable {L} {T : Running} {inside : W → Frame → Prop} {w : W} {α β : Type}
  {Q Q' : W → α → Prop} {P : W → β → Prop}

theorem Inside.mono {w' : W} {frame : Frame} (h : L.Inside w frame) (hw : w ≤ w') :
    L.Inside w' frame :=
  ⟨fun i hi => L.known_mono hw (h.1 i hi), h.2⟩

theorem Returns.mono {r : Outcome α} (h : L.Returns w Q r) (hQ : ∀ a, Q w a → Q' w a) :
    L.Returns w Q' r := by
  cases r with
  | ok a m => exact hQ a h
  | error e m => cases e <;> exact h

namespace Reached

variable {s : Array Cell} {w₁ w₂ : W} {r : Outcome α} {r' : Outcome β}

theorem le (h : L.Reached inside w s Q w₁ r) : w ≤ w₁ := L.le_of_follows h.follows

/-- What follows a part of a run follows the whole run. -/
theorem after (h : L.Reached inside w s Q w₁ r)
    (h' : L.Reached inside w₁ (Outcome.machine r).store P w₂ r') : L.Reached inside w s P w₂ r' :=
  ⟨L.follows_trans h.follows h'.follows, h'.holds, h'.inside, h'.returns⟩

end Reached

namespace Leads

variable (hT : Runs T)

include hT

theorem mono {x : Program α} (hx : L.Leads T inside w Q x)
    (hQ : ∀ w', w ≤ w' → ∀ a, Q w' a → Q' w' a) :
    L.Leads T inside w Q' x := by
  intro m hholds hinside
  refine hT.mono (hx m hholds hinside) ?_
  rintro r ⟨w', h⟩
  exact ⟨w', h.follows, h.holds, h.inside, h.returns.mono (hQ w' h.le)⟩

/-- An action that leaves the store and the frame alone. -/
theorem still {x : Eval α} (hstore : ∀ m, (Outcome.machine (x m)).store = m.store)
    (hframe : ∀ m, (Outcome.machine (x m)).frame = m.frame)
    (hreturns : ∀ m, inside w m.frame → L.Returns w Q (x m)) :
    L.Leads T inside w Q fun _ => x := by
  intro m hholds hinside
  have hreturns := hreturns m hinside
  refine hT.action ?_ ⟨w, ?_, ?_, ?_, hreturns⟩
  · cases hx : x m with
    | ok a m' => trivial
    | error e m' =>
      rw [hx] at hreturns
      cases e with
      | failed e => trivial
      | exhausted => exact hreturns.elim
  · rw [hstore]
    exact L.follows_refl ..
  · rwa [hstore]
  · rwa [hframe]

theorem pure {a : α} (h : Q w a) : L.Leads T inside w Q fun _ => Pure.pure a :=
  still hT (fun _ => rfl) (fun _ => rfl) fun _ _ => h

theorem fail {e : EvalError} (h : L.permits e) : L.Leads T inside w Q fun _ => throw (.failed e) :=
  still hT (fun _ => rfl) (fun _ => rfl) fun _ _ => h

theorem bind {x : Program α} {k : α → Program β} (hx : L.Leads T inside w Q x)
    (hk : ∀ w', w ≤ w' → ∀ a, Q w' a → L.Leads T inside w' P (k a)) :
    L.Leads T inside w P fun ev => x ev >>= fun a => k a ev := by
  intro m hholds hinside
  refine hT.bind (hx m hholds hinside) ?_ ?_
  · rintro a m' ⟨w', h⟩
    refine hT.mono (hk w' h.le a h.returns m' h.holds h.inside) ?_
    rintro r ⟨w'', h'⟩
    exact ⟨w'', h.after h'⟩
  · rintro e m' ⟨w', h⟩
    exact ⟨w', h.follows, h.holds, h.inside, h.returns⟩

theorem attempt {x : Program α} (hx : L.Leads T inside w Q x) :
    L.Leads T inside w (L.OrPermits Q) fun ev => Eval.attempt (x ev) := by
  intro m hholds hinside
  refine hT.attempt (hx m hholds hinside) ?_ ?_
  · rintro a m' ⟨w', h⟩
    exact ⟨w', h.follows, h.holds, h.inside, h.returns⟩
  · rintro e m' ⟨w', h⟩
    exact ⟨w', h.follows, h.holds, h.inside, h.returns⟩

/-- The result of an action that was attempted. -/
theorem settle {r : Except EvalError α} (h : L.OrPermits Q w r) :
    L.Leads T inside w Q fun _ => Eval.settle r := by
  cases r with
  | ok a => exact pure hT h
  | error e => exact fail hT h

/-- A computation that does what another one does. -/
theorem of_eq {x y : Program α} (heq : ∀ ev m, x ev m = y ev m) (hy : L.Leads T inside w Q y) :
    L.Leads T inside w Q x := by
  intro m hholds hinside
  exact hT.transport (fun ev => heq ev m) (hy m hholds hinside)

theorem mapError {f : EvalError → EvalError} (hf : ∀ e, L.permits e → L.permits (f e))
    {x : Program α} (hx : L.Leads T inside w Q x) :
    L.Leads T inside w Q fun ev => Eval.mapError f (x ev) := by
  have hsettled : L.Leads T inside w Q fun ev =>
      Eval.attempt (x ev) >>= fun r => Eval.settle (r.mapError f) := by
    refine bind hT (attempt hT hx) fun w' _ r hr => settle hT ?_
    cases r with
    | ok a => exact hr
    | error e => exact hf e hr
  refine of_eq hT (fun ev m => ?_) hsettled
  rw [bind_apply]
  unfold Eval.mapError Eval.attempt
  cases x ev m with
  | ok a m' => rfl
  | error e m' => cases e <;> rfl

/-- A round of a loop, of which only an error that may arise is left. -/
theorem round {x : Program Unit} (hx : L.Leads T inside w (fun _ _ => True) x) :
    L.Leads T inside w (fun _ _ => True)
      fun ev => Eval.attempt (x ev) >>= Evaluator.afterRound := by
  refine bind hT (attempt hT hx) fun w' _ r hr => ?_
  rcases Evaluator.afterRound_cases r with ⟨walk, h⟩ | ⟨e, rfl, -, h⟩ <;> rw [h]
  · exact pure hT trivial
  · exact fail hT hr

/-- An advance leaves the frame alone, so it may happen in any. -/
theorem of_frame_eq (hmono : ∀ w w' frame, w ≤ w' → inside w frame → inside w' frame)
    {x : Program α} (hx : ∀ frame, L.Leads T (fun _ => (· = frame)) w Q x) :
    L.Leads T inside w Q x := by
  intro m hholds hinside
  refine hT.mono (hx m.frame m hholds rfl) ?_
  rintro r ⟨w', h⟩
  refine ⟨w', h.follows, h.holds, ?_, h.returns⟩
  rw [h.inside]
  exact hmono _ _ _ h.le hinside

omit hT in
/-- Errors of runs that end are such that may arise. -/
theorem permits {ev ev' : Evaluator} {x : Program α} (hx : L.Leads (Ends ev ev') inside w Q x)
    {m m' : Machine} {e : EvalError} (hholds : L.holds w m.store) (hinside : inside w m.frame)
    (hrun : x ev m = .error (.failed e) m') : L.permits e := by
  have hends := hx m hholds hinside
  unfold Ends at hends
  rw [hrun] at hends
  obtain ⟨-, w', h⟩ := hends trivial
  exact h.returns

theorem inside_of_frame_eq {x : Program α}
    (hx : ∀ frame, L.Leads T (fun _ => (· = frame)) w Q x) : L.Leads T L.Inside w Q x :=
  of_frame_eq hT (fun _ _ _ hw h => h.mono hw) hx

/-! ## Variables -/

theorem allocate {cursor : Cursor} (hbuiltin : cursor.IsBuiltin)
    (hknown : ∀ h ∈ handles cursor, L.known w h) :
    L.Leads T L.Inside w L.known fun _ => Eval.allocate cursor := by
  intro m hholds hinside
  obtain ⟨w', hfollows, hholds', hnew⟩ := L.allocate hholds hbuiltin hknown
  exact hT.action trivial
    ⟨w', hfollows, hholds', hinside.mono (L.le_of_follows hfollows), hnew⟩

theorem modifyEnv {f : Environment → Environment}
    (hf : ∀ e, (∀ h ∈ handles e, L.known w h) → ∀ h ∈ handles (f e), L.known w h) :
    L.Leads T L.Inside w (fun _ _ => True) fun _ => Eval.modifyEnv f := by
  intro m hholds hinside
  exact hT.action trivial ⟨w, L.follows_refl .., hholds, ⟨hf _ hinside.1, hinside.2⟩, trivial⟩

theorem env : L.Leads T L.Inside w (fun w e => ∀ h ∈ handles e, L.known w h) fun _ => Eval.env :=
  still hT (fun _ => rfl) (fun _ => rfl) fun _ hinside => hinside.1

theorem bindVar (name : String) {v : Value} (hv : ∀ h ∈ handles v, L.known w h) :
    L.Leads T L.Inside w (fun _ _ => True) fun _ => Eval.bindVar name v := by
  have hbind : Natural fun p : Environment × Value => p.1.bind name p.2 := fun ρ _ p =>
    p.1.bind_rename ρ name p.2
  refine modifyEnv hT fun e he h hh => ?_
  exact List.forall_mem_append.2 ⟨he, hv⟩ h (hbind.handles_subset (e, v) hh)

theorem removeVar (name : String) :
    L.Leads T L.Inside w (fun _ _ => True) fun _ => Eval.removeVar name := by
  have hremove : Natural fun e : Environment => e.remove? name := fun ρ _ e =>
    e.remove?_rename ρ name
  refine bind hT (env hT) fun w' _ e he => ?_
  have hsubset := hremove.handles_subset e
  cases hr : e.remove? name with
  | none => exact fail hT (L.permits_ordinary (c := .undefinedVariable name) trivial)
  | some p =>
    rw [hr, handles_some] at hsubset
    exact modifyEnv hT fun _ _ h hh => he h (hsubset (List.mem_append_right _ hh))

theorem inScope {x : Program α} (hQ : ∀ {w w' : W} {a : α}, w ≤ w' → Q w a → Q w' a)
    (hx : ∀ w', w ≤ w' → L.Leads T L.Inside w' Q x) :
    L.Leads T L.Inside w Q fun ev => Eval.inScope (x ev) := by
  have hpush : Natural Environment.push := fun ρ _ e => e.push_rename ρ
  have hpop : Natural Environment.pop := fun ρ _ e => e.pop_rename ρ
  refine bind hT (modifyEnv hT fun e he h hh => he h (hpush.handles_subset e hh))
    fun w₁ hw₁ _ _ => bind hT (attempt hT (hx w₁ hw₁)) fun w₂ _ r hr =>
      bind hT (modifyEnv hT fun e he h hh => he h (hpop.handles_subset e hh)) fun w₃ hw₃ _ _ =>
        settle hT ?_
  cases r with
  | ok a => exact hQ hw₃ hr
  | error e => exact hr

/-- A new generator expression, if the store may have it. -/
theorem suspend {source : Handle} {comp : Comprehension} {item : Node}
    (hgenerator : ∀ {s frame}, L.holds w s → L.Inside w frame →
      let cell : Cell := ⟨.generator ⟨frame, source, comp.target, comp.condition, item⟩, false⟩
      ∃ w', L.follows w s w' (s.push cell) ∧ L.holds w' (s.push cell) ∧ L.known w' s.size) :
    L.Leads T L.Inside w L.known fun _ => Eval.suspend source comp item := by
  intro m hholds hinside
  have hpush : Natural Environment.push := fun ρ _ e => e.push_rename ρ
  have hframe : L.Inside w { m.frame with env := m.frame.env.push } :=
    ⟨fun h hh => hinside.1 h (hpush.handles_subset m.frame.env hh), hinside.2⟩
  obtain ⟨w', hfollows, hholds', hnew⟩ := hgenerator hholds hframe
  exact hT.action trivial
    ⟨w', hfollows, hholds', hinside.mono (L.le_of_follows hfollows), hnew⟩

/-! ## Loops -/

/-- A loop whose budget may be exhausted. -/
theorem fold (hE : MayExhaust T) (hmono : ∀ {w w' : W} {a : α}, w ≤ w' → Q w a → Q w' a)
    {K : W → Value → Prop} {h : Handle} {a : α} {step : α → Value → Program (Walk α)} (ha : Q w a)
    (hadvance : ∀ w', w ≤ w' → L.Leads T inside w' (fun w item => ∀ v ∈ item, K w v)
      fun ev => ev.advance h)
    (hstep : ∀ w', w ≤ w' → ∀ a v, Q w' a → K w' v →
      L.Leads T inside w' (fun w walk => walk.Holds (Q w)) (step a v)) :
    L.Leads T inside w Q fun ev => ev.fold h a fun a v => step a v ev := by
  have hrounds (rounds : Nat) : ∀ w', w ≤ w' → ∀ a, Q w' a → L.Leads T inside w' Q fun ev =>
      ev.foldWithin h (fun a v => step a v ev) rounds a := by
    induction rounds with
    | zero => exact fun w' _ a _ m _ _ => hE.exhaust
    | succ rounds ih =>
      intro w₁ hw₁ a ha
      refine bind hT (hadvance w₁ hw₁) fun w₂ hw₂ item hitem => ?_
      cases item with
      | none => exact pure hT (hmono hw₂ ha)
      | some v =>
        have hw₂' := hw₁.trans hw₂
        refine bind hT (hstep w₂ hw₂' a v (hmono hw₂ ha) (hitem v rfl)) fun w₃ hw₃ walk hwalk => ?_
        cases walk with
        | on a => exact ih w₃ (hw₂'.trans hw₃) a hwalk
        | done a => exact pure hT hwalk
  intro m hholds hinside
  exact hE.budget (Evaluator.extends_foldWithin h step a) fun rounds =>
    hrounds rounds w le_rfl a ha m hholds hinside

omit hT in
/-- **A loop that ends**, since each of its items lowers a number. -/
theorem fold_halts {K : W → Value → Prop} {h : Handle} {a : α} {left : W → Nat}
    {step : α → Value → Program (Walk α)}
    (hleft : ∀ w₁, w ≤ w₁ → ∀ w₂, w₁ ≤ w₂ → left w₂ ≤ left w₁)
    (hmono : ∀ {w w' : W} {a : α}, w ≤ w' → Q w a → Q w' a) (ha : Q w a)
    (hadvance : ∀ w', w ≤ w' → L.Leads Halts inside w'
      (fun w'' item => ∀ v ∈ item, K w'' v ∧ left w'' < left w') fun ev => ev.advance h)
    (hstep : ∀ w', w ≤ w' → ∀ a v, Q w' a → K w' v →
      L.Leads Halts inside w' (fun w walk => walk.Holds (Q w)) (step a v)) :
    L.Leads Halts inside w Q fun ev => ev.fold h a fun a v => step a v ev := by
  -- one round more than the number, since the last round finds no item
  have hrounds (rounds : Nat) : ∀ w', w ≤ w' → left w' ≤ rounds → ∀ a, Q w' a →
      L.Leads Halts inside w' Q fun ev =>
        ev.foldWithin h (fun a v => step a v ev) (rounds + 1) a := by
    induction rounds using Nat.strong_induction_on with
    | _ rounds ih =>
      intro w₁ hw₁ hbound a ha
      refine bind Halts.runs (hadvance w₁ hw₁) fun w₂ hw₂ item hitem => ?_
      cases item with
      | none => exact pure Halts.runs (hmono hw₂ ha)
      | some v =>
        obtain ⟨hv, hlt⟩ := hitem v rfl
        have hw₂' := hw₁.trans hw₂
        obtain ⟨k, rfl⟩ : ∃ k, rounds = k + 1 := ⟨rounds - 1, by omega⟩
        refine bind Halts.runs (hstep w₂ hw₂' a v (hmono hw₂ ha) hv) fun w₃ hw₃ walk hwalk => ?_
        cases walk with
        | on a =>
          have hlower : left w₃ ≤ left w₂ := hleft w₂ hw₂' w₃ hw₃
          exact ih k k.lt_succ_self w₃ (hw₂'.trans hw₃) (by omega) a hwalk
        | done a => exact pure Halts.runs hwalk
  intro m hholds hinside
  exact Halts.budget (Evaluator.extends_foldWithin h step a)
    (hrounds (left w) w le_rfl le_rfl a ha m hholds hinside)

/-! ## Frames of their own -/

/-- A render call of a template, of which only an error that is no signal is left. -/
theorem renderNested (hmono : ∀ w w' frame, w ≤ w' → inside w frame → inside w' frame)
    (hrefused : ∀ limit, L.permits (.ofCause (.recursionLimit limit))) {t : Template} {vars : Scope}
    (hexec : ∀ m : Machine, L.holds w m.store → inside w m.frame →
      m.frame.depth < m.frame.maxDepth →
      T (fun ev => ev.exec t.block) { m with frame := m.frame.below vars, output := #[] } fun r =>
        ∃ w', L.follows w m.store w' (Outcome.machine r).store ∧
          L.holds w' (Outcome.machine r).store ∧
          ∀ e m', r = .error (.failed e) m' → L.permits e.settle) :
    L.Leads T inside w (fun _ _ => True) fun ev => ev.renderNested t vars := by
  intro m hholds hinside
  -- what is left of a run of the template, with its output and with its error
  let left (r : Outcome (Array String)) := ∃ w', L.follows w m.store w' (Outcome.machine r).store ∧
    L.holds w' (Outcome.machine r).store ∧ L.Returns w' (fun _ _ => True) r
  refine hT.deeper (x := fun ev => Eval.captured (ev.exec t.block)) (Q := left) ?_ ?_ ?_ ?_
  · exact fun _ => ⟨w, L.follows_refl .., hholds, hinside, hrefused _⟩
  · intro hlimit
    refine hT.captured (hexec m hholds hinside (by omega)) ?_ ?_
    · rintro m' ⟨w', hfollows, hholds', -⟩
      exact ⟨w', hfollows, hholds', trivial⟩
    · rintro e m' ⟨w', hfollows, hholds', herror⟩
      exact ⟨w', hfollows, hholds', herror e m' rfl⟩
  · rintro output m' ⟨w', hfollows, hholds', -⟩
    exact ⟨w', hfollows, hholds', hmono _ _ _ (L.le_of_follows hfollows) hinside, trivial⟩
  · rintro e m' ⟨w', hfollows, hholds', herror⟩
    exact ⟨w', hfollows, hholds', hmono _ _ _ (L.le_of_follows hfollows) hinside, herror⟩

end Leads

/-! ## Steps of iterators -/

variable (L) in
/-- Where an iterator stands after a step, and the item or the error. A generator expression has
changed in its variables only. -/
structure Steps (cursor : Cursor) (w : W) (r : Cursor × Except EvalError (Option Value)) :
    Prop where
  generator : ∀ {g}, r.1 = .generator g → ∃ g' frame, cursor = .generator g' ∧ g = { g' with frame }
  own : cursor.IsOwn → r.1.IsOwn
  known : ∀ h ∈ handles r.1, L.known w h
  result : L.OrPermits (fun w item => ∀ h ∈ handles item, L.known w h) w r.2

theorem exists_along_iff [Carries α] {a : α} :
    (∃ b, L.Along w a b) ↔ ∀ h ∈ handles a, L.known w h :=
  ⟨fun ⟨_, h⟩ => h.2, fun h => ⟨_, rfl, h⟩⟩

theorem OrPermits.of_orFails {R : W → α → α → Prop} {r r' : Except EvalError α}
    (h : L.OrFails R w r r') : L.OrPermits (fun w a => ∃ b, R w a b) w r := by
  cases h with
  | ok h => exact ⟨_, h⟩
  | error h => exact h

theorem OrPermits.exists_orFails {R : W → α → α → Prop} {r : Except EvalError α}
    (h : L.OrPermits (fun w a => ∃ b, R w a b) w r) : ∃ r', L.OrFails R w r r' := by
  cases r with
  | ok a =>
    obtain ⟨b, h⟩ := h
    exact ⟨_, .ok h⟩
  | error e => exact ⟨_, .error h⟩

/-- **A judgement that advances of known iterators keep**, if it holds of each. -/
theorem sequential (hT : Runs T)
    (hmono : ∀ w w' frame, w ≤ w' → inside w frame → inside w' frame)
    (hadvance : ∀ {w h}, L.known w h → ∀ frame, L.Leads T (fun _ => (· = frame)) w
      (fun w item => ∀ h ∈ handles item, L.known w h) fun ev => ev.advance h) :
    Sequential L.toKnowledge (L.Judges T inside) where
  pure h := Leads.pure hT ⟨_, h⟩
  bind hx hk := Leads.bind hT hx fun w' hw a ⟨b, h⟩ => hk w' hw a b h
  attempt hx := (Leads.attempt hT hx).mono hT fun _ _ _ h => h.exists_orFails
  advance hh := ((Leads.of_frame_eq hT hmono (hadvance hh.2)).mono hT fun _ _ _ h =>
    exists_along_iff.2 h)

/-- **A judgement that evaluation keeps**, if it holds of the advances of known iterators and of
loops over them. -/
theorem tracks (hT : Runs T)
    (hadvance : ∀ {w h}, L.known w h → ∀ frame, L.Leads T (fun _ => (· = frame)) w
      (fun w item => ∀ h ∈ handles item, L.known w h) fun ev => ev.advance h)
    (hfold : ∀ {α : Type} {w : W} {R : W → α → Prop} {a : α} {h : Handle}
      {step : α → Value → Program (Walk α)}, (∀ {w w' : W} {a : α}, w ≤ w' → R w a → R w' a) →
      L.known w h → R w a → (∀ w', w ≤ w' → ∀ a v, R w' a → (∀ i ∈ handles v, L.known w' i) →
        L.Leads T L.Inside w' (fun w walk => walk.Holds (R w)) (step a v)) →
      L.Leads T L.Inside w R fun ev => ev.fold h a fun a v => step a v ev) :
    Tracks L.toKnowledge (L.Judges T L.Inside) where
  toSequential := sequential hT (fun _ _ _ hw h => h.mono hw) hadvance
  raise hc := Leads.fail hT (L.permits_ordinary hc)
  locating location hx := Leads.mapError hT (fun _ h => L.permits_locate location h) hx
  fold {α w R a b h h' step step'} hmono hh hab hstep := by
    refine hfold (R := fun w a => ∃ b, R w a b) (fun hw ⟨b, h⟩ => ⟨b, hmono hw h⟩) hh.2 ⟨b, hab⟩ ?_
    rintro w' hw a v ⟨b, hR⟩ hv
    refine (hstep w' hw a b v _ hR ⟨rfl, hv⟩).mono hT ?_
    rintro w'' - walk ⟨walk', h⟩
    cases h with
    | on h | done h => exact ⟨_, h⟩
  env := (Leads.env hT).mono hT fun _ _ _ h => exists_along_iff.2 h
  bindVar name _ _ hv := (Leads.bindVar hT name hv.2).mono hT fun _ _ _ _ => ⟨_, rfl⟩
  removeVar name := (Leads.removeVar hT name).mono hT fun _ _ _ _ => ⟨_, rfl⟩
  inScope hmono hx := Leads.inScope hT (fun hw ⟨b, h⟩ => ⟨b, hmono hw h⟩) hx
  clock := Leads.still hT (fun _ => rfl) (fun _ => rfl) fun _ _ => ⟨_, rfl⟩
  draw bound := Leads.still hT (fun _ => rfl) (fun _ => rfl) fun _ _ => ⟨_, rfl⟩
  load text := by
    -- what is loaded holds no iterators, so it does not matter where the known ones are
    have hload (m : Machine) : (∃ v n, load text m = .ok v { m with fresh := n } ∧ handles v = []) ∨
        ∃ e, load text m = raise (.wire e) m := by
      rw [load_apply]
      cases h : Wire.loads? text m.fresh with
      | ok p => exact .inl ⟨p.1, p.2, rfl, Wire.handles_of_loads? h⟩
      | error e => exact .inr ⟨e, rfl⟩
    refine Leads.still hT (fun m => ?_) (fun m => ?_) fun m _ => ?_
    all_goals obtain ⟨v, n, h, hv⟩ | ⟨e, h⟩ := hload m <;> rw [h]
    · rfl
    · rfl
    · rfl
    · rfl
    · exact exists_along_iff.2 (by simp [hv])
    · exact L.permits_ordinary (c := .wire e) trivial
  allocate hbuiltin hc := (Leads.allocate hT hbuiltin hc.2).mono hT fun _ _ _ h => ⟨_, rfl, h⟩
  emit text := Leads.still hT (fun _ => rfl) (fun _ => rfl) fun _ _ => ⟨_, rfl⟩
  splice output := Leads.still hT (fun _ => rfl) (fun _ => rfl) fun _ _ => ⟨_, rfl⟩

/-- **A judgement that evaluation keeps**, if it holds of the advances of known iterators and if the
budget may be exhausted. -/
theorem tracks_of_mayExhaust (hT : Runs T) (hE : MayExhaust T)
    (hadvance : ∀ {w h}, L.known w h → ∀ frame, L.Leads T (fun _ => (· = frame)) w
      (fun w item => ∀ h ∈ handles item, L.known w h) fun ev => ev.advance h) :
    Tracks L.toKnowledge (L.Judges T L.Inside) := by
  refine tracks hT hadvance fun {_ w R _ _ _} hmono hh ha hstep => ?_
  refine Leads.fold (Q := R) hT hE hmono ha (fun w' hw => ?_) hstep
  refine (Leads.inside_of_frame_eq hT (hadvance (L.known_mono hw hh))).mono hT
    fun _ _ item hitem => ?_
  rintro v ⟨⟩
  rwa [handles_some] at hitem

/-- **A step of an iterator whose parts are known.** A generator expression runs in its frame. -/
theorem Leads.step (hT : Runs T)
    (hadvance : ∀ {w h}, L.known w h → ∀ frame, L.Leads T (fun _ => (· = frame)) w
      (fun w item => ∀ h ∈ handles item, L.known w h) fun ev => ev.advance h)
    (frame : Frame) {cursor : Cursor} (hknown : ∀ h ∈ handles cursor, L.known w h)
    (hsupplied : ∀ failure, ¬ cursor.IsOwn → L.permits (.ofCause (.supplied failure)))
    (hgenerate : ∀ g, cursor = .generator g → L.level g.frame.depth g.frame.maxDepth ∧
      L.Leads T L.Inside w (fun w item => ∀ h ∈ handles item, L.known w h)
        fun ev => ev.generate g) :
    L.Leads T (fun _ => (· = frame)) w (L.Steps cursor) fun ev => ev.step cursor := by
  have hsimple (h : cursor.IsSimple) :
      L.Leads T (fun _ => (· = frame)) w (L.Steps cursor) fun ev => ev.step cursor := by
    have hseq : Sequential L.toKnowledge (L.Judges T fun _ => (· = frame)) :=
      sequential hT (fun _ _ _ _ h => h) hadvance
    refine Leads.mono hT (hseq.step h hsupplied ⟨rfl, hknown⟩) ?_
    rintro w' - r ⟨r', hr⟩
    refine ⟨fun hg => ?_, hr.own, hr.cursor.2, ?_⟩
    · have hsimple := hr.simple
      rw [hg] at hsimple
      exact hsimple.elim
    · have hresult := OrPermits.of_orFails hr.result
      cases hr' : r.2 with
      | ok item =>
        rw [hr'] at hresult
        exact exists_along_iff.1 hresult
      | error e =>
        rw [hr'] at hresult
        exact hresult
  cases cursor with
  | generator g =>
    obtain ⟨hlevel, hgenerate⟩ := hgenerate g rfl
    intro m hholds hinside
    have hinner := hgenerate { m with frame := g.frame, output := #[] } hholds
      ⟨fun h hh => hknown h (List.mem_cons_of_mem _ hh), hlevel⟩
    -- the frame that the code leaves behind is kept in the iterator
    have hafter {w' : W} {frame' : Frame} (hw : w ≤ w') (hframe : L.Inside w' frame') :
        ∀ h ∈ handles (Cursor.generator { g with frame := frame' }), L.known w' h :=
      List.forall_mem_cons.2 ⟨L.known_mono hw (hknown g.source List.mem_cons_self), hframe.1⟩
    refine hT.stepGenerator hinner ?_ ?_
    · rintro item m' ⟨w', h⟩
      refine ⟨w', h.follows, h.holds, hinside, ?_, fun _ => trivial,
        hafter h.le h.inside, h.returns⟩
      rintro _ ⟨⟩
      exact ⟨g, _, rfl, rfl⟩
    · rintro e m' ⟨w', h⟩
      refine ⟨w', h.follows, h.holds, hinside, ?_, fun _ => trivial,
        hafter h.le h.inside, h.returns⟩
      rintro _ ⟨⟩
      exact ⟨g, _, rfl, rfl⟩
  | _ => exact hsimple trivial

/-- **An advance of an iterator**, if what holds after its step holds when its new position is put
into the store. The step may begin in another world, since the iterator is being advanced
meanwhile. -/
theorem Leads.advanceCell (hT : Runs T) {frame : Frame} {m : Machine} {h : Handle} {cursor : Cursor}
    {w₀ : W} {Q : W → Cursor × Except EvalError (Option Value) → Prop} {P : W → Option Value → Prop}
    (hcell : m.store[h]? = some ⟨cursor, false⟩)
    (hstep : T (fun ev => ev.step cursor)
      { m with store := m.store.setIfInBounds h ⟨cursor, true⟩ } fun r =>
        ∃ w', L.Reached (fun _ => (· = frame)) w₀ (m.store.setIfInBounds h ⟨cursor, true⟩) Q w' r)
    (hback : ∀ w' s c r, L.follows w₀ (m.store.setIfInBounds h ⟨cursor, true⟩) w' s →
      L.holds w' s → Q w' (c, r) → ∃ w'', L.follows w m.store w'' (s.setIfInBounds h ⟨c, false⟩) ∧
        L.holds w'' (s.setIfInBounds h ⟨c, false⟩) ∧ L.OrPermits P w'' r) :
    T (fun ev => ev.advanceCell h) m fun r =>
      ∃ w', L.Reached (fun _ => (· = frame)) w m.store P w' r := by
  refine hT.advanceCell hcell hstep ?_ ?_
  · rintro c item m' ⟨w', hreached⟩
    obtain ⟨w'', hfollows, hholds, hP⟩ :=
      hback w' m'.store c (.ok item) hreached.follows hreached.holds hreached.returns
    exact ⟨w'', hfollows, hholds, hreached.inside, hP⟩
  · rintro c e m' ⟨w', hreached⟩
    obtain ⟨w'', hfollows, hholds, hP⟩ :=
      hback w' m'.store c (.error e) hreached.follows hreached.holds hreached.returns
    exact ⟨w'', hfollows, hholds, hreached.inside, hP⟩

/-! ## Nodes -/

section

variable (hT : Runs T) (htracks : Tracks L.toKnowledge (L.Judges T L.Inside))

include hT

theorem Leads.judges {x : Program Value}
    (hx : L.Leads T L.Inside w (fun w v => ∀ h ∈ handles v, L.known w h) x) :
    L.Judges T L.Inside w L.Along x x :=
  hx.mono hT fun _ _ _ h => exists_along_iff.2 h

include htracks

/-- The nodes of a block one after another. -/
theorem Leads.exec {block : Block} (heval : ∀ node ∈ block.content, ∀ w,
    L.Leads T L.Inside w (fun w v => ∀ h ∈ handles v, L.known w h) fun ev => ev.eval node) :
    L.Leads T L.Inside w (fun _ _ => True) fun ev => ev.exec block :=
  Leads.mono hT (htracks.exec fun node hnode w => (heval node hnode w).judges hT)
    fun _ _ _ _ => trivial

/-- A round of a generator expression. It is the last one if it gives an item. -/
theorem Leads.generateRound {g : Generator} {v : Value} (hv : ∀ h ∈ handles v, L.known w h)
    (heval : ∀ node ∈ g.item :: g.condition.toList, ∀ w,
      L.Leads T L.Inside w (fun w v => ∀ h ∈ handles v, L.known w h) fun ev => ev.eval node) :
    L.Leads T L.Inside w (fun w walk => walk = Walk.on none ∨
        ∃ item, walk = Walk.done (some item) ∧ ∀ h ∈ handles item, L.known w h)
      fun ev => ev.generateRound g v := by
  obtain ⟨hitem, hcondition⟩ := List.forall_mem_cons.1 heval
  have hassign := htracks.assign (w := w) g.target ⟨rfl, hv⟩
  refine Leads.bind hT hassign fun w₁ _ _ _ => Leads.bind hT
    (htracks.holds fun node hnode w => (hcondition node hnode w).judges hT) fun w₂ _ holds _ => ?_
  cases holds with
  | true => exact Leads.bind hT (hitem w₂) fun _ _ _ hitem => Leads.pure hT (.inr ⟨_, rfl, hitem⟩)
  | false => exact Leads.pure hT (.inl rfl)

/-- The next item of a generator expression, in its frame. -/
theorem Leads.generate {g : Generator} (hg : ∀ h ∈ handles g, L.known w h)
    (heval : ∀ node ∈ g.item :: g.condition.toList, ∀ w,
      L.Leads T L.Inside w (fun w v => ∀ h ∈ handles v, L.known w h) fun ev => ev.eval node) :
    L.Leads T L.Inside w (fun w item => ∀ h ∈ handles item, L.known w h)
      fun ev => ev.generate g := by
  obtain ⟨hitem, hcondition⟩ := List.forall_mem_cons.1 heval
  have hgen := htracks.generate (g := g) ⟨rfl, hg⟩
    (fun node hnode w => (hcondition node hnode w).judges hT) fun w => (hitem w).judges hT
  exact Leads.mono hT hgen fun _ _ _ h => exists_along_iff.1 h

/-- **The evaluation of a node**, if its parts are evaluated likewise. -/
theorem Leads.evalNode {node : Node}
    (heval : ∀ part ∈ node.kind.parts, ∀ w,
      L.Leads T L.Inside w (fun w v => ∀ h ∈ handles v, L.known w h) fun ev => ev.eval part)
    (hsuspend : ∀ item comp, node.kind = .genExpr item comp → ∀ {w s source frame},
      L.known w source → L.holds w s → L.Inside w frame →
        let cell : Cell := ⟨.generator ⟨frame, source, comp.target, comp.condition, item⟩, false⟩
        ∃ w', L.follows w s w' (s.push cell) ∧ L.holds w' (s.push cell) ∧ L.known w' s.size)
    (hrender : ∀ w t vars, (∀ h ∈ handles vars, L.known w h) →
      L.Leads T L.Inside w (fun _ _ => True) fun ev => ev.renderNested t vars)
    (hround : ∀ target container block, node.kind = .forLoop target container block → ∀ w,
      L.Leads T L.Inside w (fun _ _ => True)
        fun ev => Eval.attempt (ev.exec block) >>= Evaluator.afterRound)
    (hsignal : ∀ s, node.kind.signal? = some s → L.permits (.ofCause (.signal s))) :
    L.Leads T L.Inside w (fun w v => ∀ h ∈ handles v, L.known w h) fun ev => ev.evalNode node := by
  have hkind : KindTracks L.toKnowledge (L.Judges T L.Inside) node.kind := {
    eval := fun part hpart w => (heval part hpart w).judges hT
    suspend := by
      intro item comp hkind w source source' hsource
      have hnew : L.Leads T L.Inside _ L.known fun _ => Eval.suspend source comp item :=
        Leads.suspend hT (hsuspend item comp hkind hsource.2)
      exact hnew.mono hT fun _ _ _ h => ⟨_, rfl, h⟩
    render := fun _ w t vars _ hvars => (hrender w t vars hvars.2).mono hT fun _ _ _ _ => ⟨_, rfl⟩
    round := fun {_ _ _} hkind w => (hround _ _ _ hkind w).mono hT
      fun _ _ walk _ => ⟨walk, .same _ walk⟩
    signal := fun hs => Leads.fail hT (hsignal _ hs) }
  exact Leads.mono hT (htracks.evalNode hkind) fun _ _ _ h => exists_along_iff.1 h

end

end StoreLogic

end Templating
