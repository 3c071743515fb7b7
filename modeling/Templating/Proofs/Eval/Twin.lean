import Templating.Eval.Run
import Templating.Proofs.Compatible.Cursor
import Templating.Proofs.Tracked.Cursor
import Templating.Proofs.Tracked.Node

/-!
# Machines with corresponding iterators

An iterator that code cannot get hold of makes no difference to it. Here are two machines of which
the second one has further iterators, so that those made from now on have other places. Of the
iterators before the further ones, some correspond to each other, and code that knows these only
does the same on both machines.

* `Shift`, `Shift.place`: where the iterators of a machine are in another one.
* `Shift.Twins`: two machines in which known iterators correspond to each other.
* `Shift.Agree`: two runs end alike and put out the same.
* `Shift.tracks`: **everything that evaluation does agrees**, if advances do.
* `Shift.within`: **all evaluations and advances agree.** An advance does so whatever the variables
  are in which it happens.
-/

namespace Templating

open Carries (handles rename)

open Eval Knowledge

/-- Where the iterators of a machine are in another one: those from a place on are further back. Of
the ones before it some are known. -/
structure Shift where
  base : Nat
  count : Nat
  old : Set Handle

/-- The variables of the code that runs, and what was put out. -/
structure Surroundings where
  frame : Frame
  output : Array String

/-- Where the code of a machine runs. -/
def Machine.surroundings (m : Machine) : Surroundings := ⟨m.frame, m.output⟩

/-- How the surroundings in two machines are related, given how many iterators there are. -/
abbrev Around := Nat → Surroundings → Surroundings → Prop

/-- What is related stays so when there are more iterators. -/
def Around.Lasts (I : Around) : Prop :=
  ∀ ⦃w w' : Nat⦄ ⦃a b : Surroundings⦄, w ≤ w' → I w a b → I w' a b

namespace Shift

variable (σ : Shift)

/-- The place of an iterator in the second machine. -/
def place (h : Nat) : Nat := if h < σ.base then h else h + σ.count

section

variable {σ} {h n : Nat}

theorem place_of_lt (hlt : h < σ.base) : σ.place h = h := if_pos hlt

theorem place_of_le (hle : σ.base ≤ h) : σ.place h = h + σ.count := if_neg (Nat.not_lt.2 hle)

theorem place_injective (σ : Shift) : Function.Injective σ.place := by
  intro h i heq
  unfold place at heq
  split at heq <;> split at heq <;> omega

/-- The further iterators of the second machine. -/
theorem place_ne (hle : σ.base ≤ n) (hlt : n < σ.base + σ.count) (h : Nat) : σ.place h ≠ n := by
  unfold place
  split <;> omega

theorem place_lt_iff (hn : σ.base ≤ n) : σ.place h < n + σ.count ↔ h < n := by
  unfold place
  split <;> omega

end

/-- The iterators below a number are known, but of the old ones only some. -/
def knowledge : Knowledge Nat where
  known w h := h < w ∧ (h < σ.base → h ∈ σ.old)
  known_mono hw hh := ⟨lt_of_lt_of_le hh.1 hw, hh.2⟩
  move := σ.place
  move_injective := σ.place_injective
  permits _ := True
  permits_ordinary _ := trivial
  permits_locate _ _ := trivial

/-- The variables correspond to each other. -/
def Inside : Around := fun w a b => σ.knowledge.Along w a.frame b.frame

/-- Two machines of which the second one has further iterators. The known ones correspond to each
other, and the surroundings are related. -/
structure Twins (I : Around) (m m' : Machine) : Prop where
  base_le : σ.base ≤ m.store.size
  size : m'.store.size = m.store.size + σ.count
  cells : ∀ h, (h < σ.base → h ∈ σ.old) →
    σ.knowledge.Along m.store.size m.store[h]? m'.store[σ.place h]?
  around : I m.store.size m.surroundings m'.surroundings
  fresh : m'.fresh = m.fresh
  random : m'.random = m.random
  clock : m'.clock = m.clock

/-- Two machines after a while. Both have put out the same meanwhile. -/
structure Follow (I : Around) (m m' n n' : Machine) : Prop where
  le : m.store.size ≤ n.store.size
  twins : σ.Twins I n n'
  output : ∃ added, n.output = m.output ++ added ∧ n'.output = m'.output ++ added

/-- Two runs from two machines end alike. -/
inductive Agree (I : Around) (m m' : Machine) {α : Type} (Q : Nat → α → α → Prop) :
    Outcome α → Outcome α → Prop where
  | ok {n n' : Machine} {a b : α} : σ.Follow I m m' n n' → Q n.store.size a b →
      Agree I m m' Q (.ok a n) (.ok b n')
  | failed {n n' : Machine} {e : EvalError} : σ.Follow I m m' n n' →
      Agree I m m' Q (.error (.failed e) n) (.error (.failed e) n')
  | exhausted {n n' : Machine} : Agree I m m' Q (.error .exhausted n) (.error .exhausted n')

/-- Two computations end alike if they begin with machines that correspond to each other. -/
def Judges (I : Around) (ev : Evaluator) : Judgement Nat := fun _ w Q x y =>
  ∀ m m', m.store.size = w → σ.Twins I m m' → σ.Agree I m m' Q (x ev m) (y ev m')

variable {σ} {I J : Around} {m m' n n' l l' : Machine}

theorem lasts_inside (σ : Shift) : σ.Inside.Lasts := fun _ _ _ _ hw h => h.mono hw

/-! ## Machines -/

namespace Twins

theorem frame (h : σ.Twins σ.Inside m m') : σ.knowledge.Along m.store.size m.frame m'.frame :=
  h.around

/-- The same machines with other surroundings. -/
theorem within (h : σ.Twins I m m') {a b : Surroundings} (hJ : J m.store.size a b) :
    σ.Twins J { m with frame := a.frame, output := a.output }
      { m' with frame := b.frame, output := b.output } :=
  ⟨h.base_le, h.size, h.cells, hJ, h.fresh, h.random, h.clock⟩

theorem withFrame (h : σ.Twins σ.Inside m m') {frame frame' : Frame}
    (hframe : σ.knowledge.Along m.store.size frame frame') :
    σ.Twins σ.Inside { m with frame } { m' with frame := frame' } :=
  h.within (a := ⟨frame, m.output⟩) (b := ⟨frame', m'.output⟩) hframe

theorem withOutput (h : σ.Twins σ.Inside m m') (output output' : Array String) :
    σ.Twins σ.Inside { m with output } { m' with output := output' } :=
  h.within (a := ⟨m.frame, output⟩) (b := ⟨m'.frame, output'⟩) h.around

/-- Whatever happens to the further iterators. -/
theorem setFurther (h : σ.Twins I m m') {k : Handle} (hle : σ.base ≤ k)
    (hlt : k < σ.base + σ.count) (cell : Cell) :
    σ.Twins I m { m' with store := m'.store.setIfInBounds k cell } where
  base_le := h.base_le
  size := by rw [Array.size_setIfInBounds, h.size]
  cells i hi := by
    rw [Array.getElem?_setIfInBounds_ne (place_ne hle hlt i).symm]
    exact h.cells i hi
  around := h.around
  fresh := h.fresh
  random := h.random
  clock := h.clock

theorem push (hI : I.Lasts) (h : σ.Twins I m m') {cell cell' : Cell}
    (hcell : σ.knowledge.Along m.store.size cell cell') :
    σ.Twins I { m with store := m.store.push cell } { m' with store := m'.store.push cell' } where
  base_le := by
    rw [Array.size_push]
    exact h.base_le.trans (Nat.le_succ _)
  size := by
    rw [Array.size_push, Array.size_push, h.size]
    exact Nat.add_right_comm ..
  cells i hi := by
    -- the new cells are at places that correspond to each other
    have hnew : σ.place i = m'.store.size ↔ i = m.store.size := by
      rw [h.size, ← place_of_le h.base_le, σ.place_injective.eq_iff]
    simp only [Array.size_push, Array.getElem?_push, hnew]
    split
    · exact (hcell.mono (Nat.le_succ _)).some
    · exact (h.cells i hi).mono (Nat.le_succ _)
  around := by
    rw [Array.size_push]
    exact hI (Nat.le_succ _) h.around
  fresh := h.fresh
  random := h.random
  clock := h.clock

theorem set (h : σ.Twins I m m') (i : Handle) {cell cell' : Cell}
    (hcell : σ.knowledge.Along m.store.size cell cell') :
    σ.Twins I { m with store := m.store.setIfInBounds i cell }
      { m' with store := m'.store.setIfInBounds (σ.place i) cell' } where
  base_le := by
    rw [Array.size_setIfInBounds]
    exact h.base_le
  size := by rw [Array.size_setIfInBounds, Array.size_setIfInBounds, h.size]
  cells j hj := by
    simp only [Array.size_setIfInBounds, Array.getElem?_setIfInBounds, σ.place_injective.eq_iff,
      h.size, place_lt_iff h.base_le]
    split
    · split
      · exact hcell.some
      · exact .none
    · exact h.cells j hj
  around := by
    rw [Array.size_setIfInBounds]
    exact h.around
  fresh := h.fresh
  random := h.random
  clock := h.clock

end Twins

namespace Follow

theorem refl (h : σ.Twins I m m') : σ.Follow I m m' m m' :=
  ⟨le_rfl, h, #[], by simp, by simp⟩

theorem trans (h : σ.Follow I m m' n n') (h' : σ.Follow I n n' l l') : σ.Follow I m m' l l' := by
  obtain ⟨added, hn, hn'⟩ := h.output
  obtain ⟨added', hl, hl'⟩ := h'.output
  refine ⟨h.le.trans h'.le, h'.twins, added ++ added', ?_, ?_⟩
  · rw [hl, hn, Array.append_assoc]
  · rw [hl', hn', Array.append_assoc]

/-- Nothing was put out. -/
theorem silent (hle : m.store.size ≤ n.store.size) (h : σ.Twins I n n') (hn : n.output = m.output)
    (hn' : n'.output = m'.output) : σ.Follow I m m' n n' :=
  ⟨hle, h, #[], by simp [hn], by simp [hn']⟩

end Follow

/-! ## Actions -/

variable {ev : Evaluator} {w : Nat} {α β : Type} {Q : Nat → α → α → Prop}
  {P : Nat → β → β → Prop} {x y : Program α}

theorem Agree.trans {r r' : Outcome α} (h : σ.Follow I m m' n n') (hr : σ.Agree I n n' Q r r') :
    σ.Agree I m m' Q r r' := by
  cases hr with
  | ok h' hQ => exact .ok (h.trans h') hQ
  | failed h' => exact .failed (h.trans h')
  | exhausted => exact .exhausted

namespace Judges

theorem pure {a b : α} (h : Q w a b) :
    σ.Judges I ev w Q (fun _ => Pure.pure a) fun _ => Pure.pure b := by
  rintro m m' rfl htwins
  exact .ok (.refl htwins) h

theorem fail (e : EvalError) :
    σ.Judges I ev w Q (fun _ => throw (.failed e)) fun _ => throw (.failed e) :=
  fun _ _ _ htwins => .failed (.refl htwins)

theorem bind {f g : α → Program β} (hx : σ.Judges I ev w Q x y)
    (hf : ∀ w', w ≤ w' → ∀ a b, Q w' a b → σ.Judges I ev w' P (f a) (g b)) :
    σ.Judges I ev w P (fun ev => x ev >>= fun a => f a ev) fun ev => y ev >>= fun b => g b ev := by
  rintro m m' rfl htwins
  have hrun := hx m m' rfl htwins
  dsimp only at hrun ⊢
  rw [bind_apply, bind_apply]
  generalize x ev m = r, y ev m' = r' at hrun
  cases hrun with
  | ok hfollow hQ => exact .trans hfollow (hf _ hfollow.le _ _ hQ _ _ rfl hfollow.twins)
  | failed hfollow => exact .failed hfollow
  | exhausted => exact .exhausted

theorem attempt (hx : σ.Judges I ev w Q x y) :
    σ.Judges I ev w (σ.knowledge.OrFails Q) (fun ev => Eval.attempt (x ev))
      fun ev => Eval.attempt (y ev) := by
  rintro m m' rfl htwins
  have hrun := hx m m' rfl htwins
  unfold Eval.attempt
  dsimp only at hrun ⊢
  generalize x ev m = r, y ev m' = r' at hrun
  cases hrun with
  | ok hfollow hQ => exact .ok hfollow (.ok hQ)
  | failed hfollow => exact .ok hfollow (.error trivial)
  | exhausted => exact .exhausted

theorem settle {r r' : Except EvalError α} (h : σ.knowledge.OrFails Q w r r') :
    σ.Judges I ev w Q (fun _ => Eval.settle r) fun _ => Eval.settle r' := by
  cases h with
  | ok h => exact pure h
  | error _ => exact fail _

theorem mapError (f : EvalError → EvalError) (hx : σ.Judges I ev w Q x y) :
    σ.Judges I ev w Q (fun ev => Eval.mapError f (x ev)) fun ev => Eval.mapError f (y ev) := by
  rintro m m' rfl htwins
  have hrun := hx m m' rfl htwins
  unfold Eval.mapError
  dsimp only at hrun ⊢
  generalize x ev m = r, y ev m' = r' at hrun
  cases hrun with
  | ok hfollow hQ => exact .ok hfollow hQ
  | failed hfollow => exact .failed hfollow
  | exhausted => exact .exhausted

theorem mono {Q' : Nat → α → α → Prop} (hx : σ.Judges I ev w Q x y)
    (hQ : ∀ w', w ≤ w' → ∀ a b, Q w' a b → Q' w' a b) : σ.Judges I ev w Q' x y := by
  rintro m m' rfl htwins
  have hrun := hx m m' rfl htwins
  generalize x ev m = r, y ev m' = r' at hrun
  cases hrun with
  | ok hfollow h => exact .ok hfollow (hQ _ hfollow.le _ _ h)
  | failed hfollow => exact .failed hfollow
  | exhausted => exact .exhausted

/-- A loop over a known iterator. -/
theorem fold {R : Nat → α → α → Prop} {a b : α} {h h' : Handle}
    {step step' : α → Value → Program (Walk α)}
    (hadvance : ∀ {w}, σ.knowledge.Finds w h h' → σ.Judges I ev w σ.knowledge.Along
      (fun ev => ev.advance h) fun ev => ev.advance h')
    (hmono : ∀ {w w' : Nat} {a b : α}, w ≤ w' → R w a b → R w' a b)
    (hh : σ.knowledge.Finds w h h') (hab : R w a b)
    (hstep : ∀ w', w ≤ w' → ∀ a b v v', R w' a b → σ.knowledge.Along w' v v' →
      σ.Judges I ev w' (WalksAlong R) (step a v) (step' b v')) :
    σ.Judges I ev w R (fun ev => ev.fold h a fun a v => step a v ev)
      fun ev => ev.fold h' b fun b v => step' b v ev := by
  have hrounds (rounds : Nat) : ∀ w', w ≤ w' → ∀ a b, R w' a b →
      σ.Judges I ev w' R (fun ev => ev.foldWithin h (fun a v => step a v ev) rounds a)
        fun ev => ev.foldWithin h' (fun b v => step' b v ev) rounds b := by
    induction rounds with
    | zero => exact fun _ _ _ _ _ _ _ _ _ => .exhausted
    | succ rounds ih =>
      intro w₁ hw₁ a b hab
      refine bind (hadvance (hh.mono hw₁)) fun w₂ hw₂ item item' hitem => ?_
      obtain ⟨rfl, rfl⟩ | ⟨v, v', rfl, rfl, hv⟩ := hitem.option_cases
      · exact pure (hmono hw₂ hab)
      · have hw₂' := hw₁.trans hw₂
        refine bind (hstep w₂ hw₂' a b v v' (hmono hw₂ hab) hv) fun w₃ hw₃ walk walk' hwalk => ?_
        cases hwalk with
        | on h => exact ih w₃ (hw₂'.trans hw₃) _ _ h
        | done h => exact pure h
  exact hrounds ev.budget w le_rfl a b hab

/-- All items of a known iterator. -/
theorem collect {h h' : Handle}
    (hadvance : ∀ {w}, σ.knowledge.Finds w h h' → σ.Judges I ev w σ.knowledge.Along
      (fun ev => ev.advance h) fun ev => ev.advance h') (hh : σ.knowledge.Finds w h h') :
    σ.Judges I ev w σ.knowledge.Along (fun ev => ev.collect h) fun ev => ev.collect h' := by
  have hitems : σ.Judges I ev w σ.knowledge.Along
      (fun ev => ev.fold h [] fun vs v => Pure.pure (.on (v :: vs)))
      fun ev => ev.fold h' [] fun vs v => Pure.pure (.on (v :: vs)) :=
    fold hadvance (fun hw h => h.mono hw) hh .nil fun _ _ _ _ _ _ hvs hv => pure (.on (hv.cons hvs))
  exact bind hitems fun w' _ vs vs' hvs =>
    pure (hvs.map (F := List.reverse) fun ρ _ vs => List.map_reverse.symm)

/-! ### The store and the output -/

theorem allocate (hI : I.Lasts) {cursor cursor' : Cursor}
    (hc : σ.knowledge.Along w cursor cursor') :
    σ.Judges I ev w σ.knowledge.Finds (fun _ => Eval.allocate cursor)
      fun _ => Eval.allocate cursor' := by
  rintro m m' rfl htwins
  have hsize : m.store.size ≤ (m.store.push ⟨cursor, false⟩).size := by simp
  refine .ok (.silent hsize (htwins.push hI (hc.cell false)) rfl rfl) ⟨?_, ?_, fun hlt => ?_⟩
  · exact htwins.size.trans (place_of_le htwins.base_le).symm
  · change m.store.size < (m.store.push ⟨cursor, false⟩).size
    simp
  · exact absurd htwins.base_le (Nat.not_le.2 hlt)

theorem setCell (h : Handle) {cell cell' : Cell} (hcell : σ.knowledge.Along w cell cell') :
    σ.Judges I ev w Same (fun _ => Eval.setCell h cell)
      fun _ => Eval.setCell (σ.place h) cell' := by
  rintro m m' rfl htwins
  have hsize : m.store.size ≤ (m.store.setIfInBounds h cell).size := by simp
  exact .ok (.silent hsize (htwins.set h hcell) rfl rfl) rfl

theorem emit (text : String) :
    σ.Judges σ.Inside ev w Same (fun _ => Eval.emit text) fun _ => Eval.emit text := by
  intro m m' _ htwins
  refine .ok ⟨le_rfl, htwins.withOutput _ _, #[text], ?_, ?_⟩ rfl <;> exact Array.push_eq_append

theorem splice (output : Array String) :
    σ.Judges σ.Inside ev w Same (fun _ => Eval.splice output) fun _ => Eval.splice output :=
  fun _ _ _ htwins => .ok ⟨le_rfl, htwins.withOutput _ _, output, rfl, rfl⟩ rfl

theorem clock : σ.Judges I ev w Same (fun _ => Eval.clock) fun _ => Eval.clock :=
  fun _ _ _ htwins => .ok (.refl htwins) htwins.clock.symm

theorem draw (bound : Nat) :
    σ.Judges I ev w Same (fun _ => Builtin.draw bound) fun _ => Builtin.draw bound := by
  intro m m' _ htwins
  have hrun (m : Machine) : Builtin.draw bound m = .ok (randNat m.random 0 (bound - 1)).1
      { m with random := (randNat m.random 0 (bound - 1)).2 } := rfl
  dsimp only
  rw [hrun, hrun, htwins.random]
  exact .ok (.silent le_rfl ⟨htwins.base_le, htwins.size, htwins.cells, htwins.around, htwins.fresh,
    rfl, htwins.clock⟩ rfl rfl) rfl

theorem load (text : String) :
    σ.Judges I ev w σ.knowledge.Along (fun _ => Eval.load text) fun _ => Eval.load text := by
  intro m m' _ htwins
  dsimp only
  rw [load_apply, load_apply, htwins.fresh]
  cases h : Wire.loads? text m.fresh with
  | error e => exact .failed (.refl htwins)
  | ok p =>
    exact .ok (.silent le_rfl ⟨htwins.base_le, htwins.size, htwins.cells, htwins.around, rfl,
      htwins.random, htwins.clock⟩ rfl rfl) (.leaf (Wire.handles_of_loads? h))

/-! ### Variables -/

theorem env : σ.Judges σ.Inside ev w σ.knowledge.Along (fun _ => Eval.env) fun _ => Eval.env := by
  rintro m m' rfl htwins
  exact .ok (.refl htwins) ⟨congrArg Frame.env htwins.frame.1, htwins.frame.2⟩

/-- A change of the variables. -/
theorem modifyEnv {f f' : Environment → Environment}
    (hf : ∀ e e', σ.knowledge.Along w e e' → σ.knowledge.Along w (f e) (f' e')) :
    σ.Judges σ.Inside ev w Same (fun _ => Eval.modifyEnv f) fun _ => Eval.modifyEnv f' := by
  rintro m m' rfl htwins
  have henv := hf m.frame.env m'.frame.env ⟨congrArg Frame.env htwins.frame.1, htwins.frame.2⟩
  have hframe : σ.knowledge.Along m.store.size { m.frame with env := f m.frame.env }
      { m'.frame with env := f' m'.frame.env } := by
    refine ⟨?_, henv.2⟩
    rw [henv.1, htwins.frame.1]
    rfl
  exact .ok (.silent le_rfl (htwins.withFrame hframe) rfl rfl) rfl

theorem bindVar (name : String) {v v' : Value} (hv : σ.knowledge.Along w v v') :
    σ.Judges σ.Inside ev w Same (fun _ => Eval.bindVar name v) fun _ => Eval.bindVar name v' :=
  modifyEnv fun _ _ he => (he.pair hv).map (F := fun p : Environment × Value => p.1.bind name p.2)
    fun ρ _ p => p.1.bind_rename ρ name p.2

theorem removeVar (name : String) :
    σ.Judges σ.Inside ev w Same (fun _ => Eval.removeVar name) fun _ => Eval.removeVar name := by
  refine bind env fun w' _ e e' he => ?_
  have hremove := he.map (F := fun e => e.remove? name) fun ρ _ e => e.remove?_rename ρ name
  cases hr : e.remove? name with
  | none =>
    rw [hr] at hremove
    rw [hremove.1]
    exact fail _
  | some p =>
    rw [hr] at hremove
    obtain ⟨hr', hknown⟩ := hremove
    rw [hr']
    rw [handles_some] at hknown
    exact modifyEnv fun _ _ _ => ⟨rfl, (List.forall_mem_append.1 hknown).2⟩

theorem inScope (hQ : ∀ {w w' : Nat} {a b : α}, w ≤ w' → Q w a b → Q w' a b)
    (hx : ∀ w', w ≤ w' → σ.Judges σ.Inside ev w' Q x y) :
    σ.Judges σ.Inside ev w Q (fun ev => Eval.inScope (x ev)) fun ev => Eval.inScope (y ev) := by
  refine bind (modifyEnv fun _ _ he => he.map fun ρ _ e => e.push_rename ρ) fun w₁ hw₁ _ _ _ =>
    bind (attempt (hx w₁ hw₁)) fun w₂ _ r r' hr =>
      bind (modifyEnv fun _ _ he => he.map fun ρ _ e => e.pop_rename ρ) fun w₃ hw₃ _ _ _ =>
        settle ?_
  cases r with
  | ok a => cases hr with | ok h => exact .ok (hQ hw₃ h)
  | error e => cases hr with | error h => exact .error h

/-- A new generator expression. -/
theorem suspend {source source' : Handle} {comp : Comprehension} {item : Node}
    (hsource : σ.knowledge.Finds w source source') :
    σ.Judges σ.Inside ev w σ.knowledge.Finds (fun _ => Eval.suspend source comp item)
      fun _ => Eval.suspend source' comp item := by
  rintro m m' rfl htwins
  have hframe := htwins.frame.map (F := fun frame : Frame => { frame with env := frame.env.push })
    fun ρ _ frame => congrArg (fun env => (⟨env, frame.depth, frame.maxDepth⟩ : Frame))
      (Environment.push_rename ρ frame.env)
  have hnew : σ.Judges σ.Inside ev m.store.size σ.knowledge.Finds
      (fun _ => Eval.allocate (.generator ⟨{ m.frame with env := m.frame.env.push }, source,
        comp.target, comp.condition, item⟩))
      fun _ => Eval.allocate (.generator ⟨{ m'.frame with env := m'.frame.env.push }, source',
        comp.target, comp.condition, item⟩) := by
    refine allocate (lasts_inside σ) ⟨?_, List.forall_mem_cons.2 ⟨hsource.2, hframe.2⟩⟩
    rw [hsource.1, hframe.1]
    rfl
  exact hnew m m' rfl htwins

/-! ### Frames of their own -/

/-- A result or an error, and what was put out. -/
theorem capture (hx : σ.Judges σ.Inside ev w Q x y) :
    σ.Judges σ.Inside ev w (fun w p p' => σ.knowledge.OrFails Q w p.1 p'.1 ∧ p'.2 = p.2)
      (fun ev => Eval.capture (x ev)) fun ev => Eval.capture (y ev) := by
  rintro m m' rfl htwins
  have hrun := hx { m with output := #[] } { m' with output := #[] } rfl (htwins.withOutput _ _)
  have hback {n n' : Machine}
      (h : σ.Follow σ.Inside { m with output := #[] } { m' with output := #[] } n n') :
      σ.Follow σ.Inside m m' { n with output := m.output } { n' with output := m'.output } ∧
        n'.output = n.output := by
    obtain ⟨added, hn, hn'⟩ := h.output
    exact ⟨.silent h.le (h.twins.withOutput _ _) rfl rfl, hn'.trans hn.symm⟩
  dsimp only at hrun ⊢
  generalize hr : x ev { m with output := #[] } = r at hrun
  generalize hr' : y ev { m' with output := #[] } = r' at hrun
  cases hrun with
  | ok hfollow hQ =>
    rw [capture_ok (attempt_ok hr), capture_ok (attempt_ok hr')]
    exact .ok (hback hfollow).1 ⟨.ok hQ, (hback hfollow).2⟩
  | failed hfollow =>
    rw [capture_ok (attempt_failed hr), capture_ok (attempt_failed hr')]
    exact .ok (hback hfollow).1 ⟨.error trivial, (hback hfollow).2⟩
  | exhausted =>
    rw [capture_exhausted hr, capture_exhausted hr']
    exact .exhausted

/-- An action in another frame, which leaves the surroundings as they are. -/
theorem inFrame (hI : I.Lasts) {frame frame' : Frame} (hframe : σ.knowledge.Along w frame frame')
    (hx : σ.Judges σ.Inside ev w Q x y) :
    σ.Judges I ev w (fun w p p' => σ.knowledge.OrFails Q w p.1 p'.1 ∧
        σ.knowledge.Along w p.2.1 p'.2.1)
      (fun ev => Eval.inFrame frame (x ev)) fun ev => Eval.inFrame frame' (y ev) := by
  rintro m m' rfl htwins
  have hrun := hx { m with frame, output := #[] } { m' with frame := frame', output := #[] } rfl
    (htwins.within (a := ⟨frame, #[]⟩) (b := ⟨frame', #[]⟩) hframe)
  -- the frame and the output of the caller are put back, so nothing of the output shows
  have hback {n n' : Machine} (h : σ.Follow σ.Inside { m with frame, output := #[] }
      { m' with frame := frame', output := #[] } n n') :
      σ.Follow I m m' { n with frame := m.frame, output := m.output }
        { n' with frame := m'.frame, output := m'.output } :=
    .silent h.le (h.twins.within (a := m.surroundings) (b := m'.surroundings)
      (hI h.le htwins.around)) rfl rfl
  dsimp only at hrun ⊢
  generalize hr : x ev { m with frame, output := #[] } = r at hrun
  generalize hr' : y ev { m' with frame := frame', output := #[] } = r' at hrun
  cases hrun with
  | ok hfollow hQ =>
    rw [inFrame_ok (attempt_ok hr), inFrame_ok (attempt_ok hr')]
    exact .ok (hback hfollow) ⟨.ok hQ, hfollow.twins.frame⟩
  | failed hfollow =>
    rw [inFrame_ok (attempt_failed hr), inFrame_ok (attempt_failed hr')]
    exact .ok (hback hfollow) ⟨.error trivial, hfollow.twins.frame⟩
  | exhausted =>
    rw [inFrame_exhausted hr, inFrame_exhausted hr']
    exact .exhausted

/-- A render call with variables that correspond to each other. -/
theorem renderNested {t : Template} {vars vars' : Scope} (hvars : σ.knowledge.Along w vars vars')
    (hexec : ∀ w, σ.Judges σ.Inside ev w Same (fun ev => ev.exec t.block)
      fun ev => ev.exec t.block) :
    σ.Judges σ.Inside ev w Same (fun ev => ev.renderNested t vars)
      fun ev => ev.renderNested t vars' := by
  have hrender (w : Nat) :
      σ.Judges σ.Inside ev w Same (fun ev => ev.render t) fun ev => ev.render t := by
    refine bind (capture (hexec w)) fun w' _ p p' hp => ?_
    obtain ⟨r, output⟩ := p
    obtain ⟨r', output'⟩ := p'
    obtain ⟨hr, rfl⟩ := hp
    cases hr with
    | ok _ => exact pure rfl
    | error _ => exact fail _
  rintro m m' rfl htwins
  -- both callers are at the same depth, so both are refused or none is
  have hdepth : m'.frame.depth = m.frame.depth := by
    rw [htwins.frame.1]
    rfl
  have hmax : m'.frame.maxDepth = m.frame.maxDepth := by
    rw [htwins.frame.1]
    rfl
  have hbelow : σ.knowledge.Along m.store.size (m.frame.below vars) (m'.frame.below vars') := by
    refine ⟨?_, fun i hi => hvars.2 i ?_⟩
    · rw [hvars.1]
      unfold Frame.below
      rw [hdepth, hmax]
      rfl
    · exact (List.mem_append.1 hi).resolve_right List.not_mem_nil
  change σ.Agree _ m m' Same (deeper vars (ev.render t) m) (deeper vars' (ev.render t) m')
  by_cases hlimit : m.frame.maxDepth ≤ m.frame.depth
  · rw [deeper_refused hlimit, deeper_refused (by rwa [hdepth, hmax]), hmax]
    exact .failed (.refl htwins)
  · have hrun := bind (inFrame (lasts_inside σ) hbelow (hrender _))
      (fun _ _ _ _ hp => settle hp.1) m m' rfl htwins
    unfold deeper
    rw [bind_ok (x := get) (t := m) rfl, bind_ok (x := get) (t := m') rfl, if_neg hlimit,
      if_neg (by rwa [hdepth, hmax])]
    exact hrun

end Judges

/-! ## Advances -/

/-- Where an iterator stands after a step, and the item or the error. -/
def Stepped (σ : Shift) (w : Nat) (r r' : Cursor × Except EvalError (Option Value)) : Prop :=
  σ.knowledge.Along w r.1 r'.1 ∧ σ.knowledge.OrFails σ.knowledge.Along w r.2 r'.2

/-- Everything that advances of iterators do agrees, in any surroundings. -/
theorem sequential (hadvance : ∀ {w h h'}, σ.knowledge.Finds w h h' →
    σ.Judges I ev w σ.knowledge.Along (fun ev => ev.advance h) fun ev => ev.advance h') :
    Sequential σ.knowledge (σ.Judges I ev) where
  pure := .pure
  bind := .bind
  attempt := .attempt
  advance := hadvance

section

variable (htracks : Tracks σ.knowledge (σ.Judges σ.Inside ev))
  (heval : ∀ node w, σ.Judges σ.Inside ev w σ.knowledge.Along (fun ev => ev.eval node)
    fun ev => ev.eval node)

include htracks heval

theorem generate {g g' : Generator} (hg : σ.knowledge.Along w g g') :
    σ.Judges σ.Inside ev w σ.knowledge.Along (fun ev => ev.generate g) fun ev => ev.generate g' :=
  htracks.generate hg (fun node _ w => heval node w) (heval g.item)

variable (hI : I.Lasts) (hadvance : ∀ {w h h'}, σ.knowledge.Finds w h h' →
  σ.Judges I ev w σ.knowledge.Along (fun ev => ev.advance h) fun ev => ev.advance h')

include hI hadvance

theorem step {cursor cursor' : Cursor} (hcursor : σ.knowledge.Along w cursor cursor') :
    σ.Judges I ev w σ.Stepped (fun ev => ev.step cursor) fun ev => ev.step cursor' := by
  have hsimple (h : cursor.IsSimple) :
      σ.Judges I ev w σ.Stepped (fun ev => ev.step cursor) fun ev => ev.step cursor' :=
    ((sequential hadvance).step h (fun _ _ => trivial) hcursor).mono
      fun _ _ _ _ h => ⟨h.cursor, h.result⟩
  cases cursor with
  | generator g =>
    obtain rfl := hcursor.1
    have hframe : σ.knowledge.Along w g.frame (rename σ.place g.frame) :=
      ⟨rfl, fun i hi => hcursor.2 i (List.mem_cons_of_mem _ hi)⟩
    have hg : σ.knowledge.Along w g (rename σ.place g) := ⟨rfl, hcursor.2⟩
    refine (Judges.inFrame hI hframe (generate htracks heval hg)).bind
      fun w' hw p p' hp => .pure ⟨?_, hp.1⟩
    have hsource := σ.knowledge.known_mono hw (hg.2 g.source List.mem_cons_self)
    refine ⟨?_, List.forall_mem_cons.2 ⟨hsource, hp.2.2⟩⟩
    rw [hp.2.1]
    rfl
  | _ => exact hsimple trivial

theorem advanceCell {h h' : Handle} (hh : σ.knowledge.Finds w h h') :
    σ.Judges I ev w σ.knowledge.Along (fun ev => ev.advanceCell h)
      fun ev => ev.advanceCell h' := by
  obtain ⟨rfl, hknown⟩ := hh
  simp only [Evaluator.advanceCell_eq]
  rintro m m' rfl htwins
  -- the cells at the two places correspond to each other
  have hcell := htwins.cells h hknown.2
  change σ.Agree I m m' _ (ev.advanceAt h m.store[h]? m)
    (ev.advanceAt (σ.place h) m'.store[σ.place h]? m')
  cases hc : m.store[h]? with
  | none =>
    rw [hc] at hcell
    rw [hcell.1]
    exact .ok (.refl htwins) .none
  | some cell =>
    rw [hc] at hcell
    obtain ⟨hcell', hknown⟩ := hcell
    rw [handles_some] at hknown
    rw [hcell']
    obtain ⟨cursor, _ | _⟩ := cell
    · have hcursor : σ.knowledge.Along m.store.size cursor (rename σ.place cursor) := ⟨rfl, hknown⟩
      have hrun := Judges.bind (.setCell h (hcursor.cell true)) fun w' hw _ _ _ =>
        (step htracks heval hI hadvance (hcursor.mono hw)).bind fun w'' _ r r' hr =>
          (Judges.setCell h (hr.1.cell false)).bind fun _ hw _ _ _ =>
            .settle (hr.2.mono fun _ _ h => h.mono hw)
      exact hrun m m' rfl htwins
    · exact .failed (.refl htwins)

end

/-! ## Evaluations -/

/-- **Everything that evaluation does agrees**, if advances do. -/
theorem tracks (hadvance : ∀ {w h h'}, σ.knowledge.Finds w h h' →
    σ.Judges σ.Inside ev w σ.knowledge.Along (fun ev => ev.advance h) fun ev => ev.advance h') :
    Tracks σ.knowledge (σ.Judges σ.Inside ev) where
  toSequential := sequential hadvance
  raise _ := .fail _
  locating _ := .mapError _
  fold hmono hh hab hstep := .fold hadvance hmono hh hab hstep
  env := .env
  bindVar := .bindVar
  removeVar := .removeVar
  inScope := .inScope
  clock := .clock
  draw := .draw
  load := .load
  allocate _ := .allocate (lasts_inside σ)
  emit := .emit
  splice := .splice

/-- **Evaluations and advances agree within any budget.** -/
theorem within (σ : Shift) (budget : Nat) :
    (∀ node w, σ.Judges σ.Inside (.within budget) w σ.knowledge.Along (fun ev => ev.eval node)
      fun ev => ev.eval node) ∧
    ∀ {I : Around}, I.Lasts → ∀ {w h h'}, σ.knowledge.Finds w h h' →
      σ.Judges I (.within budget) w σ.knowledge.Along (fun ev => ev.advance h)
        fun ev => ev.advance h' := by
  induction budget with
  | zero => exact ⟨fun _ _ _ _ _ _ => .exhausted, fun _ _ _ _ _ _ _ _ _ => .exhausted⟩
  | succ budget ih =>
    -- the calls below have one unit less
    obtain ⟨heval, hadvance⟩ := ih
    have htracks := tracks (hadvance (lasts_inside σ))
    refine ⟨fun node w => ?_, fun hI _ _ _ hh =>
      advanceCell htracks heval hI (hadvance hI) hh⟩
    have hkind : KindTracks σ.knowledge (σ.Judges σ.Inside (.within budget)) node.kind := {
      eval := fun node _ w => heval node w
      suspend := fun _ _ _ _ hsource => .suspend hsource
      render := fun _ _ t _ _ hvars => .renderNested hvars fun w =>
        htracks.exec fun node _ w => heval node w
      round := by
        intro target container block _ w
        refine .bind (.attempt (htracks.exec fun node _ w => heval node w)) fun w' _ r r' hr => ?_
        obtain rfl : r = r' := by
          cases hr with
          | ok h => rw [h]
          | error _ => rfl
        rcases Evaluator.afterRound_cases r with ⟨walk, h⟩ | ⟨e, -, -, h⟩ <;> rw [h]
        · exact .pure (.same _ walk)
        · exact .fail _
      signal := fun _ _ _ _ => .fail _ }
    exact htracks.evalNode hkind

end Shift

end Templating
