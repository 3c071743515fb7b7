import Templating.Proofs.Eval.Region

/-!
# Outcomes whatever the budget

* `Steady`: a computation to which a larger budget makes no difference once it has ended.
* `Gives`: what a computation ends with if the budget is large enough.
* `Steady.bind_cases`, `Steady.gives_map`: what a computation gives tells what its parts give.
* `Steady.eval`, `Steady.advance`, `Steady.assign`, `Steady.fold`: **evaluation is steady.**
* `Loops`, `gives_fold_iff`: **a loop, round by round.**
-/

namespace Templating

open Carries (handles)

open Eval

/-- An outcome with another result. -/
def Eval.Outcome.map {α β : Type} (f : α → β) : Outcome α → Outcome β
  | .ok a m => .ok (f a) m
  | .error e m => .error e m

/-- An outcome whose error is located, unless it is located already. -/
def Eval.Outcome.locate {α : Type} (location : Location) : Outcome α → Outcome α
  | .error (.failed e) m => .error (.failed (e.locate location)) m
  | r => r

/-- A machine in a new scope. -/
def Machine.enter (m : Machine) : Machine :=
  { m with frame := { m.frame with env := m.frame.env.push } }

/-- A machine outside the innermost scope. -/
def Machine.leave (m : Machine) : Machine :=
  { m with frame := { m.frame with env := m.frame.env.pop } }

/-- What an action in a scope of its own ended with, outside the scope. -/
def Eval.Outcome.leave {α : Type} : Outcome α → Outcome α
  | .ok a m => .ok a m.leave
  | .error e m => .error e m.leave

variable {α β : Type} {x : Program α} {k : α → Program β} {m m' : Machine}

/-- A larger budget makes no difference once the computation has ended. -/
def Steady (x : Program α) : Prop :=
  ∀ n n', n ≤ n' → ∀ m, EndsWithin n n' x m fun _ => True

/-- The outcome of a computation with all budgets that are large enough. -/
def Gives (x : Program α) (m : Machine) (r : Outcome α) : Prop := Halts x m (· = r)

theorem gives_iff {r : Outcome α} :
    Gives x m r ↔ Outcome.Ended r ∧ ∃ n, ∀ b, n ≤ b → x (.within b) m = r := by
  constructor
  · rintro ⟨n, _, hr, hended, rfl⟩
    exact ⟨hended, n, hr⟩
  · rintro ⟨hended, n, hr⟩
    exact ⟨n, r, hr, hended, rfl⟩

namespace Gives

variable {r r' : Outcome α} {s : Outcome β}

theorem ended (h : Gives x m r) : Outcome.Ended r := (gives_iff.1 h).1

theorem unique (h : Gives x m r) (h' : Gives x m r') : r = r' := by
  obtain ⟨-, n, hr⟩ := gives_iff.1 h
  obtain ⟨-, n', hr'⟩ := gives_iff.1 h'
  exact (hr _ (Nat.le_max_left n n')).symm.trans (hr' _ (Nat.le_max_right n n'))

/-- What some computation gives is what it ends with within some budget. -/
theorem within (h : Gives x m r) : ∃ n, x (.within n) m = r :=
  let ⟨_, n, hr⟩ := gives_iff.1 h
  ⟨n, hr n le_rfl⟩

theorem action {y : Eval α} (h : y m = r) (hended : Outcome.Ended r) : Gives (fun _ => y) m r :=
  Halts.runs.action (h ▸ hended) h

theorem bind_ok {a : α} (hx : Gives x m (.ok a m')) (hk : Gives (k a) m' s) :
    Gives (fun ev => x ev >>= fun a => k a ev) m s := by
  refine Halts.runs.bind hx ?_ ?_
  · rintro _ _ ⟨⟩
    exact hk
  · rintro _ _ ⟨⟩

theorem bind_error {e : EvalError} (hx : Gives x m (.error (.failed e) m')) :
    Gives (fun ev => x ev >>= fun a => k a ev) m (.error (.failed e) m') := by
  refine Halts.runs.bind hx ?_ ?_
  · rintro _ _ ⟨⟩
  · rintro _ _ ⟨⟩
    rfl

theorem eval_iff {node : Node} {r : Outcome Value} :
    Gives (fun ev => ev.eval node) m r ↔ Gives (fun ev => ev.evalNode node) m r := by
  refine ⟨fun h => ?_, Halts.eval⟩
  obtain ⟨hended, n, hr⟩ := gives_iff.1 h
  exact gives_iff.2 ⟨hended, n, fun b hb => hr (b + 1) (by omega)⟩

end Gives

namespace Steady

theorem gives (hx : Steady x) {n : Nat} (hended : Outcome.Ended (x (.within n) m)) :
    Gives x m (x (.within n) m) :=
  gives_iff.2 ⟨hended, n, fun b hb => (hx n b hb m hended).1⟩

/-- What a part of a computation gives, and what is done with it. -/
theorem bind_cases (hx : Steady x) {s : Outcome β}
    (h : Gives (fun ev => x ev >>= fun a => k a ev) m s) :
    (∃ a m', Gives x m (.ok a m') ∧ Gives (k a) m' s) ∨
      ∃ e m', Gives x m (.error (.failed e) m') ∧ s = .error (.failed e) m' := by
  obtain ⟨hended, n, hs⟩ := gives_iff.1 h
  have hpart : Outcome.Ended (x (.within n) m) := by
    have hwhole := hs n le_rfl
    rw [← hwhole] at hended
    exact hended.of_bind
  have hgives := hx.gives hpart
  cases hxm : x (.within n) m with
  | ok a m' =>
    rw [hxm] at hgives
    obtain ⟨-, n', hx'⟩ := gives_iff.1 hgives
    refine .inl ⟨a, m', hgives, gives_iff.2 ⟨hended, max n n', fun b hb => ?_⟩⟩
    rw [← hs b (by omega)]
    exact (Templating.bind_ok (f := fun a => k a (.within b)) (hx' b (by omega))).symm
  | error e m' =>
    rw [hxm] at hpart hgives
    cases e with
    | exhausted => exact hpart.elim
    | failed e => exact .inr ⟨e, m', hgives, h.unique hgives.bind_error⟩

/-- A computation whose outcome is made of that of another one. -/
theorem gives_map (hx : Steady x) {y : Program β} {f : Outcome α → Outcome β}
    (hy : ∀ ev, Outcome.Ended (x ev m') → y ev m = f (x ev m'))
    (hended : ∀ ev, Outcome.Ended (y ev m) ↔ Outcome.Ended (x ev m')) {s : Outcome β} :
    Gives y m s ↔ ∃ r, Gives x m' r ∧ s = f r := by
  constructor
  · intro h
    obtain ⟨hs, n, hrun⟩ := gives_iff.1 h
    have hpart := (hended (.within n)).1 (hrun n le_rfl ▸ hs)
    exact ⟨_, hx.gives hpart, (hrun n le_rfl).symm.trans (hy _ hpart)⟩
  · rintro ⟨r, h, rfl⟩
    obtain ⟨hr, n, hrun⟩ := gives_iff.1 h
    have heq (b : Nat) (hb : n ≤ b) : y (.within b) m = f r := by
      rw [hy _ (hrun b hb ▸ hr), hrun b hb]
    refine gives_iff.2 ⟨heq n le_rfl ▸ (hended _).2 (hrun n le_rfl ▸ hr), n, heq⟩

/-! ## Computations that are put together -/

theorem action (y : Eval α) : Steady fun _ => y :=
  fun n n' _ _ hended =>
    (Ends.runs (.within n) (.within n')).action (Q := fun _ => True) hended trivial hended

theorem bind (hx : Steady x) (hk : ∀ a, Steady (k a)) :
    Steady fun ev => x ev >>= fun a => k a ev :=
  fun n n' hle m => (Ends.runs _ _).bind (hx n n' hle m) (fun a m' _ => hk a n n' hle m')
    fun _ _ _ => trivial

theorem attempt (hx : Steady x) : Steady fun ev => Eval.attempt (x ev) :=
  fun n n' hle m => (Ends.runs _ _).attempt (hx n n' hle m) (fun _ _ _ => trivial)
    fun _ _ _ => trivial

theorem inScope (hx : Steady x) : Steady fun ev => Eval.inScope (x ev) :=
  bind (action _) fun _ => bind (attempt hx) fun _ => bind (action _) fun _ => action _

theorem eval (node : Node) : Steady fun ev => ev.eval node := by
  intro n n' hle m
  refine (Ends.runs _ _).mono ((Region.keeps hle).evalAny ∅ node m (fun _ h => h.elim)
    (Region.anyLogic_inside _ _)) fun _ _ => trivial

theorem advance (h : Handle) : Steady fun ev => ev.advance h := by
  intro n n' hle m
  exact (Ends.runs _ _).mono ((Region.keeps hle).advanceAny ∅ h m.frame m (fun _ h => h.elim) rfl)
    fun _ _ => trivial

/-- What is known of all evaluations says that a computation is steady. -/
theorem of_judges {Q : Set Handle → α → α → Prop} (y : Program α)
    (h : ∀ n n', n ≤ n' → Region.anyLogic.Judges (EndsWithin n n') Region.anyLogic.Inside ∅ Q x y) :
    Steady x := by
  intro n n' hle m
  exact (Ends.runs _ _).mono (h n n' hle m (fun _ h => h.elim) (Region.anyLogic_inside _ _))
    fun _ _ => trivial

theorem assign (target : Target) (v : Value) : Steady fun ev => ev.assign target v :=
  of_judges _ fun _ _ hle => (Region.keeps hle).anyTracks.assign target ⟨rfl, fun _ _ => trivial⟩

theorem callFunction (name : String) (args : List Value) :
    Steady fun ev => callFunction ev name args :=
  of_judges _ fun _ _ hle => (Region.keeps hle).anyTracks.callFunction name
    ⟨rfl, fun _ _ => trivial⟩

theorem foldWithin {h : Handle} {step : α → Value → Program (Walk α)}
    (hstep : ∀ a v, Steady (step a v)) (rounds : Nat) (a : α) :
    Steady fun ev => ev.foldWithin h (fun a v => step a v ev) rounds a := by
  induction rounds generalizing a with
  | zero => exact action _
  | succ rounds ih =>
    refine bind (advance h) fun item => ?_
    cases item with
    | none => exact action _
    | some v =>
      refine bind (hstep a v) fun walk => ?_
      cases walk with
      | on a => exact ih a
      | done a => exact action _

theorem fold {h : Handle} {a : α} {step : α → Value → Program (Walk α)}
    (hstep : ∀ a v, Steady (step a v)) : Steady fun ev => ev.fold h a fun a v => step a v ev :=
  fun n n' hle m => (Ends.mayExhaust hle).budget (Evaluator.extends_foldWithin h step a)
    fun rounds => foldWithin hstep rounds a n n' hle m

theorem gives_map_pure (hx : Steady x) (f : α → β) {s : Outcome β} :
    Gives (fun ev => x ev >>= fun a => pure (f a)) m s ↔
      ∃ r, Gives x m r ∧ s = Outcome.map f r := by
  have hrun (ev : Evaluator) : (x ev >>= fun a => pure (f a)) m = Outcome.map f (x ev m) := by
    rw [bind_apply]
    cases x ev m <;> rfl
  refine hx.gives_map (fun ev _ => hrun ev) fun ev => ?_
  rw [hrun]
  rcases x ev m with _ | ⟨_ | _, _⟩ <;> rfl

theorem gives_locating (hx : Steady x) (location : Location) {s : Outcome α} :
    Gives (fun ev => locating location (x ev)) m s ↔
      ∃ r, Gives x m r ∧ s = Outcome.locate location r := by
  have hrun (ev : Evaluator) : locating location (x ev) m = Outcome.locate location (x ev m) := by
    unfold locating mapError Outcome.locate
    rcases x ev m with _ | ⟨_ | _, _⟩ <;> rfl
  refine hx.gives_map (fun ev _ => hrun ev) fun ev => ?_
  rw [hrun]
  rcases x ev m with _ | ⟨_ | _, _⟩ <;> rfl

theorem gives_inScope (hx : Steady x) {s : Outcome α} :
    Gives (fun ev => Eval.inScope (x ev)) m s ↔ ∃ r, Gives x m.enter r ∧ s = Outcome.leave r := by
  have hrun (ev : Evaluator) (hended : Outcome.Ended (x ev m.enter)) :
      Eval.inScope (x ev) m = Outcome.leave (x ev m.enter) := by
    rcases hxm : x ev m.enter with ⟨a, m'⟩ | ⟨e | _, m'⟩
    · exact inScope_ok (attempt_ok hxm)
    · exact inScope_ok (attempt_failed hxm)
    · rw [hxm] at hended
      exact hended.elim
  refine hx.gives_map hrun fun ev => ⟨Outcome.Ended.of_inScope, fun hended => ?_⟩
  rw [hrun ev hended]
  rcases hxm : x ev m.enter with _ | ⟨_ | _, _⟩
  · trivial
  · trivial
  · rw [hxm] at hended
    exact hended.elim

end Steady

/-! ## Loops -/

/-- A loop over an iterator, round by round: each takes an item, and none follows one that ends the
loop. -/
inductive Loops (h : Handle) (step : α → Value → Program (Walk α)) :
    α → Machine → Outcome α → Prop where
  | ended {a : α} {m m' : Machine} : Gives (fun ev => ev.advance h) m (.ok none m') →
      Loops h step a m (.ok a m')
  | refused {a : α} {m m' : Machine} {e : EvalError} :
      Gives (fun ev => ev.advance h) m (.error (.failed e) m') →
      Loops h step a m (.error (.failed e) m')
  | failed {a : α} {v : Value} {m m₁ m₂ : Machine} {e : EvalError} :
      Gives (fun ev => ev.advance h) m (.ok (some v) m₁) →
      Gives (step a v) m₁ (.error (.failed e) m₂) → Loops h step a m (.error (.failed e) m₂)
  | on {a b : α} {v : Value} {m m₁ m₂ : Machine} {r : Outcome α} :
      Gives (fun ev => ev.advance h) m (.ok (some v) m₁) →
      Gives (step a v) m₁ (.ok (.on b) m₂) → Loops h step b m₂ r → Loops h step a m r
  | done {a b : α} {v : Value} {m m₁ m₂ : Machine} :
      Gives (fun ev => ev.advance h) m (.ok (some v) m₁) →
      Gives (step a v) m₁ (.ok (.done b) m₂) → Loops h step a m (.ok b m₂)

section

variable {h : Handle} {a : α} {step : α → Value → Program (Walk α)} {r : Outcome α}

theorem Loops.of_foldWithin (hstep : ∀ a v, Steady (step a v)) {rounds : Nat}
    (hr : Gives (fun ev => ev.foldWithin h (fun a v => step a v ev) rounds a) m r) :
    Loops h step a m r := by
  induction rounds generalizing a m with
  | zero =>
    obtain ⟨hended, n, hrun⟩ := gives_iff.1 hr
    rw [← hrun n le_rfl] at hended
    exact hended.elim
  | succ rounds ih =>
    rcases (Steady.advance h).bind_cases hr with ⟨item, m₁, hadvance, hrest⟩ |
      ⟨e, m₁, hadvance, rfl⟩
    · cases item with
      | none =>
        obtain rfl := hrest.unique (.action rfl trivial)
        exact .ended hadvance
      | some v =>
        rcases (hstep a v).bind_cases hrest with ⟨walk, m₂, hround, hrest⟩ | ⟨e, m₂, hround, rfl⟩
        · cases walk with
          | on b => exact .on hadvance hround (ih hrest)
          | done b =>
            obtain rfl := hrest.unique (.action rfl trivial)
            exact .done hadvance hround
        · exact .failed hadvance hround
    · exact .refused hadvance

theorem Loops.foldWithin (hloops : Loops h step a m r) : ∃ rounds,
    Gives (fun ev => ev.foldWithin h (fun a v => step a v ev) rounds a) m r := by
  induction hloops with
  | ended hadvance => exact ⟨1, hadvance.bind_ok (.action rfl trivial)⟩
  | refused hadvance => exact ⟨1, hadvance.bind_error⟩
  | failed hadvance hround => exact ⟨1, hadvance.bind_ok hround.bind_error⟩
  | on hadvance hround _ ih =>
    obtain ⟨rounds, hrest⟩ := ih
    exact ⟨rounds + 1, hadvance.bind_ok (hround.bind_ok hrest)⟩
  | done hadvance hround => exact ⟨1, hadvance.bind_ok (hround.bind_ok (.action rfl trivial))⟩

/-- **A loop gives what its rounds lead to.** -/
theorem gives_fold_iff (hstep : ∀ a v, Steady (step a v)) :
    Gives (fun ev => ev.fold h a fun a v => step a v ev) m r ↔ Loops h step a m r := by
  constructor
  · intro hr
    -- some budget is enough, which is the number of rounds then
    obtain ⟨n, hrun⟩ := hr.within
    have hwithin : (Evaluator.within n).foldWithin h (fun a v => step a v (.within n)) n a m = r :=
      hrun
    have hgives := (Steady.foldWithin (h := h) hstep n a).gives (hwithin ▸ hr.ended)
    rw [hwithin] at hgives
    exact .of_foldWithin hstep hgives
  · intro hloops
    obtain ⟨rounds, hr⟩ := hloops.foldWithin
    exact Halts.budget (Evaluator.extends_foldWithin h step a) hr

end

end Templating
