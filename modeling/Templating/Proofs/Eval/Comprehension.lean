import Templating.Proofs.Eval.Spare
import Templating.Proofs.Eval.Steady

/-!
# List comprehensions and generator expressions

A list comprehension runs its rounds in a scope of the variables. A generator expression keeps a
copy of the variables in an iterator, runs its rounds in there when it is advanced, and what they
put out is lost. Both add the same items.

* `Evaluator.kept`: what a round adds.
* `Generates`: the items of a generator expression one after another.
* `gives_evalListComp`: a list comprehension collects them in its scope.
* `Suspended`, `Suspended.gives_advance`: so does a loop over the iterator, where the items are
  those of the other machine up to the place of the iterator.
* `list_of_generator_agrees`: **the list of a generator expression is that of the comprehension.**
-/

namespace Templating

open Carries (handles rename)

open Eval

/-- The next items of a comprehension, if the condition holds. -/
def Evaluator.kept (ev : Evaluator) (g : Generator) (v : Value) : Eval (Option Value) := do
  ev.assign g.target v
  if ← ev.holds g.condition then return some (← ev.eval g.item) else return none

/-- A comprehension as a generator expression over an iterator, in some frame. -/
def Comprehension.over (comp : Comprehension) (item : Node) (source : Handle) (frame : Frame) :
    Generator :=
  ⟨frame, source, comp.target, comp.condition, item⟩

/-- A round of a list comprehension. -/
def gathering (g : Generator) (items : List Value) (v : Value) : Program (Walk (List Value)) :=
  fun ev => do return .on ((← ev.kept g v).toList ++ items)

/-- A round of the search for the next item of a generator expression. -/
def searching (g : Generator) (_ : Option Value) (v : Value) : Program (Walk (Option Value)) :=
  fun ev => ev.generateRound g v

/-- A round of a loop that takes all items. -/
def collecting (items : List Value) (v : Value) : Program (Walk (List Value)) :=
  fun _ => return .on (v :: items)

/-- Whether the search for the next item goes on after a round. -/
def Walk.ofKept : Option Value → Walk (Option Value)
  | some v => .done (some v)
  | none => .on none

/-- What goes on with an item goes on where the condition holds, or else without one. -/
theorem Evaluator.kept_bind {α : Type} (ev : Evaluator) (g : Generator) (v : Value)
    (k : Option Value → Eval α) : ev.kept g v >>= k = (do
      ev.assign g.target v
      if ← ev.holds g.condition then ev.eval g.item >>= fun item => k (some item) else k none) := by
  unfold kept
  rw [bind_assoc]
  refine bind_congr fun _ => ?_
  rw [bind_assoc]
  refine bind_congr fun holds => ?_
  cases holds with
  | true =>
    simp only [if_true, bind_assoc]
    rfl
  | false => rfl

theorem Evaluator.generateRound_eq (ev : Evaluator) (g : Generator) (v : Value) :
    ev.generateRound g v = ev.kept g v >>= fun item => return .ofKept item := by
  rw [kept_bind]
  rfl

/-- The container of a comprehension as an iterator. -/
def Evaluator.source (ev : Evaluator) (comp : Comprehension) : Eval Handle := do
  (← ev.eval comp.container).iterate

theorem Evaluator.evalListComp_eq (ev : Evaluator) (item : Node) (comp : Comprehension)
    (frame : Frame) :
    ev.evalListComp item comp =
      (ev.source comp >>= fun h => inScope (ev.fold h [] fun items v =>
        gathering (comp.over item h frame) items v ev)) >>=
        fun items => return .list items.reverse := by
  have hround (h : Handle) (items : List Value) (v : Value) :
      gathering (comp.over item h frame) items v ev = (do
        ev.assign comp.target v
        if ← ev.holds comp.condition then return .on ((← ev.eval item) :: items)
        else return .on items) := by
    unfold gathering
    rw [kept_bind]
    rfl
  simp only [hround]
  unfold evalListComp comprehend source
  simp only [bind_assoc, pure_bind]

theorem Evaluator.evalGenExpr_source (ev : Evaluator) (item : Node) (comp : Comprehension) :
    ev.evalGenExpr item comp = ev.source comp >>= fun h => (suspend h comp item >>= fun k =>
      return .iterator k) := by
  rw [evalGenExpr_eq]
  unfold source
  rw [bind_assoc]

/-- The function takes all items of an iterator. -/
theorem callFunction_list (ev : Evaluator) (k : Handle) :
    callFunction ev "list" [.iterator k] = ev.collect k >>= fun items => return .list items := by
  have hname : Function.ofName? "list" = some .list := by rfl
  unfold callFunction
  simp only [hname]
  rfl

/-- The evaluation of the list of a generator expression. -/
theorem Evaluator.list_genExpr_eq (ev : Evaluator) (i : Nat) (location : Location) (item : Node)
    (comp : Comprehension) :
    ev.evalKind location (.callFunc "list" [⟨i, location, .genExpr item comp⟩]) =
      ev.eval ⟨i, location, .genExpr item comp⟩ >>= fun v => callFunction ev "list" [v] := by
  simp only [evalKind, List.mapM_cons, List.mapM_nil, bind_assoc, pure_bind]

theorem EvalError.locate_locate (e : EvalError) (location : Location) :
    (e.locate location).locate location = e.locate location := by
  obtain ⟨cause, _ | _⟩ := e <;> rfl

/-! ## The rounds -/

variable {g : Generator} {m n : Machine} {items : List Value} {r : Outcome (List Value)}

namespace Steady

theorem holds (condition : Option Node) : Steady fun ev => ev.holds condition := by
  cases condition with
  | none => exact action _
  | some condition => exact bind (eval condition) fun _ => action _

theorem kept (g : Generator) (v : Value) : Steady fun ev => ev.kept g v := by
  refine bind (assign g.target v) fun _ => bind (holds g.condition) fun holds => ?_
  cases holds with
  | true => exact bind (eval g.item) fun _ => action _
  | false => exact action _

theorem gathering (g : Generator) (items : List Value) (v : Value) :
    Steady (gathering g items v) := bind (kept g v) fun _ => action _

theorem searching (g : Generator) (a : Option Value) (v : Value) : Steady (searching g a v) := by
  unfold Templating.searching
  simp only [Evaluator.generateRound_eq]
  exact bind (kept g v) fun _ => action _

theorem generate (g : Generator) : Steady fun ev => ev.generate g := fold (searching g)

theorem source (comp : Comprehension) : Steady fun ev => ev.source comp :=
  bind (eval comp.container) fun _ => action _

theorem listComp (item : Node) (comp : Comprehension) :
    Steady fun ev => ev.evalListComp item comp := by
  -- the frame of the generator expression does not matter
  simp only [Evaluator.evalListComp_eq _ item comp (.ofVars [] 0)]
  exact bind (bind (source comp) fun _ => inScope (fold (gathering _))) fun _ => action _

theorem genExpr (item : Node) (comp : Comprehension) :
    Steady fun ev => ev.evalGenExpr item comp := by
  simp only [Evaluator.evalGenExpr_source]
  exact bind (source comp) fun _ => action _

end Steady

theorem Steady.list_genExpr (i : Nat) (location : Location) (item : Node) (comp : Comprehension) :
    Steady fun ev => ev.evalKind location
      (.callFunc "list" [⟨i, location, .genExpr item comp⟩]) := by
  simp only [Evaluator.list_genExpr_eq]
  exact bind (eval _) fun _ => callFunction _ _

theorem gives_gathering {v : Value} {s : Outcome (Walk (List Value))} :
    Gives (gathering g items v) m s ↔ ∃ r, Gives (fun ev => ev.kept g v) m r ∧
      s = Outcome.map (fun item => .on (item.toList ++ items)) r :=
  (Steady.kept g v).gives_map_pure fun item => Walk.on (item.toList ++ items)

theorem gives_searching {a : Option Value} {v : Value} {s : Outcome (Walk (Option Value))} :
    Gives (searching g a v) m s ↔ ∃ r, Gives (fun ev => ev.kept g v) m r ∧
      s = Outcome.map Walk.ofKept r := by
  unfold searching
  simp only [Evaluator.generateRound_eq]
  exact (Steady.kept g v).gives_map_pure Walk.ofKept

theorem gives_generate {q : Outcome (Option Value)} :
    Gives (fun ev => ev.generate g) m q ↔ Loops g.source (searching g) none m q :=
  gives_fold_iff (Steady.searching g)

/-- The items of a generator expression one after another, put in front of others. -/
inductive Generates (g : Generator) : List Value → Machine → Outcome (List Value) → Prop where
  | ended {items : List Value} {m m' : Machine} :
      Gives (fun ev => ev.generate g) m (.ok none m') → Generates g items m (.ok items m')
  | failed {items : List Value} {m m' : Machine} {e : EvalError} :
      Gives (fun ev => ev.generate g) m (.error (.failed e) m') →
      Generates g items m (.error (.failed e) m')
  | item {items : List Value} {v : Value} {m m' : Machine} {r : Outcome (List Value)} :
      Gives (fun ev => ev.generate g) m (.ok (some v) m') → Generates g (v :: items) m' r →
      Generates g items m r

/-- A round that adds nothing belongs to the search for the next item. -/
theorem Generates.skip {v : Value} {m₁ m₂ : Machine}
    (hadvance : Gives (fun ev => ev.advance g.source) m (.ok (some v) m₁))
    (hkept : Gives (fun ev => ev.kept g v) m₁ (.ok none m₂)) (h : Generates g items m₂ r) :
    Generates g items m r := by
  have hsearch {q : Outcome (Option Value)} (hq : Gives (fun ev => ev.generate g) m₂ q) :
      Gives (fun ev => ev.generate g) m q :=
    gives_generate.2 (.on hadvance (gives_searching.2 ⟨_, hkept, rfl⟩) (gives_generate.1 hq))
  cases h with
  | ended hq => exact .ended (hsearch hq)
  | failed hq => exact .failed (hsearch hq)
  | item hq hrest => exact .item (hsearch hq) hrest

/-- The rounds of a list comprehension add the items of the generator expression. -/
theorem Generates.of_loops
    (h : Loops g.source (gathering g) items m r) :
    Generates g items m r := by
  induction h with
  | ended hadvance => exact .ended (gives_generate.2 (.ended hadvance))
  | refused hadvance => exact .failed (gives_generate.2 (.refused hadvance))
  | failed hadvance hround =>
    obtain ⟨q, hkept, hq⟩ := gives_gathering.1 hround
    cases q with
    | ok item m' => cases hq
    | error e m' =>
      cases hq
      exact .failed (gives_generate.2 (.failed hadvance (gives_searching.2 ⟨_, hkept, rfl⟩)))
  | on hadvance hround _ ih =>
    obtain ⟨q, hkept, hq⟩ := gives_gathering.1 hround
    cases q with
    | error e m' => cases hq
    | ok item m' =>
      cases hq
      -- a round that adds nothing belongs to the search for the next item
      cases item with
      | none => exact ih.skip hadvance hkept
      | some v =>
        exact .item (gives_generate.2 (.done hadvance (gives_searching.2 ⟨_, hkept, rfl⟩))) ih
  | done hadvance hround =>
    obtain ⟨q, -, hq⟩ := gives_gathering.1 hround
    cases q <;> cases hq

/-- A list comprehension ends with the search for the next item, or goes on after it. -/
def Continues (g : Generator) (items : List Value) :
    Outcome (Option Value) → Outcome (List Value) → Prop
  | .ok none m, r => r = .ok items m
  | .ok (some v) m, r => Loops g.source (gathering g) (v :: items) m r
  | .error e m, r => r = .error e m

/-- A list comprehension does the rounds of a search for the next item, and goes on. -/
theorem Loops.gather {a : Option Value} {q : Outcome (Option Value)}
    (h : Loops g.source (searching g) a m q) (ha : a = none)
    (hrest : Continues g items q r) :
    Loops g.source (gathering g) items m r := by
  induction h with
  | ended hadvance =>
    subst ha
    obtain rfl := hrest
    exact .ended hadvance
  | refused hadvance =>
    obtain rfl := hrest
    exact .refused hadvance
  | failed hadvance hround =>
    obtain rfl := hrest
    obtain ⟨q, hkept, hq⟩ := gives_searching.1 hround
    cases q with
    | ok item m' => cases hq
    | error e m' =>
      cases hq
      exact .failed hadvance (gives_gathering.2 ⟨_, hkept, rfl⟩)
  | on hadvance hround _ ih =>
    obtain ⟨q, hkept, hq⟩ := gives_searching.1 hround
    rcases q with ⟨_ | v, m'⟩ | ⟨e, m'⟩ <;> cases hq
    exact .on hadvance (gives_gathering.2 ⟨_, hkept, rfl⟩) (ih rfl hrest)
  | done hadvance hround =>
    obtain ⟨q, hkept, hq⟩ := gives_searching.1 hround
    rcases q with ⟨_ | v, m'⟩ | ⟨e, m'⟩ <;> cases hq
    exact .on hadvance (gives_gathering.2 ⟨_, hkept, rfl⟩) hrest

theorem Generates.loops (h : Generates g items m r) :
    Loops g.source (gathering g) items m r := by
  induction h with
  | ended hq => exact (gives_generate.1 hq).gather rfl rfl
  | failed hq => exact (gives_generate.1 hq).gather rfl rfl
  | item hq _ ih => exact (gives_generate.1 hq).gather rfl ih

/-- **A list comprehension collects the items of the generator expression** in a scope of its own,
and the last one comes first until it is over. -/
theorem gives_inScope_gathering :
    Gives (fun ev => inScope (ev.fold g.source [] fun items v => gathering g items v ev)) m r ↔
      ∃ q, Generates g [] m.enter q ∧ r = Outcome.leave q := by
  rw [(Steady.fold (Steady.gathering g)).gives_inScope]
  refine exists_congr fun q => and_congr_left fun _ => ?_
  rw [gives_fold_iff (Steady.gathering g)]
  exact ⟨.of_loops, fun h => h.loops⟩

/-! ## The iterator of a generator expression -/

open Spare

variable {k : Handle} {output : Array String}

/-- The second machine keeps a generator expression in a spare iterator. Its variables are those of
the first machine, which may have put out more. -/
structure Suspended (k : Handle) (g : Generator) (output : Array String) (m n : Machine) :
    Prop where
  cell : n.store[k]? = some ⟨.generator (rename (place k) { g with frame := m.frame }), false⟩
  twins : Twins k m { n with frame := rename (place k) m.frame }
  source : g.source < m.store.size
  output_eq : n.output = output
  more : ∃ added, m.output = output ++ added

/-- A run in the variables of a generator expression, and a run that resumes the iterator. -/
inductive Resumes {α : Type} (k : Handle) (g : Generator) (output : Array String)
    (Q : Nat → α → α → Prop) : Outcome α → Outcome α → Prop where
  | ok {a b : α} {m n : Machine} : Suspended k g output m n → Q m.store.size a b →
      Resumes k g output Q (.ok a m) (.ok b n)
  | failed {e : EvalError} {m n : Machine} : Suspended k g output m n →
      Resumes k g output Q (.error (.failed e) m) (.error (.failed e) n)
  | exhausted {m n : Machine} : Resumes k g output Q (.error .exhausted m) (.error .exhausted n)

theorem Resumes.ended_iff {α : Type} {Q : Nat → α → α → Prop} {r r' : Outcome α}
    (h : Resumes k g output Q r r') : Outcome.Ended r ↔ Outcome.Ended r' := by
  cases h <;> rfl

/-- An item that was found from a machine on. -/
def Found (k : Handle) (m : Machine) (w : Nat) (item item' : Option Value) : Prop :=
  m.store.size ≤ w ∧ (knowledge k).Along w item item'

/-- An advance of an iterator that is a generator expression. -/
theorem Evaluator.advanceCell_generator (ev : Evaluator)
    (hcell : n.store[k]? = some ⟨.generator g, false⟩) :
    ev.advanceCell k n = resume k g (ev.generate g)
      { n with store := n.store.setIfInBounds k ⟨.generator g, true⟩ } := by
  rw [advanceCell_eq]
  change ev.advanceAt k n.store[k]? n = _
  rw [hcell]
  change (ev.step (.generator g) >>= finish k) _ = _
  rw [step_generator]

/-- An advance of the iterator searches for the next item. -/
theorem Suspended.resumes (h : Suspended k g output m n) (budget : Nat) :
    Resumes k g output (Found k m) ((Evaluator.within budget).generate g m)
      ((Evaluator.within budget).advanceCell k n) := by
  rw [Evaluator.advanceCell_generator _ h.cell]
  -- the machine in which the search begins
  let begun : Machine := { n with
    store := n.store.setIfInBounds k
      ⟨.generator (rename (place k) { g with frame := m.frame }), true⟩
    frame := rename (place k) m.frame
    output := #[] }
  have htwins : Twins k m begun := (setSpare h.twins _).withOutput m.output #[]
  have hg : (knowledge k).Along m.store.size { g with frame := m.frame }
      (rename (place k) { g with frame := m.frame }) :=
    ⟨rfl, List.forall_mem_cons.2 ⟨known_iff.2 h.source, htwins.frame.2⟩⟩
  obtain ⟨heval, hadvance⟩ := (shift k).within budget
  have hrun : Agree k m begun (knowledge k).Along ((Evaluator.within budget).generate g m)
      ((Evaluator.within budget).generate (rename (place k) { g with frame := m.frame }) begun) :=
    Shift.generate (Shift.tracks (hadvance (Shift.lasts_inside _))) heval hg m begun rfl htwins
  -- what is put back after the search
  have hback {m₁ n₁ : Machine} (hfollow : Follow k m begun m₁ n₁) :
      Suspended k g output m₁ { n₁ with
      store := n₁.store.setIfInBounds k
        ⟨.generator { rename (place k) g with frame := n₁.frame }, false⟩
      frame := n.frame
      output := n.output } := by
    have htwins₁ := hfollow.twins
    have hlt : k < n₁.store.size := by
      rw [htwins₁.size]
      exact Nat.lt_succ_of_le htwins₁.base_le
    have hframe : n₁.frame = rename (place k) m₁.frame := htwins₁.frame.1
    refine ⟨?_, ?_, h.source.trans_le hfollow.le, h.output_eq, ?_⟩
    · rw [Array.getElem?_setIfInBounds_self_of_lt hlt, hframe]
      rfl
    · have hout := (setSpare htwins₁
        ⟨.generator { rename (place k) g with frame := n₁.frame }, false⟩).withOutput m₁.output
          n.output
      rw [← hframe]
      exact hout
    · obtain ⟨added, hout⟩ := h.more
      obtain ⟨added', hout', -⟩ := hfollow.output
      exact ⟨added ++ added', by rw [hout', hout, Array.append_assoc]⟩
  generalize (Evaluator.within budget).generate g m = q at hrun
  generalize hq' : (Evaluator.within budget).generate _ begun = q' at hrun
  cases hrun with
  | ok hfollow hitem =>
    rw [resume_ok (attempt_ok hq')]
    exact .ok (hback hfollow) ⟨hfollow.le, hitem⟩
  | failed hfollow =>
    rw [resume_ok (attempt_failed hq')]
    exact .failed (hback hfollow)
  | exhausted =>
    rw [resume_exhausted hq']
    exact .exhausted

/-- What the iterator gives, and where the search for the next item ends. -/
theorem Suspended.gives_advance (h : Suspended k g output m n) {q : Outcome (Option Value)}
    (hq : Gives (fun ev => ev.generate g) m q) :
    ∃ q', Gives (fun ev => ev.advance k) n q' ∧ Resumes k g output (Found k m) q q' := by
  obtain ⟨b, hrun⟩ := hq.within
  have hresumes := h.resumes b
  rw [hrun] at hresumes
  have hended := hresumes.ended_iff.1 hq.ended
  exact ⟨_, (Steady.advance k).gives (n := b + 1) hended, hresumes⟩

theorem Suspended.gives_generate (h : Suspended k g output m n) {q' : Outcome (Option Value)}
    (hq' : Gives (fun ev => ev.advance k) n q') :
    ∃ q, Gives (fun ev => ev.generate g) m q ∧ Resumes k g output (Found k m) q q' := by
  obtain ⟨b, hrun⟩ := hq'.within
  cases b with
  | zero =>
    have hended := hq'.ended
    rw [← hrun] at hended
    exact hended.elim
  | succ b =>
    have hresumes := h.resumes b
    change (Evaluator.within b).advanceCell k n = q' at hrun
    rw [hrun] at hresumes
    exact ⟨_, (Steady.generate g).gives (hresumes.ended_iff.2 hq'.ended), hresumes⟩

/-- **A loop over the iterator collects the same items.** -/
theorem Generates.collected (h : Generates g items m r) (hsuspended : Suspended k g output m n)
    {items' : List Value} (hitems : (knowledge k).Along m.store.size items items') :
    ∃ r', Loops k collecting items' n r' ∧
      Resumes k g output (knowledge k).Along r r' := by
  induction h generalizing n items' with
  | ended hq =>
    obtain ⟨q', hq', hresumes⟩ := hsuspended.gives_advance hq
    cases hresumes with
    | ok hsuspended hfound =>
      obtain ⟨hle, hitem⟩ := hfound
      obtain rfl := hitem.1
      exact ⟨_, .ended hq', .ok hsuspended (hitems.mono hle)⟩
  | failed hq =>
    obtain ⟨q', hq', hresumes⟩ := hsuspended.gives_advance hq
    cases hresumes with
    | failed hsuspended => exact ⟨_, .refused hq', .failed hsuspended⟩
  | item hq _ ih =>
    obtain ⟨q', hq', hresumes⟩ := hsuspended.gives_advance hq
    cases hresumes with
    | ok hsuspended hfound =>
      obtain ⟨hle, hitem⟩ := hfound
      obtain ⟨v', rfl⟩ : ∃ v', _ = some v' := ⟨_, hitem.1⟩
      obtain ⟨r', hloops, hr⟩ := ih hsuspended (hitem.of_some.cons (hitems.mono hle))
      exact ⟨r', .on hq' (.action rfl trivial) hloops, hr⟩

/-- The other way round, a loop over the iterator that ends finds all items. -/
theorem Suspended.generates {items' : List Value} {r' : Outcome (List Value)}
    (h : Loops k collecting items' n r')
    (hsuspended : Suspended k g output m n) (items : List Value) : ∃ r, Generates g items m r := by
  induction h generalizing m items with
  | ended hq' =>
    obtain ⟨q, hq, hresumes⟩ := hsuspended.gives_generate hq'
    cases hresumes with
    | @ok item _ _ _ _ hfound =>
      cases item with
      | none => exact ⟨_, .ended hq⟩
      | some v => exact nomatch hfound.2.1
  | refused hq' =>
    obtain ⟨q, hq, hresumes⟩ := hsuspended.gives_generate hq'
    cases hresumes with
    | failed _ => exact ⟨_, .failed hq⟩
  -- the loop only collects, so its rounds do not fail
  | failed _ hround => exact nomatch hround.unique (.action rfl trivial)
  | on hq' hround _ ih =>
    obtain ⟨q, hq, hresumes⟩ := hsuspended.gives_generate hq'
    cases hround.unique (.action rfl trivial)
    cases hresumes with
    | @ok item _ _ _ hsuspended hfound =>
      cases item with
      | none => exact nomatch hfound.2.1
      | some v =>
        obtain ⟨r, hr⟩ := ih hsuspended (v :: items)
        exact ⟨r, .item hq hr⟩
  | done _ hround => exact nomatch hround.unique (.action rfl trivial)

/-! ## Nodes -/

variable {item : Node} {comp : Comprehension} {location : Location} {s s' : Outcome Value}

/-- A list comprehension fails along with its container, or collects its items in a scope. -/
theorem gives_evalListComp :
    Gives (fun ev => ev.evalListComp item comp) m s ↔
      (∃ e m₁, Gives (fun ev => ev.source comp) m (.error (.failed e) m₁) ∧
        s = .error (.failed e) m₁) ∨
      ∃ h m₁ r, Gives (fun ev => ev.source comp) m (.ok h m₁) ∧
        Generates (comp.over item h m.frame) [] m₁.enter r ∧
        s = Outcome.map (fun items => .list items.reverse) (Outcome.leave r) := by
  have hscope : Steady fun ev => ev.source comp >>= fun h => inScope (ev.fold h [] fun items v =>
      gathering (comp.over item h m.frame) items v ev) :=
    .bind (.source comp) fun _ => .inScope (.fold (.gathering _))
  simp only [Evaluator.evalListComp_eq _ item comp m.frame]
  rw [hscope.gives_map_pure fun items => Value.list items.reverse]
  constructor
  · rintro ⟨r, hr, rfl⟩
    rcases (Steady.source comp).bind_cases hr with ⟨h, m₁, hsource, hr⟩ | ⟨e, m₁, hsource, rfl⟩
    · obtain ⟨q, hq, rfl⟩ := (gives_inScope_gathering (g := comp.over item h m.frame)).1 hr
      exact .inr ⟨h, m₁, q, hsource, hq, rfl⟩
    · exact .inl ⟨e, m₁, hsource, rfl⟩
  · rintro (⟨e, m₁, hsource, rfl⟩ | ⟨h, m₁, q, hsource, hq, rfl⟩)
    · exact ⟨_, hsource.bind_error, rfl⟩
    · exact ⟨_, hsource.bind_ok (gives_inScope_gathering.2 ⟨q, hq, rfl⟩), rfl⟩

/-- A machine with a generator expression over an iterator, as the newest of its own. -/
def Machine.withGenerator (m : Machine) (comp : Comprehension) (item : Node) (h : Handle) :
    Machine :=
  { m with store := m.store.push ⟨.generator (comp.over item h m.enter.frame), false⟩ }

theorem gives_evalGenExpr :
    Gives (fun ev => ev.evalGenExpr item comp) m s ↔
      (∃ e m₁, Gives (fun ev => ev.source comp) m (.error (.failed e) m₁) ∧
        s = .error (.failed e) m₁) ∨
      ∃ h m₁, Gives (fun ev => ev.source comp) m (.ok h m₁) ∧
        s = .ok (.iterator m₁.store.size) (m₁.withGenerator comp item h) := by
  simp only [Evaluator.evalGenExpr_source]
  constructor
  · intro hs
    rcases (Steady.source comp).bind_cases hs with ⟨h, m₁, hsource, hs⟩ | ⟨e, m₁, hsource, rfl⟩
    · exact .inr ⟨h, m₁, hsource, hs.unique (.action rfl trivial)⟩
    · exact .inl ⟨e, m₁, hsource, rfl⟩
  · rintro (⟨e, m₁, hsource, rfl⟩ | ⟨h, m₁, hsource, rfl⟩)
    · exact hsource.bind_error
    · exact hsource.bind_ok (.action rfl trivial)

/-- The list of a generator expression fails along with the container, or collects the items of the
new iterator. -/
theorem gives_list_genExpr {i : Nat} :
    Gives (fun ev => ev.evalKind location (.callFunc "list" [⟨i, location, .genExpr item comp⟩])) m
        s ↔
      (∃ e m₁, Gives (fun ev => ev.source comp) m (.error (.failed e) m₁) ∧
        s = .error (.failed (e.locate location)) m₁) ∨
      ∃ h m₁ r, Gives (fun ev => ev.source comp) m (.ok h m₁) ∧
        Loops m₁.store.size collecting []
          (m₁.withGenerator comp item h) r ∧
        s = Outcome.map (fun items => .list items.reverse) r := by
  have hgen {r : Outcome Value} : Gives (fun ev => ev.eval ⟨i, location, .genExpr item comp⟩) m r ↔
      ∃ q, Gives (fun ev => ev.evalGenExpr item comp) m q ∧ r = Outcome.locate location q := by
    rw [Gives.eval_iff]
    exact (Steady.genExpr item comp).gives_locating location
  have hcollect (k : Handle) (n : Machine) :
      Gives (fun ev => callFunction ev "list" [.iterator k]) n s ↔
      ∃ r, Loops k collecting [] n r ∧
        s = Outcome.map (fun items => .list items.reverse) r := by
    have hsteady (items : List Value) (v : Value) : Steady (collecting items v) := .action _
    simp only [callFunction_list, Evaluator.collect, bind_assoc, pure_bind]
    refine ((Steady.fold hsteady).gives_map_pure fun items => Value.list items.reverse).trans ?_
    exact exists_congr fun r => and_congr_left fun _ => gives_fold_iff hsteady
  simp only [Evaluator.list_genExpr_eq]
  constructor
  · intro hs
    rcases (Steady.eval _).bind_cases hs with ⟨v, m₁, hv, hs⟩ | ⟨e, m₁, hv, rfl⟩
    · obtain ⟨q, hq, hlocate⟩ := hgen.1 hv
      rcases gives_evalGenExpr.1 hq with ⟨e, m₁, hsource, rfl⟩ | ⟨h, m₁, hsource, rfl⟩
      · cases hlocate
      · cases hlocate
        obtain ⟨r, hr, rfl⟩ := (hcollect _ _).1 hs
        exact .inr ⟨h, m₁, r, hsource, hr, rfl⟩
    · obtain ⟨q, hq, hlocate⟩ := hgen.1 hv
      rcases gives_evalGenExpr.1 hq with ⟨e, m₁, hsource, rfl⟩ | ⟨h, m₁, hsource, rfl⟩
      · cases hlocate
        exact .inl ⟨e, m₁, hsource, rfl⟩
      · cases hlocate
  · rintro (⟨e, m₁, hsource, rfl⟩ | ⟨h, m₁, r, hsource, hr, rfl⟩)
    · exact (hgen.2 ⟨_, gives_evalGenExpr.2 (.inl ⟨e, m₁, hsource, rfl⟩), rfl⟩).bind_error
    · exact (hgen.2 ⟨_, gives_evalGenExpr.2 (.inr ⟨h, m₁, hsource, rfl⟩), rfl⟩).bind_ok
        ((hcollect _ _).2 ⟨r, hr, rfl⟩)

/-! ## Results up to the places of iterators -/

/-- Two machines that differ in the places of iterators and in their output. -/
structure Machine.Corresponds (ρ : Handle → Handle) (m m' : Machine) : Prop where
  cells : ∀ h, m'.store[ρ h]? = rename ρ m.store[h]?
  frame : m'.frame = rename ρ m.frame
  fresh : m'.fresh = m.fresh
  random : m'.random = m.random
  clock : m'.clock = m.clock

/-- Two runs that end with the same value or with the same error, apart from the places of
iterators. -/
inductive SameEnd {α : Type} [Carries α] (ρ : Handle → Handle) : Outcome α → Outcome α → Prop where
  | ok {a : α} {m m' : Machine} : m.Corresponds ρ m' → SameEnd ρ (.ok a m) (.ok (rename ρ a) m')
  | failed {e : EvalError} {m m' : Machine} : m.Corresponds ρ m' →
      SameEnd ρ (.error (.failed e) m) (.error (.failed e) m')
  | exhausted {m m' : Machine} : SameEnd ρ (.error .exhausted m) (.error .exhausted m')

/-- Two runs from a machine have the same end, where iterators that they have made may have
different places. Both leave the variables alone, and the first one may have put out more. -/
structure SameFrom (ρ : Handle → Handle) (m : Machine) (r r' : Outcome Value) : Prop where
  injective : Function.Injective ρ
  old : ∀ h < m.store.size, ρ h = h
  ends : SameEnd ρ r r'
  frame : (Outcome.machine r).frame = m.frame
  frame' : (Outcome.machine r').frame = m.frame
  output : ∃ added, (Outcome.machine r).output = (Outcome.machine r').output ++ added
  /-- Each iterator yields the same afterwards. -/
  yields : ∀ budget count, ∀ h < (Outcome.machine r).store.size,
    SameEnd ρ ((Evaluator.within budget).take h count (Outcome.machine r))
      ((Evaluator.within budget).take (ρ h) count (Outcome.machine r'))

theorem rename_id {α : Type} [Carries α] (a : α) : rename id a = a :=
  (Carries.rename_eq_self_iff id a).2 fun _ _ => rfl

theorem SameEnd.of_eq {α : Type} [Carries α] {ρ : Handle → Handle} {a b : α} {m m' : Machine}
    (hab : b = rename ρ a) (h : m.Corresponds ρ m') : SameEnd ρ (.ok a m) (.ok b m') :=
  hab ▸ .ok h

theorem SameEnd.refl {α : Type} [Carries α] (r : Outcome α) : SameEnd id r r := by
  have hsame (m : Machine) : m.Corresponds id m :=
    ⟨fun h => (rename_id m.store[h]?).symm, (rename_id m.frame).symm, rfl, rfl, rfl⟩
  rcases r with ⟨a, m⟩ | ⟨e | _, m⟩
  · have hok : SameEnd id (.ok a m) (.ok (rename id a) m) := .ok (hsame m)
    rwa [rename_id] at hok
  · exact .failed (hsame m)
  · exact .exhausted

/-- Two runs that are the same. -/
theorem SameFrom.refl {r : Outcome Value} (hframe : (Outcome.machine r).frame = m.frame) :
    SameFrom id m r r where
  injective := Function.injective_id
  old _ _ := rfl
  ends := .refl r
  frame := hframe
  frame' := hframe
  output := ⟨#[], Array.append_empty.symm⟩
  yields _ _ _ _ := .refl _

theorem Shift.Twins.corresponds {m' : Machine} (h : Spare.Twins k m m') :
    m.Corresponds (Spare.place k) m' :=
  ⟨fun i => (h.cells i fun _ => trivial).1, h.frame.1, h.fresh, h.random, h.clock⟩

theorem Shift.Agree.sameEnd {α : Type} [Carries α] {m' : Machine} {r r' : Outcome α}
    (h : Spare.Agree k m m' (Spare.knowledge k).Along r r') : SameEnd (Spare.place k) r r' := by
  cases h with
  | ok hfollow hab => exact .of_eq hab.1 hfollow.twins.corresponds
  | failed hfollow => exact .failed hfollow.twins.corresponds
  | exhausted => exact .exhausted

/-- What comes after two machines that differ in a spare iterator. -/
theorem SameFrom.of_twins {m₀ : Machine} {r r' : Outcome Value} (hk : m₀.store.size ≤ k)
    (htwins : Twins k (Outcome.machine r) (Outcome.machine r')) (hends : SameEnd (place k) r r')
    (hframe : (Outcome.machine r).frame = m₀.frame)
    (hframe' : (Outcome.machine r').frame = m₀.frame)
    (houtput : ∃ added, (Outcome.machine r).output = (Outcome.machine r').output ++ added) :
    SameFrom (place k) m₀ r r' where
  injective := (shift k).place_injective
  old h hh := Shift.place_of_lt (hh.trans_le hk)
  ends := hends
  frame := hframe
  frame' := hframe'
  output := houtput
  yields budget count h hh := by
    obtain ⟨-, hadvance⟩ := (shift k).within budget
    have htake := (Shift.tracks (hadvance (Shift.lasts_inside _))).toSequential.take
      (w := (Outcome.machine r).store.size) ⟨rfl, known_iff.2 hh⟩ count
    exact (htake _ _ rfl htwins).sameEnd

/-! ## Machines without dangling iterators -/

/-- A container that is an iterator keeps to the iterators that there are. -/
theorem Machine.IsClosed.source (hm : m.IsClosed) {r : Outcome Handle}
    (hr : Gives (fun ev => ev.source comp) m r) :
    (Outcome.machine r).IsClosed ∧ m.store.size ≤ (Outcome.machine r).store.size ∧
      ∀ h m₁, r = .ok h m₁ → h < m₁.store.size := by
  obtain ⟨b, hrun⟩ := hr.within
  obtain ⟨heval, hadvance⟩ := (shift m.store.size).within b
  have hsource : Spare.Judges m.store.size (.within b) m.store.size (knowledge m.store.size).Finds
      (fun ev => ev.source comp) fun ev => ev.source comp :=
    (heval comp.container m.store.size).bind fun _ _ _ _ hv =>
      (Shift.tracks (hadvance (Shift.lasts_inside _))).iterate hv
  obtain ⟨hclosed, hle, hfinds⟩ := hm.run hsource ((congrArg Outcome.Ended hrun).mpr hr.ended)
  rw [hrun] at hclosed hle hfinds
  refine ⟨hclosed, hle, fun h m₁ heq => ?_⟩
  obtain ⟨b, hb⟩ := hfinds h m₁ heq
  exact hb.2.1

/-- A new generator expression over an iterator of the store is suspended where a comprehension
begins its scope. -/
theorem Machine.IsClosed.suspended (hm : m.IsClosed) {h : Handle} (hh : h < m.store.size)
    (frame : Frame) :
    Suspended m.store.size (comp.over item h frame) m.output m.enter
      (m.withGenerator comp item h) := by
  have hpush : Natural Environment.push := fun ρ _ e => e.push_rename ρ
  have hclosed : m.enter.IsClosed :=
    ⟨hm.cells, fun i hi => hm.frame i (hpush.handles_subset m.frame.env hi)⟩
  have htwins := twins_push hclosed ⟨.generator (comp.over item h m.enter.frame), false⟩
  have hsame : m.enter.frame = rename (place m.store.size) m.enter.frame := htwins.frame.1
  have hgenerator : rename (place m.store.size) (comp.over item h m.enter.frame) =
      comp.over item h m.enter.frame :=
    (Carries.rename_eq_self_iff _ _).2 (List.forall_mem_cons.2
      ⟨Shift.place_of_lt hh, fun i hi => Shift.place_of_lt (hclosed.frame i hi)⟩)
  refine ⟨?_, ?_, hh, rfl, #[], Array.append_empty.symm⟩
  · change (m.store.push _)[m.store.size]? =
      some ⟨.generator (rename (place m.store.size) (comp.over item h m.enter.frame)), false⟩
    rw [hgenerator, Array.getElem?_push_size]
  · rw [← hsame]
    exact htwins

/-! ## The list of a generator expression -/

variable {i j l : Nat}

theorem gives_listComp_node {r : Outcome Value} :
    Gives (fun ev => ev.eval ⟨i, location, .listComp item comp⟩) m r ↔
      ∃ s, Gives (fun ev => ev.evalListComp item comp) m s ∧ r = Outcome.locate location s := by
  rw [Gives.eval_iff]
  exact (Steady.listComp item comp).gives_locating location

theorem gives_list_node {r : Outcome Value} :
    Gives (fun ev => ev.eval
        ⟨j, location, .callFunc "list" [⟨l, location, .genExpr item comp⟩]⟩) m r ↔
      ∃ s, Gives (fun ev => ev.evalKind location
        (.callFunc "list" [⟨l, location, .genExpr item comp⟩])) m s ∧
          r = Outcome.locate location s := by
  rw [Gives.eval_iff]
  exact (Steady.list_genExpr l location item comp).gives_locating location

/-- Outside the scope of a comprehension, where both machines have the same variables. -/
theorem Suspended.leave (h : Suspended k g output m n) {frame : Frame}
    (hframe : m.leave.frame = frame)
    (hframe' : n.frame = frame) (hknown : ∀ i ∈ handles frame, i < k) : Twins k m.leave n := by
  have hsame : (knowledge k).Along m.store.size frame frame :=
    ⟨((Carries.rename_eq_self_iff _ frame).2 fun i hi => Shift.place_of_lt (hknown i hi)).symm,
      fun i hi => known_iff.2 ((hknown i hi).trans_le h.twins.base_le)⟩
  have htwins : Twins k { m with frame } { n with frame } := h.twins.withFrame hsame
  have hm : { m with frame } = m.leave := by
    rw [← hframe]
    rfl
  have hn : { n with frame } = n := by rw [← hframe']
  rwa [hm, hn] at htwins

/-- Making an iterator of the container puts nothing out. -/
theorem output_of_source {r : Outcome Handle} {r₀ : Outcome Value}
    (hr : Gives (fun ev => ev.source comp) m r)
    (hr₀ : Gives (fun ev => ev.eval comp.container) m r₀) :
    (Outcome.machine r).output = (Outcome.machine r₀).output := by
  rcases (Steady.eval _).bind_cases hr with ⟨v, m₁, hv, hr⟩ | ⟨e, m₁, hv, rfl⟩
  · obtain rfl := hr₀.unique hv
    obtain ⟨b, hrun⟩ := hr.within
    rw [← hrun]
    cases v <;> rfl
  · rw [hr₀.unique hv]
    rfl

/-- If the list comprehension ends, the list of the generator expression has the same end. -/
theorem exists_list_of_generator (hm : m.IsClosed) {r : Outcome Value}
    (hr : Gives (fun ev => ev.eval ⟨i, location, .listComp item comp⟩) m r) :
    ∃ r', Gives (fun ev => ev.eval
        ⟨j, location, .callFunc "list" [⟨l, location, .genExpr item comp⟩]⟩) m r' ∧
      ((Outcome.machine r).frame = m.frame → (Outcome.machine r').frame = m.frame →
        ∃ ρ, SameFrom ρ m r r') ∧
      ∀ r₀, Gives (fun ev => ev.eval comp.container) m r₀ →
        (Outcome.machine r').output = (Outcome.machine r₀).output := by
  obtain ⟨s, hs, rfl⟩ := gives_listComp_node.1 hr
  rcases gives_evalListComp.1 hs with ⟨e, m₁, hsource, rfl⟩ | ⟨h, m₁, q, hsource, hq, rfl⟩
  · -- the container fails before there is an iterator
    refine ⟨_, gives_list_node.2 ⟨_, gives_list_genExpr.2 (.inl ⟨e, m₁, hsource, rfl⟩), rfl⟩,
      fun hframe _ => ⟨id, ?_⟩, fun r₀ hr₀ => output_of_source hsource hr₀⟩
    simp only [Outcome.locate, EvalError.locate_locate] at hframe ⊢
    exact .refl hframe
  -- the iterator is new and so at the end of the store; the rounds move all that are made later
  · obtain ⟨hclosed, hle, hh⟩ := hm.source hsource
    obtain ⟨q', hq', hresumes⟩ := hq.collected (hclosed.suspended (hh _ _ rfl) m.frame) .nil
    refine ⟨_, gives_list_node.2 ⟨_, gives_list_genExpr.2 (.inr ⟨h, m₁, q', hsource, hq', rfl⟩),
      rfl⟩, fun hframe hframe' => ⟨place m₁.store.size, ?_⟩, fun r₀ hr₀ => ?_⟩
    · have hknown (i : Handle) (hi : i ∈ handles m.frame) : i < m₁.store.size :=
        (hm.frame i hi).trans_le hle
      cases hresumes with
      | ok hsuspended hitems =>
        have htwins := hsuspended.leave hframe hframe' hknown
        have hlist := (hitems.map (F := List.reverse) fun ρ _ vs => List.map_reverse.symm).list
        exact .of_twins hle htwins (.of_eq hlist.1 htwins.corresponds) hframe hframe'
          (hsuspended.output_eq ▸ hsuspended.more)
      | failed hsuspended =>
        have htwins := hsuspended.leave hframe hframe' hknown
        exact .of_twins hle htwins (.failed htwins.corresponds) hframe hframe'
          (hsuspended.output_eq ▸ hsuspended.more)
      | exhausted => exact hs.ended.elim
    · rw [← output_of_source hsource hr₀]
      cases hresumes with
      | ok hsuspended _ | failed hsuspended => exact hsuspended.output_eq
      | exhausted => exact hs.ended.elim

/-- The other way round, the list comprehension ends if the list of the generator expression
does. -/
theorem exists_listComp (hm : m.IsClosed) {r' : Outcome Value} (hr' : Gives (fun ev => ev.eval
    ⟨j, location, .callFunc "list" [⟨l, location, .genExpr item comp⟩]⟩) m r') :
    ∃ r, Gives (fun ev => ev.eval ⟨i, location, .listComp item comp⟩) m r := by
  obtain ⟨s, hs, rfl⟩ := gives_list_node.1 hr'
  rcases gives_list_genExpr.1 hs with ⟨e, m₁, hsource, rfl⟩ | ⟨h, m₁, q', hsource, hq', rfl⟩
  · exact ⟨_, gives_listComp_node.2 ⟨_, gives_evalListComp.2 (.inl ⟨e, m₁, hsource, rfl⟩), rfl⟩⟩
  · obtain ⟨hclosed, -, hh⟩ := hm.source hsource
    obtain ⟨q, hq⟩ := Suspended.generates hq' (hclosed.suspended (hh _ _ rfl) m.frame) []
    exact ⟨_, gives_listComp_node.2
      ⟨_, gives_evalListComp.2 (.inr ⟨h, m₁, q, hsource, hq, rfl⟩), rfl⟩⟩

theorem Comprehension.isExpression (hitem : item.IsExpression)
    (hcontainer : comp.container.IsExpression)
    (hcondition : ∀ condition ∈ comp.condition, condition.IsExpression) :
    ∀ child ∈ comp.children ++ [item], child.IsExpression := by
  refine List.forall_mem_append.2 ⟨List.forall_mem_cons.2 ⟨hcontainer, fun condition h => ?_⟩, ?_⟩
  · exact hcondition condition (by simpa using h)
  · exact List.forall_mem_singleton.2 hitem

/-- **The list of a generator expression is the list comprehension.** From any machine, whose
iterators are in its store, one ends if the other does. Then both give the same list, or the same
error at the same location, leave the same variables, and leave every iterator in the same state.
New iterators may have other places, and they yield the same afterwards. What the rounds put out is
lost with the generator expression, and only that. -/
theorem list_of_generator_agrees (item : Node) (comp : Comprehension) (hitem : item.IsExpression)
    (hcontainer : comp.container.IsExpression)
    (hcondition : ∀ condition ∈ comp.condition, condition.IsExpression) (location : Location)
    (i j l : Nat) (m : Machine) (hm : m.IsClosed) :
    let container (budget : Nat) := (Evaluator.within budget).eval comp.container m
    let eager (budget : Nat) := (Evaluator.within budget).eval ⟨i, location, .listComp item comp⟩ m
    let lazy (budget : Nat) := (Evaluator.within budget).eval
      ⟨j, location, .callFunc "list" [⟨l, location, .genExpr item comp⟩]⟩ m
    ((∃ budget, Outcome.Ended (eager budget)) ↔ ∃ budget, Outcome.Ended (lazy budget)) ∧
      ∀ n n', Outcome.Ended (eager n) → Outcome.Ended (lazy n') →
        (∃ ρ, SameFrom ρ m (eager n) (lazy n')) ∧
          ∀ budget, Outcome.Ended (container budget) →
            (Outcome.machine (lazy n')).output = (Outcome.machine (container budget)).output := by
  intro container eager lazy
  have hchildren := Comprehension.isExpression hitem hcontainer hcondition
  have heager : Node.IsExpression ⟨i, location, .listComp item comp⟩ := .intro rfl hchildren
  have hlazy : Node.IsExpression
      ⟨j, location, .callFunc "list" [⟨l, location, .genExpr item comp⟩]⟩ :=
    .intro rfl (List.forall_mem_singleton.2 (.intro rfl hchildren))
  -- each ends with some budget if the other does; then larger budgets change nothing
  refine ⟨⟨?_, ?_⟩, fun n n' hended hended' => ?_⟩
  · rintro ⟨n, hended⟩
    obtain ⟨r', hr', -⟩ := exists_list_of_generator (j := j) (l := l) hm
      ((Steady.eval _).gives hended)
    obtain ⟨n', hrun⟩ := hr'.within
    exact ⟨n', (congrArg Outcome.Ended hrun).mpr hr'.ended⟩
  · rintro ⟨n', hended'⟩
    obtain ⟨r, hr⟩ := exists_listComp (i := i) hm ((Steady.eval _).gives hended')
    obtain ⟨n, hrun⟩ := hr.within
    exact ⟨n, (congrArg Outcome.Ended hrun).mpr hr.ended⟩
  · obtain ⟨r', hr', hsame, houtput⟩ := exists_list_of_generator (j := j) (l := l) hm
      ((Steady.eval _).gives hended)
    obtain rfl := hr'.unique ((Steady.eval _).gives hended')
    exact ⟨hsame (heager.moves n m hended).symm (hlazy.moves n' m hended').symm,
      fun budget hended => houtput _ ((Steady.eval _).gives hended)⟩

/-- The comprehension `[x for x in s if x]`, where `s` is an iterator over `1`, `0` and `2`. -/
theorem list_of_generator_agrees_filtered :
    let name (i : Nat) (s : String) : Node := ⟨i, .ofText "" .empty, .var s⟩
    let comp : Comprehension := ⟨.name "x", name 1 "s", some (name 2 "x")⟩
    let m : Machine := { Machine.start 6 0 .first (.ofVars [("s", .iterator 0)] 2) with
      store := #[⟨.items [.int 1, .int 0, .int 2], false⟩] }
    let eager := (Evaluator.within 6).eval ⟨3, .ofText "" .empty, .listComp (name 0 "x") comp⟩ m
    let lazy (budget : Nat) :=
      (Evaluator.within budget).eval ⟨4, .ofText "" .empty, .callFunc "list"
      [⟨5, .ofText "" .empty, .genExpr (name 0 "x") comp⟩]⟩ m
    (name 0 "x").IsExpression ∧ comp.container.IsExpression ∧
      (∀ condition ∈ comp.condition, condition.IsExpression) ∧ m.IsClosed ∧
      (∃ n, eager = .ok (.list [.int 1, .int 2]) n) ∧
      ∃ budget, Outcome.Ended (lazy budget) ∧ ∃ ρ, SameFrom ρ m eager (lazy budget) := by
  intro name comp m eager lazy
  have hname (i : Nat) (s : String) : (name i s).IsExpression :=
    .intro rfl fun _ hchild => absurd hchild List.not_mem_nil
  have hcondition : ∀ condition ∈ comp.condition, condition.IsExpression := by
    rintro _ ⟨⟩
    exact hname 2 "x"
  have hm : m.IsClosed := by
    refine ⟨fun i cell hcell h hh => ?_, fun h hh => ?_⟩
    · -- the only iterator has numbers as items
      obtain ⟨hi, rfl⟩ := Array.getElem?_eq_some_iff.1 hcell
      obtain rfl : i = 0 := Nat.lt_one_iff.1 hi
      exact absurd hh List.not_mem_nil
    · obtain rfl : h = 0 := List.mem_singleton.1 hh
      exact Nat.one_pos
  have heager : ∃ n, eager = .ok (.list [.int 1, .int 2]) n := ⟨_, rfl⟩
  have hended : Outcome.Ended eager := by
    obtain ⟨n, hn⟩ := heager
    rw [hn]
    trivial
  obtain ⟨hends, hagree⟩ := list_of_generator_agrees (name 0 "x") comp (hname 0 "x") (hname 1 "s")
    hcondition (.ofText "" .empty) 3 4 5 m hm
  obtain ⟨budget, hlazy⟩ := hends.1 ⟨6, hended⟩
  exact ⟨hname 0 "x", hname 1 "s", hcondition, hm, heager, budget, hlazy,
    (hagree 6 budget hended hlazy).1⟩

end Templating
