import Templating.Proofs.Eval.Region

/-!
# Where loop signals go

The signals `break` and `continue` travel like errors until a loop consumes them.

* `Node.IsProper`, `Machine.IsProper`: code in which expressions are where they should be, and
  states whose iterators are made of such code.
* `Node.Signals`: a node contains a `break` or `continue` that no loop inside it consumes.
* `Evaluator.LoopRuns`: what a loop should do, item by item.
* `loops_consume_signals`: **no template gives a signal, no expression, and no loop**; a block gives
  those signals only that it contains; and a loop does what it should.
-/

namespace Templating

open Carries (handles)

open Eval

/-! ## Proper code -/

/-- The expressions of a statement. -/
def NodeKind.slots : NodeKind → List Node
  | .print value | .printX value | .render value | .storeVar _ value
  | .augAssign _ _ value => [value]
  | .forLoop _ container _ => [container]
  | .ifBranch condition _ | .elifBranch condition _ => [condition]
  | _ => []

/-- The statements inside a statement. The content of a template is run by render calls only. -/
def NodeKind.statements : NodeKind → List Node
  | .forLoop _ _ block | .chain block | .ifBranch _ block | .elifBranch _ block
  | .elseBranch block => block.content
  | _ => []

/-- The statements inside a statement whose signals it does not consume. -/
def NodeKind.passing : NodeKind → List Node
  | .forLoop .. => []
  | kind => kind.statements

/-- A node whose expression slots hold expressions only. -/
inductive Node.IsProper : Node → Prop where
  | expression {node : Node} : node.IsExpression → node.IsProper
  | statement {node : Node} : node.precedence? = none →
      (∀ slot ∈ node.kind.slots, slot.IsExpression) →
      (∀ child ∈ node.kind.statements, child.IsProper) → node.IsProper

/-- A node gives a signal, or a node inside it does that is in no loop inside it. -/
inductive Node.Signals (s : LoopSignal) : Node → Prop where
  | here {node : Node} : node.kind.signal? = some s → node.Signals s
  | inside {node child : Node} : child ∈ node.kind.passing → child.Signals s → node.Signals s

/-- All iterators that the variables refer to evaluate expressions only. -/
def Machine.IsProper (m : Machine) : Prop :=
  ∀ h, m.Reaches h → ∃ cell, m.store[h]? = some cell ∧ cell.cursor.IsProper

theorem Machine.IsProper.region {m : Machine} (h : m.IsProper) :
    Region {h | m.Reaches h} m.store := by
  intro i hi
  obtain ⟨cell, hcell, hproper⟩ := h i hi
  exact ⟨cell, hcell, hproper, fun j hj => hi.refers ⟨cell, hcell, hj⟩⟩

theorem Machine.inside_reaches (m : Machine) (S : LoopSignal → Prop) :
    (Region.logic S).Inside {h | m.Reaches h} m.frame :=
  ⟨fun _ hh => .of_mem hh, trivial⟩

/-- A machine whose variables contain no iterators. -/
theorem Machine.isProper_of_handles_eq_nil {m : Machine} (h : handles m.frame = []) :
    m.IsProper := by
  rintro i ⟨v, hv, -⟩
  rw [h] at hv
  cases hv

/-- An expression has neither slots nor statements of its own. -/
theorem NodeKind.slots_eq_nil {kind : NodeKind} (h : kind.precedence?.isSome) :
    kind.slots ++ kind.passing = [] := by
  cases kind <;> first | rfl | cases h

/-- What a statement evaluates is in its slots, in the statements inside it, or in its branches. -/
theorem NodeKind.mem_parts {kind : NodeKind} (h : kind.precedence? = none) {part : Node}
    (hpart : part ∈ kind.parts) :
    part ∈ kind.slots ++ kind.passing ∨ ∃ branch ∈ kind.passing, part ∈ branch.branchParts := by
  cases kind with
  | chain branches => exact .inr (List.mem_flatMap.1 hpart)
  | text | delVar | breakLoop | continueLoop | template => cases hpart
  | print | printX | render | storeVar | augAssign | forLoop | ifBranch | elifBranch | elseBranch =>
    exact .inl hpart
  | _ => cases h

theorem Node.IsExpression.not_signals {node : Node} (h : node.IsExpression) (s : LoopSignal) :
    ¬ node.Signals s := by
  obtain ⟨hkind, -⟩ := h
  have hkind : node.kind.precedence?.isSome := hkind
  rintro (hsignal | ⟨hchild, -⟩)
  · rw [NodeKind.signal?_eq_none hkind] at hsignal
    cases hsignal
  · rw [(List.append_eq_nil_iff.1 (NodeKind.slots_eq_nil hkind)).2] at hchild
    cases hchild

namespace Node.IsProper

variable {node part : Node}

/-- A slot of a proper node and a statement inside it are proper, and their signals pass. -/
theorem of_mem (h : node.IsProper) (hpart : part ∈ node.kind.slots ++ node.kind.passing) :
    part.IsProper ∧ ∀ s, part.Signals s → node.Signals s := by
  cases h with
  | expression h =>
    obtain ⟨hkind, -⟩ := h
    rw [NodeKind.slots_eq_nil hkind] at hpart
    cases hpart
  | statement _ hslots hstatements =>
    rcases List.mem_append.1 hpart with hpart | hpart
    · have hslot := hslots part hpart
      exact ⟨.expression hslot, fun s hs => absurd hs (hslot.not_signals s)⟩
    · refine ⟨hstatements part ?_, fun s hs => .inside hpart hs⟩
      cases hk : node.kind <;> rw [hk] at hpart <;> first | exact hpart | cases hpart

theorem branchParts (h : node.IsProper) (hpart : part ∈ node.branchParts) :
    part.IsProper ∧ ∀ s, part.Signals s → node.Signals s := by
  unfold Node.branchParts at hpart
  split at hpart
  · next hkind => exact h.of_mem (by rw [hkind]; exact hpart)
  · next hkind => exact h.of_mem (by rw [hkind]; exact hpart)
  · next hkind => exact h.of_mem (by rw [hkind]; exact hpart)
  · obtain rfl := List.mem_singleton.1 hpart
    exact ⟨h, fun _ hs => hs⟩

/-- All that is evaluated along with a proper node is proper, and its signals pass. -/
theorem parts (h : node.IsProper) (hpart : part ∈ node.kind.parts) :
    part.IsProper ∧ ∀ s, part.Signals s → node.Signals s := by
  cases h with
  | expression h =>
    obtain ⟨hkind, hchildren⟩ := h
    have hpart := hchildren part (NodeKind.parts_subset hkind hpart)
    exact ⟨.expression hpart, fun s hs => absurd hs (hpart.not_signals s)⟩
  | statement hkind hslots hstatements =>
    have h : node.IsProper := .statement hkind hslots hstatements
    rcases NodeKind.mem_parts hkind hpart with hpart | ⟨branch, hbranch, hpart⟩
    · exact h.of_mem hpart
    · obtain ⟨hproper, hsignals⟩ := h.of_mem (List.mem_append_right _ hbranch)
      obtain ⟨hpart, hpart'⟩ := hproper.branchParts hpart
      exact ⟨hpart, fun s hs => hsignals s (hpart' s hs)⟩

theorem of_genExpr (h : node.IsProper) {item : Node} {comp : Comprehension}
    (hkind : node.kind = .genExpr item comp) :
    item.IsExpression ∧ ∀ condition ∈ comp.condition, condition.IsExpression := by
  cases h with
  | expression h => exact h.of_genExpr hkind
  | statement hstatement =>
    rw [Node.precedence?, hkind] at hstatement
    cases hstatement

/-- The body of a loop is proper. -/
theorem of_forLoop (h : node.IsProper) {target : Target} {container : Node} {block : Block}
    (hkind : node.kind = .forLoop target container block) :
    ∀ child ∈ block.content, child.IsProper := by
  cases h with
  | expression h =>
    obtain ⟨hexpression, -⟩ := h
    rw [Node.precedence?, hkind] at hexpression
    cases hexpression
  | statement _ _ hstatements =>
    rw [hkind] at hstatements
    exact hstatements

end Node.IsProper

/-! ## Signals of nodes and templates -/

/-- **A proper node gives no signals but those it contains**, in a region that it knows. -/
theorem Region.evalProper (budget : Nat) {node : Node} (hnode : node.IsProper) (w : Set Handle) :
    (logic fun s => node.Signals s).Leads (EndsWithin budget budget)
      (logic fun s => node.Signals s).Inside w
      (fun w v => ∀ i ∈ handles v, i ∈ w) fun ev => ev.eval node := by
  have hT (budget : Nat) : Runs (EndsWithin budget budget) := Ends.runs _ _
  induction budget generalizing node w with
  | zero => exact fun _ _ _ hended => hended.elim
  | succ budget ih =>
    have heval {S : LoopSignal → Prop} {part : Node} (hpart : part.IsProper)
        (hS : ∀ s, part.Signals s → S s) (w : Set Handle) :
        (logic S).Leads (EndsWithin budget budget) (logic S).Inside w
          (fun w v => ∀ i ∈ handles v, i ∈ w) fun ev => ev.eval part :=
      weaken (hT _) hS (ih hpart w)
    refine (keeps budget.le_refl).evalNode w (fun part hpart w => ?_) ?_ ?_ fun s => .here
    · obtain ⟨hproper, hsignals⟩ := hnode.parts hpart
      exact heval hproper hsignals w
    · exact fun item comp hkind => hnode.of_genExpr hkind
    · intro target container block hkind
      -- the loop consumes whatever signals its body gives
      refine ⟨fun _ => True, fun w => ?_⟩
      exact StoreLogic.Leads.exec (hT _) ((keeps budget.le_refl).tracks _) fun child hchild w =>
        heval (hnode.of_forLoop hkind child hchild) (fun _ _ => trivial) w

/-- A block gives no signals but those of the statements in it. -/
theorem Region.execProper (budget : Nat) {block : Block}
    (hblock : ∀ node ∈ block.content, node.IsProper) (w : Set Handle) :
    (logic fun s => ∃ node ∈ block.content, node.Signals s).Leads (EndsWithin budget budget)
      (logic fun s => ∃ node ∈ block.content, node.Signals s).Inside w (fun _ _ => True)
      fun ev => ev.exec block := by
  have hT : Runs (EndsWithin budget budget) := Ends.runs _ _
  refine StoreLogic.Leads.exec hT ((keeps budget.le_refl).tracks _) fun node hnode w => ?_
  exact weaken hT (fun s hs => ⟨node, hnode, hs⟩) (evalProper budget (hblock node hnode) w)

/-- The error of a template is no signal. -/
theorem Eval.signal?_of_captured {x : Eval Unit} {m m' : Machine} {e : EvalError}
    (h : captured x m = .error (.failed e) m') : e.cause.signal? = none := by
  have hended : Outcome.Ended (captured x m) := by
    rw [h]
    trivial
  obtain ⟨r, hr⟩ := hended.of_captured.attempt
  rw [captured_ok hr] at h
  cases r with
  | ok _ => cases h
  | error e' =>
    cases h
    exact e'.signal?_settle

theorem Eval.signal?_of_deeper {α : Type} {vars : Scope} {x : Eval α} {m m' : Machine}
    {e : EvalError}
    (hx : ∀ m m' e, x m = .error (.failed e) m' → e.cause.signal? = none)
    (h : deeper vars x m = .error (.failed e) m') : e.cause.signal? = none := by
  by_cases hlimit : m.frame.maxDepth ≤ m.frame.depth
  · rw [deeper_refused hlimit] at h
    cases h
    rfl
  · have hended : Outcome.Ended (deeper vars x m) := by
      rw [h]
      trivial
    cases hrun : x { m with frame := m.frame.below vars, output := #[] } with
    | ok a m₁ =>
      rw [deeper_ok hlimit (attempt_ok hrun)] at h
      cases h
    | error e' m₁ =>
      cases e' with
      | failed e' =>
        rw [deeper_ok hlimit (attempt_failed hrun)] at h
        cases h
        exact hx _ _ _ hrun
      | exhausted =>
        have hinner := hended.of_deeper hlimit
        rw [hrun] at hinner
        exact hinner.elim

/-! ## Loops -/

/-- **What a loop should do** from a machine on, with the items that it takes from an iterator and
binds. The next item is taken after a round that ended, or after a signal to continue; no item is
taken after a signal to break or after an error. -/
inductive Evaluator.LoopRuns (ev : Evaluator) (target : Target) (block : Block) (h : Handle) :
    Machine → List Value → Outcome Unit → Prop where
  | ended {m m' : Machine} : ev.advance h m = .ok none m' →
      ev.LoopRuns target block h m [] (.ok () m')
  | refused {m m' : Machine} {e : EvalError} : ev.advance h m = .error (.failed e) m' →
      ev.LoopRuns target block h m [] (.error (.failed e) m')
  | unbound {m m₁ m' : Machine} {v : Value} {e : EvalError} : ev.advance h m = .ok (some v) m₁ →
      ev.assign target v m₁ = .error (.failed e) m' →
      ev.LoopRuns target block h m [v] (.error (.failed e) m')
  | next {m m₁ m₂ m₃ : Machine} {v : Value} {vs : List Value} {r : Outcome Unit} :
      ev.advance h m = .ok (some v) m₁ → ev.assign target v m₁ = .ok () m₂ →
      ev.exec block m₂ = .ok () m₃ → ev.LoopRuns target block h m₃ vs r →
      ev.LoopRuns target block h m (v :: vs) r
  | continued {m m₁ m₂ m₃ : Machine} {v : Value} {vs : List Value} {r : Outcome Unit}
      {e : EvalError} : ev.advance h m = .ok (some v) m₁ → ev.assign target v m₁ = .ok () m₂ →
      ev.exec block m₂ = .error (.failed e) m₃ → e.cause.signal? = some .continueLoop →
      ev.LoopRuns target block h m₃ vs r → ev.LoopRuns target block h m (v :: vs) r
  | broken {m m₁ m₂ m' : Machine} {v : Value} {e : EvalError} :
      ev.advance h m = .ok (some v) m₁ → ev.assign target v m₁ = .ok () m₂ →
      ev.exec block m₂ = .error (.failed e) m' → e.cause.signal? = some .breakLoop →
      ev.LoopRuns target block h m [v] (.ok () m')
  | failed {m m₁ m₂ m' : Machine} {v : Value} {e : EvalError} :
      ev.advance h m = .ok (some v) m₁ → ev.assign target v m₁ = .ok () m₂ →
      ev.exec block m₂ = .error (.failed e) m' → e.cause.signal? = none →
      ev.LoopRuns target block h m [v] (.error (.failed e) m')

namespace Evaluator

variable (ev : Evaluator) (target : Target) (block : Block)

/-- A round of a loop: an item is bound, and the body runs. -/
def round (item : Value) : Eval (Walk Unit) := do
  ev.assign target item
  afterRound (← attempt (ev.exec block))

variable {ev target block} {h : Handle} {m m₁ m₂ m₃ : Machine} {v : Value} {e : EvalError}

theorem round_unbound (hassign : ev.assign target v m₁ = .error (.failed e) m₂) :
    ev.round target block v m₁ = .error (.failed e) m₂ := bind_error hassign

theorem round_ok (hassign : ev.assign target v m₁ = .ok () m₂)
    (hexec : ev.exec block m₂ = .ok () m₃) : ev.round target block v m₁ = .ok (.on ()) m₃ := by
  unfold round
  rw [bind_ok hassign, bind_ok (attempt_ok hexec)]
  rfl

theorem round_failed (hassign : ev.assign target v m₁ = .ok () m₂)
    (hexec : ev.exec block m₂ = .error (.failed e) m₃) :
    ev.round target block v m₁ = match e.cause.signal? with
      | some .breakLoop => .ok (.done ()) m₃
      | some .continueLoop => .ok (.on ()) m₃
      | none => .error (.failed e) m₃ := by
  unfold round
  rw [bind_ok hassign, bind_ok (attempt_failed hexec)]
  unfold afterRound
  dsimp only
  split <;> simp only [*] <;> rfl

/-- A loop takes an item and then does what the round says. -/
theorem foldWithin_item (rounds : Nat) (hadvance : ev.advance h m = .ok (some v) m₁) :
    ev.foldWithin h (fun _ => ev.round target block) (rounds + 1) () m =
      match ev.round target block v m₁ with
      | .ok (.on ()) m' => ev.foldWithin h (fun _ => ev.round target block) rounds () m'
      | .ok (.done ()) m' => .ok () m'
      | .error e m' => .error e m' := by
  rw [foldWithin, bind_ok hadvance]
  dsimp only
  rw [bind_apply]
  cases ev.round target block v m₁ with
  | ok walk m' => cases walk <;> rfl
  | error e m' => rfl

/-- A loop does what it should, if its budget lasts. -/
theorem LoopRuns.foldWithin_eq {vs : List Value} {r : Outcome Unit}
    (hruns : ev.LoopRuns target block h m vs r) {rounds : Nat} (hrounds : vs.length < rounds) :
    ev.foldWithin h (fun _ => ev.round target block) rounds () m = r := by
  induction hruns generalizing rounds with
  | ended hadvance =>
    obtain ⟨rounds, rfl⟩ : ∃ n, rounds = n + 1 := ⟨rounds - 1, by omega⟩
    exact bind_ok hadvance
  | refused hadvance =>
    obtain ⟨rounds, rfl⟩ : ∃ n, rounds = n + 1 := ⟨rounds - 1, by omega⟩
    exact bind_error hadvance
  | unbound hadvance hassign =>
    obtain ⟨rounds, rfl⟩ : ∃ n, rounds = n + 1 := ⟨rounds - 1, by omega⟩
    rw [foldWithin_item rounds hadvance, round_unbound hassign]
  | next hadvance hassign hexec _ ih =>
    obtain ⟨rounds, rfl⟩ : ∃ n, rounds = n + 1 := ⟨rounds - 1, by omega⟩
    rw [foldWithin_item rounds hadvance, round_ok hassign hexec]
    exact ih (by simpa using hrounds)
  | continued hadvance hassign hexec hsignal _ ih =>
    obtain ⟨rounds, rfl⟩ : ∃ n, rounds = n + 1 := ⟨rounds - 1, by omega⟩
    rw [foldWithin_item rounds hadvance, round_failed hassign hexec, hsignal]
    exact ih (by simpa using hrounds)
  | broken hadvance hassign hexec hsignal | failed hadvance hassign hexec hsignal =>
    obtain ⟨rounds, rfl⟩ : ∃ n, rounds = n + 1 := ⟨rounds - 1, by omega⟩
    rw [foldWithin_item rounds hadvance, round_failed hassign hexec, hsignal]

/-- A round that ends has bound the item and run the body, or it has failed to bind the item. -/
theorem round_cases (hended : Outcome.Ended (ev.round target block v m₁)) :
    (∃ e m₂, ev.assign target v m₁ = .error (.failed e) m₂) ∨
      ∃ m₂, ev.assign target v m₁ = .ok () m₂ ∧
        ((∃ m₃, ev.exec block m₂ = .ok () m₃) ∨
          ∃ e m₃, ev.exec block m₂ = .error (.failed e) m₃) := by
  have hbind := hended.of_bind
  cases hassign : ev.assign target v m₁ with
  | error e m₂ =>
    rw [hassign] at hbind
    cases e with
    | failed e => exact .inl ⟨e, m₂, rfl⟩
    | exhausted => exact hbind.elim
  | ok _ m₂ =>
    refine .inr ⟨m₂, rfl, ?_⟩
    rw [round, bind_ok hassign] at hended
    have hexec := hended.of_bind.of_attempt
    cases hrun : ev.exec block m₂ with
    | ok _ m₃ => exact .inl ⟨m₃, rfl⟩
    | error e m₃ =>
      rw [hrun] at hexec
      cases e with
      | failed e => exact .inr ⟨e, m₃, rfl⟩
      | exhausted => exact hexec.elim

/-- A loop that ends has done what it should. -/
theorem loopRuns_foldWithin {rounds : Nat}
    (hended : Outcome.Ended (ev.foldWithin h (fun _ => ev.round target block) rounds () m)) :
    ∃ vs, ev.LoopRuns target block h m vs
      (ev.foldWithin h (fun _ => ev.round target block) rounds () m) := by
  -- on the rounds that are left; each case is what a round may end with
  induction rounds generalizing m with
  | zero => exact hended.elim
  | succ rounds ih =>
    have hadvanced := hended.of_bind
    cases hadvance : ev.advance h m with
    | error e m₁ =>
      rw [hadvance] at hadvanced
      cases e with
      | failed e => exact ⟨[], by rw [foldWithin, bind_error hadvance]; exact .refused hadvance⟩
      | exhausted => exact hadvanced.elim
    | ok item m₁ =>
      cases item with
      | none => exact ⟨[], by rw [foldWithin, bind_ok hadvance]; exact .ended hadvance⟩
      | some v =>
        rw [foldWithin_item rounds hadvance] at hended ⊢
        have hround : Outcome.Ended (ev.round target block v m₁) := by
          cases hr : ev.round target block v m₁ with
          | ok walk m' => trivial
          | error e m' =>
            rw [hr] at hended
            cases e with
            | failed e => trivial
            | exhausted => exact hended.elim
        rcases round_cases hround with ⟨e, m₂, hassign⟩ |
          ⟨m₂, hassign, ⟨m₃, hexec⟩ | ⟨e, m₃, hexec⟩⟩
        · rw [round_unbound hassign]
          exact ⟨[v], .unbound hadvance hassign⟩
        · rw [round_ok hassign hexec] at hended ⊢
          obtain ⟨vs, hruns⟩ := ih hended
          exact ⟨v :: vs, .next hadvance hassign hexec hruns⟩
        · rw [round_failed hassign hexec] at hended ⊢
          cases hsignal : e.cause.signal? with
          | none => exact ⟨[v], .failed hadvance hassign hexec hsignal⟩
          | some s =>
            rw [hsignal] at hended
            cases s with
            | breakLoop => exact ⟨[v], .broken hadvance hassign hexec hsignal⟩
            | continueLoop =>
              obtain ⟨vs, hruns⟩ := ih hended
              exact ⟨v :: vs, .continued hadvance hassign hexec hsignal hruns⟩

theorem runLoop_eq (container : Node) :
    ev.runLoop target container block = (ev.eval container >>= Value.iterate) >>= fun h =>
      ev.fold h () fun _ => ev.round target block := by
  funext m
  simp only [runLoop, bind_apply]
  cases ev.eval container m with
  | ok v m' => cases v.iterate m' <;> rfl
  | error e m' => rfl

/-- A step of an iterator over a list. -/
theorem advanceCell_items {items : List Value} (hcell : m.store[h]? = some ⟨.items items, false⟩) :
    ∃ m', ev.advanceCell h m = .ok items.head? m' ∧
      m'.store[h]? = some ⟨.items items.tail, false⟩ := by
  have hlt : h < m.store.size := (Array.getElem?_eq_some_iff.1 hcell).1
  have hstep : ev.step (.items items) = pure (.items items.tail, .ok items.head?) := by
    cases items <;> rfl
  let marked := m.store.setIfInBounds h ⟨.items items, true⟩
  refine ⟨{ m with store := marked.setIfInBounds h ⟨.items items.tail, false⟩ }, ?_, ?_⟩
  · rw [advanceCell_eq, bind_ok (x := get) (t := m) rfl, hcell, advanceAt, hstep]
    rfl
  · exact Array.getElem?_setIfInBounds_self_of_lt (by simpa [marked] using hlt)

/-- What an advance of an iterator over a list takes, and what it leaves. -/
theorem advance_items {budget : Nat} {items : List Value} {item : Option Value}
    (hcell : m.store[h]? = some ⟨.items items, false⟩)
    (hadvance : (within (budget + 1)).advance h m = .ok item m₁) :
    item = items.head? ∧ m₁.store[h]? = some ⟨.items items.tail, false⟩ := by
  obtain ⟨m', hstep, hleft⟩ := (within budget).advanceCell_items hcell
  cases hstep.symm.trans hadvance
  exact ⟨rfl, hleft⟩

/-- **Whoever shares the iterator over a list continues after the last item bound**, if the rounds
leave the iterator to the loop. -/
theorem LoopRuns.items_left {budget : Nat} {items vs : List Value} {r : Outcome Unit}
    (hruns : (within (budget + 1)).LoopRuns target block h m vs r)
    (hassign : ∀ v m,
      (Outcome.machine ((within (budget + 1)).assign target v m)).store[h]? = m.store[h]?)
    (hexec : ∀ m, (Outcome.machine ((within (budget + 1)).exec block m)).store[h]? = m.store[h]?)
    (hcell : m.store[h]? = some ⟨.items items, false⟩) :
    ∃ rest, items = vs ++ rest ∧ (Outcome.machine r).store[h]? = some ⟨.items rest, false⟩ := by
  -- the item that a round takes, and where the iterator stands after the round
  have htaken {m m₁ : Machine} {v : Value} {items : List Value}
      (hcell : m.store[h]? = some ⟨.items items, false⟩)
      (hadvance : (within (budget + 1)).advance h m = .ok (some v) m₁) :
      items = v :: items.tail ∧
        (Outcome.machine ((within (budget + 1)).assign target v m₁)).store[h]? =
          some ⟨.items items.tail, false⟩ := by
    obtain ⟨hhead, hleft⟩ := advance_items hcell hadvance
    exact ⟨(List.cons_head?_tail hhead.symm).symm, (hassign v m₁).trans hleft⟩
  have hbody {m₂ : Machine} {r : Outcome Unit} {cell : Option Cell}
      (hexeced : (within (budget + 1)).exec block m₂ = r) (hleft : m₂.store[h]? = cell) :
      (Outcome.machine r).store[h]? = cell := by
    rw [← hexeced, hexec, hleft]
  induction hruns generalizing items with
  | ended hadvance =>
    obtain ⟨hhead, hleft⟩ := advance_items hcell hadvance
    obtain rfl := List.head?_eq_none_iff.1 hhead.symm
    exact ⟨[], rfl, hleft⟩
  | refused hadvance =>
    obtain ⟨m', hstep, -⟩ := (within budget).advanceCell_items hcell
    cases hstep.symm.trans hadvance
  | unbound hadvance hassigned =>
    obtain ⟨hitems, hleft⟩ := htaken hcell hadvance
    rw [hassigned] at hleft
    exact ⟨items.tail, hitems, hleft⟩
  | next hadvance hassigned hexeced _ ih | continued hadvance hassigned hexeced _ _ ih =>
    obtain ⟨hitems, hleft⟩ := htaken hcell hadvance
    rw [hassigned] at hleft
    obtain ⟨rest, hrest, hcell'⟩ := ih (hbody hexeced hleft)
    exact ⟨rest, by rw [hitems, hrest]; rfl, hcell'⟩
  | broken hadvance hassigned hexeced | failed hadvance hassigned hexeced =>
    obtain ⟨hitems, hleft⟩ := htaken hcell hadvance
    rw [hassigned] at hleft
    have hafter := hbody hexeced hleft
    exact ⟨items.tail, hitems, hafter⟩

end Evaluator

/-- **Loop signals are consumed by the nearest loop and leave no template.**

* A render of a template, a nested one too, gives no signal.
* An expression gives none, if the iterators that the variables refer to are made of expressions.
* A loop gives none, and a block gives none but those of the `break` and `continue` nodes in it that
  are in no loop in it.
* A loop does what it should (`Evaluator.LoopRuns`) and takes one item after another from the
  iterator over its container: if it ends, it has run like that, and a run like that is what the
  loop does if its budget lasts.
* Whoever shares the iterator over a list continues right after the last item bound, if the rounds
  leave the iterator to the loop. -/
theorem loops_consume_signals (budget : Nat) (m : Machine) :
    (∀ (t : Template) (vars : Scope) (e : EvalError) (m' : Machine),
      (Evaluator.within budget).render t m = .error (.failed e) m' ∨
        (Evaluator.within budget).renderNested t vars m = .error (.failed e) m' →
      e.cause.signal? = none) ∧
    (∀ (node : Node) (e : EvalError) (m' : Machine), node.IsExpression → m.IsProper →
      (Evaluator.within budget).eval node m = .error (.failed e) m' → e.cause.signal? = none) ∧
    (∀ (id : Nat) (location : Location) (target : Target) (container : Node) (block : Block)
      (e : EvalError) (m' : Machine),
      let node : Node := ⟨id, location, .forLoop target container block⟩
      node.IsProper → m.IsProper →
      (Evaluator.within budget).eval node m = .error (.failed e) m' → e.cause.signal? = none) ∧
    (∀ (block : Block) (e : EvalError) (m' : Machine) (s : LoopSignal),
      (∀ node ∈ block.content, node.IsProper) → m.IsProper →
      (Evaluator.within budget).exec block m = .error (.failed e) m' → e.cause.signal? = some s →
      ∃ node ∈ block.content, node.Signals s) ∧
    (∀ (target : Target) (container : Node) (block : Block) (h : Handle) (m₁ : Machine),
      ((Evaluator.within budget).eval container >>= Value.iterate) m = .ok h m₁ →
      (Outcome.Ended ((Evaluator.within budget).runLoop target container block m) →
        ∃ vs, (Evaluator.within budget).LoopRuns target block h m₁ vs
          ((Evaluator.within budget).runLoop target container block m)) ∧
      (∀ vs r, (Evaluator.within budget).LoopRuns target block h m₁ vs r → vs.length < budget →
        (Evaluator.within budget).runLoop target container block m = r)) ∧
    (∀ (target : Target) (block : Block) (h : Handle) (items vs : List Value) (r : Outcome Unit),
      (Evaluator.within (budget + 1)).LoopRuns target block h m vs r →
      m.store[h]? = some ⟨.items items, false⟩ →
      (∀ v m, (Outcome.machine ((Evaluator.within (budget + 1)).assign target v m)).store[h]? =
        m.store[h]?) →
      (∀ m, (Outcome.machine ((Evaluator.within (budget + 1)).exec block m)).store[h]? =
        m.store[h]?) →
      ∃ rest, items = vs ++ rest ∧ (Outcome.machine r).store[h]? = some ⟨.items rest, false⟩) := by
  refine ⟨?_, ?_, ?_, ?_, ?_, ?_⟩
  · rintro t vars e m' (h | h)
    · exact Eval.signal?_of_captured (x := (Evaluator.within budget).exec t.block) h
    · exact Eval.signal?_of_deeper (fun _ _ _ => Eval.signal?_of_captured)
        (x := captured ((Evaluator.within budget).exec t.block)) h
  · intro node e m' hnode hm hrun
    have hpermits := ((Region.keeps budget.le_refl).eval {h | m.Reaches h} hnode).permits hm.region
      (m.inside_reaches _) hrun
    exact Option.eq_none_iff_forall_ne_some.2 fun s hs => hpermits s hs
  · intro id location target container block e m' node hnode hm hrun
    have hpermits := (Region.evalProper budget hnode {h | m.Reaches h}).permits hm.region
      (m.inside_reaches _) hrun
    refine Option.eq_none_iff_forall_ne_some.2 fun s hs => ?_
    -- the node of the loop gives no signal itself, and it passes none on
    rcases hpermits s hs with h | ⟨h, -⟩ <;> cases h
  · intro block e m' s hblock hm hrun hs
    exact (Region.execProper budget hblock {h | m.Reaches h}).permits hm.region
      (m.inside_reaches _) hrun s hs
  · intro target container block h m₁ hiterate
    rw [Evaluator.runLoop_eq, bind_ok hiterate]
    exact ⟨Evaluator.loopRuns_foldWithin, fun vs r hruns hlt => hruns.foldWithin_eq hlt⟩
  · exact fun target block h items vs r hruns hcell hassign hexec =>
      hruns.items_left hassign hexec hcell

/-- The template `{% for x in [7, 8] %}{% break %}{% end for %}`, its loop, its body, and a variable
without a value, from a machine with an iterator over two numbers. -/
theorem loops_consume_signals_break :
    let spot : Location := .ofText "" .empty
    let number (id : Nat) (n : Int64) : Node := ⟨id, spot, .const (.int n)⟩
    let body : Block := ⟨none, [⟨0, spot, .breakLoop⟩]⟩
    let container : Node := ⟨1, spot, .list [number 2 7, number 3 8]⟩
    let unbound : Node := ⟨4, spot, .var "y"⟩
    let failing : Block := ⟨none, [⟨5, spot, .print unbound⟩]⟩
    let t : Template := ⟨0, none, "", none, "", "", body⟩
    let m : Machine := { Machine.start 9 0 .first (.ofVars [] 2) with
      store := #[⟨.items [.int 7, .int 8], false⟩] }
    let ev := Evaluator.within 6
    (∃ e m', ev.render t m = .error (.failed e) m' ∧ e.cause.signal? = none) ∧
    (∃ e m', ev.eval unbound m = .error (.failed e) m' ∧ e.cause.signal? = none) ∧
    (∃ e m', ev.eval ⟨6, spot, .forLoop (.name "x") container failing⟩ m = .error (.failed e) m' ∧
      e.cause.signal? = none) ∧
    (∃ e m', ev.exec body m = .error (.failed e) m' ∧ e.cause.signal? = some .breakLoop ∧
      ∃ node ∈ body.content, node.Signals .breakLoop) ∧
    (∃ m₁ m₂, (ev.eval container >>= Value.iterate) m = .ok 1 m₁ ∧
      ev.LoopRuns (.name "x") body 1 m₁ [.int 7] (.ok () m₂) ∧
      ev.runLoop (.name "x") container body m = .ok () m₂ ∧
      ∃ vs, ev.LoopRuns (.name "x") body 1 m₁ vs (.ok () m₂)) ∧
    (∃ m₁, (Evaluator.within 7).LoopRuns (.name "x") body 0 m [.int 7] (.ok () m₁) ∧
      ∃ rest, [.int 7, .int 8] = [.int 7] ++ rest ∧
        m₁.store[0]? = some ⟨.items rest, false⟩) := by
  intro spot number body container unbound failing t m ev
  have hleaf {id : Nat} {kind : NodeKind} (hkind : kind.precedence?.isSome)
      (hchildren : kind.children = []) : Node.IsExpression ⟨id, spot, kind⟩ :=
    .intro hkind fun child hchild => by
      rw [Node.children, hchildren] at hchild
      cases hchild
  have hm : m.IsProper := Machine.isProper_of_handles_eq_nil rfl
  have hunbound : unbound.IsExpression := hleaf rfl rfl
  have hbody : ∀ node ∈ body.content, node.IsProper := by
    intro node hnode
    obtain rfl := List.mem_singleton.1 hnode
    exact .statement rfl (by simp [NodeKind.slots]) (by simp [NodeKind.statements])
  have hloop : Node.IsProper ⟨6, spot, .forLoop (.name "x") container failing⟩ := by
    refine .statement rfl ?_ ?_
    · intro slot hslot
      obtain rfl := List.mem_singleton.1 hslot
      refine .intro rfl fun child hchild => ?_
      rcases List.mem_cons.1 hchild with rfl | hchild
      · exact hleaf rfl rfl
      · obtain rfl := List.mem_singleton.1 hchild
        exact hleaf rfl rfl
    · intro child hchild
      obtain rfl := List.mem_singleton.1 hchild
      refine .statement rfl ?_ (by simp [NodeKind.statements])
      intro slot hslot
      obtain rfl := List.mem_singleton.1 hslot
      exact hunbound
  obtain ⟨htemplate, hexpression, hfor, hblock, hreference, hshared⟩ := loops_consume_signals 6 m
  have hbroken (ev : Evaluator) {m m₁ m₂ m₃ : Machine} {h : Handle} {v : Value}
      (hadvance : ev.advance h m = .ok (some v) m₁)
      (hassign : ev.assign (.name "x") v m₁ = .ok () m₂)
      (hexec : ev.exec body m₂ = .error (.failed ⟨.signal .breakLoop, some spot⟩) m₃) :
      ev.LoopRuns (.name "x") body h m [v] (.ok () m₃) :=
    .broken hadvance hassign hexec rfl
  refine ⟨⟨_, _, rfl, htemplate t [] _ _ (.inl rfl)⟩,
    ⟨_, _, rfl, hexpression unbound _ _ hunbound hm rfl⟩,
    ⟨_, _, rfl, hfor 6 spot (.name "x") container failing _ _ hloop hm rfl⟩,
    ⟨_, _, rfl, rfl, hblock body _ _ .breakLoop hbody hm rfl rfl⟩, ?_, ?_⟩
  · let m₁ : Machine := { m with store := m.store.push ⟨.items [.int 7, .int 8], false⟩ }
    have hiterate : (ev.eval container >>= Value.iterate) m = .ok 1 m₁ := rfl
    obtain ⟨hended, hlasts⟩ := hreference (.name "x") container body 1 m₁ hiterate
    have hrun := hbroken ev (m := m₁) (h := 1) rfl rfl rfl
    exact ⟨m₁, _, hiterate, hrun, hlasts _ _ hrun (by decide), hended trivial⟩
  · have hrun := hbroken (.within 7) (m := m) (h := 0) rfl rfl rfl
    exact ⟨_, hrun, hshared (.name "x") body 0 _ _ _ hrun rfl (fun _ _ => rfl) fun _ => rfl⟩
end Templating
