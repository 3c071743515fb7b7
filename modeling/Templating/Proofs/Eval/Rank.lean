import Templating.Proofs.Tracked.Balance
import Templating.Proofs.Tracked.Store

/-!
# Code that keeps the books

* `Termination.logic`: code that keeps the books on the iterators, while the work that is owed stays
  within bounds.
* `Termination.Settles`: evaluations and advances end, given how much work is owed.
* `Termination.tracks_of_adds`, `Termination.renderNested_of_adds`: code of a rank runs code of
  lower ranks, and advances iterators that owe less.
* `Termination.evalNode`: **nodes end** if code of lower ranks does.
-/

namespace Templating

open Carries (handles)

open Eval

/-- The nodes that are evaluated along with a node are smaller. -/
theorem Node.sizeOf_lt_of_mem_parts {node part : Node} (h : part ∈ node.kind.parts) :
    sizeOf part < sizeOf node := by
  cases hkind : node.kind with
  | chain branches =>
    rw [hkind] at h
    -- a chain evaluates the parts of its branches, not the branches themselves
    obtain ⟨branch, hbranch, hpart⟩ := List.mem_flatMap.1 h
    have hlt : sizeOf branch < sizeOf node := by
      refine Node.sizeOf_lt_of_mem_children ?_
      rw [Node.children, hkind]
      exact hbranch
    have hle : sizeOf part ≤ sizeOf branch := by
      have hchildren (hmem : part ∈ branch.kind.children) : sizeOf part ≤ sizeOf branch :=
        (Node.sizeOf_lt_of_mem_children hmem).le
      unfold Node.branchParts at hpart
      cases hkind' : branch.kind with
      | ifBranch | elifBranch | elseBranch =>
        rw [hkind'] at hpart hchildren
        exact hchildren hpart
      | _ =>
        rw [hkind'] at hpart
        exact (congrArg sizeOf (List.mem_singleton.1 hpart)).le
    omega
  | template t =>
    rw [hkind] at h
    cases h
  | genExpr item comp =>
    rw [hkind] at h
    refine Node.sizeOf_lt_of_mem_children ?_
    rw [Node.children, hkind]
    simp only [NodeKind.parts, List.mem_singleton] at h
    simp [NodeKind.children, Comprehension.children, h]
  | forLoop target container block =>
    rw [hkind] at h
    refine Node.sizeOf_lt_of_mem_children ?_
    rw [Node.children, hkind]
    simp only [NodeKind.parts, List.mem_singleton] at h
    simp [NodeKind.children, h]
  | _ =>
    refine Node.sizeOf_lt_of_mem_children ?_
    rw [Node.children]
    rw [hkind] at h ⊢
    exact h

namespace Termination

/-- Code that keeps the books, while the work that is owed stays within bounds. -/
def logic (bounds : Work → Prop) (levels : Nat) : StoreLogic Ledger where
  known L h := h ∈ L.known
  known_mono hle hh := hle.known hh
  move := id
  move_injective := Function.injective_id
  permits _ := True
  permits_ordinary _ := trivial
  permits_locate _ _ := trivial
  holds L s := Balanced L s ∧ bounds L.owed
  follows := Ledger.Follows
  follows_refl := .refl
  follows_trans := .trans
  le_of_follows h := h.le
  level depth maxDepth := maxDepth - depth = levels
  allocate {L s cursor} hs hbuiltin hrefs := by
    obtain ⟨hbalanced, hbounds⟩ := hs
    have hcode : ∀ p ∈ (none : Option (Handle × Rank)), p.1 ∈ L.known := fun _ hp => nomatch hp
    obtain ⟨hbalanced', hfollows⟩ := hbalanced.push hbuiltin.isOwn hrefs hcode
      (by rintro g rfl; exact hbuiltin.elim)
    refine ⟨_, hfollows, ⟨hbalanced', ?_⟩, Finset.mem_insert_self _ _⟩
    rw [Ledger.owed_enter hbalanced.size_notMem]
    simpa [Ledger.work] using hbounds

section

variable {α : Type} {B B' : Work → Prop} {levels levels' : Nat} {inside : Ledger → Frame → Prop}
  {L : Ledger} {Q : Ledger → α → Prop} {x : Program α}

/-- The bounds hold at the beginning. -/
theorem of_bounds (hx : B L.owed → (logic B levels).Leads Halts inside L Q x) :
    (logic B levels).Leads Halts inside L Q x :=
  fun m hholds hinside => hx hholds.2 m hholds hinside

/-- Other bounds hold at the beginning, and those that are asked for hold where they do. -/
theorem of_bounded (hx : (logic B levels).Leads Halts inside L Q x) (hB : B L.owed)
    (hBB' : ∀ v, B v → B' v) : (logic B' levels').Leads Halts inside L Q x := by
  intro m hholds hinside
  refine Halts.runs.mono (hx m ⟨hholds.1, hB⟩ hinside) ?_
  rintro r ⟨L', h⟩
  refine ⟨L', h.follows, ⟨h.holds.1, hBB' _ h.holds.2⟩, h.inside, ?_⟩
  exact h.returns

end

/-- An item of an iterator has been taken: it pays for one run of the code of a generator expression
that takes its items from there. -/
def Paid (L : Ledger) (h : Handle) (L' : Ledger) : Prop :=
  L'.left h < L.left h ∧
    ∀ i ∈ L.known, ∀ r, L.code i = some (h, r) → (L'.owed + {r}).Reduces L.owed

/-- What an advance of an iterator ends with. -/
def Gives (L : Ledger) (h : Handle) (L' : Ledger) (item : Option Value) : Prop :=
  (∀ i ∈ handles item, i ∈ L'.known) ∧ ∀ v ∈ item, Paid L h L'

/-- **Evaluations and advances end**: the advance of an iterator of some height where some work is
owed, and the evaluation of a node that makes up that work with what is owed. -/
structure Settles (w : Work) (height : Nat) : Prop where
  advance : ∀ {L : Ledger} {h : Handle}, L.owed = w → L.height h = height → h ∈ L.known →
    ∀ frame levels, (logic (·.Reduces w) levels).Leads Halts (fun _ => (· = frame)) L (Gives L h)
      fun ev => ev.advance h
  eval : ∀ {L : Ledger} {levels : Nat} {node : Node}, L.owed + {node.rank levels} = w →
    (logic (Work.Adds (node.rank levels) L.owed) levels).Leads Halts
      (logic (Work.Adds (node.rank levels) L.owed) levels).Inside L
      (fun L v => ∀ i ∈ handles v, i ∈ L.known) fun ev => ev.eval node

/-! ## Code of a rank -/

section

variable {w w₀ : Work} {r : Rank} {levels : Nat} {L : Ledger} {h : Handle}
  (ih : ∀ w' height, w'.IsDershowitzMannaLT w → Settles w' height)
  (hr : (w₀ + {r}).Reduces w)

include ih hr

/-- An advance by code of a rank, which owes less than the code. -/
theorem advance_of_adds (levels : Nat) (hh : h ∈ L.known) (frame : Frame) :
    (logic (Work.Adds r w₀) levels).Leads Halts (fun _ => (· = frame)) L (Gives L h)
      fun ev => ev.advance h := by
  refine of_bounds fun hL => ?_
  have hsettles := ih L.owed (L.height h) (hr.lt_trans hL.lt)
  exact of_bounded (hsettles.advance rfl rfl hh frame levels) (.refl _) fun v hv =>
    hL.trans (.of_reduces r hv)

/-- The evaluation of a node of a lower rank. -/
theorem eval_of_adds {node : Node} (hlt : node.rank levels < r) (L : Ledger) :
    (logic (Work.Adds r w₀) levels).Leads Halts (logic (Work.Adds r w₀) levels).Inside L
      (fun L v => ∀ i ∈ handles v, i ∈ L.known) fun ev => ev.eval node := by
  refine of_bounds fun hL => ?_
  have hsettles := ih (L.owed + {node.rank levels}) 0 (hr.lt_trans (hL.add_rank_lt hlt))
  exact of_bounded (hsettles.eval rfl) (.refl ..) fun v hv => hL.trans (hv.mono hlt.le)

theorem tracks_of_adds (levels : Nat) : Tracks (logic (Work.Adds r w₀) levels).toKnowledge
    ((logic (Work.Adds r w₀) levels).Judges Halts (logic (Work.Adds r w₀) levels).Inside) := by
  refine StoreLogic.tracks Halts.runs (fun hh frame => ?_)
    fun {_ L R a h step} hmono hh ha hstep => ?_
  · exact (advance_of_adds ih hr levels hh frame).mono Halts.runs fun _ _ _ hgives => hgives.1
  · have hleft (L₁ : Ledger) (hL₁ : L ≤ L₁) (L₂ : Ledger) (hL₂ : L₁ ≤ L₂) : L₂.left h ≤ L₁.left h :=
      hL₂.left h (hL₁.known hh)
    refine StoreLogic.Leads.fold_halts hleft hmono ha (fun L' hL' => ?_) hstep
    have hadvance := StoreLogic.Leads.inside_of_frame_eq Halts.runs
      (advance_of_adds ih hr levels (hL'.known hh))
    refine hadvance.mono Halts.runs fun L'' _ item hgives v hv => ⟨fun i hi => ?_, ?_⟩
    · obtain rfl := Option.mem_def.1 hv
      exact hgives.1 i (by rwa [handles_some])
    · exact (hgives.2 v hv).1

theorem exec_of_adds (block : Block) (hlt : ∀ node ∈ block.content, node.rank levels < r)
    (L : Ledger) : (logic (Work.Adds r w₀) levels).Leads Halts
      (logic (Work.Adds r w₀) levels).Inside
      L (fun _ _ => True) fun ev => ev.exec block :=
  StoreLogic.Leads.exec Halts.runs (tracks_of_adds ih hr levels) fun node hnode L =>
    eval_of_adds ih hr (hlt node hnode) L

/-- A render call by code of a rank. One level deeper any code is of a lower rank. -/
theorem renderNested_of_adds (hlt : ∀ k < levels, ∀ node : Node, node.rank k < r) (t : Template)
    {vars : Scope} (hvars : ∀ i ∈ handles vars, i ∈ L.known) :
    (logic (Work.Adds r w₀) levels).Leads Halts (logic (Work.Adds r w₀) levels).Inside L
      (fun _ _ => True) fun ev => ev.renderNested t vars := by
  refine StoreLogic.Leads.renderNested Halts.runs (fun _ _ _ hw h => h.mono hw)
    (fun _ => trivial) ?_
  intro m hholds hinside hdepth
  have hlevels : m.frame.maxDepth - m.frame.depth = levels := hinside.2
  have hlower : m.frame.maxDepth - (m.frame.depth + 1) < levels := by omega
  have hbelow : (logic (Work.Adds r w₀) (m.frame.maxDepth - (m.frame.depth + 1))).Inside L
      (m.frame.below vars) :=
    ⟨List.forall_mem_append.2 ⟨hvars, fun _ h => nomatch h⟩, rfl⟩
  have hexec := exec_of_adds ih hr t.block (fun node _ => hlt _ hlower node) L
    { m with frame := m.frame.below vars, output := #[] } hholds hbelow
  refine Halts.runs.mono hexec ?_
  rintro _ ⟨L', h⟩
  exact ⟨L', h.follows, h.holds, fun _ _ _ => trivial⟩

end

/-- **A node ends** if code of lower ranks ends. A generator expression that it makes owes such
code. -/
theorem evalNode {w : Work} {levels : Nat} {L : Ledger} {node : Node}
    (ih : ∀ w' height, w'.IsDershowitzMannaLT w → Settles w' height)
    (hw : L.owed + {node.rank levels} = w) :
    (logic (Work.Adds (node.rank levels) L.owed) levels).Leads Halts
      (logic (Work.Adds (node.rank levels) L.owed) levels).Inside L
      (fun L v => ∀ i ∈ handles v, i ∈ L.known) fun ev => ev.evalNode node := by
  have hr : (L.owed + {node.rank levels}).Reduces w := .inl hw
  refine StoreLogic.Leads.evalNode Halts.runs (tracks_of_adds ih hr levels) ?_ ?_ ?_ ?_
    fun _ _ => trivial
  · exact fun part hpart L' =>
      eval_of_adds ih hr (Node.rank_lt_rank (Node.sizeOf_lt_of_mem_parts hpart)) L'
  · intro item comp hkind L' s source frame hsource hholds hframe
    obtain ⟨hbalanced, hadds⟩ := hholds
    set g : Generator := ⟨frame, source, comp.target, comp.condition, item⟩
    have hrefs : ∀ i ∈ handles (Cursor.generator g), i ∈ L'.known :=
      List.forall_mem_cons.2 ⟨hsource, hframe.1⟩
    have hcode : ∀ p ∈ some (g.source, g.rank), p.1 ∈ L'.known := by
      rintro _ ⟨⟩
      exact hsource
    have hown : (Cursor.generator g).IsOwn := trivial
    obtain ⟨hbalanced', hfollows⟩ := hbalanced.push hown hrefs hcode (by rintro _ ⟨⟩; rfl)
    refine ⟨_, hfollows, ⟨hbalanced', ?_⟩, Finset.mem_insert_self _ _⟩
    rw [Ledger.owed_enter hbalanced.size_notMem]
    -- the new generator expression owes its code for each item of its source
    refine hadds.add fun x hx => ?_
    obtain rfl := Multiset.eq_of_mem_replicate hx
    have hsize : 1 + sizeOf item + sizeOf comp.condition < sizeOf node := by
      obtain ⟨id, location, kind⟩ := node
      obtain rfl : kind = .genExpr item comp := hkind
      obtain ⟨target, container, condition⟩ := comp
      simp
      omega
    have hlevels : frame.maxDepth - frame.depth = levels := hframe.2
    simpa [Generator.rank, Node.rank, g, hlevels, Prod.Lex.toLex_lt_toLex] using hsize
  · exact fun L' t vars hvars => renderNested_of_adds ih hr
      (fun k hk part => Node.rank_lt_of_levels hk part node) t hvars
  · intro target container block hkind L'
    refine StoreLogic.Leads.round Halts.runs (exec_of_adds ih hr block (fun part hpart => ?_) L')
    refine Node.rank_lt_rank (Node.sizeOf_lt_of_mem_children ?_)
    rw [Node.children, hkind]
    exact List.mem_cons_of_mem _ hpart

end Termination

end Templating
