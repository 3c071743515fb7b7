import Mathlib.Data.Set.Card
import Templating.Syntax.Index

/-!
# The index of a template

The index is filled by a walk with a stack. The nodes it has to come to are those that are reached
from the block of the template through children. Shared nodes are come to more than once, and they
are entered once.

* `Template.Reaches`: the nodes below a template.
* `Worklist.Covers`: what every round keeps, `Worklist.Covers.round`.
* `Worklist.stack_iterate_eq_nil_iff`: **the walk ends**, and after how many rounds.
* `Template.node?_eq_some_iff`, `Template.encard_reaches`: **the index has exactly the nodes that
  are reached**.
-/

namespace Templating

/-- The nodes below a template. The nodes of a template that is defined in it are below, too. -/
inductive Template.Reaches (t : Template) : Node → Prop where
  | content {n : Node} (hn : n ∈ t.block.content) : t.Reaches n
  | child {n m : Node} (hn : t.Reaches n) (hm : m ∈ n.children) : t.Reaches m

/-- The identities tell the nodes of a template apart. A node may still occur in many places. -/
def Template.DistinctIds (t : Template) : Prop :=
  ∀ n m, t.Reaches n → t.Reaches m → n.id = m.id → n = m

/-! ## The nodes below a node -/

theorem Node.mem_subtree_self (n : Node) : n ∈ n.subtree := by
  rw [Node.subtree_eq]
  exact List.mem_cons_self

theorem Node.mem_subtree_of_mem_children {a m : Node} (n : Node) (ha : a ∈ n.subtree)
    (hm : m ∈ a.children) : m ∈ n.subtree := by
  induction n using Node.subtree.induct with
  | case1 n ih =>
    rw [Node.subtree_eq, List.mem_cons, List.mem_flatMap] at ha
    rw [Node.subtree_eq]
    refine List.mem_cons_of_mem _ (List.mem_flatMap.2 ?_)
    rcases ha with rfl | ⟨c, hc, ha⟩
    · exact ⟨m, hm, m.mem_subtree_self⟩
    · exact ⟨c, hc, ih c hc ha⟩

theorem Template.Reaches.of_mem_subtree {t : Template} {m : Node} (n : Node) (hn : t.Reaches n)
    (hm : m ∈ n.subtree) : t.Reaches m := by
  induction n using Node.subtree.induct with
  | case1 n ih =>
    rw [Node.subtree_eq, List.mem_cons, List.mem_flatMap] at hm
    rcases hm with rfl | ⟨c, hc, hm⟩
    · exact hn
    · exact ih c hc (hn.child hc) hm

theorem Template.mem_nodes_iff {t : Template} {n : Node} : n ∈ t.nodes ↔ t.Reaches n := by
  rw [Template.nodes, List.mem_flatMap]
  constructor
  · rintro ⟨c, hc, hn⟩
    exact Reaches.of_mem_subtree c (.content hc) hn
  · intro hn
    induction hn with
    | content hn => exact ⟨_, hn, Node.mem_subtree_self _⟩
    | child _ hm ih =>
      obtain ⟨c, hc, hn⟩ := ih
      exact ⟨c, hc, Node.mem_subtree_of_mem_children c hn hm⟩

/-! ## Rounds -/

namespace Worklist

variable {w : Worklist} {t : Template} {n : Node}

theorem pending_eq_nil_iff : w.pending = [] ↔ w.stack = [] := by
  obtain ⟨stack, index⟩ := w
  cases stack <;> simp [pending, Node.subtree_eq]

theorem length_pending_iterate (k : Nat) (w : Worklist) :
    (round^[k] w).pending.length = w.pending.length - k := by
  induction k generalizing w with
  | zero => rfl
  | succ k ih =>
    rw [Function.iterate_succ_apply, ih]
    by_cases hstack : w.stack = []
    · have hround : w.round = w := by
        unfold round
        rw [hstack]
      rw [hround, pending_eq_nil_iff.2 hstack]
      simp
    · have hlength := length_pending_round hstack
      omega

/-- **The walk ends**: it has as many rounds as there are nodes to come. -/
theorem stack_iterate_eq_nil_iff (k : Nat) :
    (round^[k] w).stack = [] ↔ w.pending.length ≤ k := by
  rw [← pending_eq_nil_iff, ← List.length_eq_zero_iff, length_pending_iterate]
  omega

theorem run_eq_iterate (w : Worklist) : w.run = round^[w.pending.length] w := by
  induction w using run.induct with
  | case1 w hstack =>
    rw [run, if_pos hstack, pending_eq_nil_iff.2 hstack]
    rfl
  | case2 w hstack ih =>
    rw [run, if_neg hstack, ih, ← Function.iterate_succ_apply, Nat.succ_eq_add_one,
      length_pending_round hstack]

theorem stack_run (w : Worklist) : w.run.stack = [] := by
  rw [run_eq_iterate, stack_iterate_eq_nil_iff]

theorem mem_enter_iff {m : Node} {index : List Node} :
    m ∈ enter n index ↔ m = n ∨ m ∈ index ∧ m.id ≠ n.id := by
  simp [enter]

/-- What holds before every round: nothing but nodes of the template is on the stack and in the
index, all of them are in the index or still to come, and the index has one node at most under each
identity. -/
structure Covers (w : Worklist) (t : Template) : Prop where
  stack : ∀ n ∈ w.stack, t.Reaches n
  index : ∀ n ∈ w.index, t.Reaches n
  complete : ∀ n, t.Reaches n → n ∈ w.pending ∨ n ∈ w.index
  nodup : (w.index.map Node.id).Nodup

theorem covers_worklist (t : Template) : t.worklist.Covers t where
  stack _ hn := .content hn
  index _ hn := nomatch hn
  complete _ hn := .inl (Template.mem_nodes_iff.2 hn)
  nodup := List.nodup_nil

/-- **A round keeps what holds.** A node that is replaced in the index is the one that replaces
it. -/
theorem Covers.round (h : w.Covers t) (hdistinct : t.DistinctIds) : w.round.Covers t := by
  obtain ⟨stack, index⟩ := w
  cases stack with
  | nil => exact h
  | cons n rest =>
    have hn : t.Reaches n := h.stack n List.mem_cons_self
    refine ⟨fun m hm => ?_, fun m hm => ?_, fun m hm => ?_, ?_⟩
    · rcases List.mem_append.1 hm with hm | hm
      · exact hn.child (List.mem_reverse.1 hm)
      · exact h.stack m (List.mem_cons_of_mem _ hm)
    · rcases mem_enter_iff.1 hm with rfl | ⟨hm, -⟩
      · exact hn
      · exact h.index m hm
    · by_cases hsame : m = n
      · exact .inr (mem_enter_iff.2 (.inl hsame))
      have hid : m.id ≠ n.id := fun hid => hsame (hdistinct m n hm hn hid)
      rcases h.complete m hm with hpending | hindex
      · refine .inl ?_
        simpa [pending, Worklist.round, Node.subtree_eq n, hsame] using hpending
      · exact .inr (mem_enter_iff.2 (.inr ⟨hindex, hid⟩))
    · have hrest : ((index.filter (·.id ≠ n.id)).map Node.id).Nodup :=
        h.nodup.sublist (List.filter_sublist.map _)
      refine List.nodup_cons.2 ⟨fun hmem => ?_, hrest⟩
      obtain ⟨m, hm, hid⟩ := List.mem_map.1 hmem
      simp [hid] at hm

theorem Covers.run (h : w.Covers t) (hdistinct : t.DistinctIds) : w.run.Covers t := by
  rw [run_eq_iterate]
  generalize w.pending.length = k
  induction k generalizing w with
  | zero => exact h
  | succ k ih => exact ih (h.round hdistinct)

end Worklist

/-! ## The index -/

namespace Template

variable {t : Template} {n : Node}

theorem covers_index (hdistinct : t.DistinctIds) : t.worklist.run.Covers t :=
  (Worklist.covers_worklist t).run hdistinct

theorem mem_index_iff (hdistinct : t.DistinctIds) : n ∈ t.index ↔ t.Reaches n := by
  have hcovers := covers_index hdistinct
  refine ⟨hcovers.index n, fun hn => (hcovers.complete n hn).resolve_left ?_⟩
  rw [Worklist.pending_eq_nil_iff.2 (Worklist.stack_run _)]
  exact List.not_mem_nil

/-- **A node is found under an identity exactly if it is reached and has that identity.** -/
theorem node?_eq_some_iff (hdistinct : t.DistinctIds) {id : Nat} :
    t.node? id = some n ↔ t.Reaches n ∧ n.id = id := by
  rw [node?]
  constructor
  · intro hfound
    have hid : n.id = id := by simpa using List.find?_some hfound
    exact ⟨(mem_index_iff hdistinct).1 (List.mem_of_find?_eq_some hfound), hid⟩
  · rintro ⟨hn, rfl⟩
    have hmem := (mem_index_iff hdistinct).2 hn
    cases hfound : t.index.find? (·.id = n.id) with
    | none => simpa using List.find?_eq_none.1 hfound n hmem
    | some m =>
      have hm := (mem_index_iff hdistinct).1 (List.mem_of_find?_eq_some hfound)
      have hid : m.id = n.id := by simpa using List.find?_some hfound
      rw [hdistinct m n hm hn hid]

/-- **As many nodes are counted as are reached.** -/
theorem encard_reaches (hdistinct : t.DistinctIds) :
    {n | t.Reaches n}.encard = t.nodeCount := by
  classical
  have hnodup : t.index.Nodup := List.Nodup.of_map _ (covers_index hdistinct).nodup
  have hset : {n | t.Reaches n} = (t.index.toFinset : Set Node) := by
    ext n
    simp [mem_index_iff hdistinct]
  rw [hset, Set.encard_coe_eq_coe_finsetCard, List.toFinset_card_of_nodup hnodup]
  rfl

end Template

end Templating
