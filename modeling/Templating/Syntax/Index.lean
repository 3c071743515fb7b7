import Templating.Syntax.Node

/-!
# The nodes of a template

* `Node.subtree`: a node and everything below it, each node before its children.
* `Template.nodes`: the nodes below a template, those of nested templates included.
* `Worklist.run`: the walk that enters them into an index.
* `Template.node?`, `Template.nodeCount`: nodes by identity, and how many different ones there are.

`sizeOf_lt_of_mem_children` says that children are smaller than their parent, and
`length_pending_round` that a round leaves one node less to come, so the walk ends.
-/

namespace Templating

theorem DictEntry.sizeOf_lt_of_mem_children {e : DictEntry} {n : Node} (h : n ∈ e.children) :
    sizeOf n < sizeOf e := by
  cases e <;> simp only [DictEntry.children, List.mem_cons, List.not_mem_nil, or_false] at h
  · rcases h with rfl | rfl <;> simp +arith
  · subst h; simp +arith

theorem KeywordArg.sizeOf_value_lt (a : KeywordArg) : sizeOf a.value < sizeOf a := by
  cases a <;> simp +arith [KeywordArg.value]

theorem Comprehension.sizeOf_lt_of_mem_children {c : Comprehension} {n : Node}
    (h : n ∈ c.children) : sizeOf n < sizeOf c := by
  obtain ⟨target, container, condition⟩ := c
  cases condition <;>
    simp only [Comprehension.children, Option.toList, List.mem_cons, List.not_mem_nil,
      or_false] at h
  · subst h; simp +arith
  · rcases h with rfl | rfl <;> simp +arith

theorem Block.sizeOf_lt_of_mem_content {b : Block} {n : Node} (h : n ∈ b.content) :
    sizeOf n < sizeOf b := by
  have := List.sizeOf_lt_of_mem h
  obtain ⟨stop, content⟩ := b
  simp only [Block.mk.sizeOf_spec]
  simp only at this
  omega

theorem NodeKind.sizeOf_lt_of_mem_children {k : NodeKind} {n : Node} (h : n ∈ k.children) :
    sizeOf n < sizeOf k := by
  cases k <;> simp only [NodeKind.children, List.not_mem_nil, List.mem_cons, List.mem_append,
    List.mem_flatMap, List.mem_map, Option.mem_toList, or_false] at h
  case list | callFunc =>
    have := List.sizeOf_lt_of_mem h
    simp +arith; omega
  case listComp | genExpr =>
    rcases h with h | rfl
    · have := Comprehension.sizeOf_lt_of_mem_children h
      simp +arith; omega
    · simp +arith
  case dict =>
    obtain ⟨e, he, h⟩ := h
    have := List.sizeOf_lt_of_mem he
    have := DictEntry.sizeOf_lt_of_mem_children h
    simp +arith; omega
  case dictComp =>
    rcases h with h | rfl | rfl
    · have := Comprehension.sizeOf_lt_of_mem_children h
      simp +arith; omega
    · simp +arith
    · simp +arith
  case binary => rcases h with rfl | rfl <;> simp +arith
  case getSlice =>
    rcases h with rfl | rfl | rfl <;> simp +arith
  case callMeth =>
    rcases h with rfl | h
    · simp +arith
    · have := List.sizeOf_lt_of_mem h
      simp +arith; omega
  case callMethKeywords =>
    rcases h with rfl | ⟨a, ha, rfl⟩
    · simp +arith
    · have := List.sizeOf_lt_of_mem ha
      have := a.sizeOf_value_lt
      simp +arith; omega
  case forLoop | ifBranch | elifBranch =>
    rcases h with rfl | h
    · simp +arith
    · have := Block.sizeOf_lt_of_mem_content h
      simp +arith; omega
  case chain | elseBranch =>
    have := Block.sizeOf_lt_of_mem_content h
    simp +arith; omega
  case template t =>
    have := Block.sizeOf_lt_of_mem_content h
    obtain ⟨⟩ := t
    simp +arith at this ⊢; omega
  all_goals subst h; simp +arith

theorem Node.sizeOf_lt_of_mem_children {m n : Node} (h : m ∈ n.children) :
    sizeOf m < sizeOf n := by
  have := NodeKind.sizeOf_lt_of_mem_children h
  obtain ⟨id, location, kind⟩ := n
  simp +arith at this ⊢; omega

/-- A node and everything below it, each node before its children. -/
def Node.subtree (n : Node) : List Node :=
  n :: n.children.attach.flatMap fun ⟨m, _⟩ => m.subtree
termination_by sizeOf n
decreasing_by exact Node.sizeOf_lt_of_mem_children ‹_›

theorem Node.subtree_eq (n : Node) : n.subtree = n :: n.children.flatMap Node.subtree := by
  rw [Node.subtree]
  simp only [List.flatMap_subtype, List.unattach_attach]

/-! ## The index -/

/-- A walk over nodes: those left to visit, the next one first, and those visited, each under its
identity. -/
structure Worklist where
  stack : List Node
  index : List Node

namespace Worklist

/-- Enters a node under its identity, in the place of the one that was there. -/
def enter (n : Node) (index : List Node) : List Node := n :: index.filter (·.id ≠ n.id)

/-- Visits the next node. Its children are put on the stack one after another, so that the last one
comes next. -/
def round (w : Worklist) : Worklist :=
  match w.stack with
  | [] => w
  | n :: rest => ⟨n.children.reverse ++ rest, enter n w.index⟩

/-- The nodes still to come. -/
def pending (w : Worklist) : List Node := w.stack.flatMap Node.subtree

theorem length_pending_round {w : Worklist} (h : w.stack ≠ []) :
    w.round.pending.length + 1 = w.pending.length := by
  obtain ⟨stack, index⟩ := w
  cases stack with
  | nil => exact absurd rfl h
  | cons n rest => simp [pending, round, Node.subtree_eq n, List.length_flatMap]

/-- Visits nodes until none is left. -/
def run (w : Worklist) : Worklist := if w.stack = [] then w else w.round.run
termination_by w.pending.length
decreasing_by
  have := length_pending_round ‹_›
  omega

end Worklist

namespace Template

/-- The nodes below a template. -/
def nodes (t : Template) : List Node := t.block.content.flatMap Node.subtree

/-- The walk over a template before its first round. -/
def worklist (t : Template) : Worklist := ⟨t.block.content, []⟩

/-- The different nodes below a template. -/
def index (t : Template) : List Node := t.worklist.run.index

/-- The node of a template with an identity. -/
def node? (t : Template) (id : Nat) : Option Node := t.index.find? (·.id = id)

/-- The number of different nodes below a template. -/
def nodeCount (t : Template) : Nat := t.index.length

end Template

end Templating
