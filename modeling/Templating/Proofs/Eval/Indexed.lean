import Templating.Proofs.Confined.Node
import Templating.Proofs.Syntax.Index

/-!
# Evaluated nodes are in the index

The index finds the children of a node in one way, and the evaluator comes to them in many: a chain
evaluates conditions without the branches they belong to, and a generator evaluates its item when it
is advanced. What is evaluated while a template is rendered is in the index of the template, unless
it came with a value or an iterator from outside.

* `Machine.Supplies`: the nodes that come from outside.
* `Template.index_sound_complete`: **the index has exactly the nodes of the template, and among them
  all nodes of it that are evaluated.**
-/

namespace Templating

open Evaluator (EveryEvaluation)

/-- A node comes from outside: it is below a template that a variable or an iterator holds, it is
below the item or the condition of a generator, or below a template that is read from a text. -/
inductive Machine.Supplies (m : Machine) : Node → Prop where
  | bound {v : Value} {t : Template} {n : Node} (hv : v ∈ m.frame.env.values)
      (ht : v.Mentions t) (hn : t.Reaches n) : m.Supplies n
  | item {cell : Cell} {v : Value} {t : Template} {n : Node} (hcell : cell ∈ m.store)
      (hv : v ∈ cell.cursor.values) (ht : v.Mentions t) (hn : t.Reaches n) : m.Supplies n
  | generator {cell : Cell} {c n : Node} (hcell : cell ∈ m.store) (hc : c ∈ cell.cursor.nodes)
      (hn : n ∈ c.subtree) : m.Supplies n
  | loaded {text : String} {fresh fresh' : Nat} {v : Value} {t : Template} {n : Node}
      (hfresh : m.fresh ≤ fresh) (hload : Wire.loads? text fresh = .ok (v, fresh'))
      (ht : v.Mentions t) (hn : t.Reaches n) : m.Supplies n

variable {t : Template} {m : Machine}

theorem Machine.Supplies.child {n k : Node} (h : m.Supplies n) (hk : k ∈ n.children) :
    m.Supplies k := by
  cases h with
  | bound hv ht hn => exact .bound hv ht (hn.child hk)
  | item hcell hv ht hn => exact .item hcell hv ht (hn.child hk)
  | generator hcell hc hn => exact .generator hcell hc (Node.mem_subtree_of_mem_children _ hn hk)
  | loaded hfresh hload ht hn => exact .loaded hfresh hload ht (hn.child hk)

namespace Template

/-- The nodes of a template, and those that come from outside. -/
def CodeWith (t : Template) (m : Machine) : Code := fun n => t.Reaches n ∨ m.Supplies n

theorem closed_codeWith (t : Template) (m : Machine) : (t.CodeWith m).Closed m.fresh where
  children n k hn hk := by
    rcases hn with hn | hn
    · exact .inl (hn.child hk)
    · exact .inr (hn.child hk)
  loaded text fresh fresh' v hfresh hload t' ht' n hn :=
    .inr (.loaded hfresh hload ht' (.content hn))

theorem within_codeWith (t : Template) (m : Machine) : m.Within (t.CodeWith m) m.fresh where
  env v hv t' ht' n hn := .inr (.bound hv ht' (.content hn))
  store cell hcell := by
    refine ⟨fun v hv t' ht' n hn => ?_, fun n hn => ?_⟩
    · exact .inr (.item hcell hv ht' (.content hn))
    · exact .inr (.generator hcell hn n.mem_subtree_self)
  fresh := Nat.le_refl _

/-- **Every node that is evaluated is one of the template or comes from outside**, within any
budget. -/
theorem everyEvaluation_reaches (t : Template) (budget : Nat) (m : Machine) :
    EveryEvaluation (fun _ node _ => t.Reaches node ∨ m.Supplies node) budget
      (fun ev => ev.render t) m := by
  have hconfined := Evaluator.Confined.watched (t.closed_codeWith m) budget
  have hrender := hconfined.render (t := t) fun n hn => .inl (.content hn)
  exact (hrender m (t.within_codeWith m)).1

/-- **The index is sound and complete.** A node is found under an identity exactly if it is reached
from the block of the template and has that identity. As many nodes are counted as are reached. The
walk that fills the index is over after as many rounds as nodes are come to. Every node that is
evaluated while the template is rendered is found under its identity, unless it comes from
outside. -/
theorem index_sound_complete (hdistinct : t.DistinctIds) :
    (∀ id n, t.node? id = some n ↔ t.Reaches n ∧ n.id = id) ∧
    {n | t.Reaches n}.encard = t.nodeCount ∧
    (∀ k, (Worklist.round^[k] t.worklist).stack = [] ↔ t.nodes.length ≤ k) ∧
    t.index = (Worklist.round^[t.nodes.length] t.worklist).index ∧
    ∀ budget m, EveryEvaluation
      (fun _ node _ => t.node? node.id = some node ∨ m.Supplies node) budget
      (fun ev => ev.render t) m := by
  have hfound (n : Node) : t.node? n.id = some n ↔ t.Reaches n := by
    simp [node?_eq_some_iff hdistinct]
  refine ⟨fun id n => node?_eq_some_iff hdistinct, encard_reaches hdistinct,
    Worklist.stack_iterate_eq_nil_iff, congrArg _ (Worklist.run_eq_iterate _), ?_⟩
  simp only [hfound]
  exact t.everyEvaluation_reaches

/-- A node is shared between the condition of a chain and a template that is defined inside the
other one. -/
theorem index_sound_complete_shared :
    let spot : Location := ⟨"", none, ⟨0, 0⟩, ⟨0, 0⟩⟩
    let shared : Node := ⟨1, spot, .var "x"⟩
    let printed : Node := ⟨2, spot, .print shared⟩
    let inner : Template := ⟨3, none, "", some "inner", "<?", "?>", ⟨none, [printed]⟩⟩
    let definition : Node := ⟨4, spot, .template inner⟩
    let callee : Node := ⟨5, spot, .var "inner"⟩
    let call : Node := ⟨6, spot, .callMeth "render" callee []⟩
    let branch : Node := ⟨7, spot, .ifBranch shared ⟨none, [call]⟩⟩
    let chain : Node := ⟨8, spot, .chain ⟨none, [branch]⟩⟩
    let t : Template := ⟨0, none, "", none, "<?", "?>", ⟨none, [definition, chain]⟩⟩
    t.DistinctIds ∧ t.node? 1 = some shared ∧ t.node? 3 = none ∧
      (Worklist.round^[8] t.worklist).stack = [] ∧
      ∀ budget m, EveryEvaluation
        (fun _ node _ => t.node? node.id = some node ∨ m.Supplies node) budget
        (fun ev => ev.render t) m := by
  intro spot shared printed inner definition callee call branch chain t
  have hnodes : t.nodes =
      [definition, printed, shared, chain, branch, shared, call, callee] := by
    simp [nodes, t, definition, inner, printed, shared, chain, branch, call, callee,
      Node.subtree_eq, Node.children, NodeKind.children]
  have hreaches (n : Node) (hn : t.Reaches n) : n = definition ∨ n = printed ∨ n = shared ∨
      n = chain ∨ n = branch ∨ n = shared ∨ n = call ∨ n = callee := by
    rw [← mem_nodes_iff, hnodes] at hn
    simpa using hn
  have hdistinct : t.DistinctIds := by
    intro n k hn hk hid
    rcases hreaches n hn with rfl | rfl | rfl | rfl | rfl | rfl | rfl | rfl <;>
      rcases hreaches k hk with rfl | rfl | rfl | rfl | rfl | rfl | rfl | rfl <;>
      first | rfl | cases hid
  obtain ⟨hfound, -, hrounds, -, hevaluated⟩ := index_sound_complete hdistinct
  have hshared : t.Reaches shared := mem_nodes_iff.1 (by simp [hnodes])
  have hnone : t.node? 3 = none := by
    refine Option.eq_none_iff_forall_ne_some.2 fun n hn => ?_
    obtain ⟨hn, hid⟩ := (hfound 3 n).1 hn
    rcases hreaches n hn with rfl | rfl | rfl | rfl | rfl | rfl | rfl | rfl <;> cases hid
  have hlength : t.nodes.length ≤ 8 := by rw [hnodes]; rfl
  exact ⟨hdistinct, (hfound 1 shared).2 ⟨hshared, rfl⟩, hnone, (hrounds 8).2 hlength, hevaluated⟩

end Template

end Templating
