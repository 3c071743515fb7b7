import Mathlib.Algebra.BigOperators.Group.Finset.Basic
import Mathlib.Algebra.Order.BigOperators.Group.Finset
import Mathlib.Data.Multiset.DershowitzManna
import Mathlib.Data.Prod.Lex
import Templating.Proofs.Tracked.Cursor

/-!
# What iterators may still do

An iterator has finitely many items left, but an item of a generator expression is made by code, and
the code may make further generator expressions. Here are books on that: how many items each
iterator has left at most, and the work that the generator expressions owe, which is their code once
for each item that they may take. Code makes generator expressions with smaller code only, or such
for which fewer render calls can be nested, so the work gets less in the order of multisets.

* `Rank`, `Work`: pieces of code in the order in which they may make one another, and many of them.
* `Work.Reduces`, `Work.Adds`: **some of the work is done**, and code of a rank adds to the work.
* `Ledger`, `Ledger.owed`: the books, and the work that is owed.
* `Ledger.enter`, `Ledger.spend`: **a new iterator**, and **an iterator that has given an item**.
* `Balanced`: the books agree with a store.
-/

namespace Templating

open Carries (handles)

/-! ## Work -/

/-- How much a piece of code can do: first how deeply it can nest render calls, then its size. -/
abbrev Rank := ℕ ×ₗ ℕ

/-- Pieces of code that are still to be run. -/
abbrev Work := Multiset Rank

namespace Work

variable {u v w : Work} {r r' : Rank} {more : Work}

/-- Work that is left over of some work. For each piece that is done, any number of pieces of lower
ranks may have come up. -/
def Reduces (v w : Work) : Prop := v = w ∨ v.IsDershowitzMannaLT w

/-- Work that is left over of some work and of pieces below a rank. -/
def Adds (r : Rank) (w v : Work) : Prop := ∃ more : Work, (∀ x ∈ more, x < r) ∧ v.Reduces (w + more)

theorem Reduces.refl (w : Work) : w.Reduces w := .inl rfl

theorem Reduces.trans (h : u.Reduces v) (h' : v.Reduces w) : u.Reduces w := by
  obtain rfl | h := h
  · exact h'
  obtain rfl | h' := h'
  · exact .inr h
  · exact .inr (h.trans h')

theorem Reduces.trans_lt (h : u.Reduces v) (h' : v.IsDershowitzMannaLT w) :
    u.IsDershowitzMannaLT w := by
  obtain rfl | h := h
  · exact h'
  · exact h.trans h'

theorem Reduces.lt_trans (h' : v.Reduces w) (h : u.IsDershowitzMannaLT v) :
    u.IsDershowitzMannaLT w := by
  obtain rfl | h' := h'
  · exact h
  · exact h.trans h'

theorem Reduces.of_le (h : v ≤ w) : v.Reduces w := by
  obtain ⟨u, rfl⟩ := Multiset.le_iff_exists_add.1 h
  by_cases hu : u = 0
  · exact .inl (by simp [hu])
  · exact .inr ⟨v, 0, u, hu, by simp, rfl, by simp⟩

theorem Reduces.add_right (h : v.Reduces w) (u : Work) : (v + u).Reduces (w + u) := by
  obtain rfl | ⟨x, y, z, hz, rfl, rfl, hyz⟩ := h
  · exact .refl _
  · exact .inr ⟨x + u, y, z, hz, add_right_comm .., add_right_comm .., hyz⟩

/-- A piece of code is more than any number of pieces of lower ranks. -/
theorem lt_add_rank (w : Work) (hmore : ∀ x ∈ more, x < r) :
    (w + more).IsDershowitzMannaLT (w + {r}) :=
  ⟨w, more, {r}, by simp, rfl, rfl, fun x hx => ⟨r, by simp, hmore x hx⟩⟩

theorem Adds.of_reduces (r : Rank) (h : v.Reduces w) : Adds r w v := ⟨0, by simp, by simpa using h⟩

theorem Adds.refl (r : Rank) (w : Work) : Adds r w w := .of_reduces r (.refl w)

theorem Adds.trans (h : Adds r w v) (h' : Adds r v u) : Adds r w u := by
  obtain ⟨more, hmore, h⟩ := h
  obtain ⟨more', hmore', h'⟩ := h'
  refine ⟨more + more', fun x hx => (Multiset.mem_add.1 hx).elim (hmore x) (hmore' x), ?_⟩
  rw [← add_assoc]
  exact h'.trans (h.add_right more')

theorem Adds.mono (h : Adds r w v) (hr : r ≤ r') : Adds r' w v := by
  obtain ⟨more, hmore, h⟩ := h
  exact ⟨more, fun x hx => (hmore x hx).trans_le hr, h⟩

/-- Further pieces of lower ranks. -/
theorem Adds.add (h : Adds r w v) (hmore : ∀ x ∈ more, x < r) : Adds r w (v + more) :=
  h.trans ⟨more, hmore, .refl _⟩

/-- What code of a rank adds is less than the code. -/
theorem Adds.lt (h : Adds r w v) : v.IsDershowitzMannaLT (w + {r}) := by
  obtain ⟨more, hmore, h⟩ := h
  exact h.trans_lt (lt_add_rank w hmore)

/-- What code adds is not more than what there was before the code was run. -/
theorem Adds.reduces (h : Adds r w v) (hw : (w + {r}).Reduces u) : v.Reduces u :=
  .inr (hw.lt_trans h.lt)

/-- Code of a lower rank, with what was added before, is less than the code. -/
theorem Adds.add_rank_lt (h : Adds r w v) (hr : r' < r) :
    (v + {r'}).IsDershowitzMannaLT (w + {r}) := by
  have hbelow : ∀ x ∈ ({r'} : Work), x < r := by simpa using hr
  exact (h.add hbelow).lt

end Work

/-! ## Ranks -/

/-- The rank of a node where some levels of render calls are left. -/
noncomputable def Node.rank (levels : Nat) (node : Node) : Rank := toLex (levels, sizeOf node)

/-- The rank of the code of a generator expression. -/
noncomputable def Generator.rank (g : Generator) : Rank :=
  toLex (g.frame.maxDepth - g.frame.depth, 1 + sizeOf g.item + sizeOf g.condition)

theorem Node.rank_lt_rank {node node' : Node} {levels : Nat} (h : sizeOf node < sizeOf node') :
    node.rank levels < node'.rank levels := by
  simpa [rank, Prod.Lex.toLex_lt_toLex] using h

/-- One level deeper any node is of a lower rank. -/
theorem Node.rank_lt_of_levels {levels levels' : Nat} (h : levels < levels') (node node' : Node) :
    node.rank levels < node'.rank levels' := by
  simp [rank, Prod.Lex.toLex_lt_toLex, h]

/-- The nodes of a generator expression are below it. -/
theorem Generator.rank_lt (g : Generator) {node : Node}
    (h : node ∈ g.item :: g.condition.toList) :
    node.rank (g.frame.maxDepth - g.frame.depth) < g.rank := by
  have hsize : sizeOf node < 1 + sizeOf g.item + sizeOf g.condition := by
    rcases List.mem_cons.1 h with rfl | h
    · omega
    · obtain ⟨frame, source, target, condition, item⟩ := g
      obtain rfl := Option.mem_toList.1 h
      simp
      omega
  simpa [Node.rank, rank, Prod.Lex.toLex_lt_toLex] using hsize

/-! ## Iterators and their sources -/

/-- The iterators from which an iterator takes its items. -/
def Cursor.sources : Cursor → List Handle
  | .items _ | .range .. | .supplied .. => []
  | .enumerate inner _ | .flagged inner .. | .relay inner => [inner]
  | .zip inners => inners
  | .generator g => [g.source]

theorem Cursor.sources_subset (cursor : Cursor) : cursor.sources ⊆ handles cursor := by
  cases cursor with
  | zip inners => exact List.Subset.refl _
  | items | range | supplied => exact List.nil_subset _
  | enumerate inner | relay inner => exact List.Subset.refl _
  | flagged inner | generator g => exact List.cons_subset.2 ⟨List.mem_cons_self, List.nil_subset _⟩

/-- How many items an iterator has left at most, given that of its sources. -/
def Cursor.bound (left : Handle → Nat) : Cursor → Nat
  | .items rest => rest.length
  | .range _ _ remaining => remaining
  | .enumerate inner _ | .flagged inner _ _ _ .unknown => left inner
  | .flagged inner _ _ _ (.pending _) => left inner + 1
  | .zip (inner :: _) => left inner
  | .generator g => left g.source
  | _ => 0

theorem Cursor.bound_mono {left left' : Handle → Nat} {cursor : Cursor}
    (h : ∀ i ∈ cursor.sources, left' i ≤ left i) : cursor.bound left' ≤ cursor.bound left := by
  cases cursor with
  | items | range | supplied | relay => exact le_rfl
  | enumerate inner | generator g => exact h _ List.mem_cons_self
  | flagged inner markers index first next =>
    cases next with
    | unknown => exact h _ List.mem_cons_self
    | pending v => exact Nat.add_le_add_right (h _ List.mem_cons_self) 1
    | ended => exact le_rfl
  | zip inners =>
    cases inners with
    | nil => exact le_rfl
    | cons inner inners => exact h _ List.mem_cons_self

/-! ## Books -/

/-- Books on the iterators that are known. -/
structure Ledger where
  known : Finset Handle
  /-- How many items an iterator has left at most. -/
  left : Handle → Nat
  /-- How many iterators are below an iterator, one the source of another. -/
  height : Handle → Nat
  /-- The source of a generator expression and the rank of its code. -/
  code : Handle → Option (Handle × Rank)
  source_known : ∀ h ∈ known, ∀ p ∈ code h, p.1 ∈ known

/-- Books that continue others: there are more iterators, and some items have been taken. -/
structure Ledger.Continues (L L' : Ledger) : Prop where
  known : L.known ⊆ L'.known
  left : ∀ h ∈ L.known, L'.left h ≤ L.left h
  height : ∀ h ∈ L.known, L'.height h = L.height h
  code : ∀ h ∈ L.known, L'.code h = L.code h

instance : Preorder Ledger where
  le := Ledger.Continues
  le_refl L := ⟨Finset.Subset.refl _, fun _ _ => le_rfl, fun _ _ => rfl, fun _ _ => rfl⟩
  le_trans L L' L'' h h' := by
    refine ⟨h.known.trans h'.known, fun i hi => ?_, fun i hi => ?_, fun i hi => ?_⟩
    · exact (h'.left i (h.known hi)).trans (h.left i hi)
    · exact (h'.height i (h.known hi)).trans (h.height i hi)
    · exact (h'.code i (h.known hi)).trans (h.code i hi)

namespace Ledger

variable {L L' : Ledger} {h i : Handle} {n : Nat}

/-- The work of an iterator with some code, where sources have some items left. -/
def work (left : Handle → Nat) (code : Option (Handle × Rank)) : Work :=
  code.elim 0 fun p => Multiset.replicate (left p.1) p.2

/-- The work that is owed: the code of each generator expression for each item of its source. -/
def owed (L : Ledger) : Work := ∑ h ∈ L.known, work L.left (L.code h)

/-- Some items have been taken from an iterator, or were not there. -/
def spend (L : Ledger) (h : Handle) (n : Nat) : Ledger :=
  { L with left := Function.update L.left h n }

@[simp] theorem spend_left_self : (L.spend h n).left h = n := Function.update_self ..

theorem spend_left_of_ne (hi : i ≠ h) : (L.spend h n).left i = L.left i :=
  Function.update_of_ne hi ..

theorem spend_left_le (hn : n ≤ L.left h) (i : Handle) : (L.spend h n).left i ≤ L.left i := by
  by_cases hi : i = h
  · rw [hi, spend_left_self]
    exact hn
  · exact (spend_left_of_ne hi).le

theorem le_spend (hn : n ≤ L.left h) : L ≤ L.spend h n :=
  ⟨Finset.Subset.refl _, fun i _ => spend_left_le hn i, fun _ _ => rfl, fun _ _ => rfl⟩

theorem work_mono {left left' : Handle → Nat} (h : ∀ i, left' i ≤ left i)
    (code : Option (Handle × Rank)) : work left' code ≤ work left code := by
  cases code with
  | none => exact le_rfl
  | some p => exact (Multiset.replicate_le_replicate p.2).2 (h p.1)

theorem owed_spend_le (hn : n ≤ L.left h) : (L.spend h n).owed ≤ L.owed :=
  Finset.sum_le_sum fun _ _ => work_mono (spend_left_le hn) _

/-- **An item that is taken from an iterator pays for one run of the code of a generator
expression** that takes its items from there. -/
theorem owed_spend_add_le (hn : n < L.left h) (hi : i ∈ L.known) {r : Rank}
    (hcode : L.code i = some (h, r)) : (L.spend h n).owed + {r} ≤ L.owed := by
  have hrest : ∑ j ∈ L.known.erase i, work (L.spend h n).left (L.code j) ≤
      ∑ j ∈ L.known.erase i, work L.left (L.code j) :=
    Finset.sum_le_sum fun _ _ => work_mono (spend_left_le hn.le) _
  have hwork : work (L.spend h n).left (L.code i) + {r} ≤ work L.left (L.code i) := by
    simp only [hcode, work, Option.elim_some, spend, Function.update_self, ← Multiset.replicate_one]
    rw [← Multiset.replicate_add]
    exact (Multiset.replicate_le_replicate r).2 hn
  have hsum := Finset.add_sum_erase L.known (fun j => work (L.spend h n).left (L.code j)) hi
  calc (L.spend h n).owed + {r}
      = work (L.spend h n).left (L.code i) + {r} +
          ∑ j ∈ L.known.erase i, work (L.spend h n).left (L.code j) := by
        rw [add_right_comm, hsum]
        rfl
    _ ≤ work L.left (L.code i) + ∑ j ∈ L.known.erase i, work L.left (L.code j) :=
        add_le_add hwork hrest
    _ = L.owed := Finset.add_sum_erase _ _ hi

/-- Enters a new iterator. -/
def enter (L : Ledger) (h : Handle) (left height : Nat) (code : Option (Handle × Rank))
    (hcode : ∀ p ∈ code, p.1 ∈ L.known) : Ledger where
  known := insert h L.known
  left := Function.update L.left h left
  height := Function.update L.height h height
  code := Function.update L.code h code
  source_known i hi p hp := by
    refine Finset.mem_insert_of_mem ?_
    by_cases heq : i = h
    · subst heq
      exact hcode p (by simpa using hp)
    · rw [Function.update_of_ne heq] at hp
      exact L.source_known i ((Finset.mem_insert.1 hi).resolve_left heq) p hp

variable {left height : Nat} {code : Option (Handle × Rank)} {hcode : ∀ p ∈ code, p.1 ∈ L.known}

theorem ne_of_notMem (hh : h ∉ L.known) (hi : i ∈ L.known) : i ≠ h := by
  rintro rfl
  exact hh hi

theorem le_enter (hh : h ∉ L.known) : L ≤ L.enter h left height code hcode := by
  refine ⟨Finset.subset_insert _ _, fun i hi => ?_, fun i hi => ?_, fun i hi => ?_⟩
  all_goals simp [enter, ne_of_notMem hh hi]

theorem owed_enter (hh : h ∉ L.known) :
    (L.enter h left height code hcode).owed = L.owed + work L.left code := by
  have hwork {c : Option (Handle × Rank)} (hc : ∀ p ∈ c, p.1 ∈ L.known) :
      work (Function.update L.left h left) c = work L.left c := by
    cases c with
    | none => rfl
    | some p => simp [work, ne_of_notMem hh (hc p rfl)]
  have hold : ∀ i ∈ L.known, work (L.enter h left height code hcode).left
      ((L.enter h left height code hcode).code i) = work L.left (L.code i) := by
    intro i hi
    simp only [enter, Function.update_of_ne (ne_of_notMem hh hi)]
    exact hwork (L.source_known i hi)
  have hnew : work (L.enter h left height code hcode).left
      ((L.enter h left height code hcode).code h) = work L.left code := by
    simp only [enter, Function.update_self]
    exact hwork hcode
  calc (L.enter h left height code hcode).owed
      = work L.left code + ∑ i ∈ L.known, work L.left (L.code i) := by
        rw [owed, enter, Finset.sum_insert hh]
        exact congrArg₂ _ hnew (Finset.sum_congr rfl hold)
    _ = L.owed + work L.left code := add_comm _ _

end Ledger

end Templating
