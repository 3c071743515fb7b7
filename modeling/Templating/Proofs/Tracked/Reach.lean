import Mathlib.Data.Set.Insert
import Mathlib.Logic.Relation
import Templating.Proofs.Value.Natural

/-!
# References between iterators

* `Refers`, `Reaches`: the iterators that an iterator of a store refers to, at once or through
  others.
* `Machine.Reaches`: those that the variables refer to.
* `Grows`: a set of iterators of a store and a later one, to which new iterators were added only.
-/

namespace Templating

open Carries (handles)

/-- The state of an iterator contains another one. -/
def Refers (s : Array Cell) (h i : Handle) : Prop := ∃ cell, s[h]? = some cell ∧ i ∈ handles cell

/-- An iterator refers to another one, through any number of iterators. -/
def Reaches (s : Array Cell) : Handle → Handle → Prop := Relation.ReflTransGen (Refers s)

/-- A variable refers to an iterator. -/
def Machine.Reaches (m : Machine) (h : Handle) : Prop :=
  ∃ v ∈ handles m.frame, Templating.Reaches m.store v h

theorem Machine.Reaches.of_mem {m : Machine} {h : Handle} (hh : h ∈ handles m.frame) :
    m.Reaches h :=
  ⟨h, hh, .refl⟩

theorem Machine.Reaches.refers {m : Machine} {h i : Handle} (hh : m.Reaches h)
    (hi : Refers m.store h i) : m.Reaches i := by
  obtain ⟨v, hv, hreaches⟩ := hh
  exact ⟨v, hv, hreaches.tail hi⟩

/-- A set of iterators of a store, and one of a later store to which new iterators were added. -/
structure Grows (w : Set Handle) (s : Array Cell) (w' : Set Handle) (s' : Array Cell) : Prop where
  subset : w ⊆ w'
  size_le : s.size ≤ s'.size
  new : ∀ h ∈ w', h < s.size → h ∈ w

namespace Grows

variable {w w' w'' : Set Handle} {s s' s'' : Array Cell}

theorem refl (w : Set Handle) (s : Array Cell) : Grows w s w s :=
  ⟨subset_rfl, le_rfl, fun _ h _ => h⟩

theorem trans (h : Grows w s w' s') (h' : Grows w' s' w'' s'') : Grows w s w'' s'' := by
  refine ⟨h.subset.trans h'.subset, h.size_le.trans h'.size_le, fun i hi hlt => ?_⟩
  exact h.new i (h'.new i hi (Nat.lt_of_lt_of_le hlt h.size_le)) hlt

/-- A new iterator is added, or is not. -/
theorem push (w : Set Handle) (s : Array Cell) (cell : Cell) :
    Grows w s (insert s.size w) (s.push cell) := by
  refine ⟨Set.subset_insert _ _, by simp, ?_⟩
  rintro h (rfl | hh) hlt
  · exact absurd hlt (Nat.lt_irrefl _)
  · exact hh

/-- What happens to the cells that there are is of no account. -/
theorem of_size_eq (h : Grows w s w' s') {t t' : Array Cell} (ht : t.size = s.size)
    (ht' : t'.size = s'.size) : Grows w t w' t' :=
  ⟨h.subset, by rw [ht, ht']; exact h.size_le, fun i hi hlt => h.new i hi (ht ▸ hlt)⟩

end Grows

end Templating
