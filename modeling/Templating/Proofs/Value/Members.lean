import Templating.Proofs.Value.Bindings
import Templating.Proofs.Value.Relabel

/-!
# What a value is made of

* `Value.MadeOf`: lists and dicts, nested to any depth, of atoms of one kind.
* `Value.FloatFree`: a value without floats.
* `Value.proper_list_iff`, `Value.proper_dict_iff`: distinct keys, one level at a time.
-/

namespace Templating.Value

/-- A value that holds no other values. -/
def IsAtom : Value → Prop
  | list _ | dict _ => False
  | none | bool _ | int _ | float _ | str _ | date _ | duration _ | months _ | color _ | template _
  | iterator _ => True

/-- A value whose atoms are all of one kind, in lists and dicts nested to any depth. -/
inductive MadeOf (kind : Value → Prop) : Value → Prop where
  | atom {a : Value} (hatom : a.IsAtom) (h : kind a) : MadeOf kind a
  | list {items : List Value} (h : ∀ x ∈ items, MadeOf kind x) : MadeOf kind (list items)
  | dict {entries : List (String × Value)} (h : ∀ e ∈ entries, MadeOf kind e.2) :
      MadeOf kind (dict entries)

variable {kind : Value → Prop} {items : List Value} {entries : List (String × Value)}

theorem MadeOf.of_atom {a : Value} (hatom : a.IsAtom) (h : MadeOf kind a) : kind a := by
  cases h with
  | atom _ h => exact h
  | list _ | dict _ => exact hatom.elim

theorem MadeOf.of_list (h : MadeOf kind (Value.list items)) : ∀ x ∈ items, MadeOf kind x := by
  cases h with
  | atom hatom _ => exact hatom.elim
  | list h => exact h

theorem MadeOf.of_dict (h : MadeOf kind (Value.dict entries)) :
    ∀ e ∈ entries, MadeOf kind e.2 := by
  cases h with
  | atom hatom _ => exact hatom.elim
  | dict h => exact h

theorem madeOf_atom_iff {a : Value} (hatom : a.IsAtom) : MadeOf kind a ↔ kind a :=
  ⟨MadeOf.of_atom hatom, .atom hatom⟩

theorem madeOf_list_iff : MadeOf kind (list items) ↔ ∀ x ∈ items, MadeOf kind x :=
  ⟨MadeOf.of_list, .list⟩

theorem madeOf_dict_iff : MadeOf kind (dict entries) ↔ ∀ e ∈ entries, MadeOf kind e.2 :=
  ⟨MadeOf.of_dict, .dict⟩

/-- A value without floats, at any depth. -/
def FloatFree (a : Value) : Prop := MadeOf (fun a => ∀ x, a ≠ float x) a

theorem not_floatFree_float (x : Float) : ¬ FloatFree (float x) :=
  fun h => MadeOf.of_atom (a := float x) trivial h x rfl

/-! ## Distinct keys -/

theorem allProper_iff : AllProper items ↔ ∀ x ∈ items, x.Proper := by
  induction items with
  | nil => simp [AllProper]
  | cons x items ih => simp [AllProper, ih]

theorem allProperBound_iff : AllProperBound entries ↔ ∀ e ∈ entries, e.2.Proper := by
  induction entries with
  | nil => simp [AllProperBound]
  | cons e entries ih => simp [AllProperBound, ih]

theorem proper_list_iff : (list items).Proper ↔ ∀ x ∈ items, x.Proper := by
  rw [Proper, allProper_iff]

theorem proper_dict_iff :
    (dict entries).Proper ↔ (entries.map Prod.fst).Nodup ∧ ∀ e ∈ entries, e.2.Proper := by
  rw [Proper, allProperBound_iff]

end Templating.Value
