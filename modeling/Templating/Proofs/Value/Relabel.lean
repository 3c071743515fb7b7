import Templating.Proofs.Syntax.Relabel
import Templating.Value.Basic

/-!
# Renaming the identities in a value

* `Value.relabel`: a value with new identities of the templates in it.
* `Value.objects`: everything in a value that has an identity.
* `Value.hasIterator`: whether there is an iterator in a value.
* `Value.Proper`: the keys of each dict in a value are distinct.
-/

namespace Templating

mutual

/-- A value with new identities. -/
def Value.relabel (f : Relabel) : Value → Value
  | .none => .none
  | .bool b => .bool b
  | .int n => .int n
  | .float x => .float x
  | .str s => .str s
  | .list items => .list (Value.relabelAll f items)
  | .dict entries => .dict (Value.relabelBindings f entries)
  | .date d => .date d
  | .duration d => .duration d
  | .months m => .months m
  | .color c => .color c
  | .template t => .template (t.relabel f)
  | .iterator handle => .iterator handle

/-- Values with new identities. -/
def Value.relabelAll (f : Relabel) : List Value → List Value
  | [] => []
  | item :: items => item.relabel f :: Value.relabelAll f items

/-- The bindings of a dict with new identities. -/
def Value.relabelBindings (f : Relabel) : List (String × Value) → List (String × Value)
  | [] => []
  | (key, value) :: entries => (key, value.relabel f) :: Value.relabelBindings f entries

end

mutual

/-- What has an identity in a value. -/
def Value.objects : Value → List Object
  | .list items => Value.objectsAll items
  | .dict entries => Value.objectsBindings entries
  | .template t => t.objects
  | .none | .bool _ | .int _ | .float _ | .str _ | .date _ | .duration _ | .months _ | .color _
  | .iterator _ => []

/-- What has an identity in some values. -/
def Value.objectsAll : List Value → List Object
  | [] => []
  | item :: items => item.objects ++ Value.objectsAll items

/-- What has an identity in the bindings of a dict. -/
def Value.objectsBindings : List (String × Value) → List Object
  | [] => []
  | (_, value) :: entries => value.objects ++ Value.objectsBindings entries

end

mutual

/-- Whether there is an iterator in a value. -/
def Value.hasIterator : Value → Bool
  | .list items => Value.anyIterator items
  | .dict entries => Value.anyIteratorBound entries
  | .iterator _ => true
  | .none | .bool _ | .int _ | .float _ | .str _ | .date _ | .duration _ | .months _ | .color _
  | .template _ => false

/-- Whether there is an iterator in some values. -/
def Value.anyIterator : List Value → Bool
  | [] => false
  | item :: items => item.hasIterator || Value.anyIterator items

/-- Whether there is an iterator in the bindings of a dict. -/
def Value.anyIteratorBound : List (String × Value) → Bool
  | [] => false
  | (_, value) :: entries => value.hasIterator || Value.anyIteratorBound entries

end

mutual

/-- The keys of each dict in a value are distinct. -/
def Value.Proper : Value → Prop
  | .list items => Value.AllProper items
  | .dict entries => (entries.map Prod.fst).Nodup ∧ Value.AllProperBound entries
  | .none | .bool _ | .int _ | .float _ | .str _ | .date _ | .duration _ | .months _ | .color _
  | .template _ | .iterator _ => True

/-- The keys of each dict in some values are distinct. -/
def Value.AllProper : List Value → Prop
  | [] => True
  | item :: items => item.Proper ∧ Value.AllProper items

/-- The keys of each dict below the bindings of a dict are distinct. -/
def Value.AllProperBound : List (String × Value) → Prop
  | [] => True
  | (_, value) :: entries => value.Proper ∧ Value.AllProperBound entries

end

variable {f g : Relabel}

theorem Value.relabelAll_eq (f : Relabel) (items : List Value) :
    Value.relabelAll f items = items.map (Value.relabel f) := by
  induction items with
  | nil => rfl
  | cons item items ih => simp [Value.relabelAll, ih]

theorem Value.relabelBindings_eq (f : Relabel) (entries : List (String × Value)) :
    Value.relabelBindings f entries = entries.map fun e => (e.1, e.2.relabel f) := by
  induction entries with
  | nil => rfl
  | cons entry entries ih => simp [Value.relabelBindings, ih]

mutual

theorem Value.relabel_relabel : ∀ v : Value, (v.relabel f).relabel g = v.relabel (f.andThen g)
  | .none | .bool _ | .int _ | .float _ | .str _ | .date _ | .duration _ | .months _ | .color _
  | .iterator _ => rfl
  | .list items => by simp only [Value.relabel, Value.relabelAll_relabelAll items]
  | .dict entries => by simp only [Value.relabel, Value.relabelBindings_relabelBindings entries]
  | .template t => by simp only [Value.relabel, Template.relabel_relabel t]

theorem Value.relabelAll_relabelAll : ∀ items : List Value,
    Value.relabelAll g (Value.relabelAll f items) = Value.relabelAll (f.andThen g) items
  | [] => rfl
  | item :: items => by
    simp only [Value.relabelAll, Value.relabel_relabel item, Value.relabelAll_relabelAll items]

theorem Value.relabelBindings_relabelBindings : ∀ entries : List (String × Value),
    Value.relabelBindings g (Value.relabelBindings f entries) =
      Value.relabelBindings (f.andThen g) entries
  | [] => rfl
  | (key, value) :: entries => by
    simp only [Value.relabelBindings, Value.relabel_relabel value,
      Value.relabelBindings_relabelBindings entries]

end

variable {ν τ : Nat → Nat}

mutual

theorem Value.relabel_congr : ∀ v : Value, (∀ o ∈ v.objects, f.Agrees ν τ o) →
    v.relabel f = v.relabel (f.onto ν τ)
  | .none, _ | .bool _, _ | .int _, _ | .float _, _ | .str _, _ | .date _, _ | .duration _, _
  | .months _, _ | .color _, _ | .iterator _, _ => rfl
  | .list items, h => by simp only [Value.relabel, Value.relabelAll_congr items h]
  | .dict entries, h => by simp only [Value.relabel, Value.relabelBindings_congr entries h]
  | .template t, h => by simp only [Value.relabel, Template.relabel_congr t h]

theorem Value.relabelAll_congr : ∀ items : List Value,
    (∀ o ∈ Value.objectsAll items, f.Agrees ν τ o) →
      Value.relabelAll f items = Value.relabelAll (f.onto ν τ) items
  | [], _ => rfl
  | item :: items, h => by
    simp only [Value.objectsAll, List.forall_mem_append] at h
    simp only [Value.relabelAll, Value.relabel_congr item h.1, Value.relabelAll_congr items h.2]

theorem Value.relabelBindings_congr : ∀ entries : List (String × Value),
    (∀ o ∈ Value.objectsBindings entries, f.Agrees ν τ o) →
      Value.relabelBindings f entries = Value.relabelBindings (f.onto ν τ) entries
  | [], _ => rfl
  | (key, value) :: entries, h => by
    simp only [Value.objectsBindings, List.forall_mem_append] at h
    simp only [Value.relabelBindings, Value.relabel_congr value h.1,
      Value.relabelBindings_congr entries h.2]

end

/-! ## Values without templates -/

mutual

/-- A value without templates has nothing that could be renamed. -/
theorem Value.relabel_eq_self : ∀ v : Value, v.objects = [] → v.relabel f = v
  | .none, _ | .bool _, _ | .int _, _ | .float _, _ | .str _, _ | .date _, _ | .duration _, _
  | .months _, _ | .color _, _ | .iterator _, _ => rfl
  | .list items, h => by simp only [Value.relabel, Value.relabelAll_eq_self items h]
  | .dict entries, h => by simp only [Value.relabel, Value.relabelBindings_eq_self entries h]
  | .template ⟨_, _, _, _, _, _, _⟩, h => by simp [Value.objects, Template.objects] at h

theorem Value.relabelAll_eq_self : ∀ items : List Value, Value.objectsAll items = [] →
    Value.relabelAll f items = items
  | [], _ => rfl
  | item :: items, h => by
    simp only [Value.objectsAll, List.append_eq_nil_iff] at h
    simp only [Value.relabelAll, Value.relabel_eq_self item h.1,
      Value.relabelAll_eq_self items h.2]

theorem Value.relabelBindings_eq_self : ∀ entries : List (String × Value),
    Value.objectsBindings entries = [] → Value.relabelBindings f entries = entries
  | [], _ => rfl
  | (key, value) :: entries, h => by
    simp only [Value.objectsBindings, List.append_eq_nil_iff] at h
    simp only [Value.relabelBindings, Value.relabel_eq_self value h.1,
      Value.relabelBindings_eq_self entries h.2]

end

mutual

theorem Value.objects_of_relabel : ∀ v : Value, (v.relabel f).objects = [] → v.objects = []
  | .none, _ | .bool _, _ | .int _, _ | .float _, _ | .str _, _ | .date _, _ | .duration _, _
  | .months _, _ | .color _, _ | .iterator _, _ => rfl
  | .list items, h => Value.objectsAll_of_relabelAll items h
  | .dict entries, h => Value.objectsBindings_of_relabelBindings entries h
  | .template ⟨_, _, _, _, _, _, _⟩, h => by
    simp [Value.relabel, Template.relabel, Value.objects, Template.objects] at h

theorem Value.objectsAll_of_relabelAll : ∀ items : List Value,
    Value.objectsAll (Value.relabelAll f items) = [] → Value.objectsAll items = []
  | [], _ => rfl
  | item :: items, h => by
    simp only [Value.relabelAll, Value.objectsAll, List.append_eq_nil_iff] at h ⊢
    exact ⟨Value.objects_of_relabel item h.1, Value.objectsAll_of_relabelAll items h.2⟩

theorem Value.objectsBindings_of_relabelBindings : ∀ entries : List (String × Value),
    Value.objectsBindings (Value.relabelBindings f entries) = [] →
      Value.objectsBindings entries = []
  | [], _ => rfl
  | (key, value) :: entries, h => by
    simp only [Value.relabelBindings, Value.objectsBindings, List.append_eq_nil_iff] at h ⊢
    exact ⟨Value.objects_of_relabel value h.1, Value.objectsBindings_of_relabelBindings entries h.2⟩

end

end Templating
