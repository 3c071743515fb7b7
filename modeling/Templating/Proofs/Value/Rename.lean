import Mathlib.Logic.Equiv.Basic
import Templating.Proofs.Value.Relabel

/-!
# Renaming what a value refers to

A value refers to templates and to iterators. An operation that looks at them only to compare them
does with other templates and handles what it did before, and it cannot make up a handle.

* `Renaming`, `Value.rename`: other templates and other handles in a value.
* `Renaming.Faithful`: different things stay different.
* `Value.handles`: the iterators in a value.
* `Value.rename_eq_self_iff`: a renaming of handles leaves a value alone if it leaves alone the
  handles in it.
-/

namespace Templating

/-- Other templates and other iterators. A template keeps what a value shows of it. -/
structure Renaming where
  template : Template → Template
  handle : Handle → Handle
  name : ∀ t, (template t).name = t.name
  source : ∀ t, (template t).source = t.source
  startDelim : ∀ t, (template t).startDelim = t.startDelim
  endDelim : ∀ t, (template t).endDelim = t.endDelim

namespace Renaming

/-- Other handles. -/
def ofHandles (ρ : Handle → Handle) : Renaming where
  template := id
  handle := ρ
  name _ := rfl
  source _ := rfl
  startDelim _ := rfl
  endDelim _ := rfl

/-- What is compared stays equal or different. -/
structure Faithful (g : Renaming) : Prop where
  template : ∀ t u, (g.template t).id = (g.template u).id ↔ t.id = u.id
  handle : Function.Injective g.handle

theorem Faithful.ofHandles {ρ : Handle → Handle} (h : Function.Injective ρ) :
    (Renaming.ofHandles ρ).Faithful :=
  ⟨fun _ _ => .rfl, h⟩

end Renaming

/-- New identities as a renaming. -/
def Relabel.renaming (f : Relabel) : Renaming where
  template := Template.relabel f
  handle := id
  name _ := Template.name_relabel ..
  source _ := Template.source_relabel ..
  startDelim _ := Template.startDelim_relabel ..
  endDelim _ := Template.endDelim_relabel ..

theorem Relabel.renaming_faithful {f : Relabel} (hf : Function.Injective f.template) :
    f.renaming.Faithful := by
  refine ⟨fun t u => ?_, Function.injective_id⟩
  change (t.relabel f).id = (u.relabel f).id ↔ _
  rw [Template.id_relabel, Template.id_relabel, hf.eq_iff]

mutual

/-- A value that refers to other things. -/
def Value.rename (g : Renaming) : Value → Value
  | .none => .none
  | .bool b => .bool b
  | .int n => .int n
  | .float x => .float x
  | .str s => .str s
  | .list items => .list (Value.renameAll g items)
  | .dict entries => .dict (Value.renameBindings g entries)
  | .date d => .date d
  | .duration d => .duration d
  | .months m => .months m
  | .color c => .color c
  | .template t => .template (g.template t)
  | .iterator handle => .iterator (g.handle handle)

/-- Values that refer to other things. -/
def Value.renameAll (g : Renaming) : List Value → List Value
  | [] => []
  | item :: items => item.rename g :: Value.renameAll g items

/-- Bindings whose values refer to other things. -/
def Value.renameBindings (g : Renaming) : List (String × Value) → List (String × Value)
  | [] => []
  | (key, value) :: entries => (key, value.rename g) :: Value.renameBindings g entries

end

theorem Value.renameAll_eq (g : Renaming) (items : List Value) :
    Value.renameAll g items = items.map (Value.rename g) := by
  induction items with
  | nil => rfl
  | cons item items ih => simp [Value.renameAll, ih]

theorem Value.renameBindings_eq (g : Renaming) (entries : List (String × Value)) :
    Value.renameBindings g entries = entries.map fun e => (e.1, e.2.rename g) := by
  induction entries with
  | nil => rfl
  | cons entry entries ih => simp [Value.renameBindings, ih]

/-! ## New identities -/

variable {f : Relabel}

mutual

theorem Value.rename_renaming : ∀ v : Value, v.rename f.renaming = v.relabel f
  | .none | .bool _ | .int _ | .float _ | .str _ | .date _ | .duration _ | .months _ | .color _
  | .template _ | .iterator _ => rfl
  | .list items => by simp only [Value.rename, Value.relabel, Value.renameAll_renaming items]
  | .dict entries => by
    simp only [Value.rename, Value.relabel, Value.renameBindings_renaming entries]

theorem Value.renameAll_renaming : ∀ items : List Value,
    Value.renameAll f.renaming items = Value.relabelAll f items
  | [] => rfl
  | item :: items => by
    simp only [Value.renameAll, Value.relabelAll, Value.rename_renaming item,
      Value.renameAll_renaming items]

theorem Value.renameBindings_renaming : ∀ entries : List (String × Value),
    Value.renameBindings f.renaming entries = Value.relabelBindings f entries
  | [] => rfl
  | (key, value) :: entries => by
    simp only [Value.renameBindings, Value.relabelBindings, Value.rename_renaming value,
      Value.renameBindings_renaming entries]

end

/-! ## Handles -/

mutual

/-- The iterators in a value. -/
def Value.handles : Value → List Handle
  | .list items => Value.handlesAll items
  | .dict entries => Value.handlesBindings entries
  | .iterator handle => [handle]
  | .none | .bool _ | .int _ | .float _ | .str _ | .date _ | .duration _ | .months _ | .color _
  | .template _ => []

/-- The iterators in some values. -/
def Value.handlesAll : List Value → List Handle
  | [] => []
  | item :: items => item.handles ++ Value.handlesAll items

/-- The iterators in the bindings of a dict. -/
def Value.handlesBindings : List (String × Value) → List Handle
  | [] => []
  | (_, value) :: entries => value.handles ++ Value.handlesBindings entries

end

theorem Value.handlesAll_eq (items : List Value) :
    Value.handlesAll items = items.flatMap Value.handles := by
  induction items with
  | nil => rfl
  | cons item items ih => rw [Value.handlesAll, ih, List.flatMap_cons]

theorem Value.handlesBindings_eq (entries : List (String × Value)) :
    Value.handlesBindings entries = entries.flatMap fun e => e.2.handles := by
  induction entries with
  | nil => rfl
  | cons entry entries ih => rw [Value.handlesBindings, ih, List.flatMap_cons]

mutual

theorem Value.handles_eq_nil : ∀ v : Value, v.hasIterator = false → v.handles = []
  | .none, _ | .bool _, _ | .int _, _ | .float _, _ | .str _, _ | .date _, _ | .duration _, _
  | .months _, _ | .color _, _ | .template _, _ => rfl
  | .iterator _, h => by cases h
  | .list items, h => Value.handlesAll_eq_nil items h
  | .dict entries, h => Value.handlesBindings_eq_nil entries h

theorem Value.handlesAll_eq_nil : ∀ items : List Value, Value.anyIterator items = false →
    Value.handlesAll items = []
  | [], _ => rfl
  | item :: items, h => by
    obtain ⟨hitem, hitems⟩ := Bool.or_eq_false_iff.1 h
    rw [Value.handlesAll, item.handles_eq_nil hitem, Value.handlesAll_eq_nil items hitems]
    rfl

theorem Value.handlesBindings_eq_nil : ∀ entries : List (String × Value),
    Value.anyIteratorBound entries = false → Value.handlesBindings entries = []
  | [], _ => rfl
  | (_, value) :: entries, h => by
    obtain ⟨hvalue, hentries⟩ := Bool.or_eq_false_iff.1 h
    rw [Value.handlesBindings, value.handles_eq_nil hvalue,
      Value.handlesBindings_eq_nil entries hentries]
    rfl

end

variable {ρ σ : Handle → Handle}

mutual

/-- Two renamings do the same with a value if they do the same with the handles in it. -/
theorem Value.rename_eq_iff : ∀ v : Value,
    v.rename (.ofHandles ρ) = v.rename (.ofHandles σ) ↔ ∀ h ∈ v.handles, ρ h = σ h
  | .none | .bool _ | .int _ | .float _ | .str _ | .date _ | .duration _ | .months _ | .color _
  | .template _ => by simp [Value.rename, Value.handles, Renaming.ofHandles]
  | .iterator _ => by simp [Value.rename, Value.handles, Renaming.ofHandles]
  | .list items => by
    simpa only [Value.rename, Value.list.injEq, Value.handles] using Value.renameAll_eq_iff items
  | .dict entries => by
    simpa only [Value.rename, Value.dict.injEq, Value.handles] using
      Value.renameBindings_eq_iff entries

theorem Value.renameAll_eq_iff : ∀ items : List Value,
    Value.renameAll (.ofHandles ρ) items = Value.renameAll (.ofHandles σ) items ↔
      ∀ h ∈ Value.handlesAll items, ρ h = σ h
  | [] => by simp [Value.renameAll, Value.handlesAll]
  | item :: items => by
    simp only [Value.renameAll, List.cons.injEq, Value.rename_eq_iff item,
      Value.renameAll_eq_iff items, Value.handlesAll, List.forall_mem_append]

theorem Value.renameBindings_eq_iff : ∀ entries : List (String × Value),
    Value.renameBindings (.ofHandles ρ) entries = Value.renameBindings (.ofHandles σ) entries ↔
      ∀ h ∈ Value.handlesBindings entries, ρ h = σ h
  | [] => by simp [Value.renameBindings, Value.handlesBindings]
  | (key, value) :: entries => by
    simp only [Value.renameBindings, List.cons.injEq, Prod.mk.injEq, true_and,
      Value.rename_eq_iff value, Value.renameBindings_eq_iff entries, Value.handlesBindings,
      List.forall_mem_append]

end

mutual

theorem Value.rename_id : ∀ v : Value, v.rename (.ofHandles id) = v
  | .none | .bool _ | .int _ | .float _ | .str _ | .date _ | .duration _ | .months _ | .color _
  | .template _ | .iterator _ => rfl
  | .list items => by simp only [Value.rename, Value.renameAll_id items]
  | .dict entries => by simp only [Value.rename, Value.renameBindings_id entries]

theorem Value.renameAll_id : ∀ items : List Value, Value.renameAll (.ofHandles id) items = items
  | [] => rfl
  | item :: items => by simp only [Value.renameAll, Value.rename_id item, Value.renameAll_id items]

theorem Value.renameBindings_id : ∀ entries : List (String × Value),
    Value.renameBindings (.ofHandles id) entries = entries
  | [] => rfl
  | (key, value) :: entries => by
    simp only [Value.renameBindings, Value.rename_id value, Value.renameBindings_id entries]

end

/-- A renaming leaves a value alone if it leaves alone the handles in it. -/
theorem Value.rename_eq_self_iff (v : Value) :
    v.rename (.ofHandles ρ) = v ↔ ∀ h ∈ v.handles, ρ h = h := by
  have h := v.rename_eq_iff (σ := id) (ρ := ρ)
  rwa [v.rename_id] at h

end Templating
