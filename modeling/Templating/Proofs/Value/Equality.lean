import Mathlib.Data.List.Forall2
import Mathlib.Data.List.Perm.Subperm
import Templating.Proofs.Value.Members
import Templating.Value.Equality

/-!
# Equality is an equivalence

Floats apart, equality of values is reflexive, symmetric and transitive. An atom is equal to
another one by its mark, and a truth value has the mark of a number. Lists are equal item by item.
Dicts are equal if each entry of the first has an equal one in the second and there are as many;
with distinct keys, the second then has no entry that is not in the first.

* `Value.mark?`, `Value.equal_iff_mark`: what an atom is equal by.
* `Value.equal_list_iff`, `Value.equal_dict_iff`: equality of lists and of dicts.
* `Value.MadeOf.equal_refl`, `Value.MadeOf.equal_symm`, `Value.MadeOf.equal_trans`: equality has
  these properties on values if it has them on their atoms.
* `Value.equal_refl`, `Value.equal_symm`, `Value.equal_trans`: **equality is an equivalence**.
-/

namespace Templating.Value

/-! ## Atoms -/

/-- What an atom is compared by. A truth value is compared as a number. -/
inductive Mark where
  | none
  | number (n : Int64)
  | text (s : String)
  | date (d : Date)
  | duration (d : Duration)
  | months (m : Months)
  | color (c : Color)
  | template (id : Nat)
  | iterator (handle : Handle)

/-- The mark of an atom; floats have none. -/
def mark? : Value → Option Mark
  | none => some .none
  | bool b => some (.number (ofBool b))
  | int n => some (.number n)
  | str s => some (.text s)
  | date d => some (.date d)
  | duration d => some (.duration d)
  | months m => some (.months m)
  | color c => some (.color c)
  | template t => some (.template t.id)
  | iterator handle => some (.iterator handle)
  | float _ | list _ | dict _ => .none

variable {a b c : Value} {m : Mark} {xs ys zs : List Value} {es fs gs : List (String × Value)}
  {kind kind' kind'' : Value → Prop}

/-- An atom without a mark is a float. -/
theorem FloatFree.exists_mark (ha : a.FloatFree) (hatom : a.IsAtom) : ∃ m, a.mark? = some m := by
  have hfloat := ha.of_atom hatom
  cases a with
  | float x => exact absurd rfl (hfloat x)
  | list _ | dict _ => exact hatom.elim
  | _ => exact ⟨_, rfl⟩

/-- An atom is equal to the values that have its mark. -/
theorem equal_iff_mark (ha : a.mark? = some m) (hb : b.FloatFree) :
    a.equal b = true ↔ b.mark? = some m := by
  have hfloat := not_floatFree_float
  cases a <;> cases b <;>
    simp_all [mark?, equal, isNone, numbersEqual?, asInt?, asFloat?, eq_comm]

/-! ## Lists and dicts -/

theorem listEqual_iff :
    listEqual xs ys = true ↔ List.Forall₂ (fun x y => x.equal y = true) xs ys := by
  induction xs generalizing ys with
  | nil => cases ys <;> simp [listEqual]
  | cons x xs ih => cases ys <;> simp [listEqual, ih]

theorem entriesEqual_iff : entriesEqual es fs = true ↔
    ∀ e ∈ es, ∃ y, Bindings.lookup? e.1 fs = some y ∧ e.2.equal y = true := by
  induction es with
  | nil => simp [entriesEqual]
  | cons e es ih =>
    cases h : Bindings.lookup? e.1 fs <;> simp [entriesEqual, ih, h]

theorem equal_list_iff : (list xs).equal b = true ↔
    ∃ ys, b = list ys ∧ List.Forall₂ (fun x y => x.equal y = true) xs ys := by
  cases b <;> simp [equal, listEqual_iff]

theorem equal_dict_iff : (dict es).equal b = true ↔
    ∃ fs, b = dict fs ∧ es.length = fs.length ∧
      ∀ e ∈ es, ∃ y, Bindings.lookup? e.1 fs = some y ∧ e.2.equal y = true := by
  cases b <;> simp [equal, entriesEqual_iff]

/-- An atom is equal to atoms alone. -/
theorem IsAtom.of_equal (ha : a.IsAtom) (h : a.equal b = true) : b.IsAtom := by
  cases b with
  | list _ | dict _ =>
    cases a <;> first
      | exact ha.elim
      | simp [equal, isNone, numbersEqual?, asInt?, asFloat?] at h
  | _ => trivial

/-! ## From atoms to values -/

theorem MadeOf.equal_refl (hatoms : ∀ a : Value, a.IsAtom → kind a → a.equal a = true)
    (ha : MadeOf kind a) (hproper : a.Proper) : a.equal a = true := by
  induction ha with
  | atom hatom h => exact hatoms _ hatom h
  | list h ih =>
    rw [proper_list_iff] at hproper
    exact equal_list_iff.2 ⟨_, rfl, List.forall₂_same.2 fun x hx => ih x hx (hproper x hx)⟩
  | dict h ih =>
    obtain ⟨hkeys, hproper⟩ := proper_dict_iff.1 hproper
    refine equal_dict_iff.2 ⟨_, rfl, rfl, fun e he => ⟨e.2, ?_, ih e he (hproper e he)⟩⟩
    exact (Bindings.lookup?_eq_some_iff hkeys).2 he

/-- The second of two equal dicts has no further keys. -/
theorem keys_subset_of_entriesEqual (hkeys : (es.map Prod.fst).Nodup)
    (hlength : es.length = fs.length)
    (h : ∀ e ∈ es, ∃ y, Bindings.lookup? e.1 fs = some y ∧ e.2.equal y = true) :
    fs.map Prod.fst ⊆ es.map Prod.fst := by
  have hsubset : es.map Prod.fst ⊆ fs.map Prod.fst := by
    intro key hkey
    obtain ⟨e, he, rfl⟩ := List.mem_map.1 hkey
    obtain ⟨y, hy, -⟩ := h e he
    exact Bindings.isSome_lookup?.1 (hy ▸ rfl)
  -- Distinct keys among as many keys are all of them.
  have hperm : (es.map Prod.fst).Perm (fs.map Prod.fst) := by
    refine (List.subperm_of_subset hkeys hsubset).perm_of_length_le ?_
    simp only [List.length_map, hlength, Nat.le_refl]
  exact hperm.symm.subset

theorem MadeOf.equal_symm
    (hatoms : ∀ a b : Value, a.IsAtom → b.IsAtom → kind a → kind' b → a.equal b = true →
      b.equal a = true)
    (ha : MadeOf kind a) (hb : MadeOf kind' b) (hpa : a.Proper) (hpb : b.Proper)
    (h : a.equal b = true) : b.equal a = true := by
  induction ha generalizing b with
  | atom hatom hkind =>
    have hatom' := hatom.of_equal h
    exact hatoms _ _ hatom hatom' hkind (hb.of_atom hatom') h
  | @list xs hxs ih =>
    obtain ⟨ys, rfl, hall⟩ := equal_list_iff.1 h
    rw [proper_list_iff] at hpa hpb
    refine equal_list_iff.2 ⟨xs, rfl, List.Forall₂.flip ?_⟩
    rw [List.forall₂_iff_zip] at hall ⊢
    refine ⟨hall.1, fun {x y} hxy => ?_⟩
    have hx := (List.of_mem_zip hxy).1
    have hy := (List.of_mem_zip hxy).2
    exact ih x hx (hb.of_list y hy) (hpa x hx) (hpb y hy) (hall.2 hxy)
  | @dict es hes ih =>
    obtain ⟨fs, rfl, hlength, hall⟩ := equal_dict_iff.1 h
    obtain ⟨hkeys, hpa⟩ := proper_dict_iff.1 hpa
    obtain ⟨hkeys', hpb⟩ := proper_dict_iff.1 hpb
    refine equal_dict_iff.2 ⟨es, rfl, hlength.symm, fun f hf => ?_⟩
    have hkey : f.1 ∈ es.map Prod.fst :=
      keys_subset_of_entriesEqual hkeys hlength hall (List.mem_map_of_mem hf)
    obtain ⟨e, he, hef⟩ := List.mem_map.1 hkey
    obtain ⟨y, hy, heq⟩ := hall e he
    -- The entry of `es` with this key is equal to `f`, since `f` is the entry of `fs` with it.
    have hyf : y = f.2 := by
      rw [hef, (Bindings.lookup?_eq_some_iff hkeys').2 hf] at hy
      exact (Option.some.inj hy).symm
    subst hyf
    refine ⟨e.2, ?_, ih e he (hb.of_dict f hf) (hpa e he) (hpb f hf) heq⟩
    exact (Bindings.lookup?_eq_some_iff hkeys).2 (hef ▸ he)

theorem MadeOf.equal_trans
    (hatoms : ∀ a b c : Value, a.IsAtom → b.IsAtom → c.IsAtom → kind a → kind' b → kind'' c →
      a.equal b = true → b.equal c = true → a.equal c = true)
    (ha : MadeOf kind a) (hb : MadeOf kind' b) (hc : MadeOf kind'' c)
    (hab : a.equal b = true) (hbc : b.equal c = true) : a.equal c = true := by
  induction ha generalizing b c with
  | atom hatom hkind =>
    have hatom' := hatom.of_equal hab
    have hatom'' := hatom'.of_equal hbc
    exact hatoms _ _ _ hatom hatom' hatom'' hkind (hb.of_atom hatom') (hc.of_atom hatom'') hab hbc
  | @list xs hxs ih =>
    obtain ⟨ys, rfl, hxy⟩ := equal_list_iff.1 hab
    obtain ⟨zs, rfl, hyz⟩ := equal_list_iff.1 hbc
    refine equal_list_iff.2 ⟨zs, rfl, ?_⟩
    have hys := hb.of_list
    have hzs := hc.of_list
    clear hxs hab hbc hb hc
    induction hxy generalizing zs with
    | nil => exact List.forall₂_nil_left_iff.2 (List.forall₂_nil_left_iff.1 hyz)
    | cons hxy _ ihxs =>
      obtain ⟨z, zs, hhead, htail, rfl⟩ := List.forall₂_cons_left_iff.1 hyz
      simp only [List.forall_mem_cons] at ih hys hzs
      exact .cons (ih.1 hys.1 hzs.1 hxy hhead) (ihxs ih.2 zs htail hys.2 hzs.2)
  | @dict es hes ih =>
    obtain ⟨fs, rfl, hlength, hxy⟩ := equal_dict_iff.1 hab
    obtain ⟨gs, rfl, hlength', hyz⟩ := equal_dict_iff.1 hbc
    refine equal_dict_iff.2 ⟨gs, rfl, hlength.trans hlength', fun e he => ?_⟩
    obtain ⟨y, hy, hey⟩ := hxy e he
    have hymem := Bindings.mem_of_lookup? hy
    obtain ⟨z, hz, hyz⟩ := hyz _ hymem
    have hzmem := Bindings.mem_of_lookup? hz
    exact ⟨z, hz, ih e he (hb.of_dict _ hymem) (hc.of_dict _ hzmem) hey hyz⟩

/-! ## The equivalence -/

theorem equal_refl (ha : a.FloatFree) (hproper : a.Proper) : a.equal a = true := by
  refine MadeOf.equal_refl (fun a hatom h => ?_) ha hproper
  have hfree : a.FloatFree := .atom hatom h
  obtain ⟨m, hm⟩ := hfree.exists_mark hatom
  exact (equal_iff_mark hm hfree).2 hm

theorem equal_symm (ha : a.FloatFree) (hb : b.FloatFree) (hpa : a.Proper) (hpb : b.Proper)
    (h : a.equal b = true) : b.equal a = true := by
  refine MadeOf.equal_symm (fun a b hatom hatom' ha hb hab => ?_) ha hb hpa hpb h
  have hfree : a.FloatFree := .atom hatom ha
  obtain ⟨m, hm⟩ := hfree.exists_mark hatom
  have hbm := (equal_iff_mark hm (.atom hatom' hb)).1 hab
  exact (equal_iff_mark hbm hfree).2 hm

theorem equal_trans (ha : a.FloatFree) (hb : b.FloatFree) (hc : c.FloatFree)
    (hab : a.equal b = true) (hbc : b.equal c = true) : a.equal c = true := by
  refine MadeOf.equal_trans (fun a b c hatom hatom' hatom'' ha hb hc hab hbc => ?_) ha hb hc hab hbc
  obtain ⟨m, hm⟩ := FloatFree.exists_mark (.atom hatom ha) hatom
  have hbm := (equal_iff_mark hm (.atom hatom' hb)).1 hab
  exact (equal_iff_mark hm (.atom hatom'' hc)).2 ((equal_iff_mark hbm (.atom hatom'' hc)).1 hbc)

end Templating.Value
