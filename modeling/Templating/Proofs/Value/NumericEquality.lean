import Templating.Proofs.Number.Quantity
import Templating.Proofs.Value.Comparison

/-!
# Equality of numbers of different types

An integer is equal to a float if the float is the nearest one to it. Up to `2 ^ 53` that is the
integer itself, and there equality is exact and an equivalence. Beyond, two integers can be equal to
one float without being equal to each other.

* `Value.NanFree`, `Value.FloatInts`: values whose floats are numbers, and values whose integers are
  numbers that floats stand for.
* `Value.equal_float_iff`: a value is equal to a float as the float that it is converted to.
* `Value.equality_laws`: **equality is an equivalence as far as integers are not rounded.**
* `Value.equality_rounds`: a large integer is equal to a float that is another number.
-/

namespace Templating.Value

open Binary64

variable {a b c : Value} {n m : Int64} {x y z : Float} {es fs : List (String × Value)}

/-- A value whose floats, at any depth, are numbers or infinities. -/
def NanFree (a : Value) : Prop := MadeOf (fun a => ∀ x, a = float x → x.isNaN = false) a

/-- A value whose integers, at any depth, are numbers that floats stand for. -/
def FloatInts (a : Value) : Prop :=
  MadeOf (fun a => ∀ n, a.asInt? = some n → ∃ x, quantity? x = some (.finite n.toInt)) a

/-! ## Floats -/

theorem beq_comm_float (h : (x == y) = true) : (y == x) = true := by
  obtain ⟨q, hx, hy⟩ := beq_iff_quantity.1 h
  exact beq_iff_quantity.2 ⟨q, hy, hx⟩

theorem beq_trans_float (h : (x == y) = true) (h' : (y == z) = true) : (x == z) = true := by
  obtain ⟨q, hx, hy⟩ := beq_iff_quantity.1 h
  obtain ⟨r, hy', hz⟩ := beq_iff_quantity.1 h'
  rw [hy] at hy'
  cases hy'
  exact beq_iff_quantity.2 ⟨q, hx, hz⟩

theorem beq_self_float (h : x.isNaN = false) : (x == x) = true := by
  change (x.toModel.unpack).isNaN = false at h
  suffices hquantity : ∃ q, quantity? x = some q by
    obtain ⟨q, hq⟩ := hquantity
    exact beq_iff_quantity.2 ⟨q, hq, hq⟩
  cases hunpack : x.toModel.unpack with
  | notANumber => rw [hunpack] at h; cases h
  | infinity s => exact ⟨_, quantity?_of_infinity hunpack⟩
  | zero s => exact ⟨_, quantity?_of_zero hunpack⟩
  | finite s m e hm => exact ⟨_, quantity?_of_finite hunpack⟩

/-! ## Atoms -/

/-- A number that is no float is converted from an integer. -/
theorem exists_asInt?_of_asFloat? (hfree : ∀ x, a ≠ float x) (h : a.asFloat? = some x) :
    ∃ n, a.asInt? = some n ∧ x = ofWord n := by
  cases a with
  | float y => exact absurd rfl (hfree y)
  | bool | int => cases h; exact ⟨_, rfl, rfl⟩
  | _ => cases h

theorem asFloat?_of_asInt? (h : a.asInt? = some n) : a.asFloat? = some (ofWord n) := by
  cases a <;> cases h <;> rfl

theorem equal_float_iff :
    a.equal (float y) = true ↔ ∃ x, a.asFloat? = some x ∧ (x == y) = true := by
  cases a <;> simp [equal, isNone, numbersEqual?, asInt?, asFloat?]

theorem float_equal_iff :
    (float x).equal b = true ↔ ∃ y, b.asFloat? = some y ∧ (x == y) = true := by
  cases b <;> simp [equal, numbersEqual?, asInt?, asFloat?]

theorem equal_int_iff (ha : ∀ x, a ≠ float x) (hb : b.asInt? = some n) :
    a.equal b = true ↔ a.asInt? = some n := by
  cases b <;> cases hb <;> cases a <;> simp_all [equal, isNone, numbersEqual?, asInt?]

theorem int_equal_iff (ha : a.asInt? = some n) (hb : ∀ x, b ≠ float x) :
    a.equal b = true ↔ b.asInt? = some n := by
  cases a <;> cases ha <;> cases b <;>
    simp_all [equal, numbersEqual?, asInt?, asFloat?, eq_comm]

theorem IsAtom.proper (ha : a.IsAtom) : a.Proper := by
  cases a with
  | list _ | dict _ => exact ha.elim
  | _ => trivial

theorem float_or_other (a : Value) : (∃ x, a = float x) ∨ ∀ x, a ≠ float x :=
  (em (∃ x, a = float x)).imp_right fun h x hx => h ⟨x, hx⟩

theorem IsAtom.equal_refl (ha : a.IsAtom) (h : ∀ x, a = float x → x.isNaN = false) :
    a.equal a = true := by
  obtain ⟨x, rfl⟩ | hfree := float_or_other a
  · exact float_equal_iff.2 ⟨x, rfl, beq_self_float (h x rfl)⟩
  · exact Value.equal_refl (.atom ha hfree) ha.proper

theorem IsAtom.equal_symm (ha : a.IsAtom) (hb : b.IsAtom) (h : a.equal b = true) :
    b.equal a = true := by
  obtain ⟨x, rfl⟩ | hfree := float_or_other a
  · obtain ⟨y, hy, hxy⟩ := float_equal_iff.1 h
    exact equal_float_iff.2 ⟨y, hy, beq_comm_float hxy⟩
  obtain ⟨y, rfl⟩ | hfree' := float_or_other b
  · obtain ⟨x, hx, hxy⟩ := equal_float_iff.1 h
    exact float_equal_iff.2 ⟨x, hx, beq_comm_float hxy⟩
  · exact Value.equal_symm (.atom ha hfree) (.atom hb hfree') ha.proper hb.proper h

/-- Equality is transitive through an atom that is no float. -/
theorem IsAtom.equal_trans (ha : a.IsAtom) (hb : b.IsAtom) (hc : c.IsAtom)
    (hfree : ∀ x, b ≠ float x) (hab : a.equal b = true) (hbc : b.equal c = true) :
    a.equal c = true := by
  obtain ⟨x, rfl⟩ | hfree' := float_or_other a
  · obtain ⟨y, hy, hxy⟩ := float_equal_iff.1 hab
    -- what the integer in the middle is converted to is the same towards both sides
    obtain ⟨n, hn, rfl⟩ := exists_asInt?_of_asFloat? hfree hy
    obtain ⟨z, rfl⟩ | hfree'' := float_or_other c
    · obtain ⟨y, hy', hyz⟩ := equal_float_iff.1 hbc
      rw [hy] at hy'
      cases hy'
      exact float_equal_iff.2 ⟨z, rfl, beq_trans_float hxy hyz⟩
    · have hcn := (int_equal_iff hn hfree'').1 hbc
      exact float_equal_iff.2 ⟨_, asFloat?_of_asInt? hcn, hxy⟩
  obtain ⟨z, rfl⟩ | hfree'' := float_or_other c
  · obtain ⟨y, hy, hyz⟩ := equal_float_iff.1 hbc
    obtain ⟨n, hn, rfl⟩ := exists_asInt?_of_asFloat? hfree hy
    have han := (equal_int_iff hfree' hn).1 hab
    exact equal_float_iff.2 ⟨_, asFloat?_of_asInt? han, hyz⟩
  · exact Value.equal_trans (.atom ha hfree') (.atom hb hfree) (.atom hc hfree'') hab hbc

/-- Words that are not rounded are converted to different floats. -/
theorem eq_of_ofWord_beq (hn : quantity? x = some (.finite n.toInt))
    (hm : quantity? y = some (.finite m.toInt)) (h : (ofWord n == ofWord m) = true) : n = m := by
  obtain ⟨q, hq, hq'⟩ := beq_iff_quantity.1 h
  have hqn : quantity? (ofWord n) = some (.finite n.toInt) :=
    quantity?_ofInt_of_exact (natAbs_toInt_le n) hn
  have hqm : quantity? (ofWord m) = some (.finite m.toInt) :=
    quantity?_ofInt_of_exact (natAbs_toInt_le m) hm
  rw [hqn] at hq
  rw [hqm, ← hq] at hq'
  simp only [Option.some.injEq, Quantity.finite.injEq, Int.cast_inj] at hq'
  exact Int64.toInt_inj.1 hq'.symm

/-- Equality is transitive through a float if the integers on both sides are not rounded. -/
theorem equal_trans_float
    (ha : ∀ n, a.asInt? = some n → ∃ x, quantity? x = some (.finite n.toInt))
    (hc : ∀ n, c.asInt? = some n → ∃ x, quantity? x = some (.finite n.toInt))
    (hab : a.equal (float y) = true) (hbc : (float y).equal c = true) : a.equal c = true := by
  obtain ⟨x, hx, hxy⟩ := equal_float_iff.1 hab
  obtain ⟨z, hz, hyz⟩ := float_equal_iff.1 hbc
  have hxz := beq_trans_float hxy hyz
  obtain ⟨x, rfl⟩ | hfree := float_or_other a
  · cases hx
    exact float_equal_iff.2 ⟨z, hz, hxz⟩
  obtain ⟨z, rfl⟩ | hfree' := float_or_other c
  · cases hz
    exact equal_float_iff.2 ⟨x, hx, hxz⟩
  · -- two integers that are not rounded, hence the same one
    obtain ⟨n, hn, rfl⟩ := exists_asInt?_of_asFloat? hfree hx
    obtain ⟨m, hm, rfl⟩ := exists_asInt?_of_asFloat? hfree' hz
    obtain ⟨_, hquantity⟩ := ha n hn
    obtain ⟨_, hquantity'⟩ := hc m hm
    rw [int_equal_iff hn hfree', hm, eq_of_ofWord_beq hquantity hquantity' hxz]

/-! ## Dicts -/

/-- The entries of two dicts have the same keys, with equal values. -/
structure SameEntries (es fs : List (String × Value)) : Prop where
  keys : ∀ key, key ∈ es.map Prod.fst ↔ key ∈ fs.map Prod.fst
  values : ∀ key v w, (key, v) ∈ es → (key, w) ∈ fs → Says .eq v w

/-- **Dicts are equal if they have the same keys with equal values**, in whatever order. -/
theorem says_eq_dict_iff (hes : (dict es).Proper) (hfs : (dict fs).Proper) :
    Says .eq (dict es) (dict fs) ↔ SameEntries es fs := by
  have hkeys := (proper_dict_iff.1 hes).1
  have hkeys' := (proper_dict_iff.1 hfs).1
  rw [says_eq_iff, equal_dict_iff]
  constructor
  · rintro ⟨_, hdict, hlength, hall⟩
    cases hdict
    -- as many keys in both, so the keys of the first are all keys of the second
    have hsub := keys_subset_of_entriesEqual hkeys hlength hall
    refine ⟨fun key => ⟨fun hkey => ?_, fun hkey => hsub hkey⟩, fun key v w hv hw => ?_⟩
    · obtain ⟨e, he, rfl⟩ := List.mem_map.1 hkey
      obtain ⟨w, hw, -⟩ := hall e he
      exact List.mem_map.2 ⟨(e.1, w), Bindings.mem_of_lookup? hw, rfl⟩
    · obtain ⟨w', hw', hequal⟩ := hall _ hv
      rw [(Bindings.lookup?_eq_some_iff hkeys').2 hw] at hw'
      cases hw'
      exact says_eq_iff.2 hequal
  · intro hsame
    have hperm : (es.map Prod.fst).Perm (fs.map Prod.fst) :=
      (List.perm_ext_iff_of_nodup hkeys hkeys').2 hsame.keys
    have hlength : es.length = fs.length := by simpa using hperm.length_eq
    refine ⟨fs, rfl, hlength, fun e he => ?_⟩
    obtain ⟨f, hf, hkey⟩ := List.mem_map.1 ((hsame.keys e.1).1 (List.mem_map_of_mem he))
    have hmem : (e.1, f.2) ∈ fs := hkey ▸ hf
    exact ⟨f.2, (Bindings.lookup?_eq_some_iff hkeys').2 hmem,
      says_eq_iff.1 (hsame.values e.1 e.2 f.2 he hmem)⟩

/-! ## The laws -/

/-- A number is converted to a float that is as near to it as any other one. It is that float
itself unless it has more than 53 bits. -/
structure Converted (n : Int64) (q : ℚ) : Prop where
  nearest : ∀ x r, quantity? x = some (.finite r) → |q - n.toInt| ≤ |r - n.toInt|
  exact : n.toInt.natAbs ≤ 2 ^ 53 → q = n.toInt

theorem exists_converted (n : Int64) :
    ∃ q, quantity? (ofWord n) = some (.finite q) ∧ Converted n q := by
  obtain ⟨q, hq, hnearest⟩ := exists_quantity_ofInt (natAbs_toInt_le n)
  refine ⟨q, hq, hnearest, fun hsmall => ?_⟩
  rw [quantity?_ofInt hsmall] at hq
  cases hq
  rfl

/-- An integer or a truth value is equal to the floats that stand for the number to which it is
converted. -/
theorem exists_says_eq_float (ha : a.asInt? = some n) :
    ∃ q, Converted n q ∧ ∀ x, Says .eq a (float x) ↔ quantity? x = some (.finite q) := by
  obtain ⟨q, hq, hconverted⟩ := exists_converted n
  refine ⟨q, hconverted, fun x => ?_⟩
  rw [says_eq_iff, equal_float_iff, asFloat?_of_asInt? ha]
  constructor
  · rintro ⟨_, hword, hbeq⟩
    cases hword
    obtain ⟨r, hr, hx⟩ := beq_iff_quantity.1 hbeq
    rw [hq] at hr
    rw [hx, hr]
  · intro hx
    exact ⟨_, rfl, beq_iff_quantity.2 ⟨_, hq, hx⟩⟩

theorem equal_trans_of_floatFree (ha : a.NanFree) (hb : b.FloatFree) (hc : c.NanFree)
    (hab : a.equal b = true) (hbc : b.equal c = true) : a.equal c = true := by
  refine MadeOf.equal_trans (fun a b c hatom hatom' hatom'' _ hfree _ => ?_) ha hb hc hab hbc
  exact hatom.equal_trans hatom' hatom'' hfree

theorem equal_trans_of_floatInts (ha : a.FloatInts) (hb : b.NanFree) (hc : c.FloatInts)
    (hab : a.equal b = true) (hbc : b.equal c = true) : a.equal c = true := by
  refine MadeOf.equal_trans (fun a b c hatom hatom' hatom'' ha _ hc => ?_) ha hb hc hab hbc
  obtain ⟨y, rfl⟩ | hfree := float_or_other b
  · exact equal_trans_float ha hc
  · exact hatom.equal_trans hatom' hatom'' hfree

/-- **Equality is an equivalence as far as integers are not rounded.** It is reflexive and symmetric
on all values without floats that are not numbers. It is transitive unless a float stands between
integers that it is not exactly. An integer or a truth value is equal to a float if that is the
nearest one, and exactly the integer up to `2 ^ 53`. Dicts are equal if they have the same keys with
equal values. -/
theorem equality_laws (ha : a.NanFree) (hb : b.NanFree) (hc : c.NanFree) (hpa : a.Proper)
    (hpb : b.Proper) :
    Says .eq a a ∧ (Says .eq a b → Says .eq b a) ∧
    (b.FloatFree ∨ a.FloatInts ∧ c.FloatInts → Says .eq a b → Says .eq b c → Says .eq a c) ∧
    (∀ n, a.asInt? = some n →
      ∃ q, Converted n q ∧ ∀ x, Says .eq a (float x) ↔ quantity? x = some (.finite q)) ∧
    ∀ es fs, (dict es).Proper → (dict fs).Proper →
      (Says .eq (dict es) (dict fs) ↔ SameEntries es fs) := by
  refine ⟨?reflexive, ?symmetric, ?transitive, ?mixed, ?dicts⟩
  case reflexive =>
    exact says_eq_iff.2 (ha.equal_refl (fun _ hatom h => hatom.equal_refl h) hpa)
  case symmetric =>
    intro hab
    refine says_eq_iff.2 (ha.equal_symm ?_ hb hpa hpb (says_eq_iff.1 hab))
    intro a b hatom hatom' _ _ hab
    exact hatom.equal_symm hatom' hab
  case transitive =>
    intro hexact hab hbc
    rw [says_eq_iff] at hab hbc ⊢
    obtain hfree | ⟨hints, hints'⟩ := hexact
    · exact equal_trans_of_floatFree ha hfree hc hab hbc
    · exact equal_trans_of_floatInts hints hb hints' hab hbc
  case mixed =>
    intro n hn
    exact exists_says_eq_float hn
  case dicts =>
    intro es fs hes hfs
    exact says_eq_dict_iff hes hfs

/-- A truth value, a float and an integer, in lists and in dicts of different orders. -/
theorem equality_laws_nested :
    let a := list [bool true, dict [("x", int 1), ("y", none)]]
    let b := list [float (ofWord 1), dict [("y", none), ("x", float (ofWord 1))]]
    let c := list [int 1, dict [("x", bool true), ("y", none)]]
    (a.NanFree ∧ b.NanFree ∧ c.NanFree) ∧ (a.Proper ∧ b.Proper) ∧ (a.FloatInts ∧ c.FloatInts) ∧
      (Says .eq a b ∧ Says .eq b a) ∧ Says .eq b c ∧ Says .eq a c := by
  intro a b c
  have hbool : (bool true).IsAtom := trivial
  have hint : (int 1).IsAtom := trivial
  have hnone : none.IsAtom := trivial
  have hfloat : (float (ofWord 1)).IsAtom := trivial
  have hone : quantity? (ofWord 1) = some (.finite (Int64.toInt 1)) := quantity?_ofInt (by decide)
  have hnumber : (ofWord 1).isNaN = false := by decide +kernel
  have hne : ofWord 1 ≠ Float.nan := by simpa using hnumber
  have hnan : a.NanFree ∧ b.NanFree ∧ c.NanFree := by
    simp [a, b, c, NanFree, madeOf_list_iff, madeOf_dict_iff, madeOf_atom_iff, hbool, hint, hnone,
      hfloat, hne]
  have hints : a.FloatInts ∧ c.FloatInts := by
    have hexact : ∃ x, quantity? x = some (.finite (Int64.toInt 1)) := ⟨_, hone⟩
    simpa [a, c, FloatInts, madeOf_list_iff, madeOf_dict_iff, madeOf_atom_iff, hbool, hint, hnone,
      asInt?, ofBool] using hexact
  have hproper : a.Proper ∧ b.Proper := by
    simp [a, b, Proper, AllProper, AllProperBound]
  have hab : Says .eq a b := rfl
  have hbc : Says .eq b c := rfl
  obtain ⟨-, hsymm, htrans, -, -⟩ :=
    equality_laws hnan.1 hnan.2.1 hnan.2.2 hproper.1 hproper.2
  exact ⟨hnan, hproper, hints, ⟨hab, hsymm hab⟩, hbc, htrans (.inr hints) hab hbc⟩

/-- An integer of more than 53 bits is equal to a float that stands for another integer, and not
equal to that integer. -/
theorem equality_rounds :
    Says .eq (int 9007199254740993) (float (ofWord 9007199254740992)) ∧
      quantity? (ofWord 9007199254740992) = some (.finite 9007199254740992) ∧
      Says .eq (float (ofWord 9007199254740992)) (int 9007199254740992) ∧
      ¬ Says .eq (int 9007199254740993) (int 9007199254740992) := by
  have hbeq : (ofWord 9007199254740993 == ofWord 9007199254740992) = true := by decide +kernel
  have hquantity : quantity? (ofWord 9007199254740992) = some (.finite 9007199254740992) :=
    quantity?_ofInt (by decide)
  refine ⟨says_eq_iff.2 (equal_float_iff.2 ⟨_, rfl, hbeq⟩), hquantity, ?_, ?_⟩
  · have hself := beq_iff_quantity.2 ⟨_, hquantity, hquantity⟩
    exact says_eq_iff.2 (float_equal_iff.2 ⟨_, rfl, hself⟩)
  · rw [says_eq_iff, int_equal_iff rfl (by simp)]
    decide

end Templating.Value
