import Templating.Proofs.Value.Grouping

/-!
# The two groupings of a product

A product of numbers and one other factor is a multiple of that factor: a text or list repeated, or
a duration, number of months or number times an integer.

* `Value.IsMultiple`: the multiples of a value; `IsMultiple.trans`: multiples of multiples.
* `Value.mul_isMultiple`: a product is a multiple, whatever the order of its factors.
* `Value.mul_grouping`: **the groupings of a product give one value**, unless a limit is passed on
  the way.
-/

namespace Templating.Value

open Number

namespace Family

/-- The families whose values have multiples. -/
def isScalable : Family → Bool
  | number | text | list | duration | months => true
  | _ => false

/-- Both groupings have no product, or all factors but one are numbers. -/
theorem product_cases (x y z : Family) (hx : x ≠ float) (hy : y ≠ float) (hz : z ≠ float) :
    ((product? y z).bind (product? x) = .none ∧ (product? x y).bind (product? · z) = .none) ∨
      (x.isScalable ∧ y = number ∧ z = number) ∨ (x = number ∧ y.isScalable ∧ z = number) ∨
      (x = number ∧ y = number ∧ z.isScalable) := by
  have hall : ∀ x ∈ all, ∀ y ∈ all, ∀ z ∈ all, x ≠ float → y ≠ float → z ≠ float →
      ((product? y z).bind (product? x) = .none ∧ (product? x y).bind (product? · z) = .none) ∨
        (x.isScalable ∧ y = number ∧ z = number) ∨ (x = number ∧ y.isScalable ∧ z = number) ∨
        (x = number ∧ y = number ∧ z.isScalable) := by decide
  exact hall x (mem_all x) y (mem_all y) z (mem_all z) hx hy hz

end Family

/-! ## Repetition -/

theorem repeatItems_eq (items : List Value) (n : Nat) :
    repeatItems items n = (List.replicate n items).flatten := by
  unfold repeatItems
  split
  next h => rw [List.isEmpty_iff.1 h, List.flatten_replicate_nil]
  next => rfl

theorem toList_repeatText (s : String) (n : Nat) :
    (repeatText s n).toList = (List.replicate n s.toList).flatten := by
  unfold repeatText
  split
  next h => simp [h]
  next => rw [String.toList_join, List.flatMap_def, List.map_replicate]

/-- Repetitions are repeated as often as the product of the numbers says. -/
theorem flatten_replicate_flatten {α : Type} (xs : List α) (m n : Nat) :
    (List.replicate n (List.replicate m xs).flatten).flatten =
      (List.replicate (m * n) xs).flatten := by
  rw [Nat.mul_comm, ← List.flatten_replicate_replicate, List.flatten_flatten, List.map_replicate]

theorem repeatItems_repeatItems (items : List Value) (m n : Nat) :
    repeatItems (repeatItems items m) n = repeatItems items (m * n) := by
  rw [repeatItems_eq, repeatItems_eq, repeatItems_eq, flatten_replicate_flatten]

theorem repeatText_repeatText (s : String) (m n : Nat) :
    repeatText (repeatText s m) n = repeatText s (m * n) := by
  apply String.toList_injective
  rw [toList_repeatText, toList_repeatText, toList_repeatText, flatten_replicate_flatten]

/-! ## Multiples -/

/-- A multiple of a value. -/
def IsMultiple (k : Int) : Value → Value → Prop
  | str s, v => 0 ≤ k ∧ v = str (repeatText s k.toNat)
  | list items, v => 0 ≤ k ∧ v = list (repeatItems items k.toNat)
  | base, v => IsSum base.family (base.measure * k) v

variable {a b c base v w : Value} {k l : Int}

theorem IsMultiple.unique (h : base.family.isScalable) (hv : IsMultiple k base v)
    (hw : IsMultiple k base w) : v = w := by
  cases base <;> first
    | exact hv.2.trans hw.2.symm
    | exact Bool.noConfusion h
    | exact IsSum.unique rfl hv hw

theorem IsMultiple.family (hv : IsMultiple k base v) : v.family = base.family := by
  cases base <;> first
    | exact hv.2 ▸ rfl
    | exact hv.1

theorem isMultiple_of_measured (h : base.family.isMeasured) :
    IsMultiple k base = IsSum base.family (base.measure * k) := by
  cases base <;> first
    | exact Bool.noConfusion h
    | rfl

/-- A multiple of a multiple. -/
theorem IsMultiple.trans (hbase : base.family.isScalable) (hv : IsMultiple k base v)
    (hw : IsMultiple l v w) : IsMultiple (k * l) base w := by
  have hfamily := hv.family
  by_cases hmeasured : base.family.isMeasured
  · rw [isMultiple_of_measured hmeasured] at hv ⊢
    rw [isMultiple_of_measured (hfamily ▸ hmeasured), hfamily, hv.2.1, Int.mul_assoc] at hw
    exact hw
  · cases base <;> first
      | exact absurd rfl hmeasured
      | exact Bool.noConfusion hbase
      | skip
    case str s =>
      obtain ⟨hk, rfl⟩ := hv
      obtain ⟨hl, rfl⟩ := hw
      refine ⟨Int.mul_nonneg hk hl, ?_⟩
      rw [repeatText_repeatText, Int.toNat_mul hk hl]
    case list items =>
      obtain ⟨hk, rfl⟩ := hv
      obtain ⟨hl, rfl⟩ := hw
      refine ⟨Int.mul_nonneg hk hl, ?_⟩
      rw [repeatItems_repeatItems, Int.toNat_mul hk hl]

theorem reaches_repetitions {P : Value → Prop} (count : Int64) (length : Nat) (f : Nat → Value)
    (h : 0 ≤ count.toInt → P (f count.toInt.toNat)) :
    Reaches P ((repetitions count length).map f) := by
  unfold repetitions
  dsimp only
  split
  next => trivial
  next hcount =>
    split
    next => trivial
    next => exact h (Int.not_lt.1 hcount)

theorem reaches_repeatStr (s : String) (n : Int64) :
    Reaches (IsMultiple n.toInt (str s)) (repeatStr s n) :=
  reaches_repetitions n s.utf8ByteSize _ fun h => ⟨h, rfl⟩

theorem reaches_repeatList (items : List Value) (n : Int64) :
    Reaches (IsMultiple n.toInt (list items)) (repeatList items n) :=
  reaches_repetitions n items.length _ fun h => ⟨h, rfl⟩

/-- Numbers are multiplied. -/
theorem mul_isSum (ha : a.family = .number) (hb : b.family = .number) :
    Reaches (IsSum .number (a.measure * b.measure)) (a.mul b) := by
  cases a <;> cases ha
  all_goals
    cases b <;> first
      | exact reaches_exactly _ _
      | cases hb

/-- The product of a value and a number, in either order, is a multiple of the value. -/
theorem mul_isMultiple (hbase : base.family.isScalable) (ha : a.family = .number) :
    Reaches (IsMultiple a.measure base) (base.mul a) ∧
      Reaches (IsMultiple a.measure base) (a.mul base) := by
  by_cases hnumber : base.family = .number
  · rw [isMultiple_of_measured (by rw [hnumber]; rfl), hnumber]
    exact ⟨mul_isSum hnumber ha, Int.mul_comm a.measure _ ▸ mul_isSum ha hnumber⟩
  · cases a <;> cases ha
    all_goals
      cases base <;> first
        | exact Bool.noConfusion hbase
        | exact absurd rfl hnumber
        | exact ⟨reaches_repeatStr _ _, reaches_repeatStr _ _⟩
        | exact ⟨reaches_repeatList _ _, reaches_repeatList _ _⟩
        | exact ⟨reaches_durationOr _ _, reaches_durationOr _ _⟩
        | exact ⟨reaches_monthsOr _ _, reaches_monthsOr _ _⟩

/-- **The groupings of a product give one value**, unless a limit is passed on the way. -/
theorem mul_grouping (ha : a.family ≠ .float) (hb : b.family ≠ .float) (hc : c.family ≠ .float) :
    SameOrLimit (groupRight .mul a b c) (groupLeft .mul a b c) := by
  rcases Family.product_cases _ _ _ ha hb hc with
    ⟨hright, hleft⟩ | ⟨ha, hb, hc⟩ | ⟨ha, hb, hc⟩ | ⟨ha, hb, hc⟩
  · refine .of_none ?_ ?_
    · exact hright ▸ (inFamily_mul b c).bind fun v => inFamily_mul a v
    · exact hleft ▸ (inFamily_mul a b).bind (g := (Family.product? · c.family)) fun v =>
        inFamily_mul v c
  · refine Reaches.sameOrLimit (P := IsMultiple (b.measure * c.measure) a) ?_ ?_
      fun v w => IsMultiple.unique ha
    · exact (mul_isSum hb hc).bind fun v hv => hv.2.1 ▸ (mul_isMultiple ha hv.1).1
    · refine (mul_isMultiple ha hb).1.bind fun v hv => ?_
      exact (mul_isMultiple (hv.family ▸ ha) hc).1.mono fun w hw => hv.trans ha hw
  · refine Reaches.sameOrLimit (P := IsMultiple (a.measure * c.measure) b) ?_ ?_
      fun v w => IsMultiple.unique hb
    · refine (mul_isMultiple hb hc).1.bind fun v hv => ?_
      rw [Int.mul_comm]
      exact (mul_isMultiple (hv.family ▸ hb) ha).2.mono fun w hw => hv.trans hb hw
    · refine (mul_isMultiple hb ha).2.bind fun v hv => ?_
      exact (mul_isMultiple (hv.family ▸ hb) hc).1.mono fun w hw => hv.trans hb hw
  · refine Reaches.sameOrLimit (P := IsMultiple (a.measure * b.measure) c) ?_ ?_
      fun v w => IsMultiple.unique hc
    · refine (mul_isMultiple hc hb).2.bind fun v hv => ?_
      rw [Int.mul_comm]
      exact (mul_isMultiple (hv.family ▸ hc) ha).2.mono fun w hw => hv.trans hc hw
    · exact (mul_isSum ha hb).bind fun v hv => hv.2.1 ▸ (mul_isMultiple hc hv.1).2

end Templating.Value
