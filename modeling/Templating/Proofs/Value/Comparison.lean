import Templating.Proofs.Value.Order
import Templating.Value.Operators

/-!
# Comparison is a consistent order

What the six comparison operators promise for values without floats. A pair of values has an order
or it does not, whichever operator asks and from whichever side. Lists are compared by their first
unequal pair alone, so a list may hold items without an order, such as `None`, as long as no
comparison comes down to them.

* `Value.comparison_laws`: **comparability, trichotomy, transitivity and substitution**, and the
  order of lists.
-/

namespace Templating

/-- The operators that ask for the order of two values. -/
def BinaryOp.IsOrdering : BinaryOp → Prop
  | .lt | .le | .gt | .ge => True
  | _ => False

/-- The operators that compare two values. -/
def BinaryOp.IsComparison : BinaryOp → Prop
  | .eq | .ne => True
  | op => op.IsOrdering

namespace Value

/-- A comparison is true. -/
def Says (op : BinaryOp) (a b : Value) : Prop := binary op a b = .ok (bool true)

/-- An operator fails for the types of its operands. -/
def Refused (op : BinaryOp) (a b : Value) : Prop :=
  ∃ cause, binary op a b = .error cause ∧ cause.category = .typeError

/-- Each operator that asks for the order of two values answers. -/
def Comparable (a b : Value) : Prop :=
  ∀ op : BinaryOp, op.IsOrdering → ∃ holds, binary op a b = .ok (bool holds)

/-- The operators agree on the order of two values. -/
structure Ordered (a b : Value) : Prop where
  exactlyOne :
    Says .lt a b ∧ ¬ Says .eq a b ∧ ¬ Says .gt a b ∨
    ¬ Says .lt a b ∧ Says .eq a b ∧ ¬ Says .gt a b ∨
    ¬ Says .lt a b ∧ ¬ Says .eq a b ∧ Says .gt a b
  le_iff : Says .le a b ↔ Says .lt a b ∨ Says .eq a b
  ge_iff : Says .ge a b ↔ Says .le b a
  lt_iff : Says .lt a b ↔ Says .gt b a

/-- Two results are the same value, or refuse the types of the operands both. -/
def SameAnswer : Except Cause Value → Except Cause Value → Prop
  | .ok v, .ok w => v = w
  | .error cause, .error cause' => cause.category = .typeError ∧ cause'.category = .typeError
  | _, _ => False

/-- The first items at the same place of two lists that are not equal. -/
def FirstUnequal (xs ys : List Value) (x y : Value) : Prop :=
  ∃ before after before' after', xs = before ++ x :: after ∧ ys = before' ++ y :: after' ∧
    List.Forall₂ (fun x y => x.equal y = true) before before' ∧ ¬ x.equal y = true

/-- Lists are ordered by their first unequal pair, and by their lengths if there is none. -/
structure Lexicographic (op : BinaryOp) (xs ys : List Value) : Prop where
  of_firstUnequal : ∀ x y, FirstUnequal xs ys x y →
    binary op (list xs) (list ys) = binary op x y
  of_equal : (∀ x y, ¬ FirstUnequal xs ys x y) →
    binary op (list xs) (list ys) = .ok (bool (satisfies op (some (compare xs.length ys.length))))

variable {a b c x y : Value} {o : Ordering} {op : BinaryOp} {xs ys : List Value}

/-! ## The operators by the order -/

theorem binary_ordering (hop : op.IsOrdering) (a b : Value) :
    binary op a b = (order? op a b).map fun o => bool (satisfies op o) := by
  cases op <;> first | rfl | exact hop.elim

theorem says_eq_iff : Says .eq a b ↔ a.equal b = true := by
  simp [Says, binary]

/-- Two values with an order answer each operator by it. -/
theorem binary_of_rank (ha : a.FloatFree) (hb : b.FloatFree) (hop : op.IsOrdering)
    (h : rank? a b = some o) : binary op a b = .ok (bool (satisfies op (some o))) := by
  have hfollows := order?_follows ha hb op
  rw [h] at hfollows
  rw [binary_ordering hop, hfollows]
  rfl

/-- Two values without an order are refused by each operator. -/
theorem refused_of_rank (ha : a.FloatFree) (hb : b.FloatFree) (hop : op.IsOrdering)
    (h : rank? a b = .none) : Refused op a b := by
  have hfollows := order?_follows ha hb op
  rw [h] at hfollows
  obtain ⟨cause, hcause, htype⟩ := hfollows
  refine ⟨cause, ?_, htype⟩
  rw [binary_ordering hop, hcause]
  rfl

theorem refused_iff_rank (ha : a.FloatFree) (hb : b.FloatFree) (hop : op.IsOrdering) :
    Refused op a b ↔ rank? a b = .none := by
  refine ⟨fun ⟨cause, hcause, _⟩ => ?_, refused_of_rank ha hb hop⟩
  cases h : rank? a b with
  | none => rfl
  | some o =>
    rw [binary_of_rank ha hb hop h] at hcause
    cases hcause

theorem says_iff_rank (ha : a.FloatFree) (hb : b.FloatFree) (hop : op.IsOrdering) :
    Says op a b ↔ ∃ o, rank? a b = some o ∧ satisfies op (some o) = true := by
  cases h : rank? a b with
  | none =>
    obtain ⟨cause, hcause, -⟩ := refused_of_rank ha hb hop h
    simp [Says, hcause]
  | some o => simp [Says, binary_of_rank ha hb hop h]

theorem says_lt_iff (ha : a.FloatFree) (hb : b.FloatFree) :
    Says .lt a b ↔ rank? a b = some .lt := by
  have hlt : BinaryOp.IsOrdering .lt := trivial
  simp [says_iff_rank ha hb hlt, satisfies]

theorem says_le_iff (ha : a.FloatFree) (hb : b.FloatFree) :
    Says .le a b ↔ ∃ o, rank? a b = some o ∧ o ≠ .gt := by
  have hle : BinaryOp.IsOrdering .le := trivial
  simp [says_iff_rank ha hb hle, satisfies]

theorem comparable_iff_rank (ha : a.FloatFree) (hb : b.FloatFree) :
    Comparable a b ↔ ∃ o, rank? a b = some o := by
  constructor
  · intro h
    obtain ⟨holds, hcmp⟩ := h .lt trivial
    cases hrank : rank? a b with
    | some o => exact ⟨o, rfl⟩
    | none =>
      obtain ⟨cause, hcause, -⟩ : Refused .lt a b := refused_of_rank ha hb trivial hrank
      rw [hcmp] at hcause
      cases hcause
  · rintro ⟨o, ho⟩ op hop
    exact ⟨_, binary_of_rank ha hb hop ho⟩

/-! ## The laws -/

theorem refused_comm (ha : a.FloatFree) (hb : b.FloatFree) (hpa : a.Proper) (hpb : b.Proper)
    {op' : BinaryOp} (hop : op.IsOrdering) (hop' : op'.IsOrdering) :
    Refused op a b ↔ Refused op' b a := by
  rw [refused_iff_rank ha hb hop, refused_iff_rank hb ha hop', rank?_swap ha hb hpa hpb,
    Option.map_eq_none_iff]

theorem comparable_or_refused (ha : a.FloatFree) (hb : b.FloatFree) (hop : op.IsOrdering) :
    Comparable a b ↔ ¬ Refused op a b := by
  rw [comparable_iff_rank ha hb, refused_iff_rank ha hb hop, ← Ne, Option.ne_none_iff_exists']

theorem ordered_of_comparable (ha : a.FloatFree) (hb : b.FloatFree) (hpa : a.Proper)
    (hpb : b.Proper) (h : Comparable a b) : Ordered a b := by
  obtain ⟨o, ho⟩ := (comparable_iff_rank ha hb).1 h
  have hswap : rank? b a = some o.swap := by rw [rank?_swap ha hb hpa hpb, ho, Option.map_some]
  have heq : Says .eq a b ↔ o = .eq := says_eq_iff.trans (rank?_eq_iff ha hb ho).symm
  have hcmp : ∀ op : BinaryOp, op.IsOrdering → (Says op a b ↔ satisfies op (some o) = true) := by
    intro op hop
    simp [says_iff_rank ha hb hop, ho]
  have hcmp' : ∀ op : BinaryOp, op.IsOrdering →
      (Says op b a ↔ satisfies op (some o.swap) = true) := by
    intro op hop
    simp [says_iff_rank hb ha hop, hswap]
  constructor
  · rw [hcmp .lt trivial, hcmp .gt trivial, heq]
    cases o <;> simp [satisfies]
  · rw [hcmp .le trivial, hcmp .lt trivial, heq]
    cases o <;> simp [satisfies]
  · rw [hcmp .ge trivial, hcmp' .le trivial]
    cases o <;> simp [satisfies]
  · rw [hcmp .lt trivial, hcmp' .gt trivial]
    cases o <;> simp [satisfies]

theorem says_trans (ha : a.FloatFree) (hb : b.FloatFree) (hc : c.FloatFree) (hpa : a.Proper)
    (hpb : b.Proper) (hpc : c.Proper) (hab : Says .le a b) (hbc : Says .le b c) :
    Comparable a c ∧ Says .le a c ∧ (Says .lt a b ∨ Says .lt b c → Says .lt a c) := by
  obtain ⟨o, ho, hne⟩ := (says_le_iff ha hb).1 hab
  obtain ⟨o', ho', hne'⟩ := (says_le_iff hb hc).1 hbc
  have hac := rank?_trans ha hb hc hpa hpb hpc ho ho' hne hne'
  refine ⟨(comparable_iff_rank ha hc).2 ⟨_, hac⟩, (says_le_iff ha hc).2 ⟨_, hac, ?_⟩, ?_⟩
  · cases o <;> simp_all
  · rw [says_lt_iff ha hb, says_lt_iff hb hc, says_lt_iff ha hc, ho, ho', hac]
    rintro (hlt | hlt) <;> cases hlt
    · rfl
    · rw [then_lt_of_ne hne]

/-- Pairs with the same order get the same answer from each ordering operator. -/
theorem sameAnswer_of_rank {a' b' : Value} (ha : a.FloatFree) (hb : b.FloatFree)
    (ha' : a'.FloatFree) (hb' : b'.FloatFree) (hop : op.IsOrdering)
    (h : rank? a b = rank? a' b') : SameAnswer (binary op a b) (binary op a' b') := by
  cases hrank : rank? a b with
  | some o =>
    rw [binary_of_rank ha hb hop hrank, binary_of_rank ha' hb' hop (h ▸ hrank)]
    rfl
  | none =>
    obtain ⟨cause, hcause, htype⟩ := refused_of_rank ha hb hop hrank
    obtain ⟨cause', hcause', htype'⟩ := refused_of_rank ha' hb' hop (h ▸ hrank)
    rw [hcause, hcause']
    exact ⟨htype, htype'⟩

theorem sameAnswer_of_equal (ha : a.FloatFree) (hb : b.FloatFree) (hc : c.FloatFree)
    (hpa : a.Proper) (hpb : b.Proper) (hpc : c.Proper) (hab : a.equal b = true)
    (hop : op.IsComparison) :
    SameAnswer (binary op a c) (binary op b c) ∧ SameAnswer (binary op c a) (binary op c b) := by
  have hba := equal_symm ha hb hpa hpb hab
  have hleft : a.equal c = b.equal c :=
    Bool.eq_iff_iff.2 ⟨equal_trans hb ha hc hba, equal_trans ha hb hc hab⟩
  have hright : c.equal a = c.equal b :=
    Bool.eq_iff_iff.2 ⟨fun h => equal_trans hc ha hb h hab, fun h => equal_trans hc hb ha h hba⟩
  by_cases hordering : op.IsOrdering
  · constructor
    · exact sameAnswer_of_rank ha hc hb hc hordering (rank?_congr ha hb hc hpa hpb hab)
    · refine sameAnswer_of_rank hc ha hc hb hordering ?_
      exact rank?_congr_right ha hb hc hpa hpb hpc hab
  · cases op with
    | eq | ne => simp [binary, SameAnswer, hleft, hright]
    | _ => exact absurd hop hordering

theorem FirstUnequal.cons (hxy : x.equal y = true) {x' y' : Value} (h : FirstUnequal xs ys x' y') :
    FirstUnequal (x :: xs) (y :: ys) x' y' := by
  obtain ⟨before, after, before', after', rfl, rfl, hbefore, hne⟩ := h
  exact ⟨x :: before, after, y :: before', after', rfl, rfl, .cons hxy hbefore, hne⟩

/-- An ordering operator passes over a pair of equal items. -/
theorem binary_cons_of_equal (hop : op.IsOrdering) (hxy : x.equal y = true) (xs ys : List Value) :
    binary op (list (x :: xs)) (list (y :: ys)) = binary op (list xs) (list ys) := by
  simp only [binary_ordering hop, order?, orderLists?, hxy, if_true]

/-- An ordering operator stops at a pair of unequal items. -/
theorem binary_cons_of_ne (hop : op.IsOrdering) (hxy : ¬ x.equal y = true) (xs ys : List Value) :
    binary op (list (x :: xs)) (list (y :: ys)) = binary op x y := by
  simp only [binary_ordering hop, order?, orderLists?, if_neg hxy]

theorem binary_append_of_equal (hop : op.IsOrdering) {before before' : List Value}
    (h : List.Forall₂ (fun x y => x.equal y = true) before before') (xs ys : List Value) :
    binary op (list (before ++ xs)) (list (before' ++ ys)) = binary op (list xs) (list ys) := by
  induction h with
  | nil => rfl
  | cons hxy _ ih => rw [List.cons_append, List.cons_append, binary_cons_of_equal hop hxy, ih]

theorem lexicographic (hop : op.IsOrdering) (xs ys : List Value) : Lexicographic op xs ys := by
  constructor
  · rintro x y ⟨before, after, before', after', rfl, rfl, hbefore, hne⟩
    rw [binary_append_of_equal hop hbefore, binary_cons_of_ne hop hne]
  · intro hequal
    induction xs generalizing ys with
    | nil => cases ys <;> rw [binary_ordering hop] <;> rfl
    | cons x xs ih =>
      cases ys with
      | nil => rw [binary_ordering hop]; rfl
      | cons y ys =>
        have hxy : x.equal y = true := by
          by_contra hne
          exact hequal x y ⟨[], xs, [], ys, rfl, rfl, .nil, hne⟩
        rw [binary_cons_of_equal hop hxy, ih ys fun x' y' h => hequal x' y' (h.cons hxy)]
        simp [compare, compareOfLessAndEq]

/-- **Comparison is a consistent order** of the values without floats. -/
theorem comparison_laws (ha : a.FloatFree) (hb : b.FloatFree) (hc : c.FloatFree) (hpa : a.Proper)
    (hpb : b.Proper) (hpc : c.Proper) :
    (∀ op op' : BinaryOp, op.IsOrdering → op'.IsOrdering → (Refused op a b ↔ Refused op' b a)) ∧
    (∀ op : BinaryOp, op.IsOrdering → (Comparable a b ↔ ¬ Refused op a b)) ∧
    (Comparable a b → Ordered a b) ∧
    (Says .le a b → Says .le b c →
      Comparable a c ∧ Says .le a c ∧ (Says .lt a b ∨ Says .lt b c → Says .lt a c)) ∧
    (Says .eq a b → ∀ op : BinaryOp, op.IsComparison →
      SameAnswer (binary op a c) (binary op b c) ∧ SameAnswer (binary op c a) (binary op c b)) ∧
    (∀ (op : BinaryOp) (xs ys : List Value), op.IsOrdering → Lexicographic op xs ys) := by
  refine ⟨?symmetric, ?decided, ?ordered, ?transitive, ?replaced, ?lists⟩
  case symmetric =>
    intro op op' hop hop'
    exact refused_comm ha hb hpa hpb hop hop'
  case decided =>
    intro op hop
    exact comparable_or_refused ha hb hop
  case ordered => exact ordered_of_comparable ha hb hpa hpb
  case transitive => exact says_trans ha hb hc hpa hpb hpc
  case replaced =>
    intro hab op hop
    exact sameAnswer_of_equal ha hb hc hpa hpb hpc (says_eq_iff.1 hab) hop
  case lists =>
    intro op xs ys hop
    exact lexicographic hop xs ys

/-- Lists with items that have no order, and with truth values among numbers. -/
theorem comparison_laws_nested :
    let a := list [none, dict [("k", bool true)], int 1]
    let b := list [none, dict [("k", int 1)], bool true, none]
    let c := list [none, dict [("k", bool true)], int 2]
    (a.FloatFree ∧ b.FloatFree ∧ c.FloatFree) ∧ (a.Proper ∧ b.Proper ∧ c.Proper) ∧
      Comparable a b ∧ Ordered a b ∧ Comparable a c ∧ Says .lt a c := by
  intro a b c
  have hfree : a.FloatFree ∧ b.FloatFree ∧ c.FloatFree := by
    have hnone : none.IsAtom := trivial
    have hbool : (bool true).IsAtom := trivial
    have hint (n : Int64) : (int n).IsAtom := trivial
    simp [a, b, c, FloatFree, madeOf_list_iff, madeOf_dict_iff, madeOf_atom_iff, hnone, hbool, hint]
  have hproper : a.Proper ∧ b.Proper ∧ c.Proper := by
    simp [a, b, c, Proper, AllProper, AllProperBound]
  obtain ⟨-, hdecided, hordered, htrans, -, -⟩ :=
    comparison_laws hfree.1 hfree.2.1 hfree.2.2 hproper.1 hproper.2.1 hproper.2.2
  have hcomparable : Comparable a b := by
    intro op hop
    cases op <;> first | exact ⟨_, rfl⟩ | exact hop.elim
  have hab : Says .lt a b := rfl
  have hbc : Says .lt b c := rfl
  have hle := (hordered hcomparable).le_iff.2 (.inl hab)
  obtain ⟨hac, -, hlt⟩ := htrans hle rfl
  exact ⟨hfree, hproper, hcomparable, hordered hcomparable, hac, hlt (.inl hab)⟩

end Value

end Templating
