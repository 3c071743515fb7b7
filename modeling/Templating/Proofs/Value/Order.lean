import Mathlib.Data.String.Basic
import Templating.Proofs.Calendar.DayNumber
import Templating.Proofs.Calendar.Duration
import Templating.Proofs.Value.Equality
import Templating.Value.Order

/-!
# The order of values without floats

Lists are ordered by the first pair of items that are not equal, and only that pair has to have an
order. So the order of lists is one only as far as equality and order agree. For values without
floats they do: two values that have an order are equal exactly if neither is less, and equal values
have the same order to any third.

* `Value.rank?`: the order of two values without floats, `none` if there is none.
* `Value.rank?_swap`, `Value.rank?_congr`, `Value.rank?_trans`: its laws, by induction on the first
  value.
-/

namespace Templating.Value

variable {a b c : Value} {k l m : Mark} {o o' : Ordering}

/-! ## Marks -/

/-- The order of two marks. -/
def Mark.order? : Mark → Mark → Option Ordering
  | number m, number n => some (compare m.toInt n.toInt)
  | text s, text t => some (compare s t)
  | date d, date e => some (d.compare e)
  | duration d, duration e => some (d.compare e)
  | months m, months n => some (m.compare n)
  | _, _ => .none

theorem Mark.order?_swap (k l : Mark) : l.order? k = (k.order? l).map Ordering.swap := by
  have hint (m n : Int) : some (compare n m) = some (compare m n).swap :=
    congrArg some Std.OrientedOrd.eq_swap
  cases k <;> cases l <;> try rfl
  case number.number m n => exact hint m.toInt n.toInt
  case text.text s t => exact congrArg some Std.OrientedOrd.eq_swap
  case date.date d e => exact hint d.instant e.instant
  case duration.duration d e => exact hint d.total e.total
  case months.months m n => exact hint m.count.toInt n.count.toInt

/-- Of two marks that have an order neither is less exactly if they are the same. -/
theorem Mark.order?_eq_iff (h : k.order? l = some o) : o = .eq ↔ k = l := by
  cases k <;> cases l <;>
    simp only [order?, Option.some.injEq, reduceCtorEq] at h <;> subst h
  · simp [Int64.toInt_inj]
  · simp
  · simp [Date.compare, Date.instant_injective.eq_iff]
  · simp [Duration.compare, Duration.total_injective.eq_iff]
  · rename_i m n
    cases m
    cases n
    simp [Months.compare, Int64.toInt_inj]

theorem compare_then {α : Type} [Ord α] [Std.TransOrd α] [Std.LawfulEqOrd α] {x y z : α}
    (hxy : compare x y ≠ .gt) (hyz : compare y z ≠ .gt) :
    compare x z = (compare x y).then (compare y z) := by
  cases h : compare x y with
  | gt => exact absurd h hxy
  | eq => rw [Std.LawfulEqCmp.compare_eq_iff_eq.1 h, Ordering.then]
  | lt =>
    cases h' : compare y z with
    | gt => exact absurd h' hyz
    | eq => rw [← Std.LawfulEqCmp.compare_eq_iff_eq.1 h', h]; rfl
    | lt => exact Std.TransCmp.lt_trans h h'

theorem Mark.order?_trans (h : k.order? l = some o) (h' : l.order? m = some o') (ho : o ≠ .gt)
    (ho' : o' ≠ .gt) : k.order? m = some (o.then o') := by
  cases k <;> cases l <;> simp only [order?, Option.some.injEq, reduceCtorEq] at h <;>
    cases m <;> simp only [order?, Option.some.injEq, reduceCtorEq] at h' ⊢ <;> subst h h' <;>
    exact compare_then ho ho'

/-! ## Values -/

/-- The order of two values without floats. -/
def rank? (a b : Value) : Option Ordering :=
  match order? .lt a b with
  | .ok o => o
  | .error _ => .none

/-- The order of two lists without floats. -/
def rankLists? (xs ys : List Value) : Option Ordering :=
  match orderLists? .lt xs ys with
  | .ok o => o
  | .error _ => .none

@[simp] theorem rank?_list (xs ys : List Value) :
    rank? (list xs) (list ys) = rankLists? xs ys := rfl

@[simp] theorem rankLists?_nil_nil : rankLists? [] [] = some .eq := rfl

@[simp] theorem rankLists?_nil_cons (y : Value) (ys : List Value) :
    rankLists? [] (y :: ys) = some .lt := rfl

@[simp] theorem rankLists?_cons_nil (x : Value) (xs : List Value) :
    rankLists? (x :: xs) [] = some .gt := rfl

theorem rankLists?_cons_cons (x y : Value) (xs ys : List Value) :
    rankLists? (x :: xs) (y :: ys) = if x.equal y then rankLists? xs ys else rank? x y := by
  simp only [rankLists?, orderLists?]
  by_cases h : x.equal y = true
  · simp [h]
  · simp [h, rank?]

/-- An atom has an order to the atoms of its kind. -/
theorem rank?_of_mark (ha : a.mark? = some k) (hb : b.FloatFree) :
    rank? a b = b.mark?.bind k.order? := by
  have hfloat := not_floatFree_float
  cases a <;> cases b <;>
    simp_all [mark?, rank?, order?, orderAtoms, operands?, operand?, Mark.order?, eq_comm]

theorem rank?_dict_left (es : List (String × Value)) (b : Value) : rank? (dict es) b = .none := by
  cases b <;> rfl

theorem rank?_dict_right (a : Value) (es : List (String × Value)) : rank? a (dict es) = .none := by
  cases a <;> simp [rank?, order?, orderAtoms, operands?, operand?]

theorem rank?_list_of_mark (ha : a.mark? = some k) (ys : List Value) :
    rank? (list ys) a = .none := by
  cases a <;> simp [mark?] at ha <;> rfl

/-- A result of ordering two values has the order they have; without one their types are refused. -/
def Follows (rank : Option Ordering) (r : Except Cause (Option Ordering)) : Prop :=
  match rank with
  | some o => r = .ok (some o)
  | .none => ∃ cause, r = .error cause ∧ cause.category = .typeError

/-- The operator does not matter to the order of two values. -/
theorem order?_follows (ha : a.FloatFree) (hb : b.FloatFree) (op : BinaryOp) :
    Follows (rank? a b) (order? op a b) := by
  have hfloat := not_floatFree_float
  unfold FloatFree at ha
  induction ha generalizing b with
  | @atom a hatom h =>
    have ha : a.FloatFree := .atom hatom h
    cases a <;> cases b <;> first
      | exact ⟨_, rfl, rfl⟩
      | exact hatom.elim
      | exact absurd ha (hfloat _)
      | exact absurd hb (hfloat _)
      | rfl
  | dict h ih => cases b <;> exact ⟨_, rfl, rfl⟩
  | @list xs hxs ih =>
    cases b with
    | list ys =>
      simp only [rank?_list, order?]
      have hys := hb.of_list
      clear hxs hb
      induction xs generalizing ys with
      | nil => cases ys <;> rfl
      | cons x xs ihxs =>
        cases ys with
        | nil => rfl
        | cons y ys =>
          simp only [List.forall_mem_cons] at ih hys
          rw [rankLists?_cons_cons, orderLists?]
          by_cases h : x.equal y = true
          · rw [if_pos h, if_pos h]
            exact ihxs ih.2 ys hys.2
          · rw [if_neg h, if_neg h]
            exact ih.1 hys.1
    | _ => exact ⟨_, rfl, rfl⟩

/-! ## The laws of the order -/

theorem rank?_swap (ha : a.FloatFree) (hb : b.FloatFree) (hpa : a.Proper) (hpb : b.Proper) :
    rank? b a = (rank? a b).map Ordering.swap := by
  unfold FloatFree at ha
  induction ha generalizing b with
  | @atom a hatom h =>
    obtain ⟨k, hk⟩ := FloatFree.exists_mark (.atom hatom h) hatom
    rw [rank?_of_mark hk hb]
    cases hb with
    | @atom b hatom' h' =>
      obtain ⟨l, hl⟩ := FloatFree.exists_mark (.atom hatom' h') hatom'
      rw [rank?_of_mark hl (.atom hatom h), hk, hl]
      exact k.order?_swap l
    | list _ => exact rank?_list_of_mark hk _
    | dict _ => exact rank?_dict_left _ _
  | dict _ _ => rw [rank?_dict_left, rank?_dict_right, Option.map_none]
  | @list xs hxs ih =>
    cases b with
    | list ys =>
      rw [proper_list_iff] at hpa hpb
      simp only [rank?_list]
      have hys := hb.of_list
      clear hb
      induction xs generalizing ys with
      | nil => cases ys <;> rfl
      | cons x xs ihxs =>
        cases ys with
        | nil => rfl
        | cons y ys =>
          simp only [List.forall_mem_cons] at hxs ih hpa hpb hys
          have hxy : x.equal y = true ↔ y.equal x = true :=
            ⟨equal_symm hxs.1 hys.1 hpa.1 hpb.1, equal_symm hys.1 hxs.1 hpb.1 hpa.1⟩
          rw [rankLists?_cons_cons, rankLists?_cons_cons]
          by_cases h : x.equal y = true
          · rw [if_pos h, if_pos (hxy.1 h)]
            exact ihxs hxs.2 ih.2 hpa.2 ys hpb.2 hys.2
          · rw [if_neg h, if_neg (mt hxy.2 h)]
            exact ih.1 hys.1 hpa.1 hpb.1
    | dict es => rw [rank?_dict_left, rank?_dict_right, Option.map_none]
    | float x => exact absurd hb (not_floatFree_float x)
    | _ => rfl

/-- Of two values that have an order neither is less exactly if they are equal. -/
theorem rank?_eq_iff (ha : a.FloatFree) (hb : b.FloatFree) (h : rank? a b = some o) :
    o = .eq ↔ a.equal b = true := by
  unfold FloatFree at ha
  induction ha generalizing b o with
  | @atom a hatom hfloat =>
    obtain ⟨k, hk⟩ := FloatFree.exists_mark (.atom hatom hfloat) hatom
    rw [rank?_of_mark hk hb] at h
    obtain ⟨l, hl, hkl⟩ := Option.bind_eq_some_iff.1 h
    rw [equal_iff_mark hk hb, hl, Option.some.injEq, Mark.order?_eq_iff hkl, eq_comm]
  | dict _ _ => rw [rank?_dict_left] at h; cases h
  | @list xs hxs ih =>
    cases b with
    | list ys =>
      simp only [rank?_list, equal] at h ⊢
      have hys := hb.of_list
      clear hxs hb
      induction xs generalizing ys with
      | nil => cases ys <;> cases h <;> simp [listEqual]
      | cons x xs ihxs =>
        cases ys with
        | nil => cases h; simp [listEqual]
        | cons y ys =>
          simp only [List.forall_mem_cons] at ih hys
          rw [rankLists?_cons_cons] at h
          rw [listEqual, Bool.and_eq_true]
          by_cases hxy : x.equal y = true
          · rw [if_pos hxy] at h
            simpa [hxy] using ihxs ih.2 ys h hys.2
          · rw [if_neg hxy] at h
            simpa [hxy] using (ih.1 hys.1 h).not.2 hxy
    | dict es => rw [rank?_dict_right] at h; cases h
    | _ => cases h

/-- Equal values have the same order to a third one. -/
theorem rank?_congr (ha : a.FloatFree) (hb : b.FloatFree) (hc : c.FloatFree) (hpa : a.Proper)
    (hpb : b.Proper) (hab : a.equal b = true) : rank? a c = rank? b c := by
  unfold FloatFree at ha
  induction ha generalizing b c with
  | @atom a hatom hfloat =>
    obtain ⟨k, hk⟩ := FloatFree.exists_mark (.atom hatom hfloat) hatom
    rw [rank?_of_mark hk hc, rank?_of_mark ((equal_iff_mark hk hb).1 hab) hc]
  | dict _ _ =>
    obtain ⟨fs, rfl, -⟩ := equal_dict_iff.1 hab
    rw [rank?_dict_left, rank?_dict_left]
  | @list xs hxs ih =>
    obtain ⟨ys, rfl, hall⟩ := equal_list_iff.1 hab
    cases c with
    | list zs =>
      rw [proper_list_iff] at hpa hpb
      simp only [rank?_list]
      have hys := hb.of_list
      have hzs := hc.of_list
      clear hab hb hc
      induction hall generalizing zs with
      | nil => rfl
      | @cons x y xs ys hxy _ ihxs =>
        cases zs with
        | nil => rfl
        | cons z zs =>
          simp only [List.forall_mem_cons] at hxs ih hpa hpb hys hzs
          -- equal heads are equal to the same third item, so both comparisons go on or stop
          -- together
          have hz : x.equal z = true ↔ y.equal z = true :=
            ⟨equal_trans hys.1 hxs.1 hzs.1 (equal_symm hxs.1 hys.1 hpa.1 hpb.1 hxy),
              equal_trans hxs.1 hys.1 hzs.1 hxy⟩
          rw [rankLists?_cons_cons, rankLists?_cons_cons]
          by_cases h : x.equal z = true
          · rw [if_pos h, if_pos (hz.1 h)]
            exact ihxs hxs.2 ih.2 hpa.2 hpb.2 zs hys.2 hzs.2
          · rw [if_neg h, if_neg (mt hz.2 h)]
            exact ih.1 hys.1 hzs.1 hpa.1 hpb.1 hxy
    | dict es => rw [rank?_dict_right, rank?_dict_right]
    | _ => rfl

/-- Equal values have the same order to a third one, from either side. -/
theorem rank?_congr_right (ha : a.FloatFree) (hb : b.FloatFree) (hc : c.FloatFree) (hpa : a.Proper)
    (hpb : b.Proper) (hpc : c.Proper) (hab : a.equal b = true) : rank? c a = rank? c b := by
  rw [rank?_swap ha hc hpa hpc, rank?_swap hb hc hpb hpc, rank?_congr ha hb hc hpa hpb hab]

theorem eq_lt_of_ne (hgt : o ≠ .gt) (heq : o ≠ .eq) : o = .lt := by
  cases o <;> simp_all

theorem then_lt_of_ne (hgt : o ≠ .gt) : o.then .lt = .lt := by
  cases o <;> simp_all

/-- The order is transitive on lists if it is on their first items and on the rest. -/
theorem rankLists?_trans_cons {x y z : Value} {xs ys zs : List Value} (hx : x.FloatFree)
    (hy : y.FloatFree) (hz : z.FloatFree) (hpx : x.Proper) (hpy : y.Proper) (hpz : z.Proper)
    (hhead : rank? x y = some o → rank? y z = some o' → rank? x z = some (o.then o'))
    (hrest : rankLists? xs ys = some o → rankLists? ys zs = some o' →
      rankLists? xs zs = some (o.then o'))
    (hab : rankLists? (x :: xs) (y :: ys) = some o) (hbc : rankLists? (y :: ys) (z :: zs) = some o')
    (ho : o ≠ .gt) (ho' : o' ≠ .gt) :
    rankLists? (x :: xs) (z :: zs) = some (o.then o') := by
  rw [rankLists?_cons_cons] at hab hbc ⊢
  by_cases hxy : x.equal y = true <;> by_cases hyz : y.equal z = true
  · -- Equal items have equal neighbours, and the rest decides.
    rw [if_pos hxy] at hab
    rw [if_pos hyz] at hbc
    rw [if_pos (equal_trans hx hy hz hxy hyz)]
    exact hrest hab hbc
  · -- The third list differs here from both others.
    rw [if_pos hxy] at hab
    rw [if_neg hyz] at hbc
    have hyx := equal_symm hx hy hpx hpy hxy
    have hxz : ¬ x.equal z = true := fun hxz => hyz (equal_trans hy hx hz hyx hxz)
    have hlt : o' = .lt := eq_lt_of_ne ho' (mt (rank?_eq_iff hy hz hbc).1 hyz)
    rw [if_neg hxz, rank?_congr hx hy hz hpx hpy hxy, hbc, hlt, then_lt_of_ne ho]
  · -- The first list differs here from both others.
    rw [if_neg hxy] at hab
    rw [if_pos hyz] at hbc
    have hzy := equal_symm hy hz hpy hpz hyz
    have hxz : ¬ x.equal z = true := fun hxz => hxy (equal_trans hx hz hy hxz hzy)
    have hlt : o = .lt := eq_lt_of_ne ho (mt (rank?_eq_iff hx hy hab).1 hxy)
    rw [if_neg hxz, rank?_congr_right hz hy hx hpz hpy hpx hzy, hab, hlt]
    rfl
  · -- Both steps are strict here, hence so is their composition.
    rw [if_neg hxy] at hab
    rw [if_neg hyz] at hbc
    have hlt : o = .lt := eq_lt_of_ne ho (mt (rank?_eq_iff hx hy hab).1 hxy)
    have hrank := hhead hab hbc
    subst hlt
    have hxz : ¬ x.equal z = true := fun hxz =>
      absurd ((rank?_eq_iff hx hz hrank).2 hxz) (by simp)
    rw [if_neg hxz, hrank]

/-- The order is transitive, strictly if one of the two is strict. -/
theorem rank?_trans (ha : a.FloatFree) (hb : b.FloatFree) (hc : c.FloatFree) (hpa : a.Proper)
    (hpb : b.Proper) (hpc : c.Proper) (hab : rank? a b = some o) (hbc : rank? b c = some o')
    (ho : o ≠ .gt) (ho' : o' ≠ .gt) : rank? a c = some (o.then o') := by
  unfold FloatFree at ha
  induction ha generalizing b c o o' with
  | @atom a hatom hfloat =>
    obtain ⟨k, hk⟩ := FloatFree.exists_mark (.atom hatom hfloat) hatom
    rw [rank?_of_mark hk hb] at hab
    obtain ⟨l, hl, hkl⟩ := Option.bind_eq_some_iff.1 hab
    rw [rank?_of_mark hl hc] at hbc
    obtain ⟨m, hm, hlm⟩ := Option.bind_eq_some_iff.1 hbc
    rw [rank?_of_mark hk hc, hm]
    exact Mark.order?_trans hkl hlm ho ho'
  | dict _ _ => rw [rank?_dict_left] at hab; cases hab
  | @list xs hxs ih =>
    obtain ⟨ys, rfl⟩ : ∃ ys, b = list ys := by
      cases b <;> first | exact ⟨_, rfl⟩ | cases hab
    obtain ⟨zs, rfl⟩ : ∃ zs, c = list zs := by
      cases c <;> first | exact ⟨_, rfl⟩ | cases hbc
    simp only [rank?_list] at hab hbc ⊢
    rw [proper_list_iff] at hpa hpb hpc
    have hys := hb.of_list
    have hzs := hc.of_list
    clear hb hc
    induction xs generalizing ys zs o o' with
    | nil =>
      cases ys with
      | nil => cases hab; exact hbc
      | cons y ys =>
        cases zs with
        | nil => cases hbc; exact absurd rfl ho'
        | cons z zs => cases hab; rfl
    | cons x xs ihxs =>
      cases ys with
      | nil => cases hab; exact absurd rfl ho
      | cons y ys =>
        cases zs with
        | nil => cases hbc; exact absurd rfl ho'
        | cons z zs =>
          simp only [List.forall_mem_cons] at hxs ih hpa hpb hpc hys hzs
          have hhead (hxy : rank? x y = some o) (hyz : rank? y z = some o') :=
            ih.1 hys.1 hzs.1 hpa.1 hpb.1 hpc.1 hxy hyz ho ho'
          have hrest (hxy : rankLists? xs ys = some o) (hyz : rankLists? ys zs = some o') :=
            ihxs hxs.2 ih.2 hpa.2 ho ho' ys hpb.2 hxy zs hpc.2 hyz hys.2 hzs.2
          exact rankLists?_trans_cons hxs.1 hys.1 hzs.1 hpa.1 hpb.1 hpc.1 hhead hrest hab hbc ho ho'

end Templating.Value
