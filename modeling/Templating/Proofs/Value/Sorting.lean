import Templating.Eval.Run
import Templating.Proofs.Value.Comparison

/-!
# Sorting is stable, and agrees with the extremes

A sort that succeeds leaves a trace of the choices of its merges, and one that fails does so at two
items without an order. What is true of a sorted list is shown by induction on the trace.

* `Merges`, `Sorting`: the traces of a merge and of a sort.
* `merge_cases`, `sortStable_cases`: a sort either has a trace or stops at two items of its list.
* `Sorting.perm`, `Sorting.ascending`, `Sorting.stable`: what a trace says of the sorted list.
* `extremeFrom_eq_find?`: the first item that is equal to a least or a greatest one.
* `sorted_min_max`: **`sorted`, `min` and `max` agree, and sorting is stable.**
-/

namespace Templating.Value

open Eval

variable {a x y z : Value} {xs ys zs : List Value} {o wanted : Ordering} {cause : Cause}

/-! ## The order for sorting -/

theorem order_eq_ok_iff (hx : x.FloatFree) (hy : y.FloatFree) :
    order x y = .ok o ↔ rank? x y = some o := by
  have hfollows := order?_follows hx hy .lt
  cases hrank : rank? x y with
  | none =>
    rw [hrank] at hfollows
    obtain ⟨cause, hcause, -⟩ := hfollows
    simp [order, hcause, Except.map]
  | some o' =>
    rw [hrank] at hfollows
    rw [order, hfollows]
    simp [Except.map]

/-- Two items without an order for sorting have none for the operator either. -/
theorem binary_lt_of_order (h : order x y = .error cause) : binary .lt x y = .error cause := by
  have hlt : BinaryOp.IsOrdering .lt := trivial
  rw [binary_ordering hlt]
  cases horder : order? .lt x y with
  | error cause' =>
    rw [order, horder] at h
    cases h
    rfl
  | ok o =>
    rw [order, horder] at h
    cases h

theorem Comparable.symm (hx : x.FloatFree ∧ x.Proper) (hy : y.FloatFree ∧ y.Proper)
    (h : Comparable x y) : Comparable y x := by
  obtain ⟨o, ho⟩ := (comparable_iff_rank hx.1 hy.1).1 h
  refine (comparable_iff_rank hy.1 hx.1).2 ⟨o.swap, ?_⟩
  rw [rank?_swap hx.1 hy.1 hx.2 hy.2, ho, Option.map_some]

/-- An item that is not put in front of another one is at least as great. -/
theorem says_le_of_order (hx : x.FloatFree ∧ x.Proper) (hy : y.FloatFree ∧ y.Proper)
    (h : order y x = .ok o) (ho : o ≠ .lt) : Says .le x y := by
  have hrank := (order_eq_ok_iff hy.1 hx.1).1 h
  refine (says_le_iff hx.1 hy.1).2 ⟨o.swap, ?_, ?_⟩
  · rw [rank?_swap hy.1 hx.1 hy.2 hx.2, hrank, Option.map_some]
  · cases o <;> simp_all

theorem says_lt_of_order (hx : x.FloatFree) (hy : y.FloatFree) (h : order y x = .ok .lt) :
    Says .lt y x :=
  (says_lt_iff hy hx).2 ((order_eq_ok_iff hy hx).1 h)

theorem says_le_of_lt (hx : x.FloatFree) (hy : y.FloatFree) (h : Says .lt x y) : Says .le x y :=
  (says_le_iff hx hy).2 ⟨.lt, (says_lt_iff hx hy).1 h, by decide⟩

/-- An item less than another one is not equal to it. -/
theorem not_equal_of_says_lt (hx : x.FloatFree) (hy : y.FloatFree) (h : Says .lt x y) :
    ¬ x.equal y = true := by
  intro hequal
  have hrank := (rank?_eq_iff hx hy ((says_lt_iff hx hy).1 h)).2 hequal
  cases hrank

/-! ## Traces -/

/-- Two lists are merged into a third one: an item of the second list is taken if it is less than
the next one of the first list, and that one otherwise. -/
inductive Merges : List Value → List Value → List Value → Prop
  | nilLeft (ys : List Value) : Merges [] ys ys
  | nilRight (xs : List Value) : Merges xs [] xs
  | takeRight {x y : Value} {xs ys zs : List Value} (h : order y x = .ok .lt)
      (rest : Merges (x :: xs) ys zs) : Merges (x :: xs) (y :: ys) (y :: zs)
  | takeLeft {x y : Value} {xs ys zs : List Value} {o : Ordering} (h : order y x = .ok o)
      (ho : o ≠ .lt) (rest : Merges xs (y :: ys) zs) : Merges (x :: xs) (y :: ys) (x :: zs)

/-- A list is sorted into another one: its parts are sorted and merged. -/
inductive Sorting : List Value → List Value → Prop
  | short {xs : List Value} (h : xs.length ≤ 1) : Sorting xs xs
  | parts {xs ys xs' ys' zs : List Value} (left : Sorting xs xs') (right : Sorting ys ys')
      (merges : Merges xs' ys' zs) : Sorting (xs ++ ys) zs

/-- A result stops at two items of a list, which have no order. -/
def StopsAt (xs : List Value) (result : Except Cause (List Value)) : Prop :=
  ∃ x y cause, [x, y].Sublist xs ∧ binary .lt y x = .error cause ∧ result = .error cause

theorem StopsAt.mono {result : Except Cause (List Value)} (h : StopsAt xs result)
    (hsub : xs.Sublist ys) : StopsAt ys result := by
  obtain ⟨x, y, cause, hxy, hcause, hresult⟩ := h
  exact ⟨x, y, cause, hxy.trans hsub, hcause, hresult⟩

theorem merge_of_lt (h : order y x = .ok .lt) (xs ys : List Value) :
    merge (x :: xs) (y :: ys) = (merge (x :: xs) ys).map (y :: ·) := by
  simp only [merge, h, bind, Except.bind, if_true]
  cases merge (x :: xs) ys <;> rfl

theorem merge_of_not_lt (h : order y x = .ok o) (ho : o ≠ .lt) (xs ys : List Value) :
    merge (x :: xs) (y :: ys) = (merge xs (y :: ys)).map (x :: ·) := by
  simp only [merge, h, bind, Except.bind, if_neg ho]
  cases merge xs (y :: ys) <;> rfl

theorem merge_of_error (h : order y x = .error cause) (xs ys : List Value) :
    merge (x :: xs) (y :: ys) = .error cause := by
  simp only [merge, h, bind, Except.bind]

/-- A merge has a trace, or stops at an item of each list. -/
theorem merge_cases (xs ys : List Value) :
    (∃ zs, merge xs ys = .ok zs ∧ Merges xs ys zs) ∨
      ∃ x ∈ xs, ∃ y ∈ ys, ∃ cause, order y x = .error cause ∧ merge xs ys = .error cause := by
  induction xs, ys using merge.induct with
  | case1 ys => exact .inl ⟨ys, by rw [merge], .nilLeft ys⟩
  | case2 xs h => exact .inl ⟨xs, by cases xs <;> simp [merge], .nilRight xs⟩
  | case3 x xs y ys ihright ihleft =>
    cases horder : order y x with
    | error cause =>
      have hmerge := merge_of_error horder xs ys
      exact .inr ⟨x, List.mem_cons_self, y, List.mem_cons_self, cause, horder, hmerge⟩
    | ok o =>
      by_cases ho : o = .lt
      · subst ho
        rw [merge_of_lt horder]
        obtain ⟨zs, hzs, trace⟩ | ⟨x', hx', y', hy', cause, hcause, hmerge⟩ := ihright
        · exact .inl ⟨y :: zs, by rw [hzs]; rfl, .takeRight horder trace⟩
        · exact .inr ⟨x', hx', y', List.mem_cons_of_mem y hy', cause, hcause, by rw [hmerge]; rfl⟩
      · rw [merge_of_not_lt horder ho]
        obtain ⟨zs, hzs, trace⟩ | ⟨x', hx', y', hy', cause, hcause, hmerge⟩ := ihleft
        · exact .inl ⟨x :: zs, by rw [hzs]; rfl, .takeLeft horder ho trace⟩
        · exact .inr ⟨x', List.mem_cons_of_mem x hx', y', hy', cause, hcause, by rw [hmerge]; rfl⟩

theorem Merges.perm (h : Merges xs ys zs) : zs.Perm (xs ++ ys) := by
  induction h with
  | nilLeft ys => exact .refl ys
  | nilRight xs => rw [List.append_nil]
  | takeRight _ _ ih => exact (ih.cons _).trans List.perm_middle.symm
  | takeLeft _ _ _ ih => exact ih.cons _

theorem Sorting.perm (h : Sorting xs ys) : ys.Perm xs := by
  induction h with
  | short _ => exact .refl _
  | parts _ _ merges left right => exact merges.perm.trans (left.append right)

/-- A sort has a trace, or stops at two items of the list. -/
theorem sortStable_cases (xs : List Value) :
    (∃ ys, sortStable xs = .ok ys ∧ Sorting xs ys) ∨ StopsAt xs (sortStable xs) := by
  induction xs using sortStable.induct with
  | case1 xs hshort => exact .inl ⟨xs, by rw [sortStable, if_pos hshort], .short hshort⟩
  | case2 xs hlong ihleft ihright =>
    rw [sortStable, if_neg hlong]
    obtain ⟨left, hleft, sortsLeft⟩ | stops := ihleft
    · simp only [hleft, bind, Except.bind]
      obtain ⟨right, hright, sortsRight⟩ | stops := ihright
      · simp only [hright]
        obtain ⟨zs, hzs, merges⟩ | ⟨x, hx, y, hy, cause, hcause, hmerge⟩ := merge_cases left right
        · have sorts := Sorting.parts sortsLeft sortsRight merges
          rw [List.take_append_drop] at sorts
          exact .inl ⟨zs, hzs, sorts⟩
        · -- the two items come from different halves, hence stand in this order in the list
          have hx' := List.singleton_sublist.2 (sortsLeft.perm.mem_iff.1 hx)
          have hy' := List.singleton_sublist.2 (sortsRight.perm.mem_iff.1 hy)
          have hsub := hx'.append hy'
          rw [List.take_append_drop] at hsub
          exact .inr ⟨x, y, cause, hsub, binary_lt_of_order hcause, hmerge⟩
      · obtain ⟨x, y, cause, hsub, hcause, hright⟩ := stops.mono (List.drop_sublist _ _)
        exact .inr ⟨x, y, cause, hsub, hcause, by rw [hright]⟩
    · obtain ⟨x, y, cause, hsub, hcause, hleft⟩ := stops.mono (List.take_sublist _ _)
      exact .inr ⟨x, y, cause, hsub, hcause, by rw [hleft]; rfl⟩

/-! ## Sorted lists -/

/-- The items have no floats in them, and the keys of the dicts in them are distinct. -/
def Sound (xs : List Value) : Prop := ∀ x ∈ xs, x.FloatFree ∧ x.Proper

theorem Sound.mono (h : Sound xs) (hsub : ys ⊆ xs) : Sound ys := fun y hy => h y (hsub hy)

theorem Sound.left (h : Sound (xs ++ ys)) : Sound xs := h.mono (List.subset_append_left xs ys)

theorem Sound.right (h : Sound (xs ++ ys)) : Sound ys := h.mono (List.subset_append_right xs ys)

/-- An item that is at most the first of an ascending list is at most each of its items, and less
than each of them if it is less than the first. -/
theorem below_of_head (hsound : Sound (a :: x :: xs)) (ha : Says .le a x)
    (hxs : (x :: xs).Pairwise (Says .le)) :
    ∀ z ∈ x :: xs, Says .le a z ∧ (Says .lt a x → Says .lt a z) := by
  intro z hz
  obtain rfl | hz' := List.mem_cons.1 hz
  · exact ⟨ha, id⟩
  · have hxz := (List.pairwise_cons.1 hxs).1 z hz'
    obtain ⟨hfa, hpa⟩ := hsound a (by simp)
    obtain ⟨hfx, hpx⟩ := hsound x (by simp)
    obtain ⟨hfz, hpz⟩ := hsound z (by simp [hz'])
    obtain ⟨-, hle, hlt⟩ := says_trans hfa hfx hfz hpa hpx hpz ha hxz
    exact ⟨hle, fun h => hlt (.inl h)⟩

theorem Merges.ascending (h : Merges xs ys zs) (hsound : Sound (xs ++ ys))
    (hxs : xs.Pairwise (Says .le)) (hys : ys.Pairwise (Says .le)) : zs.Pairwise (Says .le) := by
  induction h with
  | nilLeft ys => exact hys
  | nilRight xs => exact hxs
  | @takeRight x y xs ys zs horder rest ih =>
    have hperm : (y :: (x :: xs ++ ys)).Perm (x :: xs ++ y :: ys) := List.perm_middle.symm
    have hsound' := hsound.mono hperm.subset
    obtain ⟨hfx, -⟩ := hsound' x (by simp)
    obtain ⟨hfy, -⟩ := hsound' y (by simp)
    have hyx := says_le_of_lt hfy hfx (says_lt_of_order hfx hfy horder)
    -- the head taken is below the other head, hence below all behind that
    have hsub := List.cons_subset_cons y (List.subset_append_left (x :: xs) ys)
    have hleft := below_of_head (hsound'.mono hsub) hyx hxs
    obtain ⟨hright, hys⟩ := List.pairwise_cons.1 hys
    refine List.pairwise_cons.2 ⟨fun z hz => ?_, ih (hsound'.mono (by simp)) hxs hys⟩
    obtain hz | hz := List.mem_append.1 (rest.perm.subset hz)
    · exact (hleft z hz).1
    · exact hright z hz
  | @takeLeft x y xs ys zs o horder ho rest ih =>
    have hxy := says_le_of_order (hsound x (by simp)) (hsound y (by simp)) horder ho
    have hright := below_of_head (hsound.mono (by simp)) hxy hys
    obtain ⟨hleft, hxs⟩ := List.pairwise_cons.1 hxs
    refine List.pairwise_cons.2 ⟨fun z hz => ?_, ih (hsound.mono (by simp)) hxs hys⟩
    obtain hz | hz := List.mem_append.1 (rest.perm.subset hz)
    · exact hleft z hz
    · exact (hright z hz).1

/-- The items equal to a value keep their places among each other, those of the first list being
the first. -/
theorem Merges.stable (h : Merges xs ys zs) (hsound : Sound (xs ++ ys))
    (hxs : xs.Pairwise (Says .le)) (ha : a.FloatFree ∧ a.Proper) :
    zs.filter (·.equal a) = xs.filter (·.equal a) ++ ys.filter (·.equal a) := by
  induction h with
  | nilLeft ys => rfl
  | nilRight xs => rw [List.filter_nil, List.append_nil]
  | @takeRight x y xs ys zs horder rest ih =>
    have hperm : (y :: (x :: xs ++ ys)).Perm (x :: xs ++ y :: ys) := List.perm_middle.symm
    have hsound' := hsound.mono hperm.subset
    rw [List.filter_cons, List.filter_cons (x := y), ih (hsound'.mono (by simp)) hxs]
    by_cases hya : y.equal a = true
    · -- the item overtakes the first list, so nothing there is equal to it
      obtain ⟨hfx, -⟩ := hsound' x (by simp)
      obtain ⟨hfy, -⟩ := hsound' y (by simp)
      have hsub := List.cons_subset_cons y (List.subset_append_left (x :: xs) ys)
      have hyx := says_lt_of_order hfx hfy horder
      have hlt := below_of_head (hsound'.mono hsub) (says_le_of_lt hfy hfx hyx) hxs
      have hnone : (x :: xs).filter (·.equal a) = [] := by
        refine List.filter_eq_nil_iff.2 fun z hz hza => ?_
        obtain ⟨hfz, hpz⟩ := hsound z (List.mem_append_left _ hz)
        have haz := equal_symm hfz ha.1 hpz ha.2 hza
        exact not_equal_of_says_lt hfy hfz ((hlt z hz).2 hyx) (equal_trans hfy ha.1 hfz hya haz)
      rw [if_pos hya, if_pos hya, hnone, List.nil_append, List.nil_append]
    · rw [if_neg hya, if_neg hya]
  | @takeLeft x y xs ys zs o horder ho rest ih =>
    have hxs' := (List.pairwise_cons.1 hxs).2
    rw [List.filter_cons, List.filter_cons (x := x), ih (hsound.mono (by simp)) hxs']
    by_cases hxa : x.equal a = true
    · rw [if_pos hxa, if_pos hxa, List.cons_append]
    · rw [if_neg hxa, if_neg hxa]

theorem Sorting.ascending (h : Sorting xs ys) (hsound : Sound xs) : ys.Pairwise (Says .le) := by
  induction h with
  | @short xs hshort =>
    cases xs with
    | nil => exact .nil
    | cons x xs =>
      cases xs with
      | nil => exact List.pairwise_singleton _ x
      | cons x' xs => simp at hshort
  | parts left right merges ihleft ihright =>
    have hperm := left.perm.append right.perm
    exact merges.ascending (hsound.mono hperm.subset) (ihleft hsound.left) (ihright hsound.right)

theorem Sorting.stable (h : Sorting xs ys) (hsound : Sound xs) (ha : a.FloatFree ∧ a.Proper) :
    ys.filter (·.equal a) = xs.filter (·.equal a) := by
  induction h with
  | short _ => rfl
  | parts left right merges ihleft ihright =>
    have hperm := left.perm.append right.perm
    rw [merges.stable (hsound.mono hperm.subset) (left.ascending hsound.left) ha,
      ihleft hsound.left, ihright hsound.right, List.filter_append]

/-- Items that have an order in pairs are sorted. -/
theorem exists_sorting (hsound : Sound xs) (hxs : xs.Pairwise Comparable) :
    ∃ ys, sortStable xs = .ok ys ∧ Sorting xs ys := by
  obtain hsorts | ⟨x, y, cause, hsub, hcause, -⟩ := sortStable_cases xs
  · exact hsorts
  · have hx := hsound x (hsub.subset (by simp))
    have hy := hsound y (hsub.subset (by simp))
    have hxy : Comparable x y := List.pairwise_pair.1 (hxs.sublist hsub)
    obtain ⟨holds, hlt⟩ := hxy.symm hx hy .lt trivial
    rw [hlt] at hcause
    cases hcause

/-! ## The least and the greatest item -/

theorem find?_cons_of_equal (h : x.equal z = true) (xs : List Value) :
    (x :: xs).find? (·.equal z) = some x :=
  List.find?_cons_of_pos h

theorem find?_cons_of_not_equal (h : ¬ x.equal z = true) (xs : List Value) :
    (x :: xs).find? (·.equal z) = xs.find? (·.equal z) :=
  List.find?_cons_of_neg h

/-- Nothing is put in the place of an item that is equal to a least or a greatest one. -/
theorem order_ne_of_equal (hwanted : wanted ≠ .eq) (hx : x.FloatFree ∧ x.Proper)
    (hy : y.FloatFree ∧ y.Proper) (hz : z.FloatFree ∧ z.Proper) (hxz : x.equal z = true)
    (hyz : y.equal z = true ∨ rank? z y = some wanted) (ho : rank? y x = some o) : o ≠ wanted := by
  rintro rfl
  have hzx := equal_symm hx.1 hz.1 hx.2 hz.2 hxz
  obtain hyz | hrank := hyz
  · have hyx := equal_trans hy.1 hz.1 hx.1 hyz hzx
    exact hwanted ((rank?_eq_iff hy.1 hx.1 ho).2 hyx)
  · -- the two items stand to each other in both orders
    rw [rank?_congr hz.1 hx.1 hy.1 hz.2 hx.2 hzx, rank?_swap hy.1 hx.1 hy.2 hx.2, ho] at hrank
    cases o <;> simp_all

/-- An item that is not put in the place of one that is no least or greatest one is none either. -/
theorem not_equal_of_order_ne (hy : y.FloatFree ∧ y.Proper) (hx : x.FloatFree)
    (hz : z.FloatFree ∧ z.Proper) (hzx : rank? z x = some wanted) (ho : rank? y x = some o)
    (hne : o ≠ wanted) : ¬ y.equal z = true := by
  intro hyz
  rw [← rank?_congr hy.1 hz.1 hx hy.2 hz.2 hyz, ho] at hzx
  exact hne (Option.some.inj hzx)

/-- Where each item is equal to `z` or `z` stands to it as wanted, the first one that is equal to
`z` is found. -/
theorem extremeFrom_eq_find? (hwanted : wanted ≠ .eq) (hsound : Sound (x :: xs))
    (hxs : (x :: xs).Pairwise Comparable) (hz : z.FloatFree ∧ z.Proper)
    (hall : ∀ y ∈ x :: xs, y.equal z = true ∨ rank? z y = some wanted)
    (hsome : ∃ y ∈ x :: xs, y.equal z = true) :
    ∃ y, (x :: xs).find? (·.equal z) = some y ∧ extremeFrom wanted x xs = .ok y := by
  induction xs generalizing x with
  | nil =>
    obtain ⟨y, hy, hyz⟩ := hsome
    rw [List.mem_singleton.1 hy] at hyz
    exact ⟨x, find?_cons_of_equal hyz [], rfl⟩
  | cons y xs ih =>
    have hx := hsound x (by simp)
    have hy := hsound y (by simp)
    obtain ⟨hcx, hys⟩ := List.pairwise_cons.1 hxs
    have hyx : Comparable y x := (hcx y List.mem_cons_self).symm hx hy
    obtain ⟨o, ho⟩ := (comparable_iff_rank hy.1 hx.1).1 hyx
    have hskip : (x :: xs).Sublist (x :: y :: xs) := (List.sublist_cons_self y xs).cons_cons x
    have hstep : extremeFrom wanted x (y :: xs) =
        if o = wanted then extremeFrom wanted y xs else extremeFrom wanted x xs := by
      simp only [extremeFrom, (order_eq_ok_iff hy.1 hx.1).2 ho, bind, Except.bind]
    have ihx := ih (hsound.mono hskip.subset) (hxs.sublist hskip) fun y' hy' =>
      hall y' (hskip.subset hy')
    have ihy := ih (x := y) (hsound.mono (List.subset_cons_self x _)) hys fun y' hy' =>
      hall y' (List.mem_cons_of_mem x hy')
    rw [hstep]
    by_cases hxz : x.equal z = true
    · -- the first item is never replaced
      rw [if_neg (order_ne_of_equal hwanted hx hy hz hxz (hall y (by simp)) ho),
        find?_cons_of_equal hxz]
      obtain ⟨w, hw, hextreme⟩ := ihx ⟨x, List.mem_cons_self, hxz⟩
      rw [find?_cons_of_equal hxz] at hw
      exact ⟨w, hw, hextreme⟩
    · rw [find?_cons_of_not_equal hxz]
      have hrest : ∃ y' ∈ y :: xs, y'.equal z = true := by
        obtain ⟨y', hy', hyz⟩ := hsome
        obtain rfl | hy' := List.mem_cons.1 hy'
        · exact absurd hyz hxz
        · exact ⟨y', hy', hyz⟩
      by_cases hreplace : o = wanted
      · rw [if_pos hreplace]
        exact ihy hrest
      · -- the next item is no better than the first one, so it is not equal to `z` either
        have hzx : rank? z x = some wanted := (hall x List.mem_cons_self).resolve_left hxz
        have hyz := not_equal_of_order_ne hy hx.1 hz hzx ho hreplace
        rw [if_neg hreplace]
        obtain ⟨y', hy', hyz'⟩ := hrest
        obtain rfl | hy' := List.mem_cons.1 hy'
        · exact absurd hyz' hyz
        · obtain ⟨w, hw, hextreme⟩ := ihx ⟨y', List.mem_cons_of_mem x hy', hyz'⟩
          rw [find?_cons_of_not_equal hxz] at hw
          rw [find?_cons_of_not_equal hyz]
          exact ⟨w, hw, hextreme⟩

/-- The first item that is equal to a least or a greatest one is the extreme of a list. -/
theorem extreme_eq_find? (function : String) (hwanted : wanted ≠ .eq) (hsound : Sound xs)
    (hxs : xs.Pairwise Comparable) (hz : z ∈ xs)
    (hall : ∀ y ∈ xs, y.equal z = true ∨ rank? z y = some wanted) :
    ∃ y, xs.find? (·.equal z) = some y ∧ extreme function wanted xs = .ok y := by
  obtain ⟨hfz, hpz⟩ := hsound z hz
  cases xs with
  | nil => cases hz
  | cons x xs =>
    exact extremeFrom_eq_find? hwanted hsound hxs ⟨hfz, hpz⟩ hall ⟨z, hz, equal_refl hfz hpz⟩

/-! ## The functions -/

/-- A list in ascending order that has the items of another one. Items that are equal, of whatever
types, stand in the order of that list. -/
structure Sorts (xs ys : List Value) : Prop where
  perm : ys.Perm xs
  ascending : ys.Pairwise fun x y => Says .le x y ∧ ¬ Says .lt y x
  stable : ∀ a ∈ xs, ys.filter (·.equal a) = xs.filter (·.equal a)

/-- The arguments of `min` and `max` for a list: the list itself, or its items. -/
def Offers (args xs : List Value) : Prop := args = [list xs] ∨ args = xs ∧ 2 ≤ xs.length

/-- The function `min` gives the first item of a sorted list, and `max` the first item of the list
itself that is equal to the last one of the sorted list. -/
structure ExtremesAgree (ev : Evaluator) (args xs ys : List Value) (m : Machine) : Prop where
  min : ∀ least, ys.head? = some least → callFunction ev "min" args m = .ok least m
  max : ∀ last, ys.getLast? = some last → ∃ greatest,
    xs.find? (·.equal last) = some greatest ∧ callFunction ev "max" args m = .ok greatest m

theorem Sorting.sorts (h : Sorting xs ys) (hsound : Sound xs) : Sorts xs ys := by
  refine ⟨h.perm, (h.ascending hsound).imp_of_mem ?_, fun a ha => h.stable hsound (hsound a ha)⟩
  intro x y hx hy hxy
  obtain ⟨hfx, hpx⟩ := hsound x (h.perm.subset hx)
  obtain ⟨hfy, hpy⟩ := hsound y (h.perm.subset hy)
  refine ⟨hxy, fun hyx => ?_⟩
  have hxx := (says_trans hfx hfy hfx hpx hpy hpx hxy (says_le_of_lt hfy hfx hyx)).2.2 (.inr hyx)
  exact not_equal_of_says_lt hfx hfx hxx (equal_refl hfx hpx)

/-- Of two items that are not equal, the one that is at most the other is less. -/
theorem rank?_of_says_le (hx : x.FloatFree ∧ x.Proper) (hy : y.FloatFree ∧ y.Proper)
    (h : Says .le x y) : x.equal y = true ∨ rank? x y = some .lt ∧ rank? y x = some .gt := by
  obtain ⟨o, ho, hgt⟩ := (says_le_iff hx.1 hy.1).1 h
  by_cases hequal : x.equal y = true
  · exact .inl hequal
  · have hlt := eq_lt_of_ne hgt (mt (rank?_eq_iff hx.1 hy.1 ho).1 hequal)
    subst hlt
    exact .inr ⟨ho, by rw [rank?_swap hx.1 hy.1 hx.2 hy.2, ho]; rfl⟩

theorem callFunction_sorted (ev : Evaluator) (xs : List Value) (m : Machine) :
    callFunction ev "sorted" [list xs] m = (lift ((sortStable xs).map list) : Eval Value) m := by
  change (lift (sortStable xs) >>= fun ys => pure (list ys)) m = _
  cases sortStable xs <;> rfl

variable {args : List Value}

theorem callFunction_min (ev : Evaluator) (hargs : Offers args xs) (m : Machine) :
    callFunction ev "min" args m = (lift (extreme "min" .lt xs) : Eval Value) m := by
  obtain rfl | ⟨rfl, hlength⟩ := hargs
  · rfl
  · match args, hlength with
    | x :: y :: args, _ => rfl

theorem callFunction_max (ev : Evaluator) (hargs : Offers args xs) (m : Machine) :
    callFunction ev "max" args m = (lift (extreme "max" .gt xs) : Eval Value) m := by
  obtain rfl | ⟨rfl, hlength⟩ := hargs
  · rfl
  · match args, hlength with
    | x :: y :: args, _ => rfl

theorem Sorting.extremesAgree (h : Sorting xs ys) (hsound : Sound xs)
    (hxs : xs.Pairwise Comparable) (ev : Evaluator) (hargs : Offers args xs) (m : Machine) :
    ExtremesAgree ev args xs ys m := by
  have hys := hsound.mono h.perm.subset
  have hascending := h.ascending hsound
  constructor
  · intro least hleast
    obtain ⟨rest, rfl⟩ := List.head?_eq_some_iff.1 hleast
    have hmem := h.perm.subset (List.mem_cons_self (a := least) (l := rest))
    obtain ⟨hfree, hproper⟩ := hsound least hmem
    have hrefl := equal_refl hfree hproper
    have hall : ∀ y ∈ xs, y.equal least = true ∨ rank? least y = some .lt := by
      intro y hy
      obtain rfl | hy' := List.mem_cons.1 (h.perm.mem_iff.2 hy)
      · exact .inl hrefl
      · have hle := (List.pairwise_cons.1 hascending).1 y hy'
        obtain ⟨hfy, hpy⟩ := hsound y hy
        obtain hequal | ⟨hlt, -⟩ := rank?_of_says_le ⟨hfree, hproper⟩ ⟨hfy, hpy⟩ hle
        · exact .inl (equal_symm hfree hfy hproper hpy hequal)
        · exact .inr hlt
    obtain ⟨w, hw, hextreme⟩ := extreme_eq_find? "min" (by decide) hsound hxs hmem hall
    -- the sort is stable, so the first of the items equal to the least one is the least one
    have hfirst : xs.find? (·.equal least) = some least := by
      rw [← List.head?_filter, ← h.stable hsound (hsound least hmem), List.head?_filter,
        find?_cons_of_equal hrefl]
    rw [hfirst] at hw
    cases hw
    rw [callFunction_min ev hargs, hextreme]
    rfl
  · intro last hlast
    obtain ⟨init, rfl⟩ := List.getLast?_eq_some_iff.1 hlast
    have hmem := h.perm.subset (List.mem_append_right init (List.mem_singleton.2 rfl))
    obtain ⟨hfree, hproper⟩ := hsound last hmem
    have hall : ∀ y ∈ xs, y.equal last = true ∨ rank? last y = some .gt := by
      intro y hy
      obtain hy' | hy' := List.mem_append.1 (h.perm.mem_iff.2 hy)
      · have hle := (List.pairwise_append.1 hascending).2.2 y hy' last (List.mem_singleton.2 rfl)
        exact (rank?_of_says_le (hsound y hy) ⟨hfree, hproper⟩ hle).imp_right And.right
      · rw [List.mem_singleton.1 hy']
        exact .inl (equal_refl hfree hproper)
    obtain ⟨w, hw, hextreme⟩ := extreme_eq_find? "max" (by decide) hsound hxs hmem hall
    exact ⟨w, hw, by rw [callFunction_max ev hargs, hextreme]; rfl⟩

/-- **`sorted`, `min` and `max` agree, and sorting is stable.** Items without floats, each two of
which have an order, are sorted into an ascending list of the same items, in which equal items keep
their places among each other; `min` and `max` give the first items that are equal to its ends.
Whatever the items are, a sort that fails does so with the error of comparing two of them, and at
most one item is never compared. -/
theorem sorted_min_max (ev : Evaluator) (xs : List Value) (m : Machine) :
    ((∀ x ∈ xs, x.FloatFree ∧ x.Proper) → xs.Pairwise Comparable →
      ∃ ys, callFunction ev "sorted" [list xs] m = .ok (list ys) m ∧ Sorts xs ys ∧
        ∀ args, Offers args xs → ExtremesAgree ev args xs ys m) ∧
    (∀ e m', callFunction ev "sorted" [list xs] m = .error e m' →
      m' = m ∧ ∃ x y cause, [x, y].Sublist xs ∧ binary .lt y x = .error cause ∧
        e = .failed (.ofCause cause)) ∧
    (xs.length ≤ 1 → callFunction ev "sorted" [list xs] m = .ok (list xs) m) := by
  rw [callFunction_sorted]
  refine ⟨?ordered, ?failed, ?short⟩
  case ordered =>
    intro hsound hxs
    obtain ⟨ys, hys, trace⟩ := exists_sorting hsound hxs
    refine ⟨ys, by rw [hys]; rfl, trace.sorts hsound, ?_⟩
    intro args hargs
    exact trace.extremesAgree hsound hxs ev hargs m
  case failed =>
    intro e m' herror
    obtain ⟨ys, hys, -⟩ | ⟨x, y, cause, hsub, hcause, hsort⟩ := sortStable_cases xs
    · rw [hys] at herror
      cases herror
    · rw [hsort] at herror
      cases herror
      exact ⟨rfl, x, y, cause, hsub, hcause, rfl⟩
  case short =>
    intro hshort
    rw [sortStable, if_pos hshort]
    rfl

/-- A number before a truth value that is equal to it, and a number among strings. -/
theorem sorted_min_max_mixed :
    let ev := Evaluator.within 0
    let m := Machine.start 0 0 .first (.ofVars [] 0)
    let xs := [int 1, int 0, bool true]
    let ys := [int 0, int 1, bool true]
    (∀ x ∈ xs, x.FloatFree ∧ x.Proper) ∧ xs.Pairwise Comparable ∧
      callFunction ev "sorted" [list xs] m = .ok (list ys) m ∧ Sorts xs ys ∧
      callFunction ev "max" xs m = .ok (int 1) m ∧
      ∃ e, callFunction ev "sorted" [list [int 1, str "a"]] m = .error e m ∧
        ∃ x y cause, [x, y].Sublist [int 1, str "a"] ∧ binary .lt y x = .error cause ∧
          e = .failed (.ofCause cause) := by
  intro ev m xs ys
  have hsound : ∀ x ∈ xs, x.FloatFree ∧ x.Proper := by
    have hbool : (bool true).IsAtom := trivial
    have hint (n : Int64) : (int n).IsAtom := trivial
    simp [xs, FloatFree, madeOf_atom_iff, hbool, hint, Proper]
  have hxs : xs.Pairwise Comparable := by
    have hcomparable : ∀ x ∈ xs, ∀ y ∈ xs, Comparable x y := by
      simp only [xs, List.forall_mem_cons, List.not_mem_nil, false_implies, implies_true, and_true]
      refine ⟨⟨?_, ?_, ?_⟩, ⟨?_, ?_, ?_⟩, ?_, ?_, ?_⟩ <;> intro op hop <;> cases op <;>
        first | exact ⟨_, rfl⟩ | exact hop.elim
    exact List.pairwise_of_forall_mem_list hcomparable
  obtain ⟨ys', hys', hsorts, hextremes⟩ := (sorted_min_max ev xs m).1 hsound hxs
  have hsorted : callFunction ev "sorted" [list xs] m = .ok (list ys) m := by
    have hzero : order (bool true) (int 0) = .ok .gt := rfl
    have hone : order (int 0) (int 1) = .ok .lt := rfl
    have htrue : order (bool true) (int 1) = .ok .eq := rfl
    have hsort : sortStable xs = .ok ys := by
      simp [xs, ys, sortStable, merge, pure, Except.pure, bind, Except.bind, hzero, hone, htrue]
    rw [callFunction_sorted, hsort]
    rfl
  have hfails : callFunction ev "sorted" [list [int 1, str "a"]] m =
      .error (.failed (.ofCause (.unorderable "str" .lt "int"))) m := by
    have horder : order (str "a") (int 1) = .error (.unorderable "str" .lt "int") := rfl
    have hsort : sortStable [int 1, str "a"] = .error (.unorderable "str" .lt "int") := by
      simp [sortStable, merge, bind, Except.bind, horder]
    rw [callFunction_sorted, hsort]
    rfl
  rw [hsorted] at hys'
  cases hys'
  obtain ⟨greatest, hgreatest, hmax⟩ := (hextremes xs (.inr ⟨rfl, by decide⟩)).max (bool true) rfl
  cases hgreatest
  exact ⟨hsound, hxs, hsorted, hsorts, hmax, _, hfails, ((sorted_min_max ev _ m).2.1 _ _ hfails).2⟩

end Templating.Value
