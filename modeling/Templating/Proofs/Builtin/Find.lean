import Templating.Eval.Run
import Templating.Proofs.Builtin.Argument
import Templating.Proofs.Text.Bytes
import Templating.Proofs.Value.Slice

/-!
# `find` and `rfind` agree with slices and membership

The methods look between two bounds, which stand for the same positions as those of a slice, and
report a position in the whole string or list.

* `FoundAt`: a needle stands at a position between two bounds.
* `Finds`: the reports of the least and of the greatest position, -1 if there is none.
* `searchByOffsets?`: a search that cuts bytes at offsets, where a cut inside a character traps.
* `finds_str`, `finds_list`: **the searches in strings and in lists.**
* `find_agrees_with_slices`: both, with membership in a slice, `startswith`, and no trap.
-/

namespace Templating

open Eval Number

/-! ## Positions and reports -/

section

variable {α β : Type}

/-- A needle stands at a position of a list, between the positions of two bounds. -/
structure FoundAt (R : α → β → Prop) (items : List α) (needle : List β)
    (start stop : Option Int64) (i : ℕ) : Prop where
  start_le : startPosition items.length start ≤ i
  le_stop : (i + needle.length : ℤ) ≤
    max (startPosition items.length start) (stopPosition items.length stop)
  stands : List.Forall₂ R (window items i (i + needle.length)) needle

/-- A report of a position, which is cut to the words, or -1 if there is none. -/
def IsReport : Option ℕ → Value → Prop
  | some i, v => ∃ w, v = .int w ∧ w.toInt = min (i : ℤ) 0x7fffffffffffffff
  | none, v => v = .int (-1)

open Text in
/-- Reports of the least and of the greatest position with a property, -1 if there is none. -/
structure Finds (P : ℕ → Prop) (first last : Value) : Prop where
  least : ∃ found, IsFirst P found ∧ IsReport found first
  greatest : ∃ found, IsLast P found ∧ IsReport found last
  first_missing : first = .int (-1) ↔ ∀ i, ¬ P i
  last_missing : last = .int (-1) ↔ ∀ i, ¬ P i

theorem isReport_positionOr (offset : ℕ) (found : Option ℕ) :
    IsReport (found.map (offset + ·)) (Builtin.positionOr offset found) := by
  cases found with
  | none => rfl
  | some i => exact ⟨ofCount (offset + i), rfl, toInt_ofCount (offset + i)⟩

/-- A position is never reported as -1. -/
theorem IsReport.eq_neg_one_iff {found : Option ℕ} {v : Value} (h : IsReport found v) :
    v = .int (-1) ↔ found = none := by
  cases found with
  | none => exact iff_of_true h rfl
  | some i =>
    obtain ⟨w, rfl, hw⟩ := h
    refine iff_of_false (fun hv => ?_) (Option.some_ne_none i)
    cases hv
    have hneg : (-1 : Int64).toInt = -1 := rfl
    omega

/-- Only the position 0 is reported as 0. -/
theorem IsReport.eq_zero_iff {found : Option ℕ} {v : Value} (h : IsReport found v) :
    v = .int 0 ↔ found = some 0 := by
  cases found with
  | none =>
    refine iff_of_false (fun hv => ?_) (Option.some_ne_none 0).symm
    cases h.symm.trans hv
  | some i =>
    obtain ⟨w, rfl, hw⟩ := h
    constructor
    · intro hv
      cases hv
      rw [Int64.toInt_zero] at hw
      rw [show i = 0 by omega]
    · intro hi
      cases hi
      rw [Nat.cast_zero, min_eq_left (by decide)] at hw
      rw [Int64.toInt_inj.1 (hw.trans Int64.toInt_zero.symm)]

open Text in
theorem Finds.of_reports {P : ℕ → Prop} {found found' : Option ℕ} {first last : Value}
    (hfirst : IsFirst P found) (hlast : IsLast P found') (hreport : IsReport found first)
    (hreport' : IsReport found' last) : Finds P first last where
  least := ⟨found, hfirst, hreport⟩
  greatest := ⟨found', hlast, hreport'⟩
  first_missing := hreport.eq_neg_one_iff.trans hfirst.eq_none_iff
  last_missing := hreport'.eq_neg_one_iff.trans hlast.eq_none_iff

/-- The positions of a slice, as those of its bounds. -/
theorem sliceBounds_eq (length : ℕ) (start stop : Option Int64) :
    ((sliceBounds length start stop).1 : ℤ) = startPosition length start ∧
      ((sliceBounds length start stop).2 : ℤ) =
        max (startPosition length start) (stopPosition length stop) := by
  rw [startPosition_eq, stopPosition_eq]
  unfold sliceBounds
  exact ⟨rfl, Nat.cast_max _ _⟩

theorem sliceBounds_le (length : ℕ) (start stop : Option Int64) :
    (sliceBounds length start stop).1 ≤ (sliceBounds length start stop).2 ∧
      (sliceBounds length start stop).2 ≤ length := by
  have hstart : (start.map (clampBound length)).getD 0 ≤ length := by
    cases start with
    | none => exact Nat.zero_le _
    | some bound => exact clampBound_le length bound
  have hstop : (stop.map (clampBound length)).getD length ≤ length := by
    cases stop with
    | none => exact le_rfl
    | some bound => exact clampBound_le length bound
  exact ⟨le_max_left _ _, max_le hstart hstop⟩

/-- A needle stands between two bounds where it stands in the slice. -/
theorem foundAt_iff {R : α → β → Prop} {items : List α} {needle : List β}
    {start stop : Option Int64} {j : ℕ} :
    FoundAt R items needle start stop j ↔
      ∃ i, (i + needle.length ≤ (sliceList items start stop).length ∧
        List.Forall₂ R (((sliceList items start stop).drop i).take needle.length) needle) ∧
        (sliceBounds items.length start stop).1 + i = j := by
  obtain ⟨hlo, hhi⟩ := sliceBounds_eq items.length start stop
  obtain ⟨hle, hle'⟩ := sliceBounds_le items.length start stop
  have hslice : sliceList items start stop =
      (items.drop (sliceBounds items.length start stop).1).take
        ((sliceBounds items.length start stop).2 - (sliceBounds items.length start stop).1) := rfl
  generalize sliceBounds items.length start stop = range at *
  obtain ⟨lo, hi⟩ := range
  dsimp only at *
  have hlength : (sliceList items start stop).length = hi - lo := by
    rw [hslice, List.length_take, List.length_drop]
    omega
  -- the same window of the items, seen from the slice and from the whole
  have hstands (i : ℕ) (hi' : i + needle.length ≤ hi - lo) :
      ((sliceList items start stop).drop i).take needle.length =
        window items (lo + i : ℕ) ((lo + i : ℕ) + needle.length) := by
    have hwindow := window_eq items (lo + i) (lo + i + needle.length)
    rw [Nat.add_sub_cancel_left] at hwindow
    push_cast at hwindow ⊢
    rw [hwindow, hslice, List.drop_take, List.take_take, List.drop_drop,
      show min needle.length (hi - lo - i) = needle.length by omega]
  constructor
  · rintro ⟨hstart, hstop, hneedle⟩
    have hinside : j - lo + needle.length ≤ hi - lo := by omega
    refine ⟨j - lo, ⟨hlength ▸ hinside, ?_⟩, by omega⟩
    rwa [hstands _ hinside, show lo + (j - lo) = j by omega]
  · rintro ⟨i, ⟨hinside, hneedle⟩, rfl⟩
    rw [hlength] at hinside
    exact ⟨by omega, by push_cast; omega, hstands i hinside ▸ hneedle⟩

end

/-! ## Strings -/

section

open Text Value

variable {args : List Value} {start stop : Option Int64} {s t : String}

theorem foundAt_str_iff {cs needle : List Char} {j : ℕ} :
    FoundAt (· = ·) cs needle start stop j ↔
      ∃ i, OccursAt needle (sliceList cs start stop) i ∧
        (sliceBounds cs.length start stop).1 + i = j := by
  rw [foundAt_iff]
  simp only [occursAt_iff_take_drop, List.forall₂_eq_eq_eq]

/-- The positions in a slice, as positions in the whole. -/
theorem isFirst_foundAt (cs needle : List Char) (start stop : Option Int64) :
    IsFirst (FoundAt (· = ·) cs needle start stop)
      ((find? needle (sliceList cs start stop)).map
        ((sliceBounds cs.length start stop).1 + ·)) :=
  (isFirst_find? _ _).map (fun _ _ h => Nat.add_le_add_left h _) fun _ => foundAt_str_iff

theorem isLast_foundAt (cs needle : List Char) (start stop : Option Int64) :
    IsLast (FoundAt (· = ·) cs needle start stop)
      ((rfind? needle (sliceList cs start stop)).map
        ((sliceBounds cs.length start stop).1 + ·)) :=
  (isLast_rfind? _ _).map (fun _ _ h => Nat.add_le_add_left h _) fun _ => foundAt_str_iff

theorem findText_eq (hargs : AreBounds args start stop) (method : Method) (t : String)
    (cs : List Char) :
    Builtin.findText ⟨method, str t :: args⟩ cs =
      .ok (Builtin.positionOr (sliceBounds cs.length start stop).1
        (if method = .findLast then rfind? t.toList (sliceList cs start stop)
          else find? t.toList (sliceList cs start stop))) := by
  obtain ⟨hstart, hstop⟩ := hargs.read (str t)
  unfold Builtin.findText Builtin.MethodCall.int?
  dsimp only
  rw [hstart, hstop]
  rfl

theorem callMethod_find_str (ev : Evaluator) (hargs : AreBounds args start stop) (s t : String)
    (m : Machine) :
    callMethod ev (str s) "find" (str t :: args) m =
        .ok (Builtin.positionOr (sliceBounds s.length start stop).1
          (find? t.toList (sliceList s.toList start stop))) m ∧
      callMethod ev (str s) "rfind" (str t :: args) m =
        .ok (Builtin.positionOr (sliceBounds s.length start stop).1
          (rfind? t.toList (sliceList s.toList start stop))) m := by
  rw [← String.length_toList]
  exact ⟨callMethod_eq_ok .find (by cases hargs <;> rfl)
      (congrArg lift (findText_eq hargs .find t s.toList)),
    callMethod_eq_ok .findLast (by cases hargs <;> rfl)
      (congrArg lift (findText_eq hargs .findLast t s.toList))⟩

/-- **The searches in strings** report the least and the greatest position. -/
theorem finds_str (ev : Evaluator) (hargs : AreBounds args start stop) (s t : String)
    (m : Machine) :
    ∃ first last, callMethod ev (str s) "find" (str t :: args) m = .ok first m ∧
      callMethod ev (str s) "rfind" (str t :: args) m = .ok last m ∧
      Finds (FoundAt (· = ·) s.toList t.toList start stop) first last := by
  obtain ⟨hfirst, hlast⟩ := callMethod_find_str ev hargs s t m
  refine ⟨_, _, hfirst, hlast, ?_⟩
  rw [← String.length_toList]
  exact .of_reports (isFirst_foundAt _ _ _ _) (isLast_foundAt _ _ _ _) (isReport_positionOr _ _)
    (isReport_positionOr _ _)

/-- A text is in a slice if it stands somewhere between the bounds. -/
theorem contains_slice_str (s t : String) (start stop : Option Int64) :
    ∃ part found, getSlice (str s) start stop = .ok part ∧ contains (str t) part = .ok found ∧
      (found = false ↔ ∀ i, ¬ FoundAt (· = ·) s.toList t.toList start stop i) := by
  refine ⟨_, Text.contains t.toList (sliceList s.toList start stop), getSlice_str s start stop, ?_,
    ?_⟩
  · exact congrArg (fun cs => Except.ok (Text.contains t.toList cs)) String.toList_ofList
  · rw [← (isFirst_foundAt s.toList t.toList start stop).eq_none_iff, Option.map_eq_none_iff,
      Text.contains, Option.isSome_eq_false_iff, Option.isNone_iff_eq_none]

theorem callMethod_startsWith (ev : Evaluator) (s t : String) (m : Machine) :
    callMethod ev (str s) "startswith" [str t] m =
      .ok (bool (t.toList.isPrefixOf s.toList)) m := rfl

/-- A text begins with another one if that one is found at 0, within as many characters. -/
theorem startsWith_iff_find (ev : Evaluator) (s t : String) {length : Int64}
    (hlength : length.toInt = t.length) (m : Machine) :
    ∃ starts found, callMethod ev (str s) "startswith" [str t] m = .ok (bool starts) m ∧
      callMethod ev (str s) "find" [str t, int 0, int length] m = .ok found m ∧
      (starts = true ↔ found = int 0) := by
  have hargs : AreBounds [int 0, int length] (some 0) (some length) :=
    .both (.given rfl) (.given rfl)
  -- as many characters as the needle has, or all if there are fewer
  have hslice : sliceList s.toList (some 0) (some length) = s.toList.take t.length := by
    have hstop : clampBound s.toList.length length = min t.length s.toList.length := by
      unfold clampBound
      rw [hlength]
      dsimp only
      rw [if_neg (by omega), Int.toNat_natCast]
    have hstart : clampBound s.toList.length 0 = 0 := by simp [clampBound]
    unfold sliceList sliceBounds
    simp only [Option.map_some, Option.getD_some, hstop, hstart]
    rw [Nat.zero_max, Nat.sub_zero, List.drop_zero, List.take_eq_take_iff, min_assoc, min_self]
  have hlo : (sliceBounds s.length (some 0) (some length)).1 = 0 := by
    simp [sliceBounds, clampBound]
  refine ⟨_, _, callMethod_startsWith ev s t m, (callMethod_find_str ev hargs s t m).1, ?_⟩
  rw [(isReport_positionOr _ _).eq_zero_iff, hlo, hslice]
  have hzero : (find? t.toList (s.toList.take t.length)).map (0 + ·) = some 0 ↔
      find? t.toList (s.toList.take t.length) = some 0 := by
    simp
  rw [hzero, (isFirst_find? _ _).eq_some_zero_iff, occursAt_zero_iff, List.isPrefixOf_iff_prefix,
    List.prefix_take_iff, String.length_toList, and_iff_left le_rfl]

end

/-! ## Lists -/

section

open Text

variable {α : Type}

theorem isFirst_findIdx? (p : α → Bool) (items : List α) :
    IsFirst (fun i => ∃ item, items[i]? = some item ∧ p item = true) (items.findIdx? p) := by
  cases hfound : items.findIdx? p with
  | none =>
    rintro i ⟨item, hitem, hp⟩
    have hnone := List.findIdx?_eq_none_iff.1 hfound item (List.mem_of_getElem? hitem)
    rw [hp] at hnone
    cases hnone
  | some i =>
    obtain ⟨hlt, hp, hbefore⟩ := List.findIdx?_eq_some_iff_getElem.1 hfound
    refine ⟨⟨items[i], List.getElem?_eq_getElem hlt, hp⟩, ?_⟩
    rintro j ⟨item, hitem, hpj⟩
    by_contra hji
    obtain ⟨hj, rfl⟩ := List.getElem?_eq_some_iff.1 hitem
    exact hbefore j (not_le.1 hji) hpj

theorem isLast_findLastIdx? (p : Value → Bool) (items : List Value) :
    IsLast (fun i => ∃ item, items[i]? = some item ∧ p item = true)
      (Builtin.findLastIdx? p items) := by
  refine (isFirst_findIdx? p items.reverse).isLast_map (fun _ _ h => Nat.sub_le_sub_left h _)
    fun j => ?_
  constructor
  · rintro ⟨item, hitem, hp⟩
    have hlt := (List.getElem?_eq_some_iff.1 hitem).1
    refine ⟨items.length - 1 - j, ⟨item, ?_, hp⟩, by omega⟩
    rw [List.getElem?_reverse (by omega),
      show items.length - 1 - (items.length - 1 - j) = j by omega, hitem]
  · rintro ⟨i, ⟨item, hitem, hp⟩, rfl⟩
    have hlt := (List.getElem?_eq_some_iff.1 hitem).1
    rw [List.length_reverse] at hlt
    rw [List.getElem?_reverse hlt] at hitem
    exact ⟨item, hitem, hp⟩

end

section

open Text Value

variable {args : List Value} {start stop : Option Int64} {items : List Value} {v : Value}

/-- A needle of one item stands where an item is equal to it. -/
theorem foundAt_list_iff {j : ℕ} :
    FoundAt (fun x y : Value => x.equal y = true) items [v] start stop j ↔
      ∃ i, (∃ item, (sliceList items start stop)[i]? = some item ∧ item.equal v = true) ∧
        (sliceBounds items.length start stop).1 + i = j := by
  rw [foundAt_iff]
  refine exists_congr fun i => and_congr_left fun _ => ?_
  generalize sliceList items start stop = part
  constructor
  · rintro ⟨hlt, hequal⟩
    rw [List.length_singleton] at hlt hequal
    rw [List.drop_eq_getElem_cons (by omega), List.take_succ_cons, List.take_zero,
      List.forall₂_cons] at hequal
    exact ⟨part[i], List.getElem?_eq_getElem (by omega), hequal.1⟩
  · rintro ⟨item, hitem, hequal⟩
    obtain ⟨hlt, rfl⟩ := List.getElem?_eq_some_iff.1 hitem
    refine ⟨hlt, ?_⟩
    rw [List.length_singleton, List.drop_eq_getElem_cons hlt, List.take_succ_cons, List.take_zero]
    exact .cons hequal .nil

theorem isFirst_foundAt_list (items : List Value) (v : Value) (start stop : Option Int64) :
    IsFirst (FoundAt (fun x y : Value => x.equal y = true) items [v] start stop)
      (((sliceList items start stop).findIdx? (·.equal v)).map
        ((sliceBounds items.length start stop).1 + ·)) :=
  (isFirst_findIdx? _ _).map (fun _ _ h => Nat.add_le_add_left h _) fun _ => foundAt_list_iff

theorem isLast_foundAt_list (items : List Value) (v : Value) (start stop : Option Int64) :
    IsLast (FoundAt (fun x y : Value => x.equal y = true) items [v] start stop)
      ((Builtin.findLastIdx? (·.equal v) (sliceList items start stop)).map
        ((sliceBounds items.length start stop).1 + ·)) :=
  (isLast_findLastIdx? _ _).map (fun _ _ h => Nat.add_le_add_left h _) fun _ => foundAt_list_iff

theorem listMethod_eq (hargs : AreBounds args start stop) (v : Value) (items : List Value) :
    Builtin.listMethod ⟨.find, v :: args⟩ items =
        .ok (Builtin.positionOr (sliceBounds items.length start stop).1
          ((sliceList items start stop).findIdx? (·.equal v))) ∧
      Builtin.listMethod ⟨.findLast, v :: args⟩ items =
        .ok (Builtin.positionOr (sliceBounds items.length start stop).1
          (Builtin.findLastIdx? (·.equal v) (sliceList items start stop))) := by
  unfold Builtin.listMethod Builtin.MethodCall.int?
  dsimp only
  rw [(hargs.read v).1, (hargs.read v).2, (hargs.read v).1, (hargs.read v).2]
  exact ⟨rfl, rfl⟩

theorem callMethod_find_list (ev : Evaluator) (hargs : AreBounds args start stop)
    (items : List Value) (v : Value) (m : Machine) :
    callMethod ev (list items) "find" (v :: args) m =
        .ok (Builtin.positionOr (sliceBounds items.length start stop).1
          ((sliceList items start stop).findIdx? (·.equal v))) m ∧
      callMethod ev (list items) "rfind" (v :: args) m =
        .ok (Builtin.positionOr (sliceBounds items.length start stop).1
          (Builtin.findLastIdx? (·.equal v) (sliceList items start stop))) m := by
  obtain ⟨hfind, hfindLast⟩ := listMethod_eq hargs v items
  exact ⟨callMethod_eq_ok .find (by cases hargs <;> rfl) (congrArg lift hfind),
    callMethod_eq_ok .findLast (by cases hargs <;> rfl) (congrArg lift hfindLast)⟩

/-- **The searches in lists** report the least and the greatest position. -/
theorem finds_list (ev : Evaluator) (hargs : AreBounds args start stop) (items : List Value)
    (v : Value) (m : Machine) :
    ∃ first last, callMethod ev (list items) "find" (v :: args) m = .ok first m ∧
      callMethod ev (list items) "rfind" (v :: args) m = .ok last m ∧
      Finds (FoundAt (fun x y : Value => x.equal y = true) items [v] start stop) first last := by
  obtain ⟨hfirst, hlast⟩ := callMethod_find_list ev hargs items v m
  exact ⟨_, _, hfirst, hlast, .of_reports (isFirst_foundAt_list _ _ _ _)
    (isLast_foundAt_list _ _ _ _) (isReport_positionOr _ _) (isReport_positionOr _ _)⟩

/-- An item is in a slice if one equal to it stands somewhere between the bounds. -/
theorem contains_slice_list (items : List Value) (v : Value) (start stop : Option Int64) :
    ∃ part found, getSlice (list items) start stop = .ok part ∧ contains v part = .ok found ∧
      (found = false ↔
        ∀ i, ¬ FoundAt (fun x y : Value => x.equal y = true) items [v] start stop i) := by
  refine ⟨_, _, getSlice_list items start stop, rfl, ?_⟩
  rw [← (isFirst_foundAt_list items v start stop).eq_none_iff, Option.map_eq_none_iff,
    List.findIdx?_eq_none_iff, member, List.any_eq_false]
  simp only [Bool.not_eq_true]

end

/-! ## Offsets -/

open Text in
/-- A search by offsets. The part between the bounds is cut out of the bytes, and what is in front
of the place found is cut off again for its characters to be counted. The result is missing if a cut
falls inside a character. -/
def searchByOffsets? (fromRight : Bool) (needle cs : List Char) (start stop : Option Int64) :
    Option (Option ℕ) := do
  let (lo, hi) := sliceBounds cs.length start stop
  let part ← cutBytes? (bytes cs) (byteOffset cs lo) (byteOffset cs hi)
  match searchBytes? fromRight (bytes needle) part with
  | none => return none
  | some offset =>
    let front ← cutBytes? part 0 offset
    return some (lo + charCount front)

section

open Text

theorem le_length_of_search? {fromRight : Bool} {needle hay : List Char} {i : ℕ}
    (h : search? fromRight needle hay = some i) : i ≤ hay.length := by
  have hoccurs : OccursAt needle hay i := by
    cases fromRight with
    | false =>
      have hfirst := isFirst_find? needle hay
      rw [show find? needle hay = some i from h] at hfirst
      exact hfirst.1
    | true =>
      have hlast := isLast_rfind? needle hay
      rw [show rfind? needle hay = some i from h] at hlast
      exact hlast.1
  exact (Nat.le_add_right _ _).trans hoccurs.add_length_le

/-- **A search by offsets cuts at boundaries only**, and finds the same positions. -/
theorem searchByOffsets?_eq (fromRight : Bool) (needle cs : List Char)
    (start stop : Option Int64) :
    searchByOffsets? fromRight needle cs start stop =
      some ((search? fromRight needle (sliceList cs start stop)).map
        ((sliceBounds cs.length start stop).1 + ·)) := by
  obtain ⟨hle, -⟩ := sliceBounds_le cs.length start stop
  have hslice : sliceList cs start stop =
      (cs.drop (sliceBounds cs.length start stop).1).take
        ((sliceBounds cs.length start stop).2 - (sliceBounds cs.length start stop).1) := rfl
  unfold searchByOffsets?
  generalize sliceBounds cs.length start stop = range at *
  obtain ⟨lo, hi⟩ := range
  dsimp only at *
  have hfront : cs.take lo ++ sliceList cs start stop = cs.take hi := by
    rw [hslice, ← List.take_add, Nat.add_sub_cancel' hle]
  -- the offsets are those of two characters, so the cut falls between characters
  have hcut := cutBytes?_bytes (cs.take lo) (sliceList cs start stop) (cs.drop hi)
  rw [hfront, List.take_append_drop] at hcut
  rw [byteOffset_eq, byteOffset_eq, hcut]
  simp only [Option.bind_eq_bind, Option.bind_some]
  rw [searchBytes?_eq]
  cases hsearch : search? fromRight needle (sliceList cs start stop) with
  | none => rfl
  | some i =>
    have hi := le_length_of_search? hsearch
    have hcut' := cutBytes?_bytes [] ((sliceList cs start stop).take i)
      ((sliceList cs start stop).drop i)
    rw [List.nil_append, List.take_append_drop, bytes_nil, List.length_nil] at hcut'
    simp only [Option.map_some]
    rw [hcut', Option.bind_some, charCount_bytes, List.length_take, Nat.min_eq_left hi]
    rfl

end

/-! ## Slices at a position -/

/-- A slice whose bounds are two positions. -/
theorem sliceList_at {α : Type} (items : List α) {a b : Int64} {i n : ℕ} (ha : a.toInt = i)
    (hb : b.toInt = i + n) : sliceList items (some a) (some b) = window items i (i + n) := by
  have hwindow := window_eq items i (i + n)
  push_cast at hwindow
  rw [hwindow]
  unfold sliceList sliceBounds clampBound
  simp only [Option.map_some, Option.getD_some, ha, hb]
  rw [if_neg (by omega), if_neg (by omega), Int.toNat_natCast, ← Nat.cast_add, Int.toNat_natCast,
    Nat.add_sub_cancel_left]
  by_cases hi : i ≤ items.length
  · rw [min_eq_left hi, List.take_eq_take_iff, List.length_drop]
    omega
  · rw [List.drop_eq_nil_of_le (by omega), List.drop_eq_nil_of_le (by omega), List.take_nil,
      List.take_nil]

open Text Value

/-- **`find` and `rfind` agree with slices and membership.** In a string, the methods report the
least and the greatest position between the bounds of a slice at which the needle stands, counted in
characters, and -1 exactly if the needle is not in the slice; that a text stands at a position means
that the slice from there on, of as many characters, is the text. A string starts with a text
exactly if the text is found at 0 within as many characters. In a list, the same is true of a needle
of one item and items that are equal to it. Carried out on the bytes of the strings, the search
never cuts inside a character and finds the same positions. -/
theorem find_agrees_with_slices (ev : Evaluator) (m : Machine) :
    (∀ (s t : String) args start stop, AreBounds args start stop →
      ∃ first last part found, callMethod ev (str s) "find" (str t :: args) m = .ok first m ∧
        callMethod ev (str s) "rfind" (str t :: args) m = .ok last m ∧
        Finds (FoundAt (· = ·) s.toList t.toList start stop) first last ∧
        getSlice (str s) start stop = .ok part ∧ contains (str t) part = .ok found ∧
        (first = int (-1) ↔ found = false) ∧ (last = int (-1) ↔ found = false)) ∧
    (∀ (s t : String) (i : ℕ) (a b : Int64), a.toInt = i → b.toInt = i + t.length →
      (getSlice (str s) (some a) (some b) = .ok (str t) ↔
        List.Forall₂ (· = ·) (window s.toList i (i + t.toList.length)) t.toList)) ∧
    (∀ (s t : String) (length : Int64), length.toInt = t.length →
      ∃ starts found, callMethod ev (str s) "startswith" [str t] m = .ok (bool starts) m ∧
        callMethod ev (str s) "find" [str t, int 0, int length] m = .ok found m ∧
        (starts = true ↔ found = int 0)) ∧
    (∀ (items : List Value) v args start stop, AreBounds args start stop →
      ∃ first last part found, callMethod ev (list items) "find" (v :: args) m = .ok first m ∧
        callMethod ev (list items) "rfind" (v :: args) m = .ok last m ∧
        Finds (FoundAt (fun x y : Value => x.equal y = true) items [v] start stop) first last ∧
        getSlice (list items) start stop = .ok part ∧ contains v part = .ok found ∧
        (first = int (-1) ↔ found = false) ∧ (last = int (-1) ↔ found = false)) ∧
    ∀ (s t : String) start stop,
      ∃ first last, searchByOffsets? false t.toList s.toList start stop = some first ∧
        searchByOffsets? true t.toList s.toList start stop = some last ∧
        IsFirst (FoundAt (· = ·) s.toList t.toList start stop) first ∧
        IsLast (FoundAt (· = ·) s.toList t.toList start stop) last := by
  refine ⟨?strings, ?slices, ?starts, ?lists, ?offsets⟩
  case strings =>
    intro s t args start stop hargs
    obtain ⟨first, last, hfirst, hlast, hfinds⟩ := finds_str ev hargs s t m
    obtain ⟨part, found, hpart, hfound, hiff⟩ := contains_slice_str s t start stop
    exact ⟨first, last, part, found, hfirst, hlast, hfinds, hpart, hfound,
      hfinds.first_missing.trans hiff.symm, hfinds.last_missing.trans hiff.symm⟩
  case slices =>
    intro s t i a b ha hb
    rw [getSlice_str, sliceList_at s.toList ha hb, List.forall₂_eq_eq_eq, String.length_toList,
      Except.ok.injEq, Value.str.injEq, ← String.toList_inj, String.toList_ofList]
  case starts =>
    intro s t length hlength
    exact startsWith_iff_find ev s t hlength m
  case lists =>
    intro items v args start stop hargs
    obtain ⟨first, last, hfirst, hlast, hfinds⟩ := finds_list ev hargs items v m
    obtain ⟨part, found, hpart, hfound, hiff⟩ := contains_slice_list items v start stop
    exact ⟨first, last, part, found, hfirst, hlast, hfinds, hpart, hfound,
      hfinds.first_missing.trans hiff.symm, hfinds.last_missing.trans hiff.symm⟩
  case offsets =>
    intro s t start stop
    exact ⟨_, _, searchByOffsets?_eq false _ _ start stop, searchByOffsets?_eq true _ _ start stop,
      isFirst_foundAt _ _ _ _, isLast_foundAt _ _ _ _⟩

/-- A needle that overlaps itself, of characters of two bytes, behind a bound from the end; and a
number that is equal to a truth value. -/
theorem find_agrees_with_slices_overlap :
    let ev := Evaluator.within 0
    let m := Machine.start 0 0 .first (.ofVars [] 0)
    let args := [int (-4), .none]
    let items := [int 1, int 0, int 1, int 1]
    AreBounds args (some (-4)) none ∧
      callMethod ev (str "aéééa") "find" (str "éé" :: args) m = .ok (int 1) m ∧
      callMethod ev (str "aéééa") "rfind" (str "éé" :: args) m = .ok (int 2) m ∧
      Finds (FoundAt (· = ·) "aéééa".toList "éé".toList (some (-4)) none) (int 1) (int 2) ∧
      callMethod ev (list items) "find" (bool true :: args) m = .ok (int 0) m ∧
      callMethod ev (list items) "rfind" (bool true :: args) m = .ok (int 3) m ∧
      Finds (FoundAt (fun x y : Value => x.equal y = true) items [bool true] (some (-4)) none)
        (int 0) (int 3) := by
  intro ev m args items
  have hargs : AreBounds args (some (-4)) none := .both (.given rfl) .missing
  obtain ⟨first, last, part, found, hfirst, hlast, hfinds, -⟩ :=
    (find_agrees_with_slices ev m).1 "aéééa" "éé" args _ _ hargs
  obtain ⟨first', last', part', found', hfirst', hlast', hfinds', -⟩ :=
    (find_agrees_with_slices ev m).2.2.2.1 items (bool true) args _ _ hargs
  have hone : callMethod ev (str "aéééa") "find" (str "éé" :: args) m = .ok (int 1) m := rfl
  have htwo : callMethod ev (str "aéééa") "rfind" (str "éé" :: args) m = .ok (int 2) m := rfl
  have hzero : callMethod ev (list items) "find" (bool true :: args) m = .ok (int 0) m := rfl
  have hthree : callMethod ev (list items) "rfind" (bool true :: args) m = .ok (int 3) m := rfl
  cases hfirst.symm.trans hone
  cases hlast.symm.trans htwo
  cases hfirst'.symm.trans hzero
  cases hlast'.symm.trans hthree
  exact ⟨hargs, hone, htwo, hfinds, hzero, hthree, hfinds'⟩

end Templating
