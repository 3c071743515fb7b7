import Templating.Eval.Iteration
import Templating.Proofs.Value.Integer

/-!
# Slices and indices follow the positions

A bound of a slice that is negative is counted from the end, and every bound is cut to the positions
that there are. An index is counted from the end likewise, and has to be one of the positions.

* `window`, `startPosition`, `stopPosition`: the items between two positions, and the positions that
  the bounds of a slice stand for.
* `sliceList_eq_window`: a slice consists of the items between its bounds.
* `indexes_itemAt`: an index gives the item at its position.
* `trappingSlice`, `trappingItem`: both step by step on words, where a step that wraps traps.
* `Value.slices_follow_positions`: **slices and indices of lists, strings and colors.**
-/

namespace Templating

open Number

variable {α β : Type} {items : List α}

/-! ## Positions -/

/-- The items of a list at the positions from one up to another one, in order. -/
def window (items : List α) (lo hi : Int) : List α :=
  (items.zipIdx.filter fun item => lo ≤ item.2 ∧ item.2 < hi).map Prod.fst

/-- The position that a bound stands for in a sequence of a length. -/
def boundPosition (length : Nat) (bound : Int64) : Int :=
  if bound.toInt < 0 then max (bound.toInt + length) 0 else min bound.toInt length

/-- The position at which a slice starts: the first one, unless a bound is given. -/
def startPosition (length : Nat) (start : Option Int64) : Int :=
  (start.map (boundPosition length)).getD 0

/-- The position before which a slice stops: the end, unless a bound is given. -/
def stopPosition (length : Nat) (stop : Option Int64) : Int :=
  (stop.map (boundPosition length)).getD length

/-- The position that an index stands for. -/
def indexPosition (length : Nat) (index : Int64) : Int :=
  if index.toInt < 0 then index.toInt + length else index.toInt

/-- The items between two positions, where the first item has the position `k`. -/
theorem filter_zipIdx (items : List α) (k lo hi : Nat) :
    ((items.zipIdx k).filter fun item => (lo : Int) ≤ item.2 ∧ (item.2 : Int) < hi).map Prod.fst =
      (items.drop (lo - k)).take (hi - max lo k) := by
  induction items generalizing k with
  | nil => simp
  | cons item items ih =>
    rw [List.zipIdx_cons, List.filter_cons]
    by_cases hlow : k < lo
    · -- the first item stands before the window
      have hout : ¬ ((lo : Int) ≤ k ∧ (k : Int) < hi) := by omega
      have hdrop : lo - k = (lo - (k + 1)) + 1 := by omega
      rw [if_neg (by simpa using hout), ih, hdrop, List.drop_succ_cons,
        show max lo (k + 1) = max lo k by omega]
    · have hdrop : lo - k = 0 := by omega
      have hdrop' : lo - (k + 1) = 0 := by omega
      by_cases hhigh : k < hi
      · have hin : (lo : Int) ≤ k ∧ (k : Int) < hi := by omega
        rw [if_pos (by simpa using hin), List.map_cons, ih, hdrop, hdrop', List.drop_zero,
          List.drop_zero, show hi - max lo k = (hi - max lo (k + 1)) + 1 by omega,
          List.take_succ_cons]
      · have hout : ¬ ((lo : Int) ≤ k ∧ (k : Int) < hi) := by omega
        rw [if_neg (by simpa using hout), ih, show hi - max lo k = 0 by omega,
          show hi - max lo (k + 1) = 0 by omega, List.take_zero, List.take_zero]

theorem window_eq (items : List α) (lo hi : Nat) :
    window items lo hi = (items.drop lo).take (hi - lo) := by
  have h := filter_zipIdx items 0 lo hi
  rwa [Nat.sub_zero, Nat.max_zero] at h

/-! ## Slices -/

theorem clampBound_eq (length : Nat) (bound : Int64) :
    (clampBound length bound : Int) = boundPosition length bound := by
  unfold clampBound boundPosition
  dsimp only
  split <;> omega

theorem clampBound_le (length : Nat) (bound : Int64) : clampBound length bound ≤ length := by
  unfold clampBound
  dsimp only
  split <;> omega

theorem startPosition_eq (length : Nat) (start : Option Int64) :
    startPosition length start = ((start.map (clampBound length)).getD 0 : Nat) := by
  cases start with
  | none => rfl
  | some bound => exact (clampBound_eq length bound).symm

theorem stopPosition_eq (length : Nat) (stop : Option Int64) :
    stopPosition length stop = ((stop.map (clampBound length)).getD length : Nat) := by
  cases stop with
  | none => rfl
  | some bound => exact (clampBound_eq length bound).symm

/-- **A slice consists of the items between its bounds.** -/
theorem sliceList_eq_window (items : List α) (start stop : Option Int64) :
    sliceList items start stop =
      window items (startPosition items.length start) (stopPosition items.length stop) := by
  rw [startPosition_eq, stopPosition_eq, window_eq]
  unfold sliceList sliceBounds
  dsimp only
  generalize (start.map (clampBound items.length)).getD 0 = lo
  generalize (stop.map (clampBound items.length)).getD items.length = hi
  rw [show max lo hi - lo = hi - lo by omega]

theorem sliceList_map (f : α → β) (items : List α) (start stop : Option Int64) :
    sliceList (items.map f) start stop = (sliceList items start stop).map f := by
  unfold sliceList
  rw [List.length_map, List.map_take, List.map_drop]

/-- The parts before and behind a bound are the whole. -/
theorem sliceList_append (items : List α) (bound : Int64) :
    sliceList items none (some bound) ++ sliceList items (some bound) none = items := by
  have hle := clampBound_le items.length bound
  have hbefore : sliceList items none (some bound) =
      items.take (clampBound items.length bound) := by
    simp [sliceList, sliceBounds]
  have hbehind : sliceList items (some bound) none =
      items.drop (clampBound items.length bound) := by
    simp only [sliceList, sliceBounds, Option.map_some, Option.getD_some, Option.map_none,
      Option.getD_none]
    rw [List.take_of_length_le]
    rw [List.length_drop]
    omega
  rw [hbefore, hbehind, List.take_append_drop]

/-! ## Indices -/

/-- A result for an index: the item at its position, or a failure if there is no such position. -/
structure Indexes (items : List α) (index : Int64) (result : Except Cause α) : Prop where
  inside : -(items.length : Int) ≤ index.toInt → index.toInt < items.length →
    ∃ item, result = .ok item ∧ window items (indexPosition items.length index)
      (indexPosition items.length index + 1) = [item]
  outside : ¬ (-(items.length : Int) ≤ index.toInt ∧ index.toInt < items.length) →
    ∃ cause, result = .error cause ∧ cause.category = .indexError

theorem window_singleton {position : Nat} (h : position < items.length) :
    window items position (position + 1) = [items[position]] := by
  have hwindow := window_eq items position (position + 1)
  rw [Nat.add_sub_cancel_left, List.drop_eq_getElem_cons h, List.take_succ_cons,
    List.take_zero] at hwindow
  exact_mod_cast hwindow

/-- An index is looked up at its position. -/
theorem itemAt_eq (items : List α) (index : Int64) :
    Value.itemAt items index =
      match if indexPosition items.length index < 0 then none
        else items[(indexPosition items.length index).toNat]? with
      | some item => .ok item
      | none => .error (Cause.indexOutOfRange index) := rfl

theorem itemAt_map (f : α → β) (items : List α) (index : Int64) :
    Value.itemAt (items.map f) index = (Value.itemAt items index).map f := by
  rw [itemAt_eq, itemAt_eq, List.length_map, List.getElem?_map]
  by_cases hneg : indexPosition items.length index < 0
  · rw [if_pos hneg, if_pos hneg]
    rfl
  · rw [if_neg hneg, if_neg hneg]
    cases items[(indexPosition items.length index).toNat]? <;> rfl

/-- **An index gives the item at its position.** -/
theorem indexes_itemAt (items : List α) (index : Int64) :
    Indexes items index (Value.itemAt items index) := by
  have hposition : indexPosition items.length index =
      if index.toInt < 0 then index.toInt + items.length else index.toInt := rfl
  rw [itemAt_eq]
  generalize indexPosition items.length index = position at hposition ⊢
  constructor
  · intro hlow hhigh
    obtain ⟨k, rfl⟩ : ∃ k : Nat, position = k := ⟨position.toNat, by split at hposition <;> omega⟩
    have hlt : k < items.length := by split at hposition <;> omega
    refine ⟨items[k], ?_, ?_⟩
    · rw [if_neg (by omega), Int.toNat_natCast, List.getElem?_eq_getElem hlt]
    · have hself : indexPosition items.length index = k := hposition ▸ rfl
      rw [hself]
      exact window_singleton hlt
  · intro hout
    refine ⟨.indexOutOfRange index, ?_, rfl⟩
    by_cases hneg : position < 0
    · rw [if_pos hneg]
    · have hle : items.length ≤ position.toNat := by split at hposition <;> omega
      rw [if_neg hneg, List.getElem?_eq_none hle]

/-! ## One step after another -/

/-- A bound cut to the positions, step by step. The result is missing if a step wraps. -/
def trappingClamp (length : Nat) (bound : Int64) : Option Nat :=
  if bound < 0 then do
    let sum ← ofInt? (bound.toInt + (ofCount length).toInt)
    return (max sum.toInt 0).toNat
  else return (min bound.toInt (ofCount length).toInt).toNat

/-- A slice, step by step. The result is missing if a step wraps, or if the range does not lie in
the list. -/
def trappingSlice (items : List α) (start stop : Option Int64) : Option (List α) := do
  let lo ← start.elim (some 0) (trappingClamp items.length)
  let hi ← stop.elim (some items.length) (trappingClamp items.length)
  if max hi lo ≤ items.length then return (items.drop lo).take (max hi lo - lo) else none

/-- The position of an index. The result is missing if a step wraps. -/
def trappingPosition (length : Nat) (index : Int64) : Option Int64 :=
  if index < 0 then ofInt? (index.toInt + (ofCount length).toInt) else some index

/-- An index looked up, step by step. The result is missing if a step wraps, or if there is no item
at a position that was checked. -/
def trappingItem (items : List α) (index : Int64) : Option (Except Cause α) := do
  let position ← trappingPosition items.length index
  if 0 ≤ position ∧ position < ofCount items.length then
    return .ok (← items[position.toInt.toNat]?)
  else return .error (.indexOutOfRange index)

/-- A length is cut to the words. -/
theorem toInt_ofCount (length : Nat) :
    (ofCount length).toInt = min (length : Int) 0x7fffffffffffffff := by
  unfold ofCount saturate
  by_cases hfits : (0x8000000000000000 : Int) ≤ length
  · have hmax : Int64.maxValue.toInt = 0x7fffffffffffffff := by decide
    rw [if_neg (by omega), if_pos hfits, hmax, min_eq_right (by omega)]
  · rw [if_neg (by omega), if_neg hfits, min_eq_left (by omega)]
    exact Int64.toInt_ofInt_of_le (by omega) (by omega)

/-- A negative word and a length have a sum. -/
theorem exists_sum (length : Nat) {word : Int64} (hneg : word < 0) :
    ∃ sum, ofInt? (word.toInt + (ofCount length).toInt) = some sum ∧
      sum.toInt = word.toInt + min (length : Int) 0x7fffffffffffffff := by
  have hword := fits_toInt word
  rw [← toInt_neg_iff] at hneg
  rw [toInt_ofCount]
  exact ofInt?_of_fits ⟨by unfold Fits at hword; omega, by omega⟩

/-- A bound is cut without a trap, to the length or to the greatest word. -/
theorem exists_trappingClamp (length : Nat) (bound : Int64) :
    ∃ position, trappingClamp length bound = some position ∧ position ≤ length ∧
      (Fits length → position = clampBound length bound) := by
  unfold trappingClamp clampBound Fits
  by_cases hneg : bound < 0
  · obtain ⟨sum, hsum, hvalue⟩ := exists_sum length hneg
    rw [if_pos hneg, hsum]
    rw [← toInt_neg_iff] at hneg
    refine ⟨_, rfl, by omega, fun hfits => ?_⟩
    dsimp only
    rw [if_pos hneg]
    omega
  · rw [if_neg hneg, toInt_ofCount]
    rw [← toInt_neg_iff] at hneg
    refine ⟨_, rfl, by omega, fun hfits => ?_⟩
    dsimp only
    rw [if_neg hneg]
    omega

/-- The same of a bound that may be missing. -/
theorem exists_bound (length default : Nat) (hdefault : default ≤ length)
    (bound : Option Int64) :
    ∃ position, bound.elim (some default) (trappingClamp length) = some position ∧
      position ≤ length ∧
      (Fits length → position = (bound.map (clampBound length)).getD default) := by
  cases bound with
  | none => exact ⟨default, rfl, hdefault, fun _ => rfl⟩
  | some bound => exact exists_trappingClamp length bound

/-- **No step of a slice traps.** -/
theorem exists_trappingSlice (items : List α) (start stop : Option Int64) :
    ∃ part, trappingSlice items start stop = some part ∧
      (Fits items.length → part = sliceList items start stop) := by
  obtain ⟨lo, hlo, hlow, hlo'⟩ := exists_bound items.length 0 (Nat.zero_le _) start
  obtain ⟨hi, hhi, hhigh, hhi'⟩ := exists_bound items.length items.length le_rfl stop
  have hrange : max hi lo ≤ items.length := max_le hhigh hlow
  refine ⟨(items.drop lo).take (max hi lo - lo), ?_, fun hfits => ?_⟩
  · unfold trappingSlice
    rw [hlo, hhi]
    simp only [Option.bind_eq_bind, Option.bind_some, if_pos hrange]
    rfl
  · unfold sliceList sliceBounds
    rw [hlo' hfits, hhi' hfits, max_comm]

/-- The position of an index is found without a trap, in a sequence whose length may be cut. -/
theorem exists_trappingPosition (length : Nat) (index : Int64) :
    ∃ position, trappingPosition length index = some position ∧
      position.toInt = if index.toInt < 0 then
        index.toInt + min (length : Int) 0x7fffffffffffffff else index.toInt := by
  unfold trappingPosition
  by_cases hneg : index < 0
  · rw [if_pos hneg, if_pos (toInt_neg_iff.2 hneg)]
    exact exists_sum length hneg
  · rw [if_neg hneg, if_neg (mt toInt_neg_iff.1 hneg)]
    exact ⟨index, rfl, rfl⟩

/-- **No step of an index traps.** -/
theorem exists_trappingItem (items : List α) (index : Int64) :
    ∃ result, trappingItem items index = some result ∧
      (Fits items.length → result = Value.itemAt items index) := by
  obtain ⟨position, hsome, hvalue⟩ := exists_trappingPosition items.length index
  -- adding the length overflows for no list that fits
  have hexact (hfits : Fits items.length) :
      indexPosition items.length index = position.toInt := by
    unfold Fits at hfits
    rw [hvalue, min_eq_left (by omega)]
    rfl
  unfold trappingItem
  rw [hsome]
  simp only [Option.bind_eq_bind, Option.bind_some, Int64.le_iff_toInt_le,
    Int64.lt_iff_toInt_lt, toInt_ofCount, Int64.toInt_zero]
  split
  · rename_i hinside
    have hlt : position.toInt.toNat < items.length := by omega
    refine ⟨.ok items[position.toInt.toNat], ?_, fun hfits => ?_⟩
    · rw [List.getElem?_eq_getElem hlt]
      rfl
    · rw [itemAt_eq, hexact hfits, if_neg (by omega), List.getElem?_eq_getElem hlt]
  · rename_i houtside
    refine ⟨_, rfl, fun hfits => ?_⟩
    rw [itemAt_eq, hexact hfits]
    unfold Fits at hfits
    by_cases hneg : position.toInt < 0
    · rw [if_pos hneg]
    · rw [if_neg hneg, List.getElem?_eq_none (by omega)]

/-! ## Values -/

namespace Value

/-- A value that can be sliced: a string or a list. -/
def IsSliceable : Value → Prop
  | str _ | list _ => True
  | _ => False

/-- The characters of a string, each as a string. -/
def characters (s : String) : List Value := s.toList.map fun c => str (String.singleton c)

theorem getSlice_str (s : String) (start stop : Option Int64) :
    getSlice (str s) start stop = .ok (str (String.ofList (sliceList s.toList start stop))) := rfl

theorem getSlice_list (items : List Value) (start stop : Option Int64) :
    getSlice (list items) start stop = .ok (list (sliceList items start stop)) := rfl

/-- The texts of characters make up the string again. -/
theorem join_characters (cs : List Char) :
    String.join ((cs.map fun c => str (String.singleton c)).map text) = String.ofList cs := by
  induction cs with
  | nil => rfl
  | cons c cs ih =>
    rw [List.map_cons, List.map_cons, String.join_cons, ih]
    refine String.toList_inj.1 ?_
    simp [text]

/-- The parts of a string or a list before and behind a bound are joined to the whole. -/
theorem getSlice_append {v : Value} (hv : v.IsSliceable) (bound : Int64) :
    ∃ before behind, getSlice v .none (some bound) = .ok before ∧
      getSlice v (some bound) .none = .ok behind ∧ binary .add before behind = .ok v := by
  cases v with
  | str s =>
    refine ⟨_, _, getSlice_str s .none (some bound), getSlice_str s (some bound) .none, ?_⟩
    have hwhole := sliceList_append s.toList bound
    change Except.ok (str (_ ++ _)) = Except.ok (str s)
    rw [← String.ofList_append, hwhole, String.ofList_toList]
  | list items =>
    have hbefore := getSlice_list items .none (some bound)
    have hbehind := getSlice_list items (some bound) .none
    refine ⟨_, _, hbefore, hbehind, ?_⟩
    change Except.ok (list (_ ++ _)) = Except.ok (list items)
    rw [sliceList_append]
  | _ => exact hv.elim

section

variable {index : Value} {i : Int64}

theorem getItem_list (h : index.asInt? = some i) (items : List Value) :
    getItem (list items) index = itemAt items i := by
  unfold getItem indexOf
  rw [h]
  rfl

theorem getItem_color (h : index.asInt? = some i) (c : Color) :
    getItem (color c) index = itemAt (channels c) i := by
  unfold getItem indexOf
  rw [h]
  rfl

/-- An index of a string gives a character as a string. -/
theorem getItem_str (h : index.asInt? = some i) (s : String) :
    getItem (str s) index = itemAt (characters s) i := by
  unfold getItem indexOf characters
  rw [h, itemAt_map]
  cases hitem : itemAt s.toList i with
  | ok c => exact congrArg (fun r => r >>= fun c => pure (str (String.singleton c))) hitem
  | error cause => exact congrArg (fun r => r >>= fun c => pure (str (String.singleton c))) hitem

end

/-- **Slices and indices follow the positions.** A slice of a list or a string never fails and
consists of the items from the position of the first bound up to that of the second one, a slice of
a string being made of the same characters as the slice of their list. The parts before and behind a
bound are joined to the whole. An integer or a truth value as an index gives the item at its
position, or fails if there is none; a color has the items of the list of its channels. Carried out
step by step on words, no step wraps or leaves the sequence, and the results are the same for all
lengths that are words. -/
theorem slices_follow_positions :
    (∀ (items : List Value) (start stop : Option Int64),
      getSlice (list items) start stop = .ok (list (window items
        (startPosition items.length start) (stopPosition items.length stop)))) ∧
    (∀ (s : String) (start stop : Option Int64),
      getSlice (str s) start stop = .ok (str (String.ofList (window s.toList
        (startPosition s.length start) (stopPosition s.length stop)))) ∧
      ∃ parts, getSlice (list (characters s)) start stop = .ok (list parts) ∧
        getSlice (str s) start stop = .ok (str (String.join (parts.map text)))) ∧
    (∀ (v : Value) (bound : Int64), v.IsSliceable →
      ∃ before behind, getSlice v .none (some bound) = .ok before ∧
        getSlice v (some bound) .none = .ok behind ∧ binary .add before behind = .ok v) ∧
    (∀ (index : Value) (i : Int64), index.asInt? = some i →
      (∀ items, Indexes items i (getItem (list items) index)) ∧
      (∀ s, Indexes (characters s) i (getItem (str s) index)) ∧
      ∀ c, getItem (color c) index = getItem (list (channels c)) index) ∧
    (∀ c : Color, (color c).iterate = (list (channels c)).iterate ∧
      channels c = [ofNat c.r.toNat, ofNat c.g.toNat, ofNat c.b.toNat, ofNat c.a.toNat]) ∧
    ∀ {α : Type} (items : List α),
      (∀ start stop : Option Int64, ∃ part, trappingSlice items start stop = some part ∧
        (Fits items.length → part = sliceList items start stop)) ∧
      ∀ index : Int64, ∃ result, trappingItem items index = some result ∧
        (Fits items.length → result = itemAt items index) := by
  refine ⟨?lists, ?strings, ?whole, ?indices, ?colors, ?words⟩
  case lists =>
    intro items start stop
    rw [getSlice_list, sliceList_eq_window]
  case strings =>
    intro s start stop
    refine ⟨?_, _, getSlice_list _ start stop, ?_⟩
    · rw [getSlice_str, sliceList_eq_window, String.length_toList]
    · rw [getSlice_str, characters, sliceList_map, join_characters]
  case whole =>
    intro v bound hv
    exact getSlice_append hv bound
  case indices =>
    intro index i hindex
    refine ⟨fun items => ?_, fun s => ?_, fun c => ?_⟩
    · rw [getItem_list hindex]
      exact indexes_itemAt items i
    · rw [getItem_str hindex]
      exact indexes_itemAt (characters s) i
    · rw [getItem_color hindex, getItem_list hindex]
  case colors =>
    intro c
    exact ⟨rfl, rfl⟩
  case words =>
    intro α items
    exact ⟨exists_trappingSlice items, exists_trappingItem items⟩

/-- `True` as an index of a string with a character of two bytes, and a string cut far before its
beginning. -/
theorem slices_follow_positions_accent :
    asInt? (bool true) = some 1 ∧ IsSliceable (str "éa") ∧
      Indexes (characters "éa") 1 (getItem (str "éa") (bool true)) ∧
      getItem (str "éa") (bool true) = .ok (str "a") ∧
      ∃ before behind, getSlice (str "éa") .none (some (-5)) = .ok before ∧
        getSlice (str "éa") (some (-5)) .none = .ok behind ∧
        binary .add before behind = .ok (str "éa") :=
  ⟨rfl, trivial, (slices_follow_positions.2.2.2.1 _ _ rfl).2.1 _, rfl,
    slices_follow_positions.2.2.1 _ _ trivial⟩

end Value

end Templating
