import Templating.Proofs.Value.Bindings
import Templating.Proofs.Value.Rename
import Templating.Value.Operators

/-!
# Operators do not see what a value refers to

A renaming may not make two templates or two iterators one, since these are compared by identity.
Nothing else about a value depends on what it refers to.

* `Value.Stays`: a result that refers to nothing.
* `Value.equal_rename`, `Value.order?_rename`: comparisons.
* `Value.unary_rename`, `Value.binary_rename`: **all operators**.
* `Value.getItem_rename`, `Value.getSlice_rename`: subscripts.
-/

namespace Templating.Value

variable {g : Renaming}

/-! ## Values alone -/

@[simp] theorem typeName_rename (a : Value) : (a.rename g).typeName = a.typeName := by
  cases a <;> rfl

@[simp] theorem isNone_rename (a : Value) : (a.rename g).isNone = a.isNone := by
  cases a <;> rfl

@[simp] theorem asInt?_rename (a : Value) : (a.rename g).asInt? = a.asInt? := by
  cases a <;> rfl

@[simp] theorem asFloat?_rename (a : Value) : (a.rename g).asFloat? = a.asFloat? := by
  cases a <;> rfl

@[simp] theorem asStr?_rename (a : Value) : (a.rename g).asStr? = a.asStr? := by
  cases a <;> rfl

@[simp] theorem operand?_rename (a : Value) : (a.rename g).operand? = a.operand? := by
  cases a <;> rfl

@[simp] theorem operands?_rename (a b : Value) :
    operands? (a.rename g) (b.rename g) = operands? a b := by
  simp [operands?]

@[simp] theorem isTruthy_rename (a : Value) : (a.rename g).isTruthy = a.isTruthy := by
  cases a with
  | list items => cases items <;> rfl
  | dict entries => cases entries <;> rfl
  | _ => rfl

@[simp] theorem rename_ofLiteral (l : Literal) : (ofLiteral l).rename g = ofLiteral l := by
  cases l <;> rfl

@[simp] theorem length_renameAll (items : List Value) :
    (renameAll g items).length = items.length := by
  rw [renameAll_eq, List.length_map]

/-! ## Results without templates -/

/-- There is nothing to rename in a result. -/
def Stays (g : Renaming) (r : Except Cause Value) : Prop := r.map (Value.rename g) = r

theorem Stays.error (c : Cause) : Stays g (.error c) := rfl

theorem stays_exactly (n : Int) (operation : String) : Stays g (exactly n operation) := by
  unfold exactly
  split <;> rfl

theorem stays_durationOr (d : Option Duration) (operation : String) :
    Stays g (durationOr d operation) := by
  unfold durationOr
  split <;> rfl

theorem stays_monthsOr (n : Int) (operation : String) : Stays g (monthsOr n operation) := by
  unfold monthsOr
  split <;> rfl

theorem stays_dateOr (r : Except Calendar.Error Date) : Stays g (dateOr r) := by
  cases r <;> rfl

theorem stays_map {α : Type} (r : Except Cause α) {v : α → Value}
    (h : ∀ a, (v a).rename g = v a) : Stays g (r.map v) := by
  cases r with
  | error c => rfl
  | ok a => exact congrArg Except.ok (h a)

theorem stays_repeatStr (s : String) (count : Int64) : Stays g (repeatStr s count) :=
  stays_map _ fun _ => rfl

theorem stays_scaleMonths (m : Months) (factor a b : Value) :
    Stays g (scaleMonths m factor a b) := by
  unfold scaleMonths
  split
  · cases floorToInt _ with
    | error c => rfl
    | ok n => exact stays_monthsOr _ _
  · exact stays_monthsOr _ _
  · rfl

/-! ## Arithmetic -/

theorem add_rename (a b : Value) :
    (a.rename g).add (b.rename g) = (a.add b).map (Value.rename g) := by
  cases a <;> cases b <;> first
    | rfl
    | exact (stays_exactly _ _).symm
    | exact (stays_durationOr _ _).symm
    | exact (stays_monthsOr _ _).symm
    | exact (stays_dateOr _).symm
    | skip
  simp [rename, add, renameAll_eq, Except.map]

theorem sub_rename (a b : Value) :
    (a.rename g).sub (b.rename g) = (a.sub b).map (Value.rename g) := by
  cases a <;> cases b <;> first
    | rfl
    | exact (stays_exactly _ _).symm
    | exact (stays_durationOr _ _).symm
    | exact (stays_monthsOr _ _).symm
    | skip
  · simp only [rename, sub]
    split
    · exact (stays_dateOr _).symm
    · rfl
  · simp only [rename, sub]
    split
    · exact (stays_dateOr _).symm
    · rfl

theorem repeatList_rename (items : List Value) (count : Int64) :
    repeatList (renameAll g items) count = (repeatList items count).map (Value.rename g) := by
  simp only [repeatList, length_renameAll]
  cases repetitions count items.length with
  | error c => rfl
  | ok n =>
    simp only [Except.map, rename, repeatItems, renameAll_eq, List.isEmpty_map]
    split
    · rfl
    · rw [List.map_flatten, List.map_replicate]

theorem mul_rename (a b : Value) :
    (a.rename g).mul (b.rename g) = (a.mul b).map (Value.rename g) := by
  cases a <;> cases b <;> first
    | rfl
    | exact (stays_exactly _ _).symm
    | exact (stays_repeatStr _ _).symm
    | exact repeatList_rename _ _
    | exact (stays_durationOr _ _).symm
    | exact (stays_monthsOr _ _).symm
    | skip
  · rename_i x m
    exact (stays_scaleMonths m (float x) (float x) (months m)).symm
  · rename_i m x
    exact (stays_scaleMonths m (float x) (months m) (float x)).symm

theorem stays_floorDiv (a b : Value) : Stays g (a.floorDiv b) := by
  unfold floorDiv
  split
  · exact stays_map _ fun _ => rfl
  · split
    · rfl
    · exact stays_map _ fun _ => rfl
  · split
    · exact stays_map _ fun _ => rfl
    · split <;> rfl
    · rfl

theorem floorDiv_rename (a b : Value) :
    (a.rename g).floorDiv (b.rename g) = (a.floorDiv b).map (Value.rename g) := by
  rw [stays_floorDiv]
  cases a <;> cases b <;> rfl

theorem trueDiv_rename (a b : Value) :
    (a.rename g).trueDiv (b.rename g) = (a.trueDiv b).map (Value.rename g) := by
  have hstays : Stays g (a.trueDiv b) := by
    unfold trueDiv
    split
    · split
      · split
        · rfl
        · exact stays_durationOr _ _
      · rfl
    · split
      · split <;> rfl
      · rfl
  rw [hstays]
  cases a <;> cases b <;> rfl

theorem modulo_rename (a b : Value) :
    (a.rename g).modulo (b.rename g) = (a.modulo b).map (Value.rename g) := by
  have hstays : Stays g (a.modulo b) := by
    unfold modulo
    split
    · exact stays_map _ fun _ => rfl
    · split <;> rfl
    · rfl
  rw [hstays]
  cases a <;> cases b <;> rfl

theorem unary_rename (op : UnaryOp) (a : Value) :
    unary op (a.rename g) = (unary op a).map (Value.rename g) := by
  cases op with
  | not =>
    rw [unary, unary, isTruthy_rename]
    rfl
  | neg =>
    cases a with
    | int n => exact (stays_exactly _ _).symm
    | duration d => exact (stays_durationOr _ _).symm
    | months m => exact (stays_monthsOr _ _).symm
    | _ => rfl

/-! ## Equality -/

theorem lookup?_renameBindings (key : String) (entries : List (String × Value)) :
    Bindings.lookup? key (renameBindings g entries) =
      (Bindings.lookup? key entries).map (Value.rename g) := by
  rw [renameBindings_eq]
  exact Bindings.lookup?_mapValues (Value.rename g) key entries

mutual

/-- **Equality sees which templates and iterators are the same, and no more of them.** -/
theorem equal_rename (hg : g.Faithful) : ∀ a b : Value,
    (a.rename g).equal (b.rename g) = a.equal b
  | .none, b => by cases b <;> rfl
  | .bool _, b => by cases b <;> rfl
  | .int _, b => by cases b <;> rfl
  | .float _, b => by cases b <;> rfl
  | .str _, b => by cases b <;> rfl
  | .list xs, b => by
    cases b with
    | list ys => exact listEqual_rename hg xs ys
    | _ => rfl
  | .dict xs, b => by
    cases b with
    | dict ys =>
      simp only [rename, equal, entriesEqual_rename hg xs ys]
      simp only [renameBindings_eq, List.length_map]
    | _ => rfl
  | .date _, b => by cases b <;> rfl
  | .duration _, b => by cases b <;> rfl
  | .months _, b => by cases b <;> rfl
  | .color _, b => by cases b <;> rfl
  | .template t, b => by
    cases b with
    | template u =>
      simp only [rename, equal, hg.template]
    | _ => rfl
  | .iterator _, b => by
    cases b with
    | iterator _ => simp only [rename, equal, hg.handle.eq_iff]
    | _ => rfl

theorem listEqual_rename (hg : g.Faithful) : ∀ xs ys : List Value,
    listEqual (renameAll g xs) (renameAll g ys) = listEqual xs ys
  | [], ys => by cases ys <;> rfl
  | x :: xs, ys => by
    cases ys with
    | nil => rfl
    | cons y ys =>
      simp only [renameAll, listEqual, equal_rename hg x y, listEqual_rename hg xs ys]

theorem entriesEqual_rename (hg : g.Faithful) : ∀ xs ys : List (String × Value),
    entriesEqual (renameBindings g xs) (renameBindings g ys) = entriesEqual xs ys
  | [], _ => rfl
  | (key, x) :: xs, ys => by
    simp only [renameBindings, entriesEqual, lookup?_renameBindings,
      entriesEqual_rename hg xs ys]
    cases Bindings.lookup? key ys with
    | none => rfl
    | some y => simp only [Option.map, equal_rename hg x y]

end

theorem member_rename (hg : g.Faithful) (a : Value) (items : List Value) :
    (a.rename g).member (renameAll g items) = a.member items := by
  simp only [member, renameAll_eq, List.any_map]
  exact congrArg (List.any items) (funext fun b => equal_rename hg b a)

/-! ## Order -/

mutual

theorem order?_rename (hg : g.Faithful) (op : BinaryOp) : ∀ a b : Value,
    order? op (a.rename g) (b.rename g) = order? op a b
  | .list xs, b => by
    cases b with
    | list ys => exact orderLists?_rename hg op xs ys
    | _ => rfl
  | .none, b => by cases b <;> rfl
  | .bool _, b => by cases b <;> rfl
  | .int _, b => by cases b <;> rfl
  | .float _, b => by cases b <;> rfl
  | .str _, b => by cases b <;> rfl
  | .dict _, b => by cases b <;> rfl
  | .date _, b => by cases b <;> rfl
  | .duration _, b => by cases b <;> rfl
  | .months _, b => by cases b <;> rfl
  | .color _, b => by cases b <;> rfl
  | .template _, b => by cases b <;> rfl
  | .iterator _, b => by cases b <;> rfl

theorem orderLists?_rename (hg : g.Faithful) (op : BinaryOp) :
    ∀ xs ys : List Value, orderLists? op (renameAll g xs) (renameAll g ys) = orderLists? op xs ys
  | [], ys => by cases ys <;> rfl
  | x :: xs, ys => by
    cases ys with
    | nil => rfl
    | cons y ys =>
      simp only [renameAll, orderLists?, equal_rename hg x y, order?_rename hg op x y,
        orderLists?_rename hg op xs ys]

end

theorem order_rename (hg : g.Faithful) (a b : Value) :
    order (a.rename g) (b.rename g) = order a b := by
  rw [order, order, order?_rename hg]

theorem merge_rename (hg : g.Faithful) (xs ys : List Value) :
    merge (xs.map (Value.rename g)) (ys.map (Value.rename g)) =
      (merge xs ys).map (List.map (Value.rename g)) := by
  induction xs, ys using merge.induct with
  | case1 ys => simp [merge, Except.map]
  | case2 xs h => cases xs <;> simp [merge, Except.map]
  | case3 x xs y ys ih₁ ih₂ =>
    simp only [List.map_cons] at ih₁ ih₂ ⊢
    simp only [merge, order_rename hg]
    cases order y x with
    | error c => rfl
    | ok o =>
      simp only [bind, Except.bind]
      split
      · rw [ih₁]
        cases merge (x :: xs) ys <;> rfl
      · rw [ih₂]
        cases merge xs (y :: ys) <;> rfl

theorem sortStable_rename (hg : g.Faithful) (xs : List Value) :
    sortStable (xs.map (Value.rename g)) =
      (sortStable xs).map (List.map (Value.rename g)) := by
  induction xs using sortStable.induct with
  | case1 xs h =>
    rw [sortStable.eq_def (xs.map _), sortStable.eq_def xs, List.length_map, if_pos h, if_pos h]
    rfl
  | case2 xs h ih₁ ih₂ =>
    rw [sortStable.eq_def (xs.map _), sortStable.eq_def xs, List.length_map, if_neg h, if_neg h,
      ← List.map_take, ← List.map_drop, ih₁]
    cases sortStable (xs.take (xs.length / 2)) with
    | error c => rfl
    | ok left =>
      rw [ih₂]
      cases sortStable (xs.drop (xs.length / 2)) with
      | error c => rfl
      | ok right => exact merge_rename hg left right

theorem extremeFrom_rename (hg : g.Faithful) (wanted : Ordering)
    (best : Value) (xs : List Value) :
    extremeFrom wanted (best.rename g) (xs.map (Value.rename g)) =
      (extremeFrom wanted best xs).map (Value.rename g) := by
  induction xs generalizing best with
  | nil => rfl
  | cons x xs ih =>
    simp only [List.map_cons, extremeFrom, order_rename hg]
    cases order x best with
    | error c => rfl
    | ok o =>
      simp only [bind, Except.bind]
      split
      · exact ih x
      · exact ih best

theorem extreme_rename (hg : g.Faithful) (function : String)
    (wanted : Ordering) (xs : List Value) :
    extreme function wanted (xs.map (Value.rename g)) =
      (extreme function wanted xs).map (Value.rename g) := by
  cases xs with
  | nil => rfl
  | cons x xs => exact extremeFrom_rename hg wanted x xs

/-! ## Text -/

mutual

@[simp] theorem repr_rename : ∀ a : Value, (a.rename g).repr = a.repr
  | .none | .bool _ | .int _ | .float _ | .str _ | .date _ | .duration _ | .months _ | .color _
  | .iterator _ => rfl
  | .list items => by simp only [rename, repr, reprs_renameAll items]
  | .dict entries => by simp only [rename, repr, entryReprs_renameBindings entries]
  | .template t => by simp only [rename, repr, Template.displayName, g.name]

theorem reprs_renameAll : ∀ items : List Value, reprs (renameAll g items) = reprs items
  | [] => rfl
  | item :: items => by simp only [renameAll, reprs, repr_rename item, reprs_renameAll items]

theorem entryReprs_renameBindings : ∀ entries : List (String × Value),
    entryReprs (renameBindings g entries) = entryReprs entries
  | [] => rfl
  | (key, value) :: entries => by
    simp only [renameBindings, entryReprs, repr_rename value,
      entryReprs_renameBindings entries]

end

@[simp] theorem text_rename (a : Value) : (a.rename g).text = a.text := by
  have hrepr := repr_rename (g := g) a
  cases a <;> first | rfl | exact hrepr

/-! ## Subscripts -/

theorem contains_rename (hg : g.Faithful) (item container : Value) :
    contains (item.rename g) (container.rename g) = contains item container := by
  cases container with
  | str hay => cases item <;> rfl
  | list items => simp only [rename, contains, member_rename hg]
  | dict entries =>
    simp only [rename, contains, asStr?_rename, Bindings.contains, lookup?_renameBindings,
      Option.isSome_map]
  | color c =>
    have hchannels : renameAll g (channels c) = channels c := rfl
    have hmember := member_rename hg item (channels c)
    rw [hchannels] at hmember
    simp only [rename, contains, hmember]
  | _ => rfl

theorem itemAt_map {α β : Type} (g : α → β) (items : List α) (index : Int64) :
    itemAt (items.map g) index = (itemAt items index).map g := by
  simp only [itemAt, List.length_map]
  generalize (if index.toInt < 0 then index.toInt + items.length else index.toInt) = position
  by_cases hp : position < 0
  · rw [if_pos hp, if_pos hp]
    rfl
  · rw [if_neg hp, if_neg hp, List.getElem?_map]
    cases items[position.toNat]? <;> rfl

theorem indexOf_rename (container index : Value) :
    indexOf (container.rename g) (index.rename g) = indexOf container index := by
  simp only [indexOf, asInt?_rename, unsupported, typeName_rename]

theorem getItem_rename (container index : Value) :
    (container.rename g).getItem (index.rename g) =
      (container.getItem index).map (Value.rename g) := by
  have hindex := indexOf_rename (g := g) container index
  cases container with
  | dict entries =>
    simp only [rename, getItem, asStr?_rename, repr_rename]
    cases index.asStr? with
    | none => rfl
    | some key =>
      simp only [Option.bind, lookup?_renameBindings]
      cases Bindings.lookup? key entries <;> rfl
  | str s =>
    simp only [rename, getItem] at hindex ⊢
    rw [hindex]
    cases indexOf (.str s) index with
    | error c => rfl
    | ok i =>
      simp only [bind, Except.bind]
      cases itemAt s.toList i <;> rfl
  | list items =>
    simp only [rename, getItem] at hindex ⊢
    rw [hindex]
    cases indexOf (.list items) index with
    | error c => rfl
    | ok i =>
      simp only [bind, Except.bind, renameAll_eq]
      exact itemAt_map _ items i
  | color c =>
    simp only [rename, getItem] at hindex ⊢
    rw [hindex]
    cases indexOf (.color c) index with
    | error c => rfl
    | ok i => exact itemAt_map (Value.rename g) (channels c) i
  | _ => rfl

theorem sliceList_map {α β : Type} (g : α → β) (items : List α) (start stop : Option Int64) :
    sliceList (items.map g) start stop = (sliceList items start stop).map g := by
  simp only [sliceList, List.length_map, List.map_take, List.map_drop]

theorem getSlice_rename (container : Value) (start stop : Option Int64) :
    (container.rename g).getSlice start stop =
      (container.getSlice start stop).map (Value.rename g) := by
  cases container with
  | list items =>
    simp only [rename, getSlice, renameAll_eq, sliceList_map]
    rw [Except.map, rename, renameAll_eq]
  | _ => rfl

/-! ## All operators -/

/-- **A binary operator gives the same with other templates and iterators.** -/
theorem binary_rename (hg : g.Faithful) (op : BinaryOp) (a b : Value) :
    binary op (a.rename g) (b.rename g) = (binary op a b).map (Value.rename g) := by
  cases op with
  | add => exact add_rename a b
  | sub => exact sub_rename a b
  | mul => exact mul_rename a b
  | floorDiv => exact floorDiv_rename a b
  | trueDiv => exact trueDiv_rename a b
  | mod => exact modulo_rename a b
  | getItem => exact getItem_rename a b
  | eq | ne =>
    simp only [binary, equal_rename hg]
    rfl
  | lt | le | gt | ge =>
    simp only [binary, order?_rename hg]
    exact (stays_map _ fun _ => rfl).symm
  | contains | notContains =>
    simp only [binary, contains_rename hg]
    exact (stays_map _ fun _ => rfl).symm
  | and | or =>
    simp only [binary, isTruthy_rename, Except.map]
    split <;> rfl

end Templating.Value
