import Templating.Eval.Expression

/-!
# What calculations fail for

A calculation on values never fails for a signal or for the limit of nested render calls, and not
for an iterator that cannot be advanced. These causes come from the evaluator alone.

* `Cause.IsPlain`: all causes but signals and the limit.
* `Cause.IsOrdinary`: all plain causes but those of iterators.
* `Plain`: a calculation fails for an ordinary cause only, if at all.
* `plain_binary`, `plain_textMethod` and the other lemmas: the operators, functions and methods.
-/

namespace Templating

/-- A cause that is neither a signal nor the limit of nested render calls. -/
def Cause.IsPlain : Cause → Prop
  | .signal _ | .recursionLimit _ => False
  | _ => True

/-- A plain cause that is not about an iterator either. -/
def Cause.IsOrdinary : Cause → Prop
  | .signal _ | .recursionLimit _ | .alreadyExecuting | .supplied _ => False
  | _ => True

theorem Cause.IsOrdinary.isPlain {c : Cause} (h : c.IsOrdinary) : c.IsPlain := by
  cases c <;> trivial

/-- A calculation that fails for an ordinary cause, if at all. -/
structure Plain {α : Type} (e : Except Cause α) : Prop where
  isOrdinary : ∀ c, e = .error c → c.IsOrdinary

theorem Plain.isPlain {α : Type} {e : Except Cause α} (h : Plain e) (c : Cause)
    (he : e = .error c) : c.IsPlain :=
  (h.isOrdinary c he).isPlain

section

variable {α β : Type}

theorem Plain.ok (a : α) : Plain (.ok a) := ⟨by intro _ h; cases h⟩

theorem Plain.pure (a : α) : Plain (Pure.pure a) := .ok a

theorem Plain.error {c : Cause} (h : c.IsOrdinary) : Plain (.error c : Except Cause α) := by
  refine ⟨?_⟩
  rintro _ ⟨⟩
  exact h

theorem Plain.throw {c : Cause} (h : c.IsOrdinary) : Plain (MonadExcept.throw c : Except Cause α) :=
  .error h

theorem Plain.bind {x : Except Cause α} {k : α → Except Cause β} (hx : Plain x)
    (hk : ∀ a, Plain (k a)) : Plain (x >>= k) := by
  cases x with
  | error c => exact .error (hx.isOrdinary c rfl)
  | ok a => exact hk a

theorem Plain.map {x : Except Cause α} (hx : Plain x) (f : α → β) : Plain (x.map f) := by
  cases x with
  | error c => exact .error (hx.isOrdinary c rfl)
  | ok a => exact .ok (f a)

theorem Plain.ite {p : Prop} [Decidable p] {x y : Except Cause α} (hx : Plain x) (hy : Plain y) :
    Plain (if p then x else y) := by
  split
  · exact hx
  · exact hy

theorem Plain.mapM {f : α → Except Cause β} (hf : ∀ a, Plain (f a)) (as : List α) :
    Plain (as.mapM f) := by
  induction as with
  | nil => exact .pure _
  | cons a as ih =>
    rw [List.mapM_cons]
    exact .bind (hf a) fun _ => .bind ih fun _ => .pure _

theorem Plain.foldlM {f : β → α → Except Cause β} (hf : ∀ state a, Plain (f state a))
    (as : List α) (state : β) : Plain (as.foldlM f state) := by
  induction as generalizing state with
  | nil => exact .pure _
  | cons a as ih =>
    rw [List.foldlM_cons]
    exact .bind (hf state a) ih

end

/-! ## Arguments -/

theorem plain_intArg (name : String) (v : Value) : Plain (intArg name v) := by
  unfold intArg
  split
  · exact .ok _
  · exact .error trivial

theorem plain_floatArg (name : String) (v : Value) : Plain (floatArg name v) := by
  unfold floatArg
  split
  · exact .ok _
  · exact .error trivial

theorem plain_strArg (name : String) (v : Value) : Plain (strArg name v) := by
  unfold strArg
  split
  · exact .ok _
  · exact .error trivial

theorem plain_optionalAs {α : Type} {read : Value → Except Cause α} (h : ∀ v, Plain (read v))
    (args : List Value) (index : Nat) : Plain (optionalAs read args index) := by
  unfold optionalAs
  split
  · exact .map (h _) _
  · exact .ok _

theorem plain_intOr (name : String) (args : List Value) (index : Nat) (default : Int64) :
    Plain (intOr name args index default) :=
  .map (plain_optionalAs (plain_intArg name) args index) _

theorem plain_check (a : Arity) (call : CallKind) (name : String) (given : Nat) :
    Plain (a.check call name given) :=
  .ite (.ok _) (.error trivial)

theorem plain_resolve (v : Value) (name : String) (given : Nat) :
    Plain (Method.resolve v name given) := by
  unfold Method.resolve
  split
  · exact .error trivial
  · exact .ite (.map (plain_check ..) _) (.error trivial)

/-! ## Operators -/

namespace Value

theorem plain_exactly (n : Int) (operation : String) : Plain (exactly n operation) := by
  unfold exactly
  split
  · exact .ok _
  · exact .error trivial

theorem plain_durationOr (d : Option Duration) (operation : String) :
    Plain (durationOr d operation) := by
  unfold durationOr
  split
  · exact .ok _
  · exact .error trivial

theorem plain_monthsOr (n : Int) (operation : String) : Plain (monthsOr n operation) := by
  unfold monthsOr
  split
  · exact .ok _
  · exact .error trivial

theorem plain_dateOr (d : Except Calendar.Error Date) : Plain (dateOr d) := by
  cases d with
  | ok d => exact .ok _
  | error e => exact .error trivial

theorem plain_add (a b : Value) : Plain (a.add b) := by
  unfold add
  split
  · exact plain_dateOr _
  · exact plain_dateOr _
  · exact plain_dateOr _
  · exact plain_dateOr _
  · exact plain_durationOr _ _
  · exact plain_monthsOr _ _
  · exact .ok _
  · exact .ok _
  · split
    · exact plain_exactly _ _
    · exact .ok _
    · exact .error trivial

theorem plain_sub (a b : Value) : Plain (a.sub b) := by
  unfold sub
  split
  · exact plain_durationOr _ _
  · split
    · exact plain_dateOr _
    · exact .error trivial
  · split
    · exact plain_dateOr _
    · exact .error trivial
  · exact plain_durationOr _ _
  · exact plain_monthsOr _ _
  · split
    · exact plain_exactly _ _
    · exact .ok _
    · exact .error trivial

theorem plain_repetitions (count : Int64) (length : Nat) : Plain (repetitions count length) :=
  .ite (.error trivial) (.ite (.error trivial) (.ok _))

theorem plain_floorToInt (x : Float) : Plain (floorToInt x) := by
  unfold floorToInt
  split
  · exact .ok _
  · exact .error trivial

theorem plain_scaleDuration (d : Duration) (factor a b : Value) :
    Plain (scaleDuration d factor a b) := by
  unfold scaleDuration
  split
  · exact plain_durationOr _ _
  · exact plain_durationOr _ _
  · exact .error trivial

theorem plain_scaleMonths (m : Months) (factor a b : Value) :
    Plain (scaleMonths m factor a b) := by
  unfold scaleMonths
  split
  · exact .bind (plain_floorToInt _) fun _ => plain_monthsOr _ _
  · exact plain_monthsOr _ _
  · exact .error trivial

theorem plain_mul (a b : Value) : Plain (a.mul b) := by
  unfold mul
  split
  · exact plain_scaleDuration ..
  · exact plain_scaleDuration ..
  · exact plain_scaleMonths ..
  · exact plain_scaleMonths ..
  -- repeated strings and lists
  iterate 8 exact .map (plain_repetitions _ _) _
  split
  · exact plain_exactly _ _
  · exact .ok _
  · exact .error trivial

theorem plain_floorDivInt (m n : Int64) : Plain (floorDivInt m n) := by
  refine .ite (.error trivial) ?_
  split
  · exact .ok _
  · exact .error trivial

theorem plain_floorModInt (m n : Int64) : Plain (floorModInt m n) :=
  .ite (.error trivial) (.ok _)

theorem plain_floorDiv (a b : Value) : Plain (a.floorDiv b) := by
  unfold floorDiv
  split
  · exact .map (plain_floorDivInt _ _) _
  · exact .ite (.error trivial) (.map (plain_floorToInt _) _)
  · split
    · exact .map (plain_floorDivInt _ _) _
    · exact .ite (.error trivial) (.ok _)
    · exact .error trivial

theorem plain_trueDiv (a b : Value) : Plain (a.trueDiv b) := by
  unfold trueDiv
  split
  · split
    · exact .ite (.error trivial) (plain_durationOr _ _)
    · exact .error trivial
  · split
    · exact .ite (.error trivial) (.ok _)
    · exact .error trivial

theorem plain_modulo (a b : Value) : Plain (a.modulo b) := by
  unfold modulo
  split
  · exact .map (plain_floorModInt _ _) _
  · exact .ite (.error trivial) (.ok _)
  · exact .error trivial

theorem plain_unary (op : UnaryOp) (a : Value) : Plain (unary op a) := by
  cases op with
  | not => exact .ok _
  | neg =>
    change Plain a.neg
    unfold neg
    split
    · exact .ok _
    · exact plain_exactly _ _
    · exact .ok _
    · exact plain_durationOr _ _
    · exact plain_monthsOr _ _
    · exact .error trivial

theorem plain_orderAtoms (op : BinaryOp) (a b : Value) : Plain (orderAtoms op a b) := by
  unfold orderAtoms
  split
  · exact .ok _
  · exact .ok _
  · exact .ok _
  · exact .ok _
  · split
    · exact .ok _
    · exact .ok _
    · exact .error trivial

mutual

theorem plain_order? (op : BinaryOp) (a b : Value) : Plain (order? op a b) := by
  unfold order?
  split
  · exact plain_orderLists? op _ _
  · exact plain_orderAtoms op _ _

theorem plain_orderLists? (op : BinaryOp) : ∀ xs ys : List Value, Plain (orderLists? op xs ys)
  | [], [] => by unfold orderLists?; exact .ok _
  | [], _ :: _ => by unfold orderLists?; exact .ok _
  | _ :: _, [] => by unfold orderLists?; exact .ok _
  | x :: xs, y :: ys => by
    unfold orderLists?
    exact .ite (plain_orderLists? op xs ys) (plain_order? op x y)

end

theorem plain_order (a b : Value) : Plain (order a b) := .map (plain_order? _ a b) _

theorem plain_merge (xs ys : List Value) : Plain (merge xs ys) := by
  fun_induction merge xs ys with
  | case1 => exact .ok _
  | case2 => exact .ok _
  | case3 x xs y ys ihy ihx =>
    refine .bind (plain_order y x) fun o => ?_
    split
    · exact .bind ihy fun _ => .pure _
    · exact .bind ihx fun _ => .pure _

theorem plain_sortStable (xs : List Value) : Plain (sortStable xs) := by
  fun_induction sortStable xs with
  | case1 => exact .ok _
  | case2 xs hlong ihleft ihright =>
    exact .bind ihleft fun _ => .bind ihright fun _ => plain_merge _ _

theorem plain_extremeFrom (wanted : Ordering) (best : Value) (xs : List Value) :
    Plain (extremeFrom wanted best xs) := by
  induction xs generalizing best with
  | nil => exact .ok _
  | cons x xs ih =>
    refine .bind (plain_order x best) fun o => ?_
    split
    · exact ih x
    · exact ih best

theorem plain_extreme (function : String) (wanted : Ordering) (xs : List Value) :
    Plain (extreme function wanted xs) := by
  cases xs with
  | nil => exact .error trivial
  | cons x xs => exact plain_extremeFrom wanted x xs

theorem plain_contains (item container : Value) : Plain (contains item container) := by
  unfold contains
  split
  · split
    · exact .ok _
    · exact .error trivial
  · exact .ok _
  · exact .ok _
  · exact .ok _
  · exact .error trivial

theorem plain_itemAt {α : Type} (items : List α) (index : Int64) : Plain (itemAt items index) := by
  unfold itemAt
  dsimp only
  split
  · exact .ok _
  · exact .error trivial

theorem plain_indexOf (container index : Value) : Plain (indexOf container index) := by
  unfold indexOf
  split
  · exact .ok _
  · exact .error trivial

theorem plain_getItem (container index : Value) : Plain (getItem container index) := by
  unfold getItem
  split
  · split
    · exact .ok _
    · exact .error trivial
  · exact .bind (plain_indexOf ..) fun _ => .bind (plain_itemAt ..) fun _ => .pure _
  · exact .bind (plain_indexOf ..) fun _ => plain_itemAt ..
  · exact .bind (plain_indexOf ..) fun _ => plain_itemAt ..
  · exact .error trivial

theorem plain_getSlice (container : Value) (start stop : Option Int64) :
    Plain (getSlice container start stop) := by
  unfold getSlice
  split
  · exact .ok _
  · exact .ok _
  · exact .error trivial

theorem plain_binary (op : BinaryOp) (a b : Value) : Plain (binary op a b) := by
  cases op with
  | add => exact plain_add a b
  | sub => exact plain_sub a b
  | mul => exact plain_mul a b
  | floorDiv => exact plain_floorDiv a b
  | trueDiv => exact plain_trueDiv a b
  | mod => exact plain_modulo a b
  | eq | ne | and | or => exact .ok _
  | lt | le | gt | ge => exact .map (plain_order? _ a b) _
  | contains | notContains => exact .map (plain_contains a b) _
  | getItem => exact plain_getItem a b

theorem plain_attribute (v : Value) (attr : String) : Plain (v.attribute attr) := by
  unfold Value.attribute
  split
  · split
    · exact .ok _
    · exact .error trivial
  · split
    · exact .ok _
    · exact .ok _
    · exact .ok _
    · exact .ok _
    · exact .error trivial
  · exact .error trivial

theorem plain_splat (v : Value) : Plain v.splat := by
  unfold splat
  split
  · exact .ok _
  · exact .error trivial

end Value

theorem plain_addArgument (method : String) (vars : Scope) (binding : String × Value) :
    Plain (addArgument method vars binding) :=
  .ite (.error trivial) (.ok _)

namespace Builtin

open Value

/-! ## Functions -/

theorem plain_truncated (x : Float) : Plain (truncated x) := by
  refine .ite (.error trivial) ?_
  split
  · exact .ok _
  · exact .error trivial

theorem plain_parseInt (text : String) (base : Int64) : Plain (parseInt text base) := by
  refine .ite (.error trivial) ?_
  split
  · exact .ok _
  · exact .error trivial
  · exact .error trivial

theorem plain_toInt (args : List Value) : Plain (toInt args) := by
  unfold toInt
  split
  · exact .ok _
  · exact plain_parseInt _ _
  · exact .ok _
  · exact .ok _
  · exact plain_truncated _
  · exact .error trivial
  · refine .bind (plain_intArg ..) fun base => ?_
    split
    · exact plain_parseInt _ _
    · exact .error trivial

theorem plain_toFloat (args : List Value) : Plain (toFloat args) := by
  unfold toFloat
  split
  · exact .ok _
  · unfold parseFloat
    split
    · exact .ok _
    · exact .error trivial
  · split
    · exact .ok _
    · exact .error trivial

theorem plain_absolute (v : Value) : Plain (absolute v) := by
  unfold absolute
  split
  · exact .ok _
  · exact plain_exactly _ _
  · exact .ok _
  · exact .ite (plain_durationOr _ _) (.ok _)
  · exact plain_monthsOr _ _
  · exact .error trivial

theorem plain_makeDate (args : List Value) : Plain (makeDate args) :=
  .bind (.mapM (plain_intArg _) args) fun _ => plain_dateOr _

theorem plain_makeDuration (args : List Value) : Plain (makeDuration args) :=
  .ite (.bind (.mapM (plain_intArg _) args) fun _ => plain_durationOr _ _)
    (.bind (.mapM (plain_floatArg _) args) fun _ => plain_durationOr _ _)

theorem plain_makeMonths (args : List Value) : Plain (makeMonths args) := by
  cases args with
  | nil => exact .ok _
  | cons v args => exact .map (plain_intArg _ v) _

theorem plain_makeColor (name : String) (make : Float → Float → Float → Float → Color)
    (args : List Value) : Plain (makeColor name make args) := by
  refine .bind (plain_optionalAs (plain_floatArg _) args 3) fun alpha =>
    .bind (.mapM (plain_floatArg _) _) fun xs => ?_
  split
  · exact .ok _
  · exact .error trivial

theorem plain_formatInt (n : Int64) (format : String) : Plain (formatInt n format) := by
  unfold formatInt
  split
  · exact .error trivial
  · split
    · exact .ok _
    · exact .error trivial

theorem plain_formatText (v : Value) (format : String) (language : Option String) :
    Plain (formatText v format language) := by
  unfold formatText
  split
  · exact .ok _
  · exact plain_formatInt _ _
  · exact plain_formatInt _ _
  · exact .error trivial

theorem plain_formatValue (v format : Value) (args : List Value) :
    Plain (formatValue v format args) :=
  .bind (plain_strArg ..) fun _ => .bind (plain_optionalAs (plain_strArg _) ..) fun _ =>
    .bind (plain_formatText ..) fun _ => .pure _

theorem plain_character (v : Value) : Plain (character v) :=
  .bind (plain_intArg ..) fun _ => .ite (.pure _) (.throw trivial)

theorem plain_codePoint (v : Value) : Plain (codePoint v) := by
  refine .bind (plain_strArg ..) fun s => ?_
  split
  · exact .pure _
  · exact .throw trivial

theorem plain_inRadix (name : String) (type : IntType) (v : Value) :
    Plain (inRadix name type v) :=
  .bind (plain_intArg ..) fun _ => .pure _

theorem plain_quoteUrl (v : Value) : Plain (quoteUrl v) :=
  .bind (plain_strArg ..) fun _ => .pure _

theorem plain_unquoteUrl (v : Value) : Plain (unquoteUrl v) := by
  refine .bind (plain_strArg ..) fun s => ?_
  split
  · exact .pure _
  · exact .throw trivial

theorem plain_length (v : Value) : Plain (length v) := by
  unfold length
  split
  · exact .ok _
  · exact .ok _
  · exact .ok _
  · exact .error trivial

theorem plain_rangeArgs (name : String) (args : List Value) : Plain (rangeArgs name args) := by
  refine .bind (.mapM (plain_intArg _) args) fun ns => ?_
  split <;> exact .pure _

/-! ## Methods -/

theorem plain_str (c : MethodCall) (index : Nat) : Plain (c.str index) :=
  .map (plain_strArg ..) _

theorem plain_int? (c : MethodCall) (index : Nat) : Plain (c.int? index) :=
  plain_optionalAs (plain_intArg _) _ _

theorem plain_limit? (c : MethodCall) (index : Nat) : Plain (c.limit? index) := by
  refine .bind (plain_int? c index) fun n => ?_
  split <;> exact .pure _

theorem plain_stripText (c : MethodCall) (cs : List Char) : Plain (stripText c cs) := by
  unfold stripText
  split
  · exact .pure _
  · exact .bind (plain_str c 0) fun _ => .pure _

theorem plain_splitText (c : MethodCall) (cs : List Char) : Plain (splitText c cs) := by
  refine .bind (plain_limit? c 1) fun limit => ?_
  dsimp only
  split
  · exact .pure _
  · exact .bind (plain_str c 0) fun _ => .ite (.throw trivial) (.pure _)

theorem plain_findText (c : MethodCall) (cs : List Char) : Plain (findText c cs) :=
  .bind (plain_str c 0) fun _ => .bind (plain_int? c 1) fun _ => .bind (plain_int? c 2) fun _ =>
    .pure _

theorem plain_textMethod (c : MethodCall) (s : String) : Plain (textMethod c s) := by
  unfold textMethod
  dsimp only
  split
  · exact .bind (plain_str c 0) fun _ => .bind (plain_str c 1) fun _ =>
      .bind (plain_limit? c 2) fun _ => .pure _
  · exact plain_stripText c _
  · exact plain_stripText c _
  · exact plain_stripText c _
  · exact plain_splitText c _
  · exact plain_splitText c _
  · exact plain_findText c _
  · exact plain_findText c _
  · exact .pure _
  · exact .pure _
  · exact .pure _
  · exact .bind (plain_str c 0) fun _ => .pure _
  · exact .bind (plain_str c 0) fun _ => .pure _
  · exact .throw trivial

theorem plain_listMethod (c : MethodCall) (items : List Value) : Plain (listMethod c items) := by
  refine .bind (plain_int? c 1) fun start => .bind (plain_int? c 2) fun stop => ?_
  dsimp only
  split
  · exact .pure _
  · exact .pure _
  · exact .throw trivial

theorem plain_dictMethod (c : MethodCall) (entries : List (String × Value)) :
    Plain (dictMethod c entries) := by
  unfold dictMethod
  split
  · exact .ok _
  · exact .ok _
  · exact .ok _
  · exact .error trivial

theorem plain_dateMethod (c : MethodCall) (d : Date) : Plain (dateMethod c d) := by
  unfold dateMethod
  split
  case h_11 => exact .map (plain_int? c 0) _
  case h_14 => exact .error trivial
  all_goals exact .ok _

theorem plain_durationMethod (c : MethodCall) (d : Duration) : Plain (durationMethod c d) := by
  unfold durationMethod
  split
  · exact .ok _
  · exact .ok _
  · exact .ok _
  · exact .error trivial

theorem plain_monthsMethod (c : MethodCall) (m : Months) : Plain (monthsMethod c m) := by
  unfold monthsMethod
  split
  · exact .ok _
  · exact .error trivial

theorem plain_colorMethod (c : MethodCall) (color : Color) : Plain (colorMethod c color) := by
  unfold colorMethod
  dsimp only
  split
  case h_10 => exact .bind (plain_intArg ..) fun _ => .pure _
  case h_11 => exact .bind (plain_floatArg ..) fun _ => .pure _
  case h_12 => exact .throw trivial
  all_goals exact .pure _

end Builtin

end Templating
