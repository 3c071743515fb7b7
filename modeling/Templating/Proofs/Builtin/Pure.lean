import Templating.Eval.Expression
import Templating.Proofs.Value.Operators

/-!
# Builtins do not see what a value refers to

* `Builtin.MethodCall.listMethod_rename` and its siblings: the methods of each type.
* `Value.resolve_rename`: which method a name stands for.
* `Value.attribute_rename`: the entries of a dict, and the properties of a template.
-/

namespace Templating

variable {g : Renaming}

namespace Value

theorem Stays.ok {v : Value} (h : v.rename g = v) : Stays g (.ok v) := congrArg Except.ok h

theorem Stays.pure {v : Value} (h : v.rename g = v) : Stays g (Pure.pure v) := .ok h

theorem Stays.bind {α : Type} {x : Except Cause α} {k : α → Except Cause Value}
    (h : ∀ a, Stays g (k a)) : Stays g (x >>= k) := by
  cases x with
  | error c => rfl
  | ok a => exact h a

theorem Stays.ite {p : Prop} [Decidable p] {x y : Except Cause Value} (hx : Stays g x)
    (hy : Stays g y) : Stays g (if p then x else y) := by
  split
  · exact hx
  · exact hy

end Value

open Value

/-! ## Arguments -/

@[simp] theorem intArg_rename (name : String) (v : Value) :
    intArg name (v.rename g) = intArg name v := by
  simp [intArg]

@[simp] theorem floatArg_rename (name : String) (v : Value) :
    floatArg name (v.rename g) = floatArg name v := by
  simp [floatArg]

@[simp] theorem strArg_rename (name : String) (v : Value) :
    strArg name (v.rename g) = strArg name v := by
  simp [strArg]

variable {args : List Value} {index : Nat}

theorem optional_rename :
    optional (args.map (Value.rename g)) index =
      (optional args index).map (Value.rename g) := by
  simp only [optional, List.getElem?_map]
  cases args[index]? with
  | none => rfl
  | some v =>
    simp only [Option.map, Option.filter, isNone_rename]
    split <;> rfl

theorem optionalAs_rename {α : Type} {read : Value → Except Cause α}
    (h : ∀ v, read (v.rename g) = read v) :
    optionalAs read (args.map (Value.rename g)) index = optionalAs read args index := by
  simp only [optionalAs, optional_rename]
  cases optional args index with
  | none => rfl
  | some v => simp only [Option.map, h]

theorem intOr_rename (name : String) (default : Int64) :
    intOr name (args.map (Value.rename g)) index default = intOr name args index default := by
  rw [intOr, intOr, optionalAs_rename (intArg_rename name)]

theorem mapM_rename {α : Type} {read : Value → Except Cause α}
    (h : ∀ v, read (v.rename g) = read v) (args : List Value) :
    (args.map (Value.rename g)).mapM read = args.mapM read := by
  rw [List.mapM_map]
  exact congrArg (List.mapM · args) (funext h)

namespace Builtin

/-! ## Conversions -/

theorem stays_truncated (x : Float) : Stays g (truncated x) := by
  unfold truncated
  split
  · rfl
  · split <;> rfl

theorem stays_parseInt (text : String) (base : Int64) : Stays g (parseInt text base) := by
  unfold parseInt
  refine .ite (.error _) ?_
  split <;> rfl

theorem toInt_rename (args : List Value) :
    toInt (args.map (Value.rename g)) = (toInt args).map (Value.rename g) := by
  rcases args with _ | ⟨v, _ | ⟨base, args⟩⟩
  · rfl
  · cases v with
    | str s => exact (stays_parseInt s 10).symm
    | float x => exact (stays_truncated x).symm
    | _ => rfl
  · have hbase := intArg_rename (g := g) "int" base
    simp only [List.map_cons, toInt, hbase]
    cases intArg "int" base with
    | error c => rfl
    | ok b =>
      cases v with
      | str s => exact (stays_parseInt s b).symm
      | _ => rfl

theorem toFloat_rename (args : List Value) :
    toFloat (args.map (Value.rename g)) = (toFloat args).map (Value.rename g) := by
  rcases args with _ | ⟨v, args⟩
  · rfl
  · cases v with
    | str s =>
      simp only [List.map_cons, Value.rename, toFloat, parseFloat]
      split <;> rfl
    | _ => rfl

theorem absolute_rename (v : Value) :
    absolute (v.rename g) = (absolute v).map (Value.rename g) := by
  cases v with
  | int n => exact (stays_exactly n.toInt.natAbs "abs()").symm
  | months m => exact (stays_monthsOr m.count.toInt.natAbs "abs()").symm
  | duration d =>
    simp only [Value.rename, absolute]
    split
    · exact (stays_durationOr _ _).symm
    · rfl
  | _ => rfl

theorem makeDate_rename (args : List Value) :
    makeDate (args.map (Value.rename g)) = (makeDate args).map (Value.rename g) := by
  have hstays : Stays g (makeDate args) := .bind fun _ => stays_dateOr _
  rw [hstays, makeDate, makeDate, mapM_rename (intArg_rename _)]

theorem makeDuration_rename (args : List Value) :
    makeDuration (args.map (Value.rename g)) = (makeDuration args).map (Value.rename g) := by
  have hstays : Stays g (makeDuration args) :=
    .ite (.bind fun _ => stays_durationOr _ _) (.bind fun _ => stays_durationOr _ _)
  have hall : (args.map (Value.rename g)).all (·.asInt?.isSome) =
      args.all (·.asInt?.isSome) := by
    rw [List.all_map]
    simp [Function.comp_def]
  rw [hstays, makeDuration, makeDuration, hall, mapM_rename (intArg_rename _),
    mapM_rename (floatArg_rename _)]

theorem makeMonths_rename (args : List Value) :
    makeMonths (args.map (Value.rename g)) = (makeMonths args).map (Value.rename g) := by
  cases args with
  | nil => rfl
  | cons v args =>
    simp only [List.map_cons, makeMonths, intArg_rename]
    exact (stays_map _ fun _ => rfl).symm

theorem makeColor_rename (name : String) (make : Float → Float → Float → Float → Color)
    (args : List Value) :
    makeColor name make (args.map (Value.rename g)) =
      (makeColor name make args).map (Value.rename g) := by
  have hstays : Stays g (makeColor name make args) :=
    .bind fun _ => .bind fun _ => by split <;> rfl
  rw [hstays, makeColor, makeColor, optionalAs_rename (floatArg_rename _), ← List.map_take,
    mapM_rename (floatArg_rename _)]

/-! ## Texts -/

theorem formatText_rename (v : Value) (format : String) (language : Option String) :
    formatText (v.rename g) format language = formatText v format language := by
  cases v <;> rfl

theorem formatValue_rename (v spec : Value) (args : List Value) :
    formatValue (v.rename g) (spec.rename g) (args.map (Value.rename g)) =
      (formatValue v spec args).map (Value.rename g) := by
  have hstays : Stays g (formatValue v spec args) :=
    .bind fun _ => .bind fun _ => .bind fun _ => .pure rfl
  rw [hstays]
  simp only [formatValue, strArg_rename, optionalAs_rename (strArg_rename _),
    formatText_rename]

@[simp] theorem csvText_rename (v : Value) : csvText (v.rename g) = csvText v := by
  have hrepr := repr_rename (g := g) v
  cases v with
  | list items | dict entries | template t =>
    exact congrArg Text.csvField hrepr
  | _ => rfl

theorem character_rename (v : Value) :
    character (v.rename g) = (character v).map (Value.rename g) := by
  have hstays : Stays g (character v) := .bind fun _ => .ite (.pure rfl) (.error _)
  rw [hstays, character, character, intArg_rename]

theorem codePoint_rename (v : Value) :
    codePoint (v.rename g) = (codePoint v).map (Value.rename g) := by
  have hstays : Stays g (codePoint v) := .bind fun _ => by split <;> rfl
  rw [hstays, codePoint, codePoint, strArg_rename]

theorem inRadix_rename (name : String) (type : IntType) (v : Value) :
    inRadix name type (v.rename g) = (inRadix name type v).map (Value.rename g) := by
  have hstays : Stays g (inRadix name type v) := .bind fun _ => .pure rfl
  rw [hstays, inRadix, inRadix, intArg_rename]

theorem quoteUrl_rename (v : Value) :
    quoteUrl (v.rename g) = (quoteUrl v).map (Value.rename g) := by
  have hstays : Stays g (quoteUrl v) := .bind fun _ => .pure rfl
  rw [hstays, quoteUrl, quoteUrl, strArg_rename]

theorem unquoteUrl_rename (v : Value) :
    unquoteUrl (v.rename g) = (unquoteUrl v).map (Value.rename g) := by
  have hstays : Stays g (unquoteUrl v) := .bind fun _ => by split <;> rfl
  rw [hstays, unquoteUrl, unquoteUrl, strArg_rename, repr_rename]

/-! ## Sequences -/

theorem length_rename (v : Value) :
    length (v.rename g) = (length v).map (Value.rename g) := by
  cases v with
  | list items =>
    simp only [Value.rename, length, length_renameAll]
    rfl
  | dict entries =>
    simp only [Value.rename, length, renameBindings_eq, List.length_map]
    rfl
  | _ => rfl

theorem rangeArgs_rename (name : String) (args : List Value) :
    rangeArgs name (args.map (Value.rename g)) = rangeArgs name args := by
  rw [rangeArgs, rangeArgs, mapM_rename (intArg_rename _)]

/-! ## Methods -/

namespace MethodCall

/-- A call whose arguments refer to other things. -/
def rename (g : Renaming) (c : MethodCall) : MethodCall := ⟨c.method, c.args.map (Value.rename g)⟩

variable (c : MethodCall) (index : Nat)

@[simp] theorem method_rename : (c.rename g).method = c.method := rfl

@[simp] theorem arg_rename : (c.rename g).arg index = (c.arg index).rename g := by
  simp only [arg, rename, List.getElem?_map]
  cases c.args[index]? <;> rfl

@[simp] theorem str_rename : (c.rename g).str index = c.str index := by
  simp only [str, arg_rename, strArg_rename, method_rename]

@[simp] theorem int?_rename : (c.rename g).int? index = c.int? index :=
  optionalAs_rename (intArg_rename _)

@[simp] theorem limit?_rename : (c.rename g).limit? index = c.limit? index := by
  simp only [limit?, int?_rename]

end MethodCall

theorem renameAll_strOf (pieces : List (List Char)) :
    renameAll g (pieces.map strOf) = pieces.map strOf := by
  rw [renameAll_eq, List.map_map]
  rfl

theorem stays_pieces (pieces : List (List Char)) : Stays g (.ok (.list (pieces.map strOf))) :=
  .ok (congrArg Value.list (renameAll_strOf pieces))

theorem stays_positionOr (offset : Nat) (found : Option Nat) :
    Stays g (.ok (positionOr offset found)) := by
  cases found <;> rfl

theorem stays_stripText (c : MethodCall) (cs : List Char) : Stays g (stripText c cs) := by
  unfold stripText
  split
  · rfl
  · exact .bind fun _ => .pure rfl

theorem stays_splitText (c : MethodCall) (cs : List Char) : Stays g (splitText c cs) := by
  unfold splitText
  refine .bind fun _ => ?_
  simp only
  split
  · exact stays_pieces _
  · exact .bind fun _ => .ite (.error _) (stays_pieces _)

theorem stays_textMethod (c : MethodCall) (s : String) : Stays g (textMethod c s) := by
  unfold textMethod
  simp only
  split
  · exact .bind fun _ => .bind fun _ => .bind fun _ => .pure rfl
  · exact stays_stripText c _
  · exact stays_stripText c _
  · exact stays_stripText c _
  · exact stays_splitText c _
  · exact stays_splitText c _
  · exact .bind fun _ => .bind fun _ => .bind fun _ => stays_positionOr _ _
  · exact .bind fun _ => .bind fun _ => .bind fun _ => stays_positionOr _ _
  · rfl
  · rfl
  · rfl
  · exact .bind fun _ => .pure rfl
  · exact .bind fun _ => .pure rfl
  · rfl

theorem stripText_rename (c : MethodCall) (cs : List Char) :
    stripText (c.rename g) cs = stripText c cs := by
  have hargs : optional (c.rename g).args 0 = (optional c.args 0).map (Value.rename g) :=
    optional_rename
  simp only [stripText, hargs, MethodCall.str_rename, MethodCall.method_rename]
  cases optional c.args 0 <;> rfl

theorem splitText_rename (c : MethodCall) (cs : List Char) :
    splitText (c.rename g) cs = splitText c cs := by
  have hargs : optional (c.rename g).args 0 = (optional c.args 0).map (Value.rename g) :=
    optional_rename
  simp only [splitText, hargs, MethodCall.str_rename, MethodCall.limit?_rename,
    MethodCall.method_rename]
  cases optional c.args 0 <;> rfl

theorem findText_rename (c : MethodCall) (cs : List Char) :
    findText (c.rename g) cs = findText c cs := by
  simp only [findText, MethodCall.str_rename, MethodCall.int?_rename]
  rfl

theorem textMethod_rename (c : MethodCall) (s : String) :
    textMethod (c.rename g) s = (textMethod c s).map (Value.rename g) := by
  rw [stays_textMethod]
  simp only [textMethod, stripText_rename, splitText_rename, findText_rename,
    MethodCall.str_rename, MethodCall.limit?_rename, MethodCall.method_rename]

theorem findIdx?_rename (hg : g.Faithful) (a : Value) (items : List Value) :
    (items.map (Value.rename g)).findIdx? (·.equal (a.rename g)) =
      items.findIdx? (·.equal a) := by
  rw [List.findIdx?_map]
  exact congrArg (List.findIdx? · items) (funext fun b => equal_rename hg b a)

theorem listMethod_rename (hg : g.Faithful) (c : MethodCall)
    (items : List Value) :
    listMethod (c.rename g) (items.map (Value.rename g)) =
      (listMethod c items).map (Value.rename g) := by
  have hstays : Stays g (listMethod c items) := by
    refine .bind fun _ => .bind fun _ => ?_
    simp only
    split
    · exact stays_positionOr _ _
    · exact stays_positionOr _ _
    · rfl
  rw [hstays]
  simp only [listMethod, findLastIdx?, MethodCall.int?_rename, MethodCall.method_rename,
    MethodCall.arg_rename, sliceList_map, ← List.map_reverse, findIdx?_rename hg,
    List.length_map]

theorem dictMethod_rename (c : MethodCall) (entries : List (String × Value)) :
    dictMethod (c.rename g) (renameBindings g entries) =
      (dictMethod c entries).map (Value.rename g) := by
  simp only [dictMethod, MethodCall.method_rename, MethodCall.arg_rename, asStr?_rename]
  split
  · cases (c.arg 0).asStr? with
    | none => rfl
    | some key =>
      simp only [Option.bind, lookup?_renameBindings]
      cases Bindings.lookup? key entries <;> rfl
  · simp [Except.map, Value.rename, renameAll_eq, renameBindings_eq, Function.comp_def]
  · simp [Except.map, Value.rename, renameAll_eq, renameBindings_eq, Function.comp_def]
  · rfl

theorem dateMethod_rename (c : MethodCall) (d : Date) :
    dateMethod (c.rename g) d = (dateMethod c d).map (Value.rename g) := by
  simp only [dateMethod, MethodCall.method_rename, MethodCall.int?_rename]
  split <;> first | rfl | exact (stays_map _ fun _ => rfl).symm

theorem durationMethod_rename (c : MethodCall) (d : Duration) :
    durationMethod (c.rename g) d = (durationMethod c d).map (Value.rename g) := by
  simp only [durationMethod, MethodCall.method_rename]
  split <;> rfl

theorem monthsMethod_rename (c : MethodCall) (m : Months) :
    monthsMethod (c.rename g) m = (monthsMethod c m).map (Value.rename g) := by
  simp only [monthsMethod, MethodCall.method_rename]
  split <;> rfl

theorem stays_floats (xs : List Float) : Stays g (.ok (floats xs)) := by
  refine .ok (congrArg Value.list ?_)
  rw [renameAll_eq, List.map_map]
  rfl

theorem colorMethod_rename (c : MethodCall) (color : Color) :
    colorMethod (c.rename g) color = (colorMethod c color).map (Value.rename g) := by
  have hstays : Stays g (colorMethod c color) := by
    unfold colorMethod
    simp only
    split
    · rfl
    · rfl
    · rfl
    · rfl
    · rfl
    · exact stays_floats _
    · exact stays_floats _
    · exact stays_floats _
    · exact stays_floats _
    · exact .bind fun _ => .pure rfl
    · exact .bind fun _ => .pure rfl
    · rfl
  rw [hstays]
  simp only [colorMethod, MethodCall.method_rename, MethodCall.arg_rename, intArg_rename,
    floatArg_rename]

end Builtin

theorem resolve_rename (v : Value) (name : String) (given : Nat) :
    Method.resolve (v.rename g) name given = Method.resolve v name given := by
  have haccepts : ∀ r : Receiver, r.accepts (v.rename g) = r.accepts v := by
    intro r
    cases r <;> cases v <;> rfl
  simp only [Method.resolve, haccepts, typeName_rename]

/-! ## Attributes and keyword arguments -/

theorem attribute_rename (v : Value) (attr : String) :
    (v.rename g).attribute attr = (v.attribute attr).map (Value.rename g) := by
  cases v with
  | dict entries =>
    simp only [Value.rename, Value.attribute, lookup?_renameBindings]
    cases Bindings.lookup? attr entries <;> rfl
  | template t =>
    simp only [Value.rename, Value.attribute, g.name, g.source, g.startDelim, g.endDelim]
    split
    · cases t.name <;> rfl
    · rfl
    · rfl
    · rfl
    · rfl
  | _ => rfl

theorem splat_rename (v : Value) :
    (v.rename g).splat = v.splat.map (renameBindings g) := by
  cases v <;> rfl

end Templating
