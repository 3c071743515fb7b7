import Templating.Proofs.Builtin.Formats
import Templating.Proofs.Wire.Rename

/-!
# Operators and builtins do not see identities

New identities are a renaming, so what holds of renamings holds of them. These are the cases that
the evaluator needs.
-/

namespace Templating

variable {f : Relabel}

namespace Relabel

theorem rename_eq : Value.rename f.renaming = Value.relabel f := funext Value.rename_renaming

theorem renameAll_eq : Value.renameAll f.renaming = Value.relabelAll f :=
  funext Value.renameAll_renaming

theorem renameBindings_eq : Value.renameBindings f.renaming = Value.relabelBindings f :=
  funext Value.renameBindings_renaming

end Relabel

/-! ## Operators -/

namespace Value

@[simp] theorem relabel_ofLiteral (l : Literal) : (ofLiteral l).relabel f = ofLiteral l := by
  simpa only [Relabel.rename_eq, Relabel.renameAll_eq, Relabel.renameBindings_eq] using
    rename_ofLiteral (g := f.renaming) l

@[simp] theorem isTruthy_relabel (a : Value) : (a.relabel f).isTruthy = a.isTruthy := by
  simpa only [Relabel.rename_eq, Relabel.renameAll_eq, Relabel.renameBindings_eq] using
    isTruthy_rename (g := f.renaming) a

@[simp] theorem text_relabel (a : Value) : (a.relabel f).text = a.text := by
  simpa only [Relabel.rename_eq, Relabel.renameAll_eq, Relabel.renameBindings_eq] using
    text_rename (g := f.renaming) a

@[simp] theorem typeName_relabel (a : Value) : (a.relabel f).typeName = a.typeName := by
  simpa only [Relabel.rename_eq, Relabel.renameAll_eq, Relabel.renameBindings_eq] using
    typeName_rename (g := f.renaming) a

@[simp] theorem repr_relabel : ∀ a : Value, (a.relabel f).repr = a.repr := by
  simpa only [Relabel.rename_eq, Relabel.renameAll_eq, Relabel.renameBindings_eq] using
    repr_rename (g := f.renaming)

theorem lookup?_relabelBindings (key : String) (entries : List (String × Value)) :
    Bindings.lookup? key (relabelBindings f entries) =
      (Bindings.lookup? key entries).map (Value.relabel f) := by
  simpa only [Relabel.rename_eq, Relabel.renameAll_eq, Relabel.renameBindings_eq] using
    lookup?_renameBindings (g := f.renaming) key entries

theorem unary_relabel (op : UnaryOp) (a : Value) :
    unary op (a.relabel f) = (unary op a).map (Value.relabel f) := by
  simpa only [Relabel.rename_eq, Relabel.renameAll_eq, Relabel.renameBindings_eq] using
    unary_rename (g := f.renaming) op a

theorem binary_relabel (hf : Function.Injective f.template) (op : BinaryOp) (a b : Value) :
    binary op (a.relabel f) (b.relabel f) = (binary op a b).map (Value.relabel f) := by
  simpa only [Relabel.rename_eq, Relabel.renameAll_eq, Relabel.renameBindings_eq] using
    binary_rename (g := f.renaming) (Relabel.renaming_faithful hf) op a b

theorem sortStable_relabel (hf : Function.Injective f.template) (xs : List Value) :
    sortStable (xs.map (Value.relabel f)) =
      (sortStable xs).map (List.map (Value.relabel f)) := by
  simpa only [Relabel.rename_eq, Relabel.renameAll_eq, Relabel.renameBindings_eq] using
    sortStable_rename (g := f.renaming) (Relabel.renaming_faithful hf) xs

theorem getSlice_relabel (container : Value) (start stop : Option Int64) :
    (container.relabel f).getSlice start stop =
      (container.getSlice start stop).map (Value.relabel f) := by
  simpa only [Relabel.rename_eq, Relabel.renameAll_eq, Relabel.renameBindings_eq] using
    getSlice_rename (g := f.renaming) container start stop

theorem extreme_relabel (hf : Function.Injective f.template) (function : String)
    (wanted : Ordering) (xs : List Value) :
    extreme function wanted (xs.map (Value.relabel f)) =
      (extreme function wanted xs).map (Value.relabel f) := by
  simpa only [Relabel.rename_eq, Relabel.renameAll_eq, Relabel.renameBindings_eq] using
    extreme_rename (g := f.renaming) (Relabel.renaming_faithful hf) function wanted xs

end Value

/-! ## Arguments, attributes and methods -/

variable {args : List Value} {index : Nat}

open Value

@[simp] theorem intArg_relabel (name : String) (v : Value) :
    intArg name (v.relabel f) = intArg name v := by
  simpa only [Relabel.rename_eq, Relabel.renameAll_eq, Relabel.renameBindings_eq] using
    intArg_rename (g := f.renaming) name v

@[simp] theorem strArg_relabel (name : String) (v : Value) :
    strArg name (v.relabel f) = strArg name v := by
  simpa only [Relabel.rename_eq, Relabel.renameAll_eq, Relabel.renameBindings_eq] using
    strArg_rename (g := f.renaming) name v

theorem intOr_relabel (name : String) (default : Int64) :
    intOr name (args.map (Value.relabel f)) index default = intOr name args index default := by
  simpa only [Relabel.rename_eq, Relabel.renameAll_eq, Relabel.renameBindings_eq] using
    intOr_rename (g := f.renaming) name default

theorem resolve_relabel (v : Value) (name : String) (given : Nat) :
    Method.resolve (v.relabel f) name given = Method.resolve v name given := by
  simpa only [Relabel.rename_eq, Relabel.renameAll_eq, Relabel.renameBindings_eq] using
    resolve_rename (g := f.renaming) v name given

theorem attribute_relabel (v : Value) (attr : String) :
    (v.relabel f).attribute attr = (v.attribute attr).map (Value.relabel f) := by
  simpa only [Relabel.rename_eq, Relabel.renameAll_eq, Relabel.renameBindings_eq] using
    attribute_rename (g := f.renaming) v attr

theorem splat_relabel (v : Value) :
    (v.relabel f).splat = v.splat.map (relabelBindings f) := by
  simpa only [Relabel.rename_eq, Relabel.renameAll_eq, Relabel.renameBindings_eq] using
    splat_rename (g := f.renaming) v

/-! ## Builtins -/

namespace Builtin

/-- A call with other identities in its arguments. -/
def MethodCall.relabel (f : Relabel) (c : MethodCall) : MethodCall :=
  ⟨c.method, c.args.map (Value.relabel f)⟩

theorem MethodCall.rename_eq (c : MethodCall) : c.rename f.renaming = c.relabel f := by
  rw [MethodCall.rename, Relabel.rename_eq]
  rfl

theorem toInt_relabel (args : List Value) :
    toInt (args.map (Value.relabel f)) = (toInt args).map (Value.relabel f) := by
  simpa only [Relabel.rename_eq, Relabel.renameAll_eq, Relabel.renameBindings_eq] using
    toInt_rename (g := f.renaming) args

theorem toFloat_relabel (args : List Value) :
    toFloat (args.map (Value.relabel f)) = (toFloat args).map (Value.relabel f) := by
  simpa only [Relabel.rename_eq, Relabel.renameAll_eq, Relabel.renameBindings_eq] using
    toFloat_rename (g := f.renaming) args

theorem absolute_relabel (v : Value) :
    absolute (v.relabel f) = (absolute v).map (Value.relabel f) := by
  simpa only [Relabel.rename_eq, Relabel.renameAll_eq, Relabel.renameBindings_eq] using
    absolute_rename (g := f.renaming) v

theorem makeDate_relabel (args : List Value) :
    makeDate (args.map (Value.relabel f)) = (makeDate args).map (Value.relabel f) := by
  simpa only [Relabel.rename_eq, Relabel.renameAll_eq, Relabel.renameBindings_eq] using
    makeDate_rename (g := f.renaming) args

theorem makeDuration_relabel (args : List Value) :
    makeDuration (args.map (Value.relabel f)) = (makeDuration args).map (Value.relabel f) := by
  simpa only [Relabel.rename_eq, Relabel.renameAll_eq, Relabel.renameBindings_eq] using
    makeDuration_rename (g := f.renaming) args

theorem makeMonths_relabel (args : List Value) :
    makeMonths (args.map (Value.relabel f)) = (makeMonths args).map (Value.relabel f) := by
  simpa only [Relabel.rename_eq, Relabel.renameAll_eq, Relabel.renameBindings_eq] using
    makeMonths_rename (g := f.renaming) args

theorem makeColor_relabel (name : String) (make : Float → Float → Float → Float → Color)
    (args : List Value) :
    makeColor name make (args.map (Value.relabel f)) =
      (makeColor name make args).map (Value.relabel f) := by
  simpa only [Relabel.rename_eq, Relabel.renameAll_eq, Relabel.renameBindings_eq] using
    makeColor_rename (g := f.renaming) name make args

theorem formatValue_relabel (v spec : Value) (args : List Value) :
    formatValue (v.relabel f) (spec.relabel f) (args.map (Value.relabel f)) =
      (formatValue v spec args).map (Value.relabel f) := by
  simpa only [Relabel.rename_eq, Relabel.renameAll_eq, Relabel.renameBindings_eq] using
    formatValue_rename (g := f.renaming) v spec args

@[simp] theorem csvText_relabel (v : Value) : csvText (v.relabel f) = csvText v := by
  simpa only [Relabel.rename_eq, Relabel.renameAll_eq, Relabel.renameBindings_eq] using
    csvText_rename (g := f.renaming) v

theorem character_relabel (v : Value) :
    character (v.relabel f) = (character v).map (Value.relabel f) := by
  simpa only [Relabel.rename_eq, Relabel.renameAll_eq, Relabel.renameBindings_eq] using
    character_rename (g := f.renaming) v

theorem codePoint_relabel (v : Value) :
    codePoint (v.relabel f) = (codePoint v).map (Value.relabel f) := by
  simpa only [Relabel.rename_eq, Relabel.renameAll_eq, Relabel.renameBindings_eq] using
    codePoint_rename (g := f.renaming) v

theorem inRadix_relabel (name : String) (type : IntType) (v : Value) :
    inRadix name type (v.relabel f) = (inRadix name type v).map (Value.relabel f) := by
  simpa only [Relabel.rename_eq, Relabel.renameAll_eq, Relabel.renameBindings_eq] using
    inRadix_rename (g := f.renaming) name type v

theorem quoteUrl_relabel (v : Value) :
    quoteUrl (v.relabel f) = (quoteUrl v).map (Value.relabel f) := by
  simpa only [Relabel.rename_eq, Relabel.renameAll_eq, Relabel.renameBindings_eq] using
    quoteUrl_rename (g := f.renaming) v

theorem unquoteUrl_relabel (v : Value) :
    unquoteUrl (v.relabel f) = (unquoteUrl v).map (Value.relabel f) := by
  simpa only [Relabel.rename_eq, Relabel.renameAll_eq, Relabel.renameBindings_eq] using
    unquoteUrl_rename (g := f.renaming) v

theorem length_relabel (v : Value) :
    length (v.relabel f) = (length v).map (Value.relabel f) := by
  simpa only [Relabel.rename_eq, Relabel.renameAll_eq, Relabel.renameBindings_eq] using
    length_rename (g := f.renaming) v

theorem rangeArgs_relabel (name : String) (args : List Value) :
    rangeArgs name (args.map (Value.relabel f)) = rangeArgs name args := by
  simpa only [Relabel.rename_eq, Relabel.renameAll_eq, Relabel.renameBindings_eq] using
    rangeArgs_rename (g := f.renaming) name args

@[simp] theorem MethodCall.method_relabel (c : MethodCall) :
    (c.relabel f).method = c.method := rfl

@[simp] theorem MethodCall.arg_relabel (c : MethodCall) (index : Nat) :
    (c.relabel f).arg index = (c.arg index).relabel f := by
  rw [← c.rename_eq, MethodCall.arg_rename, Relabel.rename_eq]

theorem textMethod_relabel (c : MethodCall) (s : String) :
    textMethod (c.relabel f) s = (textMethod c s).map (Value.relabel f) := by
  simpa only [Relabel.rename_eq, Relabel.renameAll_eq, Relabel.renameBindings_eq,
    MethodCall.rename_eq] using
    textMethod_rename (g := f.renaming) c s

theorem listMethod_relabel (hf : Function.Injective f.template) (c : MethodCall)
    (items : List Value) :
    listMethod (c.relabel f) (items.map (Value.relabel f)) =
      (listMethod c items).map (Value.relabel f) := by
  simpa only [Relabel.rename_eq, Relabel.renameAll_eq, Relabel.renameBindings_eq,
    MethodCall.rename_eq] using
      listMethod_rename (g := f.renaming) (Relabel.renaming_faithful hf) c items

theorem dictMethod_relabel (c : MethodCall) (entries : List (String × Value)) :
    dictMethod (c.relabel f) (relabelBindings f entries) =
      (dictMethod c entries).map (Value.relabel f) := by
  simpa only [Relabel.rename_eq, Relabel.renameAll_eq, Relabel.renameBindings_eq,
    MethodCall.rename_eq] using dictMethod_rename (g := f.renaming) c entries

theorem dateMethod_relabel (c : MethodCall) (d : Date) :
    dateMethod (c.relabel f) d = (dateMethod c d).map (Value.relabel f) := by
  simpa only [Relabel.rename_eq, Relabel.renameAll_eq, Relabel.renameBindings_eq,
    MethodCall.rename_eq] using dateMethod_rename (g := f.renaming) c d

theorem durationMethod_relabel (c : MethodCall) (d : Duration) :
    durationMethod (c.relabel f) d = (durationMethod c d).map (Value.relabel f) := by
  simpa only [Relabel.rename_eq, Relabel.renameAll_eq, Relabel.renameBindings_eq,
    MethodCall.rename_eq] using durationMethod_rename (g := f.renaming) c d

theorem monthsMethod_relabel (c : MethodCall) (m : Months) :
    monthsMethod (c.relabel f) m = (monthsMethod c m).map (Value.relabel f) := by
  simpa only [Relabel.rename_eq, Relabel.renameAll_eq, Relabel.renameBindings_eq,
    MethodCall.rename_eq] using monthsMethod_rename (g := f.renaming) c m

theorem colorMethod_relabel (c : MethodCall) (color : Color) :
    colorMethod (c.relabel f) color = (colorMethod c color).map (Value.relabel f) := by
  simpa only [Relabel.rename_eq, Relabel.renameAll_eq, Relabel.renameBindings_eq,
    MethodCall.rename_eq] using colorMethod_rename (g := f.renaming) c color

end Builtin

/-! ## Texts of values -/

theorem Json.write_relabel (hf : Function.Injective f.template) (v : Value) :
    write (v.relabel f) = write v := by
  rw [← Relabel.rename_eq]
  exact write_rename (fun t => Wire.dumpsTemplate_relabel hf t) v

theorem Json.relabel_of_read {text : String} {v : Value} (h : read text = .ok v) :
    v.relabel f = v := by
  rw [← Relabel.rename_eq]
  exact same_of_read h

end Templating
