import Templating.Eval.Run
import Templating.Proofs.Compatible.Call
import Templating.Proofs.Tracked.Basic

/-!
# Calls of builtins with known iterators

* `Tracks.callMethod`, `Tracks.callFunction`: **calls of methods and functions**, for every
  judgement that evaluation keeps.
-/

namespace Templating

open Carries (handles rename)

open Eval Knowledge

namespace Tracks

variable {W : Type} [Preorder W] {K : Knowledge W} {J : Judgement W} {w : W} (hJ : Tracks K J)
  {v v' : Value} {args args' : List Value}

include hJ

/-! ## Methods -/

theorem joined (separator : String) (h : K.Along w v v') :
    J w K.Along (fun ev => Builtin.joined ev separator v)
      (fun ev => Builtin.joined ev separator v') := by
  refine hJ.bind (hJ.iterate h) fun _ _ _ _ hh => hJ.bind (Q := Same) (hJ.fold ?_ hh rfl ?_)
    fun _ _ parts parts' hparts => ?_
  · exact fun _ h => h
  · rintro w' _ parts _ item item' rfl hitem
    obtain rfl := hitem.1
    cases item with
    | str s => exact hJ.pure (.on rfl)
    | _ => exact hJ.raise trivial
  · obtain rfl := hparts
    exact hJ.pure (.leaf rfl)

/-- A method of a value with known iterators. -/
theorem apply (m : Method) (hargs : K.Along w args args') (hv : K.Along w v v') :
    J w K.Along (fun ev => Builtin.MethodCall.apply ev ⟨m, args⟩ v)
      (fun ev => Builtin.MethodCall.apply ev ⟨m, args'⟩ v') := by
  cases v with
  | str s =>
    obtain rfl := hv.1
    have harg : K.Along w (Builtin.MethodCall.arg ⟨m, args⟩ 0)
        (Builtin.MethodCall.arg ⟨m, args'⟩ 0) :=
      hargs.map (F := fun args => Builtin.MethodCall.arg ⟨m, args⟩ 0) fun ρ _ args =>
        Builtin.MethodCall.arg_rename ⟨m, args⟩ 0
    simp only [Builtin.MethodCall.apply, rename, Value.rename]
    split
    · exact hJ.joined s harg
    · exact hJ.lift (F := fun args => Builtin.textMethod ⟨m, args⟩ s)
        (fun ρ _ args => Builtin.textMethod_rename ⟨m, args⟩ s) hargs (Builtin.plain_textMethod _ s)
  | list items =>
    obtain ⟨items', rfl, hitems⟩ := hv.of_list
    exact hJ.lift (F := fun p : List Value × List Value => Builtin.listMethod ⟨m, p.1⟩ p.2)
      (fun ρ hρ p => Builtin.listMethod_rename (.ofHandles hρ) ⟨m, p.1⟩ p.2)
      (hargs.pair hitems) (Builtin.plain_listMethod _ items)
  | dict entries =>
    obtain ⟨entries', rfl, hentries⟩ := hv.of_dict
    refine hJ.lift (F := fun p : List Value × List (String × Value) =>
      Builtin.dictMethod ⟨m, p.1⟩ p.2) (fun ρ hρ p => ?_)
      (hargs.pair hentries) (Builtin.plain_dictMethod _ entries)
    have hdict := Builtin.dictMethod_rename (g := .ofHandles ρ) ⟨m, p.1⟩ p.2
    rw [Value.renameBindings_eq] at hdict
    exact hdict
  | date d =>
    obtain rfl := hv.1
    exact hJ.lift (F := fun args => Builtin.dateMethod ⟨m, args⟩ d)
      (fun ρ _ args => Builtin.dateMethod_rename ⟨m, args⟩ d) hargs (Builtin.plain_dateMethod _ d)
  | duration d =>
    obtain rfl := hv.1
    exact hJ.lift (F := fun args => Builtin.durationMethod ⟨m, args⟩ d)
      (fun ρ _ args => Builtin.durationMethod_rename ⟨m, args⟩ d)
      hargs (Builtin.plain_durationMethod _ d)
  | months n =>
    obtain rfl := hv.1
    exact hJ.lift (F := fun args => Builtin.monthsMethod ⟨m, args⟩ n)
      (fun ρ _ args => Builtin.monthsMethod_rename ⟨m, args⟩ n) hargs
      (Builtin.plain_monthsMethod _ n)
  | color c =>
    obtain rfl := hv.1
    exact hJ.lift (F := fun args => Builtin.colorMethod ⟨m, args⟩ c)
      (fun ρ _ args => Builtin.colorMethod_rename ⟨m, args⟩ c) hargs
      (Builtin.plain_colorMethod _ c)
  | _ =>
    obtain rfl := hv.1
    exact hJ.raise trivial

/-- **Calls of methods keep to known iterators.** -/
theorem callMethod (name : String) (hv : K.Along w v v') (hargs : K.Along w args args') :
    J w K.Along (fun ev => callMethod ev v name args)
      (fun ev => Templating.callMethod ev v' name args') := by
  have hresolve : Method.resolve v' name args'.length = Method.resolve v name args.length := by
    obtain rfl := hv.1
    obtain rfl := hargs.1
    exact (resolve_rename v name _).trans (congrArg _ (List.length_map _))
  unfold Templating.callMethod
  rw [hresolve]
  refine hJ.bind (hJ.lift_same (plain_resolve v name args.length)) fun _ hw m m' hm => ?_
  obtain rfl := hm
  exact hJ.apply m (hargs.mono hw) (hv.mono hw)

/-! ## Functions on sequences -/

theorem anyItem (h : K.Along w v v') :
    J w K.Along (fun ev => Builtin.anyItem ev v) (fun ev => Builtin.anyItem ev v') := by
  refine hJ.bind (hJ.iterate h) fun _ _ _ _ hh => hJ.bind (Q := Same)
    (hJ.fold (fun _ h => h) hh rfl ?_) ?_
  · rintro w' _ found _ item item' rfl hitem
    obtain rfl := hitem.1
    simp only [rename, Value.isTruthy_rename]
    split
    · exact hJ.pure (.done rfl)
    · exact hJ.pure (.on rfl)
  · rintro w' _ found _ rfl
    exact hJ.pure (.leaf rfl)

theorem allItems (h : K.Along w v v') :
    J w K.Along (fun ev => Builtin.allItems ev v) (fun ev => Builtin.allItems ev v') := by
  refine hJ.bind (hJ.iterate h) fun _ _ _ _ hh => hJ.bind (Q := Same)
    (hJ.fold (fun _ h => h) hh rfl ?_) ?_
  · rintro w' _ kept _ item item' rfl hitem
    obtain rfl := hitem.1
    simp only [rename, Value.isTruthy_rename]
    split
    · exact hJ.pure (.on rfl)
    · exact hJ.pure (.done rfl)
  · rintro w' _ kept _ rfl
    exact hJ.pure (.leaf rfl)

theorem extremeOf (name : String) (wanted : Ordering) (hargs : K.Along w args args') :
    J w K.Along (fun ev => Builtin.extremeOf ev name wanted args)
      (fun ev => Builtin.extremeOf ev name wanted args') := by
  have hextreme {w : W} {vs vs' : List Value} (hvs : K.Along w vs vs') :
      J w K.Along (fun _ => Eval.lift (Value.extreme name wanted vs))
        (fun _ => Eval.lift (Value.extreme name wanted vs')) :=
    hJ.lift (fun ρ hρ vs => Value.extreme_rename (.ofHandles hρ) name wanted vs) hvs
      (Value.plain_extreme name wanted vs)
  have hmany : J w K.Along (fun _ => Pure.pure args >>= fun vs =>
      Eval.lift (Value.extreme name wanted vs)) (fun _ => Pure.pure args' >>= fun vs =>
      Eval.lift (Value.extreme name wanted vs)) :=
    hJ.bind (hJ.pure hargs) fun _ _ _ _ hvs => hextreme hvs
  rcases args with _ | ⟨v, _ | ⟨u, args⟩⟩
  · obtain rfl := hargs.1
    exact hmany
  · obtain ⟨v', vs', rfl, hv, hvs⟩ := hargs.of_cons
    obtain rfl := hvs.1
    exact hJ.bind (hJ.items hv) fun _ _ _ _ hvs => hextreme hvs
  · obtain rfl := hargs.1
    exact hmany

theorem sortedItems (h : K.Along w v v') :
    J w K.Along (fun ev => Builtin.sortedItems ev v) (fun ev => Builtin.sortedItems ev v') :=
  hJ.bind (hJ.items h) fun _ _ vs _ hvs => hJ.bind
    (hJ.lift (fun _ hρ vs => Value.sortStable_rename (.ofHandles hρ) vs) hvs
      (Value.plain_sortStable vs))
    fun _ _ _ _ hsorted => hJ.pure hsorted.list

theorem randomItem (h : K.Along w v v') :
    J w K.Along (fun ev => Builtin.randomItem ev v) (fun ev => Builtin.randomItem ev v') := by
  refine hJ.bind (hJ.items h) fun _ _ items items' hitems => ?_
  have hlength : items'.length = items.length := hitems.1 ▸ List.length_map _
  rw [hlength]
  refine hJ.bind (hJ.draw _) fun _ hw i j hij => ?_
  obtain rfl := hij
  have hitem : K.Along _ items[i]? items'[i]? :=
    (hitems.mono hw).map (F := fun items => items[i]?) fun _ _ items => List.getElem?_map ..
  cases hi : items[i]? with
  | none =>
    rw [hi] at hitem
    rw [hitem.1]
    exact hJ.raise trivial
  | some item =>
    rw [hi] at hitem
    obtain ⟨hi', hknown⟩ := hitem
    rw [hi']
    exact hJ.pure ⟨rfl, fun i hi => hknown i (by simpa [handles] using hi)⟩

/-! ## Functions that make iterators -/

theorem iterator {c c' : Cursor} (hbuiltin : c.IsBuiltin) (hc : K.Along w c c') :
    J w K.Along (fun _ => Builtin.iterator c) (fun _ => Builtin.iterator c') :=
  hJ.bind (hJ.allocate hbuiltin hc) fun _ _ _ _ hh => hJ.pure hh.iterator

omit hJ in
theorem rangeArgs (name : String) (hargs : K.Along w args args') :
    Builtin.rangeArgs name args' = Builtin.rangeArgs name args := by
  obtain rfl := hargs.1
  exact Builtin.rangeArgs_rename name args

theorem numbers (hargs : K.Along w args args') :
    J w K.Along (fun _ => Builtin.numbers args) (fun _ => Builtin.numbers args') := by
  unfold Builtin.numbers
  rw [rangeArgs _ hargs]
  refine hJ.bind (hJ.lift_same (Builtin.plain_rangeArgs _ args)) fun _ _ range _ hrange => ?_
  obtain rfl := hrange
  unfold Cursor.range?
  dsimp only
  split
  · exact hJ.raise (α := Value) trivial
  · exact hJ.iterator (c := .range ..) trivial (.leaf rfl)

theorem markedItems (markers : Markers) (start : Int64) (h : K.Along w v v') :
    J w K.Along (fun _ => Builtin.markedItems v markers start)
      (fun _ => Builtin.markedItems v' markers start) := by
  refine hJ.bind (hJ.iterate h) fun _ _ handle handle' hh => ?_
  obtain ⟨rfl, hknown⟩ := hh
  exact hJ.iterator (c := .marked handle markers start) trivial
    ⟨rfl, List.forall_mem_singleton.2 hknown⟩

omit hJ in
theorem intOr (name : String) (index : Nat) (default : Int64) (hargs : K.Along w args args') :
    Templating.intOr name args' index default = Templating.intOr name args index default := by
  obtain rfl := hargs.1
  exact intOr_rename name default

theorem enumerated (h : K.Along w v v') (hargs : K.Along w args args') :
    J w K.Along (fun _ => Builtin.enumerated v args)
      (fun _ => Builtin.enumerated v' args') := by
  unfold Builtin.enumerated
  rw [intOr _ _ _ hargs]
  refine hJ.bind (hJ.lift_same (plain_intOr ..)) fun _ hw start _ hstart => ?_
  obtain rfl := hstart
  refine hJ.bind (hJ.iterate (h.mono hw)) fun _ _ handle handle' hh => ?_
  obtain ⟨rfl, hknown⟩ := hh
  exact hJ.iterator (c := .enumerate handle start) trivial
    ⟨rfl, List.forall_mem_singleton.2 hknown⟩

theorem enumeratedMarked (h : K.Along w v v') (hargs : K.Along w args args') :
    J w K.Along (fun _ => Builtin.enumeratedMarked v args)
      (fun _ => Builtin.enumeratedMarked v' args') := by
  unfold Builtin.enumeratedMarked
  rw [intOr _ _ _ hargs]
  refine hJ.bind (hJ.lift_same (plain_intOr ..)) fun _ hw start _ hstart => ?_
  obtain rfl := hstart
  exact hJ.markedItems _ _ (h.mono hw)

theorem zipped (hargs : K.Along w args args') :
    J w K.Along (fun _ => Builtin.zipped args) (fun _ => Builtin.zipped args') := by
  have hiterate : List.Forall₂ (fun v v' => ∀ w', w ≤ w' →
      J w' K.Finds (fun _ => v.iterate) (fun _ => v'.iterate)) args args' := by
    refine hargs.forall₂.imp fun v v' hv w' hw => ?_
    exact hJ.iterate (hv.mono hw)
  refine hJ.bind (hJ.mapM (fun hw hh => hh.mono hw) hiterate le_rfl)
    fun _ _ handles handles' hh => ?_
  obtain ⟨rfl, hknown⟩ := FindsAll.of_forall₂ hh
  exact hJ.iterator (c := .zip handles) trivial ⟨rfl, hknown⟩

theorem randomNumber (hargs : K.Along w args args') :
    J w K.Along (fun _ => Builtin.randomNumber args) (fun _ => Builtin.randomNumber args') := by
  unfold Builtin.randomNumber
  rw [rangeArgs _ hargs]
  refine hJ.bind (hJ.lift_same (Builtin.plain_rangeArgs _ args)) fun _ _ range _ hrange => ?_
  obtain rfl := hrange
  dsimp only
  split
  · exact hJ.raise trivial
  split
  · exact hJ.raise trivial
  · refine hJ.bind (hJ.draw _) fun _ _ i j hij => ?_
    obtain rfl := hij
    exact hJ.pure (.leaf rfl)

/-! ## Other formats -/

omit hJ in
theorem strArg (name : String) (h : K.Along w v v') :
    Templating.strArg name v' = Templating.strArg name v := by
  obtain rfl := h.1
  exact strArg_rename name v

/-- The text of a value in some format, in which iterators do not appear. -/
theorem written {F : Value → Except Wire.Error String}
    (hF : ∀ ρ : Handle → Handle, ∀ v : Value, F (rename ρ v) = F v) (h : K.Along w v v') :
    J w K.Along (fun _ => Eval.liftWire (F v) >>= fun text => Pure.pure (Value.str text))
      (fun _ => Eval.liftWire (F v') >>= fun text => Pure.pure (Value.str text)) := by
  rw [h.1, hF]
  refine hJ.bind (hJ.liftWire _) fun _ _ text _ htext => ?_
  obtain rfl := htext
  exact hJ.pure (.leaf rfl)

theorem fromJson (h : K.Along w v v') :
    J w K.Along (fun _ => Builtin.fromJson v) (fun _ => Builtin.fromJson v') := by
  unfold Builtin.fromJson
  rw [strArg _ h]
  refine hJ.bind (hJ.lift_same (plain_strArg _ v)) fun _ _ text _ htext => ?_
  obtain rfl := htext
  cases hread : Json.read text with
  | ok value =>
    have hfixed (ρ : Handle → Handle) : rename ρ value = value := Json.same_of_read hread
    exact hJ.pure (.leaf (List.subset_nil.1 (handles_subset_of_fixed fun ρ _ _ => hfixed ρ)))
  | error e => exact hJ.raise trivial

theorem fromWire (h : K.Along w v v') :
    J w K.Along (fun _ => Builtin.fromWire v) (fun _ => Builtin.fromWire v') := by
  rw [Builtin.fromWire_eq, Builtin.fromWire_eq, strArg _ h]
  refine hJ.bind (hJ.lift_same (plain_strArg _ v)) fun _ _ text _ htext => ?_
  obtain rfl := htext
  exact hJ.load text

theorem variableOr (h : K.Along w v v') (hargs : K.Along w args args') :
    J w K.Along (fun _ => Builtin.variable v args) (fun _ => Builtin.variable v' args') := by
  unfold Builtin.variable
  rw [strArg _ h]
  refine hJ.bind (hJ.lift_same (plain_strArg _ v)) fun _ hw name _ hname => ?_
  obtain rfl := hname
  refine hJ.bind hJ.env fun _ hw' e e' he => hJ.pure ?_
  refine (he.pair (hargs.mono (hw.trans hw'))).map
    (F := fun p : Environment × List Value => (p.1.lookup? name).getD (p.2[1]?.getD .none)) ?_
  intro ρ _ p
  change ((rename ρ p.1).lookup? name).getD ((p.2.map (rename ρ))[1]?.getD .none) =
    rename ρ ((p.1.lookup? name).getD (p.2[1]?.getD .none))
  rw [Environment.lookup?_rename, List.getElem?_map]
  cases p.1.lookup? name with
  | none => cases p.2[1]? <;> rfl
  | some value => rfl

/-! ## Functions -/

/-- The text of a value does not depend on iterators. -/
theorem text {F : Value → String} (hF : ∀ (ρ : Handle → Handle) (v : Value), F (rename ρ v) = F v)
    (h : K.Along w v v') :
    J w K.Along (fun _ => Pure.pure (Value.str (F v))) (fun _ => Pure.pure (Value.str (F v'))) := by
  rw [h.1, hF]
  exact hJ.pure (.leaf rfl)

/-- A function of values with known iterators. -/
theorem applyFunction (f : Function) (hargs : K.Along w args args') :
    J w K.Along (fun ev => f.apply ev args) (fun ev => f.apply ev args') := by
  have hrandom : J w K.Along (fun _ => Builtin.randomFloat) (fun _ => Builtin.randomFloat) :=
    hJ.bind (hJ.draw _) fun _ _ _ _ h => hJ.pure (by cases h; exact .leaf rfl)
  have hnow : J w K.Along (fun _ => do return Value.date (← Eval.clock))
      (fun _ => do return Value.date (← Eval.clock)) :=
    hJ.bind hJ.clock fun _ _ _ _ h => hJ.pure (by cases h; exact .leaf rfl)
  have hvars : J w K.Along (fun _ => do return Value.dict (← Eval.env).snapshot)
      (fun _ => do return Value.dict (← Eval.env).snapshot) :=
    hJ.bind hJ.env fun _ _ _ _ he => hJ.pure
      (he.map (F := Environment.snapshot) fun ρ _ e => Environment.snapshot_rename ρ e).dict
  have hdate := hJ.lift (fun _ _ => Builtin.makeDate_rename) hargs (Builtin.plain_makeDate args)
  have hduration := hJ.lift (fun _ _ => Builtin.makeDuration_rename) hargs
    (Builtin.plain_makeDuration args)
  have hmonths := hJ.lift (fun _ _ => Builtin.makeMonths_rename) hargs
    (Builtin.plain_makeMonths args)
  have hint := hJ.lift (fun _ _ => Builtin.toInt_rename) hargs (Builtin.plain_toInt args)
  have hfloat := hJ.lift (fun _ _ => Builtin.toFloat_rename) hargs (Builtin.plain_toFloat args)
  have hcolor (name : String) (make : Float → Float → Float → Float → Color) :=
    hJ.lift (fun _ _ => Builtin.makeColor_rename name make) hargs
      (Builtin.plain_makeColor name make args)
  rcases args with _ | ⟨v, args⟩
  -- without arguments only few functions do anything
  · obtain rfl := hargs.1
    cases f with
    | random => exact hrandom
    | now | utcNow => exact hnow
    | vars => exact hvars
    | min | max => exact hJ.extremeOf _ _ hargs
    | range => exact hJ.numbers hargs
    | zip => exact hJ.zipped hargs
    | randomRange => exact hJ.randomNumber hargs
    | date => exact hdate
    | duration => exact hduration
    | rgb => exact hcolor "rgb" Color.ofUnit
    | hls => exact hcolor "hls" Color.ofHls
    | hsv => exact hcolor "hsv" Color.ofHsv
    | bool | str | list => exact hJ.pure (.leaf rfl)
    | int => exact hint
    | float => exact hfloat
    | months => exact hmonths
    | _ => exact hJ.raise trivial
  obtain ⟨v', args', rfl, hv, hrest⟩ := hargs.of_cons
  have htype (typeName : String) : J w K.Along
      (fun _ => Pure.pure (Value.bool (v.typeName = typeName)))
      (fun _ => Pure.pure (Value.bool (v'.typeName = typeName))) := by
    rw [hv.1, show (rename K.move v).typeName = v.typeName from Value.typeName_rename v]
    exact hJ.pure (.leaf rfl)
  have hmarked (markers : Markers) := hJ.markedItems markers 0 hv
  cases f with
  | isNone | isBool | isInt | isFloat | isStr | isDate | isColor | isDuration | isMonths
  | isTemplate | isList | isDict => exact htype _
  | bool =>
    have htruthy : v'.isTruthy = v.isTruthy := hv.1 ▸ Value.isTruthy_rename v
    change J w K.Along (fun _ => Pure.pure (Value.bool v.isTruthy))
      (fun _ => Pure.pure (Value.bool v'.isTruthy))
    rw [htruthy]
    exact hJ.pure (.leaf rfl)
  | str => exact hJ.text (fun _ => Value.text_rename) hv
  | repr => exact hJ.text (fun _ => Value.repr_rename) hv
  | type => exact hJ.text (fun _ => Value.typeName_rename) hv
  | int => exact hint
  | float => exact hfloat
  | list => exact hJ.bind (hJ.items hv) fun _ _ _ _ hvs => hJ.pure hvs.list
  | any => exact hJ.anyItem hv
  | all => exact hJ.allItems hv
  | len => exact hJ.lift (fun _ _ => Builtin.length_rename) hv (Builtin.plain_length v)
  | min | max => exact hJ.extremeOf _ _ hargs
  | sorted => exact hJ.sortedItems hv
  | range => exact hJ.numbers hargs
  | reversed => exact hJ.bind (hJ.reversed hv) fun _ _ _ _ hh => hJ.pure hh.iterator
  | enumerate => exact hJ.enumerated hv hargs
  | isFirst | isLast | isFirstLast => exact hmarked _
  | enumFirstLast => exact hJ.enumeratedMarked hv hargs
  | zip => exact hJ.zipped hargs
  | format =>
    cases args with
    | nil =>
      obtain rfl := hrest.1
      exact hJ.raise trivial
    | cons spec args =>
      obtain ⟨spec', rest, rfl, hspec, -⟩ := hrest.of_cons
      exact hJ.lift (F := fun p : Value × Value × List Value => Builtin.formatValue p.1 p.2.1 p.2.2)
        (fun _ _ p => Builtin.formatValue_rename p.1 p.2.1 p.2.2) (hv.pair (hspec.pair hargs))
        (Builtin.plain_formatValue ..)
  | xmlEscape =>
    exact hJ.text (F := fun v => Text.xmlEscape v.text)
      (fun _ v => congrArg Text.xmlEscape (Value.text_rename v)) hv
  | csv => exact hJ.text (fun _ => Builtin.csvText_rename) hv
  | chr => exact hJ.lift (fun _ _ => Builtin.character_rename) hv (Builtin.plain_character v)
  | ord => exact hJ.lift (fun _ _ => Builtin.codePoint_rename) hv (Builtin.plain_codePoint v)
  | hex | oct | bin =>
    exact hJ.lift (fun _ _ => Builtin.inRadix_rename _ _) hv (Builtin.plain_inRadix _ _ v)
  | urlQuote => exact hJ.lift (fun _ _ => Builtin.quoteUrl_rename) hv (Builtin.plain_quoteUrl v)
  | urlUnquote =>
    exact hJ.lift (fun _ _ => Builtin.unquoteUrl_rename) hv (Builtin.plain_unquoteUrl v)
  | asJson => exact hJ.written (fun _ => Json.write_rename fun _ => rfl) hv
  | fromJson => exact hJ.fromJson hv
  | asWire => exact hJ.written (fun _ => Wire.dumps_rename) hv
  | fromWire => exact hJ.fromWire hv
  | random => exact hrandom
  | randomRange => exact hJ.randomNumber hargs
  | randomChoice => exact hJ.randomItem hv
  | abs => exact hJ.lift (fun _ _ => Builtin.absolute_rename) hv (Builtin.plain_absolute v)
  | now | utcNow => exact hnow
  | date => exact hdate
  | duration => exact hduration
  | months => exact hmonths
  | rgb => exact hcolor "rgb" Color.ofUnit
  | hls => exact hcolor "hls" Color.ofHls
  | hsv => exact hcolor "hsv" Color.ofHsv
  | get => exact hJ.variableOr hv hargs
  | vars => exact hvars

/-- **Calls of functions keep to known iterators.** -/
theorem callFunction (name : String) (hargs : K.Along w args args') :
    J w K.Along (fun ev => callFunction ev name args)
      (fun ev => Templating.callFunction ev name args') := by
  have hlength : args'.length = args.length := hargs.1 ▸ List.length_map _
  unfold Templating.callFunction
  rw [hlength]
  split
  · exact hJ.raise trivial
  · exact hJ.bind (hJ.lift_same (plain_check ..)) fun _ hw _ _ _ =>
      hJ.applyFunction _ (hargs.mono hw)

end Tracks

end Templating
