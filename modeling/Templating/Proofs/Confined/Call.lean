import Templating.Eval.Statement
import Templating.Proofs.Builtin.Formats
import Templating.Proofs.Confined.Cursor

/-!
# Confined calls

* `Code.Closed`: code with everything that is below it and everything that can be read.
* `Evaluator.Confined.render`, `Evaluator.Confined.renderNested`: templates within the code.
* `Evaluator.Confined.callMethod`, `Evaluator.Confined.callFunction`: **calls of builtins**. They
  take items of iterators, and do not evaluate nodes.
-/

namespace Templating

open Eval

/-- Code with all nodes below it, and with all that is read from texts from a limit on. -/
structure Code.Closed (code : Code) (limit : Nat) : Prop where
  children : ∀ n m, code n → m ∈ n.children → code m
  loaded : ∀ text fresh fresh' v, limit ≤ fresh → Wire.loads? text fresh = .ok (v, fresh') →
    v.Within code

variable {code : Code} {limit : Nat}

/-! ## Calls that do not need an evaluator -/

namespace Eval.Confined

variable {v : Value} {args : List Value}

theorem calculated {α : Type} (e : Except Cause α) :
    Confined code limit (fun _ => True) (Eval.lift e) (Eval.lift e) := .lift fun _ _ => trivial

theorem splat (hv : v.Within code) :
    Confined code limit (Bindings.Within code) (Eval.lift v.splat) (Eval.lift v.splat) := by
  refine .lift fun entries hentries => ?_
  cases v with
  | dict _ =>
    cases hentries
    exact Value.within_dict_iff.1 hv
  | _ => cases hentries

theorem draw (bound : Nat) :
    Confined code limit (fun _ => True) (Builtin.draw bound) (Builtin.draw bound) :=
  .modifyGet fun _ hm => ⟨trivial, hm.env, hm.store, hm.fresh⟩

/-- A new iterator that holds handles and numbers only. -/
theorem iterator {cursor : Cursor} (hcursor : cursor.Within code) :
    Confined code limit (Value.Within code) (Builtin.iterator cursor)
      (Builtin.iterator cursor) :=
  .bind (.allocate hcursor) fun handle _ => .pure (Value.within_iterator handle)

theorem numbers (args : List Value) :
    Confined code limit (Value.Within code) (Builtin.numbers args) (Builtin.numbers args) := by
  refine .bind (.calculated _) fun ⟨start, stop, step⟩ _ => ?_
  unfold Cursor.range?
  dsimp only
  split
  · exact .raise (α := Value) _
  · exact .iterator (.plain rfl rfl)

theorem markedItems (markers : Markers) (start : Int64) (hv : v.Within code) :
    Confined code limit (Value.Within code) (Builtin.markedItems v markers start)
      (Builtin.markedItems v markers start) :=
  .bind (.iterate hv) fun _ _ => .iterator (.plain rfl rfl)

theorem enumerated (args : List Value) (hv : v.Within code) :
    Confined code limit (Value.Within code) (Builtin.enumerated v args)
      (Builtin.enumerated v args) :=
  .bind (.calculated _) fun _ _ => .bind (.iterate hv) fun _ _ => .iterator (.plain rfl rfl)

theorem enumeratedMarked (args : List Value) (hv : v.Within code) :
    Confined code limit (Value.Within code) (Builtin.enumeratedMarked v args)
      (Builtin.enumeratedMarked v args) :=
  .bind (.calculated _) fun start _ => .markedItems _ start hv

theorem zipped (hargs : Value.AllWithin code args) :
    Confined code limit (Value.Within code) (Builtin.zipped args) (Builtin.zipped args) :=
  .bind (.mapM fun v hv => .iterate (hargs v hv)) fun _ _ => .iterator (.plain rfl rfl)

theorem randomNumber (args : List Value) :
    Confined code limit (Value.Within code) (Builtin.randomNumber args)
      (Builtin.randomNumber args) := by
  refine .bind (.calculated _) fun ⟨start, stop, step⟩ _ => ?_
  dsimp only
  split
  · exact .raise _
  split
  · exact .raise _
  · exact .bind (.draw _) fun _ _ => .pure (Value.within_int _)

/-- A text in some format. -/
theorem written (e : Except Wire.Error String) :
    Confined code limit (Value.Within code) (do return .str (← Eval.liftWire e))
      (do return .str (← Eval.liftWire e)) :=
  .bind (.liftWire e) fun _ _ => .pure (Value.within_str _)

theorem fromJson (v : Value) :
    Confined code limit (Value.Within code) (Builtin.fromJson v) (Builtin.fromJson v) := by
  refine .bind (.calculated _) fun text _ => ?_
  cases hread : Json.read text with
  | ok value => exact .pure (value.within_iff_rename.2 (Json.same_of_read hread))
  | error e => exact .raise _

theorem fromWire (hclosed : code.Closed limit) (v : Value) :
    Confined code limit (Value.Within code) (Builtin.fromWire v) (Builtin.fromWire v) := by
  refine .bind (.calculated _) fun text _ => fun m hm => ⟨rfl, ?_⟩
  rw [bind_ok (x := MonadState.get) (t := m) rfl]
  cases hloads : Wire.loads? text m.fresh with
  | error e => exact hm
  | ok loaded =>
    obtain ⟨value, fresh⟩ := loaded
    have hfresh : m.fresh ≤ fresh := (Wire.of_loads?_ok hloads).2.1
    have hvalue := hclosed.loaded text _ _ value hm.fresh hloads
    exact ⟨hvalue, hm.env, hm.store, Nat.le_trans hm.fresh hfresh⟩

theorem variableOr (v : Value) (hargs : Value.AllWithin code args) :
    Confined code limit (Value.Within code) (Builtin.variable v args)
      (Builtin.variable v args) := by
  refine .bind (.calculated _) fun name _ => .bind .env fun e he => .pure ?_
  cases hlookup : e.lookup? name with
  | some value => exact he.lookup? hlookup
  | none =>
    cases hdefault : args[1]? with
    | none => exact Value.within_none
    | some value => exact hargs value (List.mem_of_getElem? hdefault)

end Eval.Confined

namespace Evaluator.Confined

variable {ev ev' : Evaluator} {t : Template} {vars : Scope} {v : Value} {args : List Value}
  (h : ev.Confined code limit ev')

include h

/-! ## Rendering -/

theorem exec {block : Block} (hblock : ∀ n ∈ block.content, code n) :
    Eval.Confined code limit (fun _ => True) (ev.exec block) (ev'.exec block) :=
  .forM fun n hn => .bind (h.eval n (hblock n hn)) fun _ _ => .pure trivial

theorem render (ht : t.Within code) :
    Eval.Confined code limit (fun _ => True) (ev.render t) (ev'.render t) := by
  refine .bind (h.exec ht).capture fun ⟨result, output⟩ _ => .bind (.settle (P := fun _ => True) ?_)
    fun _ _ => .pure trivial
  cases result <;> trivial

theorem renderNested (ht : t.Within code) (hvars : Bindings.Within code vars) :
    Eval.Confined code limit (fun _ => True) (ev.renderNested t vars)
      (ev'.renderNested t vars) := by
  refine .bind .get fun m _ => ?_
  dsimp only
  split
  · exact .raise _
  · refine .bind (.inFrame (.ofVars hvars) (h.render ht)) fun ⟨result, _⟩ hresult => ?_
    exact .settle hresult.1

/-! ## Methods -/

theorem joined (separator : String) (hv : v.Within code) :
    Eval.Confined code limit (Value.Within code) (Builtin.joined ev separator v)
      (Builtin.joined ev' separator v) := by
  refine .bind (.iterate hv) fun handle _ =>
    .bind (h.fold (P := fun _ => True) handle trivial fun parts item _ _ => ?_)
      fun _ _ => .pure (Value.within_str _)
  cases item with
  | str s => exact .pure trivial
  | _ => exact .raise _

theorem apply (m : Method) (hargs : Value.AllWithin code args) (hv : v.Within code) :
    Eval.Confined code limit (Value.Within code) (Builtin.MethodCall.apply ev ⟨m, args⟩ v)
      (Builtin.MethodCall.apply ev' ⟨m, args⟩ v) := by
  have hcall : Builtin.MethodCall.rename (.censor code) ⟨m, args⟩ = ⟨m, args⟩ :=
    congrArg (Builtin.MethodCall.mk m) hargs.rename
  cases v with
  | str s =>
    simp only [Builtin.MethodCall.apply]
    split
    · refine h.joined s ?_
      unfold Builtin.MethodCall.arg
      cases harg : args[0]? with
      | none => exact Value.within_none
      | some arg => exact hargs arg (List.mem_of_getElem? harg)
    · exact .calculate (Builtin.textMethod_rename _ s) (by rw [hcall])
  | list items =>
    have hitems := (Value.within_list_iff.1 hv).rename
    exact .calculate (Builtin.listMethod_rename Renaming.censor_faithful _ items)
      (by rw [hcall, hitems])
  | dict entries =>
    have hentries := (Value.within_dict_iff.1 hv).rename
    exact .calculate (Builtin.dictMethod_rename _ entries) (by rw [hcall, hentries])
  | date d => exact .calculate (Builtin.dateMethod_rename _ d) (by rw [hcall])
  | duration d => exact .calculate (Builtin.durationMethod_rename _ d) (by rw [hcall])
  | months m => exact .calculate (Builtin.monthsMethod_rename _ m) (by rw [hcall])
  | color c => exact .calculate (Builtin.colorMethod_rename _ c) (by rw [hcall])
  | _ => exact .raise _

/-- **A call of a method is confined.** -/
theorem callMethod (name : String) (hv : v.Within code) (hargs : Value.AllWithin code args) :
    Eval.Confined code limit (Value.Within code) (callMethod ev v name args)
      (Templating.callMethod ev' v name args) :=
  .bind (.calculated _) fun m _ => h.apply m hargs hv

/-! ## Functions on sequences -/

theorem anyItem (hv : v.Within code) :
    Eval.Confined code limit (Value.Within code) (Builtin.anyItem ev v)
      (Builtin.anyItem ev' v) :=
  .bind (.iterate hv) fun handle _ =>
    .bind (h.fold (P := fun _ => True) handle trivial fun _ _ _ _ => .pure trivial)
      fun _ _ => .pure (Value.within_bool _)

theorem allItems (hv : v.Within code) :
    Eval.Confined code limit (Value.Within code) (Builtin.allItems ev v)
      (Builtin.allItems ev' v) :=
  .bind (.iterate hv) fun handle _ =>
    .bind (h.fold (P := fun _ => True) handle trivial fun _ _ _ _ => .pure trivial)
      fun _ _ => .pure (Value.within_bool _)

theorem extremeOf (name : String) (wanted : Ordering) (hargs : Value.AllWithin code args) :
    Eval.Confined code limit (Value.Within code) (Builtin.extremeOf ev name wanted args)
      (Builtin.extremeOf ev' name wanted args) := by
  have hextreme (vs : List Value) (hvs : Value.AllWithin code vs) :
      Eval.Confined code limit (Value.Within code) (Eval.lift (Value.extreme name wanted vs))
        (Eval.lift (Value.extreme name wanted vs)) :=
    .calculate (Value.extreme_rename Renaming.censor_faithful name wanted vs) (by rw [hvs.rename])
  unfold Builtin.extremeOf
  rcases args with _ | ⟨v, _ | ⟨w, args⟩⟩
  · exact .bind (.pure hargs) hextreme
  · exact .bind (h.items (hargs v (List.mem_singleton_self v))) hextreme
  · exact .bind (.pure hargs) hextreme

theorem sortedItems (hv : v.Within code) :
    Eval.Confined code limit (Value.Within code) (Builtin.sortedItems ev v)
      (Builtin.sortedItems ev' v) := by
  refine .bind (h.items hv) fun vs hvs => .bind (P := Value.AllWithin code) (.lift ?_)
    fun _ hsorted => .pure (Value.within_list_iff.2 hsorted)
  intro sorted hsorted
  have hfaithful : (Renaming.censor code).Faithful := Renaming.censor_faithful
  have hrename := Value.sortStable_rename hfaithful vs
  rw [hvs.rename, hsorted] at hrename
  refine (Value.allWithin_iff_rename sorted).2 ?_
  rw [Value.renameAll_eq]
  exact (Except.ok.inj hrename).symm

theorem randomItem (hv : v.Within code) :
    Eval.Confined code limit (Value.Within code) (Builtin.randomItem ev v)
      (Builtin.randomItem ev' v) := by
  refine .bind (h.items hv) fun items hitems => .bind (.draw _) fun i _ => ?_
  cases hi : items[i]? with
  | none => exact .raise _
  | some item => exact .pure (hitems item (List.mem_of_getElem? hi))

/-! ## Functions -/

/-- A function of values within some code is confined to it. -/
theorem applyFunction (hclosed : code.Closed limit) (f : Function)
    (hargs : Value.AllWithin code args) :
    Eval.Confined code limit (Value.Within code) (f.apply ev args) (f.apply ev' args) := by
  have hrandom : Eval.Confined code limit (Value.Within code) Builtin.randomFloat
      Builtin.randomFloat := .bind (.draw _) fun _ _ => .pure (Value.within_float _)
  have hnow : Eval.Confined code limit (Value.Within code)
      (do return Value.date (← Eval.clock)) (do return Value.date (← Eval.clock)) :=
    .bind .clock fun _ _ => .pure (Value.within_date _)
  have hvars : Eval.Confined code limit (Value.Within code)
      (do return Value.dict (← Eval.env).snapshot) (do return Value.dict (← Eval.env).snapshot) :=
    .bind .env fun _ he => .pure (Value.within_dict_iff.2 he.snapshot)
  -- what a function calculates from all of its arguments
  have hall {F : List Value → Except Cause Value} (hF : F (args.map (Value.rename (.censor code))) =
      (F args).map (Value.rename (.censor code))) :
      Eval.Confined code limit (Value.Within code) (Eval.lift (F args)) (Eval.lift (F args)) :=
    .calculate hF (by rw [hargs.rename])
  have hcolor (name : String) (make : Float → Float → Float → Float → Color) :=
    hall (Builtin.makeColor_rename name make args)
  rcases args with _ | ⟨v, args⟩
  -- without arguments only few functions do anything
  · cases f with
    | random => exact hrandom
    | now | utcNow => exact hnow
    | vars => exact hvars
    | min | max => exact h.extremeOf _ _ hargs
    | range => exact .numbers _
    | zip => exact .zipped hargs
    | randomRange => exact .randomNumber _
    | date => exact hall (Builtin.makeDate_rename _)
    | duration => exact hall (Builtin.makeDuration_rename _)
    | rgb => exact hcolor "rgb" Color.ofUnit
    | hls => exact hcolor "hls" Color.ofHls
    | hsv => exact hcolor "hsv" Color.ofHsv
    | bool => exact .pure (Value.within_bool _)
    | str => exact .pure (Value.within_str _)
    | list => exact .pure (Value.within_list_iff.2 .nil)
    | int => exact hall (Builtin.toInt_rename _)
    | float => exact hall (Builtin.toFloat_rename _)
    | months => exact hall (Builtin.makeMonths_rename _)
    | _ => exact .raise _
  have hv : v.Within code := hargs v List.mem_cons_self
  cases f with
  | isNone | isBool | isInt | isFloat | isStr | isDate | isColor | isDuration | isMonths
  | isTemplate | isList | isDict | bool => exact .pure (Value.within_bool _)
  | str | repr | type | xmlEscape | csv => exact .pure (Value.within_str _)
  | int => exact hall (Builtin.toInt_rename _)
  | float => exact hall (Builtin.toFloat_rename _)
  | list => exact .bind (h.items hv) fun _ hvs => .pure (Value.within_list_iff.2 hvs)
  | any => exact h.anyItem hv
  | all => exact h.allItems hv
  | len => exact .calculate (Builtin.length_rename v) (by rw [hv.rename])
  | min | max => exact h.extremeOf _ _ hargs
  | sorted => exact h.sortedItems hv
  | range => exact .numbers _
  | reversed => exact .bind (h.reversed hv) fun _ _ => .pure (Value.within_iterator _)
  | enumerate => exact .enumerated _ hv
  | isFirst | isLast | isFirstLast => exact .markedItems _ _ hv
  | enumFirstLast => exact .enumeratedMarked _ hv
  | zip => exact .zipped hargs
  | format =>
    cases args with
    | nil => exact .raise _
    | cons spec args =>
      have hspec := hargs spec (List.mem_cons_of_mem _ List.mem_cons_self)
      exact .calculate (Builtin.formatValue_rename v spec _)
        (by rw [hv.rename, hspec.rename, hargs.rename])
  | chr => exact .calculate (Builtin.character_rename v) (by rw [hv.rename])
  | ord => exact .calculate (Builtin.codePoint_rename v) (by rw [hv.rename])
  | hex | oct | bin => exact .calculate (Builtin.inRadix_rename _ _ v) (by rw [hv.rename])
  | urlQuote => exact .calculate (Builtin.quoteUrl_rename v) (by rw [hv.rename])
  | urlUnquote => exact .calculate (Builtin.unquoteUrl_rename v) (by rw [hv.rename])
  | asJson | asWire => exact .written _
  | fromJson => exact .fromJson v
  | fromWire => exact .fromWire hclosed v
  | random => exact hrandom
  | randomRange => exact .randomNumber _
  | randomChoice => exact h.randomItem hv
  | abs => exact .calculate (Builtin.absolute_rename v) (by rw [hv.rename])
  | now | utcNow => exact hnow
  | date => exact hall (Builtin.makeDate_rename _)
  | duration => exact hall (Builtin.makeDuration_rename _)
  | months => exact hall (Builtin.makeMonths_rename _)
  | rgb => exact hcolor "rgb" Color.ofUnit
  | hls => exact hcolor "hls" Color.ofHls
  | hsv => exact hcolor "hsv" Color.ofHsv
  | get => exact .variableOr v hargs
  | vars => exact hvars

/-- **A call of a function is confined.** -/
theorem callFunction (hclosed : code.Closed limit) (name : String)
    (hargs : Value.AllWithin code args) :
    Eval.Confined code limit (Value.Within code) (callFunction ev name args)
      (Templating.callFunction ev' name args) := by
  unfold Templating.callFunction
  split
  · exact .raise _
  · exact .bind (.calculated _) fun _ _ => h.applyFunction hclosed _ hargs

end Evaluator.Confined

end Templating
