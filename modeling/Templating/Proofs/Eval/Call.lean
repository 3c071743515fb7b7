import Templating.Proofs.Builtin.Formats
import Templating.Proofs.Eval.Iterate

/-!
# Calls with other identities

* `Evaluator.Renames.renderNested`: rendering a template one level deeper.
* `Evaluator.Renames.callFunction`, `Evaluator.Renames.callMethod`: **calls of builtins**.
-/

namespace Templating

open Eval

variable {f : Relabel} {limit : Nat}

/-! ## Lists of actions -/

section

variable {α β γ δ : Type} {r : α → β} {g : γ → δ}

theorem Eval.Renames.forM {k : γ → Eval Unit} {l : δ → Eval Unit}
    (hk : ∀ a, Eval.Renames f limit id (k a) (l (g a))) (as : List γ) :
    Eval.Renames f limit id (as.forM k) ((as.map g).forM l) := by
  induction as with
  | nil => exact .pure rfl
  | cons a as ih => exact .bind (hk a) fun _ => ih

theorem Eval.Renames.mapM {k : γ → Eval α} {l : δ → Eval β}
    (hk : ∀ a, Eval.Renames f limit r (k a) (l (g a))) (as : List γ) :
    Eval.Renames f limit (List.map r) (as.mapM k) ((as.map g).mapM l) := by
  induction as with
  | nil => exact .pure rfl
  | cons a as ih =>
    rw [List.map_cons, List.mapM_cons, List.mapM_cons]
    exact .bind (hk a) fun _ => .bind ih fun _ => .pure rfl

theorem Eval.Renames.foldlM {k : α → γ → Eval α} {l : β → δ → Eval β}
    (hk : ∀ state a, Eval.Renames f limit r (k state a) (l (r state) (g a))) (as : List γ)
    (state : α) : Eval.Renames f limit r (as.foldlM k state) ((as.map g).foldlM l (r state)) := by
  induction as generalizing state with
  | nil => exact .pure rfl
  | cons a as ih => exact .bind (hk state a) fun state => ih state

end

/-! ## Rendering -/

namespace Evaluator.Renames

variable {ev : Evaluator} (h : ev.Renames f limit)

include h

theorem exec (block : Block) :
    Eval.Renames f limit id (ev.exec block) (ev.exec (block.relabel f)) := by
  obtain ⟨stop, content⟩ := block
  unfold Evaluator.exec
  rw [Block.relabel, Node.relabelAll_eq]
  refine Eval.Renames.forM (g := Node.relabel f) (fun node => ?_) content
  exact .bind (h.eval node) fun _ => .pure rfl

theorem render (t : Template) :
    Eval.Renames f limit id (ev.render t) (ev.render (t.relabel f)) := by
  unfold Evaluator.render
  rw [Template.block_relabel]
  refine .bind (h.exec t.block).capture fun ⟨result, output⟩ => .bind (r := id) (.settle ?_)
    fun _ => .pure rfl
  cases result <;> rfl

theorem renderNested (t : Template) (vars : Scope) :
    Eval.Renames f limit id (ev.renderNested t vars)
      (ev.renderNested (t.relabel f) (Value.relabelBindings f vars)) := by
  refine .bind .get fun m => ?_
  by_cases hdepth : m.frame.maxDepth ≤ m.frame.depth
  · have hdepth' : (m.relabel f).frame.maxDepth ≤ (m.relabel f).frame.depth := hdepth
    rw [if_pos hdepth, if_pos hdepth']
    exact .raise _
  · have hdepth' : ¬ (m.relabel f).frame.maxDepth ≤ (m.relabel f).frame.depth := hdepth
    rw [if_neg hdepth, if_neg hdepth']
    refine .bind (.inFrame ⟨.ofVars vars, m.frame.depth + 1, m.frame.maxDepth⟩ (h.render t))
      fun ended => .settle ?_
    obtain ⟨result, frame, output⟩ := ended
    cases result <;> rfl

/-! ## Methods -/

theorem joined (separator : String) (v : Value) :
    Eval.Renames f limit (Value.relabel f) (Builtin.joined ev separator v)
      (Builtin.joined ev separator (v.relabel f)) := by
  refine .bind (.iterate v) fun handle => .bind (h.fold (r := id) handle [] fun parts item => ?_)
    fun _ => .pure rfl
  cases item with
  | str s => exact .pure rfl
  | _ => exact .raise _

theorem apply (hf : Function.Injective f.template) (c : Builtin.MethodCall) (v : Value) :
    Eval.Renames f limit (Value.relabel f) (c.apply ev v)
      ((c.relabel f).apply ev (v.relabel f)) := by
  cases v with
  | str s =>
    simp only [Value.relabel, Builtin.MethodCall.apply, Builtin.MethodCall.method_relabel,
      Builtin.MethodCall.arg_relabel]
    split
    · exact h.joined s (c.arg 0)
    · exact .lift (Builtin.textMethod_relabel c s)
  | list items =>
    simp only [Value.relabel, Builtin.MethodCall.apply, Value.relabelAll_eq]
    exact .lift (Builtin.listMethod_relabel hf c items)
  | dict entries => exact .lift (Builtin.dictMethod_relabel c entries)
  | date d => exact .lift (Builtin.dateMethod_relabel c d)
  | duration d => exact .lift (Builtin.durationMethod_relabel c d)
  | months m => exact .lift (Builtin.monthsMethod_relabel c m)
  | color color => exact .lift (Builtin.colorMethod_relabel c color)
  | _ => exact .raise _

/-- **A call of a method does with other identities what it does.** -/
theorem callMethod (hf : Function.Injective f.template) (v : Value) (name : String)
    (args : List Value) :
    Eval.Renames f limit (Value.relabel f) (callMethod ev v name args)
      (Templating.callMethod ev (v.relabel f) name (args.map (Value.relabel f))) := by
  unfold Templating.callMethod
  rw [resolve_relabel, List.length_map]
  refine .bind (r := id) (.lift ?_) fun method => h.apply hf ⟨method, args⟩ v
  cases Method.resolve v name args.length <;> rfl

/-! ## Functions on sequences -/

theorem anyItem (v : Value) :
    Eval.Renames f limit (Value.relabel f) (Builtin.anyItem ev v)
      (Builtin.anyItem ev (v.relabel f)) := by
  refine .bind (.iterate v) fun handle => .bind (h.fold (r := id) handle false fun _ item => ?_)
    fun _ => .pure rfl
  rw [Value.isTruthy_relabel]
  refine .pure ?_
  split <;> rfl

theorem allItems (v : Value) :
    Eval.Renames f limit (Value.relabel f) (Builtin.allItems ev v)
      (Builtin.allItems ev (v.relabel f)) := by
  refine .bind (.iterate v) fun handle => .bind (h.fold (r := id) handle true fun _ item => ?_)
    fun _ => .pure rfl
  rw [Value.isTruthy_relabel]
  refine .pure ?_
  split <;> rfl

theorem extremeOf (hf : Function.Injective f.template) (name : String) (wanted : Ordering)
    (args : List Value) :
    Eval.Renames f limit (Value.relabel f) (Builtin.extremeOf ev name wanted args)
      (Builtin.extremeOf ev name wanted (args.map (Value.relabel f))) := by
  have hextreme (vs : List Value) := Value.extreme_relabel hf name wanted vs
  unfold Builtin.extremeOf
  rcases args with _ | ⟨v, _ | ⟨w, args⟩⟩
  · exact .bind (.pure (r := List.map (Value.relabel f)) rfl) fun vs => .lift (hextreme vs)
  · exact .bind (h.items v) fun vs => .lift (hextreme vs)
  · exact .bind (.pure (r := List.map (Value.relabel f)) rfl) fun vs => .lift (hextreme vs)

theorem sortedItems (hf : Function.Injective f.template) (v : Value) :
    Eval.Renames f limit (Value.relabel f) (Builtin.sortedItems ev v)
      (Builtin.sortedItems ev (v.relabel f)) :=
  .bind (h.items v) fun vs => .bind (.lift (Value.sortStable_relabel hf vs)) fun vs =>
    .pure (congrArg Value.list (Value.relabelAll_eq f vs).symm)

omit h in
theorem iterator (cursor : Cursor) :
    Eval.Renames f limit (Value.relabel f) (Builtin.iterator cursor)
      (Builtin.iterator (cursor.relabel f)) :=
  .bind (.allocate cursor) fun _ => .pure rfl

omit h in
theorem lift_id {α : Type} (e : Except Cause α) :
    Eval.Renames f limit id (lift e) (Eval.lift e) := by
  refine .lift ?_
  cases e <;> rfl

omit h in
theorem numbers (args : List Value) :
    Eval.Renames f limit (Value.relabel f) (Builtin.numbers args)
      (Builtin.numbers (args.map (Value.relabel f))) := by
  unfold Builtin.numbers
  rw [Builtin.rangeArgs_relabel]
  refine .bind (lift_id _) fun ⟨start, stop, step⟩ => .bind (.lift ?_) fun cursor =>
    iterator cursor
  unfold Cursor.range?
  split <;> rfl

omit h in
theorem enumerated (v : Value) (args : List Value) :
    Eval.Renames f limit (Value.relabel f) (Builtin.enumerated v args)
      (Builtin.enumerated (v.relabel f) (args.map (Value.relabel f))) := by
  unfold Builtin.enumerated
  rw [intOr_relabel]
  exact .bind (lift_id _) fun start => .bind (.iterate v) fun handle =>
    iterator (.enumerate handle start)

omit h in
theorem markedItems (v : Value) (markers : Markers) (start : Int64) :
    Eval.Renames f limit (Value.relabel f) (Builtin.markedItems v markers start)
      (Builtin.markedItems (v.relabel f) markers start) :=
  .bind (.iterate v) fun handle => iterator (.marked handle markers start)

omit h in
theorem enumeratedMarked (v : Value) (args : List Value) :
    Eval.Renames f limit (Value.relabel f) (Builtin.enumeratedMarked v args)
      (Builtin.enumeratedMarked (v.relabel f) (args.map (Value.relabel f))) := by
  unfold Builtin.enumeratedMarked
  rw [intOr_relabel]
  exact .bind (lift_id _) fun start => markedItems v _ start

omit h in
theorem zipped (args : List Value) :
    Eval.Renames f limit (Value.relabel f) (Builtin.zipped args)
      (Builtin.zipped (args.map (Value.relabel f))) := by
  refine .bind (.mapM (r := id) (fun v => .iterate v) args) fun handles => ?_
  rw [List.map_id]
  exact iterator (.zip handles)

omit h in
theorem draw (bound : Nat) :
    Eval.Renames f limit id (Builtin.draw bound) (Builtin.draw bound) :=
  .modifyGet fun _ => ⟨rfl, rfl⟩

omit h in
theorem randomNumber (args : List Value) :
    Eval.Renames f limit (Value.relabel f) (Builtin.randomNumber args)
      (Builtin.randomNumber (args.map (Value.relabel f))) := by
  unfold Builtin.randomNumber
  rw [Builtin.rangeArgs_relabel]
  refine .bind (lift_id _) fun ⟨start, stop, step⟩ => ?_
  simp only [id]
  split
  · exact .raise _
  split
  · exact .raise _
  · exact .bind (draw _) fun _ => .pure rfl

theorem randomItem (v : Value) :
    Eval.Renames f limit (Value.relabel f) (Builtin.randomItem ev v)
      (Builtin.randomItem ev (v.relabel f)) := by
  refine .bind (h.items v) fun items => ?_
  rw [List.length_map]
  refine .bind (draw _) fun i => ?_
  rw [id, List.getElem?_map]
  cases items[i]? with
  | none => exact .raise _
  | some item => exact .pure rfl

/-! ## Other formats -/

omit h in
theorem liftWire_id {α : Type} (e : Except Wire.Error α) :
    Eval.Renames f limit id (liftWire e) (Eval.liftWire e) := by
  refine .liftWire ?_
  cases e <;> rfl

omit h in
theorem asJson (hf : Function.Injective f.template) (v : Value) :
    Eval.Renames f limit (Value.relabel f) (do return .str (← liftWire (Json.write v)))
      (do return .str (← liftWire (Json.write (v.relabel f)))) := by
  rw [Json.write_relabel hf]
  exact .bind (liftWire_id _) fun _ => .pure rfl

omit h in
theorem asWire (hf : Function.Injective f.template) (v : Value) :
    Eval.Renames f limit (Value.relabel f) (do return .str (← liftWire (Wire.dumps v)))
      (do return .str (← liftWire (Wire.dumps (v.relabel f)))) := by
  rw [Wire.dumps_relabel hf]
  exact .bind (liftWire_id _) fun _ => .pure rfl

omit h in
theorem fromJson (v : Value) :
    Eval.Renames f limit (Value.relabel f) (Builtin.fromJson v)
      (Builtin.fromJson (v.relabel f)) := by
  unfold Builtin.fromJson
  rw [strArg_relabel]
  refine .bind (lift_id _) fun text => ?_
  rw [id]
  cases hread : Json.read text with
  | ok value => exact .pure (Json.relabel_of_read hread).symm
  | error e => exact .raise _

omit h in
/-- What is read gets identities that a renaming leaves alone. -/
theorem fromWire (hf : f.Keeps limit) (v : Value) :
    Eval.Renames f limit (Value.relabel f) (Builtin.fromWire v)
      (Builtin.fromWire (v.relabel f)) := by
  unfold Builtin.fromWire
  rw [strArg_relabel]
  refine .bind (lift_id _) fun text => fun m hm => ?_
  rw [id, bind_ok (x := get) (t := m) rfl, bind_ok (x := get) (t := m.relabel f) rfl,
    Machine.fresh_relabel]
  cases hloads : Wire.loads? text m.fresh with
  | error e => exact ⟨rfl, hm⟩
  | ok loaded =>
    obtain ⟨value, fresh'⟩ := loaded
    obtain ⟨hsame, hfresh⟩ := hf.loads? hm hloads
    refine ⟨?_, hfresh⟩
    change EStateM.Result.ok value _ = EStateM.Result.ok (value.relabel f) _
    rw [hsame]
    rfl

omit h in
theorem variableOr (name : Value) (args : List Value) :
    Eval.Renames f limit (Value.relabel f) (Builtin.variable name args)
      (Builtin.variable (name.relabel f) (args.map (Value.relabel f))) := by
  unfold Builtin.variable
  rw [strArg_relabel]
  refine .bind (lift_id _) fun name => .bind .env fun e => .pure ?_
  rw [id, Environment.lookup?_relabel, List.getElem?_map]
  cases e.lookup? name with
  | none => cases args[1]? <;> rfl
  | some value => rfl

/-! ## Functions -/

/-- A function does with other identities what it does. -/
theorem applyFunction (hf : f.Keeps limit) (g : Function) (args : List Value) :
    Eval.Renames f limit (Value.relabel f) (g.apply ev args)
      (g.apply ev (args.map (Value.relabel f))) := by
  rcases args with _ | ⟨v, args⟩
  -- without arguments only few functions do anything
  · cases g with
    | random => exact .bind (draw _) fun _ => .pure rfl
    | now | utcNow => exact .bind .clock fun _ => .pure rfl
    | vars => exact .bind .env fun e => .pure (congrArg Value.dict e.snapshot_relabel)
    | min | max => exact h.extremeOf hf.injective _ _ []
    | range => exact numbers []
    | zip => exact zipped []
    | randomRange => exact randomNumber []
    | date => exact .lift (Builtin.makeDate_relabel [])
    | duration => exact .lift (Builtin.makeDuration_relabel [])
    | rgb => exact .lift (Builtin.makeColor_relabel "rgb" Color.ofUnit [])
    | hls => exact .lift (Builtin.makeColor_relabel "hls" Color.ofHls [])
    | hsv => exact .lift (Builtin.makeColor_relabel "hsv" Color.ofHsv [])
    | bool | str | list => exact .pure rfl
    | int => exact .lift (Builtin.toInt_relabel [])
    | float => exact .lift (Builtin.toFloat_relabel [])
    | months => exact .lift (Builtin.makeMonths_relabel [])
    | _ => exact .raise _
  have htype (typeName : String) : Value.bool ((v.relabel f).typeName = typeName) =
      (Value.bool (v.typeName = typeName)).relabel f := by
    rw [Value.typeName_relabel]
    rfl
  have hstr {s s' : String} (hs : s' = s) : Value.str s' = (Value.str s).relabel f :=
    congrArg Value.str hs
  cases g with
  | isNone | isBool | isInt | isFloat | isStr | isDate | isColor | isDuration | isMonths
  | isTemplate | isList | isDict => exact .pure (htype _)
  | bool => exact .pure (congrArg Value.bool v.isTruthy_relabel)
  | str => exact .pure (hstr v.text_relabel)
  | repr => exact .pure (hstr v.repr_relabel)
  | type => exact .pure (hstr v.typeName_relabel)
  | int => exact .lift (Builtin.toInt_relabel (v :: args))
  | float => exact .lift (Builtin.toFloat_relabel (v :: args))
  | list =>
    exact .bind (h.items v) fun items =>
      .pure (congrArg Value.list (Value.relabelAll_eq f items).symm)
  | any => exact h.anyItem v
  | all => exact h.allItems v
  | len => exact .lift (Builtin.length_relabel v)
  | min | max => exact h.extremeOf hf.injective _ _ (v :: args)
  | sorted => exact h.sortedItems hf.injective v
  | range => exact numbers (v :: args)
  | reversed => exact .bind (h.reversed v) fun _ => .pure rfl
  | enumerate => exact enumerated v (v :: args)
  | isFirst | isLast | isFirstLast => exact markedItems v _ _
  | enumFirstLast => exact enumeratedMarked v (v :: args)
  | zip => exact zipped (v :: args)
  | format =>
    cases args with
    | nil => exact .raise _
    | cons spec args => exact .lift (Builtin.formatValue_relabel v spec (v :: spec :: args))
  | xmlEscape => exact .pure (hstr (congrArg Text.xmlEscape v.text_relabel))
  | csv => exact .pure (hstr (Builtin.csvText_relabel v))
  | chr => exact .lift (Builtin.character_relabel v)
  | ord => exact .lift (Builtin.codePoint_relabel v)
  | hex | oct | bin => exact .lift (Builtin.inRadix_relabel _ _ v)
  | urlQuote => exact .lift (Builtin.quoteUrl_relabel v)
  | urlUnquote => exact .lift (Builtin.unquoteUrl_relabel v)
  | asJson => exact asJson hf.injective v
  | fromJson => exact fromJson v
  | asWire => exact asWire hf.injective v
  | fromWire => exact fromWire hf v
  | random => exact .bind (draw _) fun _ => .pure rfl
  | randomRange => exact randomNumber (v :: args)
  | randomChoice => exact h.randomItem v
  | abs => exact .lift (Builtin.absolute_relabel v)
  | now | utcNow => exact .bind .clock fun _ => .pure rfl
  | date => exact .lift (Builtin.makeDate_relabel (v :: args))
  | duration => exact .lift (Builtin.makeDuration_relabel (v :: args))
  | months => exact .lift (Builtin.makeMonths_relabel (v :: args))
  | rgb => exact .lift (Builtin.makeColor_relabel "rgb" Color.ofUnit (v :: args))
  | hls => exact .lift (Builtin.makeColor_relabel "hls" Color.ofHls (v :: args))
  | hsv => exact .lift (Builtin.makeColor_relabel "hsv" Color.ofHsv (v :: args))
  | get => exact variableOr v (v :: args)
  | vars => exact .bind .env fun e => .pure (congrArg Value.dict e.snapshot_relabel)

/-- **A call of a function does with other identities what it does.** -/
theorem callFunction (hf : f.Keeps limit) (name : String) (args : List Value) :
    Eval.Renames f limit (Value.relabel f) (callFunction ev name args)
      (Templating.callFunction ev name (args.map (Value.relabel f))) := by
  unfold Templating.callFunction
  rw [List.length_map]
  cases Function.ofName? name with
  | none => exact .raise _
  | some g => exact .bind (lift_id _) fun _ => h.applyFunction hf g args

end Evaluator.Renames

end Templating
