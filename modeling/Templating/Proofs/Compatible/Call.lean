import Templating.Eval.Run
import Templating.Proofs.Compatible.Basic

/-!
# Calls of builtins are related

* `Eval.Congruent.callMethod`, `Eval.Congruent.callFunction`: **calls of methods and functions**,
  for every relation that evaluation keeps.
-/

namespace Templating

open Eval

theorem Builtin.fromWire_eq (v : Value) :
    Builtin.fromWire v = lift (strArg "fromul4on" v) >>= load := rfl

namespace Eval.Congruent

variable {R : Eval.Relation} (hR : Congruent R) {ev ev' : Evaluator} (h : ev.Related R ev')

include hR h

/-! ## Methods -/

theorem joined (separator : String) (v : Value) :
    R (Builtin.joined ev separator v) (Builtin.joined ev' separator v) := by
  refine hR.bind (hR.iterate v) fun handle => hR.bind (hR.fold h handle [] fun parts item => ?_)
    fun _ => hR.pure _
  cases item with
  | str s => exact hR.pure _
  | _ => exact hR.raise trivial

theorem apply (c : Builtin.MethodCall) (v : Value) : R (c.apply ev v) (c.apply ev' v) := by
  cases v with
  | str s =>
    simp only [Builtin.MethodCall.apply]
    split
    · exact hR.joined h s _
    · exact hR.lift (Builtin.plain_textMethod c s)
  | list items => exact hR.lift (Builtin.plain_listMethod c items)
  | dict entries => exact hR.lift (Builtin.plain_dictMethod c entries)
  | date d => exact hR.lift (Builtin.plain_dateMethod c d)
  | duration d => exact hR.lift (Builtin.plain_durationMethod c d)
  | months m => exact hR.lift (Builtin.plain_monthsMethod c m)
  | color color => exact hR.lift (Builtin.plain_colorMethod c color)
  | _ => exact hR.raise trivial

/-- **Calls of methods are related.** -/
theorem callMethod (v : Value) (name : String) (args : List Value) :
    R (callMethod ev v name args) (Templating.callMethod ev' v name args) :=
  hR.bind (hR.lift (plain_resolve v name args.length)) fun method => hR.apply h ⟨method, args⟩ v

/-! ## Functions -/

theorem anyItem (v : Value) : R (Builtin.anyItem ev v) (Builtin.anyItem ev' v) :=
  hR.bind (hR.iterate v) fun handle => hR.bind (hR.fold h handle false fun _ _ => hR.pure _)
    fun _ => hR.pure _

theorem allItems (v : Value) : R (Builtin.allItems ev v) (Builtin.allItems ev' v) :=
  hR.bind (hR.iterate v) fun handle => hR.bind (hR.fold h handle true fun _ _ => hR.pure _)
    fun _ => hR.pure _

theorem extremeOf (name : String) (wanted : Ordering) (args : List Value) :
    R (Builtin.extremeOf ev name wanted args) (Builtin.extremeOf ev' name wanted args) := by
  have hextreme (vs : List Value) := hR.lift (Value.plain_extreme name wanted vs)
  rcases args with _ | ⟨v, _ | ⟨w, args⟩⟩
  · exact hR.bind (hR.pure _) hextreme
  · exact hR.bind (hR.items h v) hextreme
  · exact hR.bind (hR.pure _) hextreme

theorem sortedItems (v : Value) : R (Builtin.sortedItems ev v) (Builtin.sortedItems ev' v) :=
  hR.bind (hR.items h v) fun vs => hR.bind (hR.lift (Value.plain_sortStable vs)) fun _ => hR.pure _

theorem randomItem (v : Value) : R (Builtin.randomItem ev v) (Builtin.randomItem ev' v) := by
  refine hR.bind (hR.items h v) fun items => hR.bind (hR.draw _) fun i => ?_
  split
  · exact hR.pure _
  · exact hR.raise trivial

omit h

theorem iterator {c : Cursor} (hsimple : c.IsSimple) :
    R (Builtin.iterator c) (Builtin.iterator c) :=
  hR.bind (hR.allocate hsimple) fun _ => hR.pure _

theorem numbers (args : List Value) : R (Builtin.numbers args) (Builtin.numbers args) := by
  refine hR.bind (hR.lift (Builtin.plain_rangeArgs _ args)) fun range => ?_
  unfold Cursor.range?
  dsimp only
  split
  · exact hR.raise (α := Value) trivial
  · exact hR.iterator (c := .range ..) trivial

theorem markedItems (v : Value) (markers : Markers) (start : Int64) :
    R (Builtin.markedItems v markers start) (Builtin.markedItems v markers start) :=
  hR.bind (hR.iterate v) fun _ => hR.iterator trivial

theorem randomNumber (args : List Value) :
    R (Builtin.randomNumber args) (Builtin.randomNumber args) := by
  refine hR.bind (hR.lift (Builtin.plain_rangeArgs _ args)) fun range => ?_
  dsimp only
  split
  · exact hR.raise trivial
  split
  · exact hR.raise trivial
  · exact hR.bind (hR.draw _) fun _ => hR.pure _

theorem fromJson (v : Value) : R (Builtin.fromJson v) (Builtin.fromJson v) := by
  refine hR.bind (hR.lift (plain_strArg _ v)) fun text => ?_
  split
  · exact hR.pure _
  · exact hR.raise trivial

theorem fromWire (v : Value) : R (Builtin.fromWire v) (Builtin.fromWire v) := by
  rw [Builtin.fromWire_eq]
  exact hR.bind (hR.lift (plain_strArg _ v)) fun text => hR.load text

theorem variableOr (name : Value) (args : List Value) :
    R (Builtin.variable name args) (Builtin.variable name args) :=
  hR.bind (hR.lift (plain_strArg _ name)) fun _ => hR.bind hR.env fun _ => hR.pure _

include h

theorem applyFunction (g : Function) (args : List Value) :
    R (g.apply ev args) (g.apply ev' args) := by
  unfold Function.apply
  split
  · exact hR.pure _
  split
  · exact hR.pure _
  · exact hR.pure _
  · exact hR.pure _
  · exact hR.pure _
  · exact hR.lift (Builtin.plain_toInt _)
  · exact hR.lift (Builtin.plain_toFloat _)
  · exact hR.pure _
  · exact hR.bind (hR.items h _) fun _ => hR.pure _
  · exact hR.anyItem h _
  · exact hR.allItems h _
  · exact hR.lift (Builtin.plain_length _)
  · exact hR.extremeOf h _ _ _
  · exact hR.extremeOf h _ _ _
  · exact hR.sortedItems h _
  · exact hR.numbers _
  · exact hR.bind (hR.reversed h _) fun _ => hR.pure _
  · exact hR.bind (hR.lift (plain_intOr ..)) fun _ => hR.bind (hR.iterate _) fun _ =>
      hR.iterator trivial
  · exact hR.markedItems _ _ _
  · exact hR.markedItems _ _ _
  · exact hR.markedItems _ _ _
  · exact hR.bind (hR.lift (plain_intOr ..)) fun _ => hR.markedItems _ _ _
  · exact hR.bind (hR.mapM fun v _ => hR.iterate v) fun _ => hR.iterator trivial
  · exact hR.lift (Builtin.plain_formatValue ..)
  · exact hR.pure _
  · exact hR.pure _
  · exact hR.lift (Builtin.plain_character _)
  · exact hR.lift (Builtin.plain_codePoint _)
  · exact hR.lift (Builtin.plain_inRadix ..)
  · exact hR.lift (Builtin.plain_inRadix ..)
  · exact hR.lift (Builtin.plain_inRadix ..)
  · exact hR.lift (Builtin.plain_quoteUrl _)
  · exact hR.lift (Builtin.plain_unquoteUrl _)
  · exact hR.bind (hR.liftWire _) fun _ => hR.pure _
  · exact hR.fromJson _
  · exact hR.bind (hR.liftWire _) fun _ => hR.pure _
  · exact hR.fromWire _
  · exact hR.bind (hR.draw _) fun _ => hR.pure _
  · exact hR.randomNumber _
  · exact hR.randomItem h _
  · exact hR.lift (Builtin.plain_absolute _)
  · exact hR.bind hR.clock fun _ => hR.pure _
  · exact hR.bind hR.clock fun _ => hR.pure _
  · exact hR.lift (Builtin.plain_makeDate _)
  · exact hR.lift (Builtin.plain_makeDuration _)
  · exact hR.lift (Builtin.plain_makeMonths _)
  · exact hR.lift (Builtin.plain_makeColor ..)
  · exact hR.lift (Builtin.plain_makeColor ..)
  · exact hR.lift (Builtin.plain_makeColor ..)
  · exact hR.variableOr _ _
  · exact hR.bind hR.env fun _ => hR.pure _
  · exact hR.raise trivial

/-- **Calls of functions are related.** -/
theorem callFunction (name : String) (args : List Value) :
    R (callFunction ev name args) (Templating.callFunction ev' name args) := by
  unfold Templating.callFunction
  split
  · exact hR.raise trivial
  · exact hR.bind (hR.lift (plain_check ..)) fun _ => hR.applyFunction h _ args

end Eval.Congruent

end Templating
