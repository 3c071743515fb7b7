import Templating.Builtin.FunctionCall
import Templating.Builtin.MethodCall
import Templating.Eval.Rendering

/-!
# Evaluating expressions

Displays, comprehensions, operators, subscripts and calls. Operands are evaluated from the left to
the right, and nothing is evaluated after an error.
-/

namespace Templating

open Eval

/-- An attribute of a value: the entry of a dict, or a property of a template. -/
def Value.attribute (value : Value) (attr : String) : Except Cause Value :=
  match value with
  | .dict entries =>
    match Bindings.lookup? attr entries with
    | some item => .ok item
    | .none => .error (.keyNotFound (Text.literal attr))
  | .template t =>
    match attr with
    | "name" => .ok ((t.name.map Value.str).getD Value.none)
    | "source" => .ok (.str t.source)
    | "startdelim" => .ok (.str t.startDelim)
    | "enddelim" => .ok (.str t.endDelim)
    | attr => .error (.noAttribute value.typeName attr)
  | value => .error (.noAttribute value.typeName attr)

/-- The dict that is unpacked after `**`. -/
def Value.splat (value : Value) : Except Cause (List (String × Value)) :=
  match value with
  | .dict entries => .ok entries
  | value => .error (.splatNotDict value.typeName)

/-- Adds a keyword argument to others; no name may occur twice. -/
def addArgument (method : String) (vars : Scope) (binding : String × Value) : Except Cause Scope :=
  if Bindings.contains binding.1 vars then .error (.duplicateArgument method binding.1)
  else .ok (Bindings.insert binding.1 binding.2 vars)

namespace Evaluator

variable (ev : Evaluator)

/-- Adds the entries of a dict display to others. Keys that are no strings are converted. -/
def evalEntry (entries : List (String × Value)) : DictEntry → Eval (List (String × Value))
  | .pair key value => do
    let key ← ev.eval key
    return Bindings.insert key.text (← ev.eval value) entries
  | .splat mapping => do
    return Bindings.merge entries (← lift (← ev.eval mapping).splat)

/-- Runs a comprehension in a scope of its own. -/
def comprehend {α : Type} (comp : Comprehension) (start : α) (each : α → Eval α) : Eval α := do
  let handle ← (← ev.eval comp.container).iterate
  inScope <| ev.fold handle start fun state item => do
    ev.assign comp.target item
    if ← ev.holds comp.condition then return .on (← each state) else return .on state

/-- A list comprehension. -/
def evalListComp (item : Node) (comp : Comprehension) : Eval Value := do
  let items ← ev.comprehend comp [] fun items => return (← ev.eval item) :: items
  return .list items.reverse

/-- A dict comprehension. -/
def evalDictComp (key value : Node) (comp : Comprehension) : Eval Value := do
  return .dict (← ev.comprehend comp [] fun entries => ev.evalEntry entries (.pair key value))

/-- A generator expression. Its container is evaluated at once, and its items later, in a scope
inside the variables as they are now. -/
def evalGenExpr (item : Node) (comp : Comprehension) : Eval Value := do
  let source ← (← ev.eval comp.container).iterate
  let frame := (← get).frame
  let frame := { frame with env := frame.env.push }
  return .iterator (← allocate (.generator ⟨frame, source, comp.target, comp.condition, item⟩))

/-- A binary operator. The left operand of `and` and `or` may decide alone. -/
def evalBinary (op : BinaryOp) (left right : Node) : Eval Value := do
  let a ← ev.eval left
  match op with
  | .and => if a.isTruthy then ev.eval right else return a
  | .or => if a.isTruthy then return a else ev.eval right
  | op => lift (Value.binary op a (← ev.eval right))

/-- A bound of a slice. A missing one and `None` are the same. -/
def evalBound : Option Node → Eval (Option Int64)
  | none => return none
  | some bound => do
    match ← ev.eval bound with
    | .none => return none
    | value => return some (← lift (intArg "slice" value))

/-- A slice. -/
def evalSlice (object : Node) (start stop : Option Node) : Eval Value := do
  let object ← ev.eval object
  let start ← ev.evalBound start
  let stop ← ev.evalBound stop
  lift (object.getSlice start stop)

/-- A call of a method that renders a template: `render` puts the output of the template into the
own one, `renders` returns it. -/
def callRender (method : Method) (t : Template) (vars : Scope) : Eval Value := do
  let output ← ev.renderNested t vars
  if method = .render then
    modify fun m => { m with output := m.output ++ output }
    return .none
  else return .str (String.join output.toList)

/-- The method with a name, if it renders templates. -/
def renderMethod? (name : String) : Option Method := (Method.ofName? name).filter Method.isRender

/-- A call of a method. -/
def evalCall (name : String) (object : Node) (args : List Node) : Eval Value := do
  let receiver ← ev.eval object
  let args ← args.mapM ev.eval
  match receiver, renderMethod? name with
  | .template t, some method =>
    if args.isEmpty then ev.callRender method t []
    else raise (.wrongArgCount .method name 0 (some 0) args.length)
  | receiver, _ => callMethod ev receiver name args

/-- Adds the keyword arguments of an argument to others. -/
def evalArgument (method : String) (vars : Scope) : KeywordArg → Eval Scope
  | .named name value => do lift (addArgument method vars (name, ← ev.eval value))
  | .splat mapping => do
    let entries ← lift (← ev.eval mapping).splat
    lift (entries.foldlM (addArgument method) vars)

/-- A call of a method with keyword arguments. -/
def evalKeywordCall (name : String) (object : Node) (args : List KeywordArg) : Eval Value := do
  let receiver ← ev.eval object
  match renderMethod? name with
  | none => raise (.keywordsUnsupported name)
  | some _ =>
    let method ← lift (Method.resolve receiver name 0)
    match receiver with
    | .template t =>
      let vars ← args.foldlM (ev.evalArgument name) []
      ev.callRender method t vars
    | _ => raise (.keywordsUnsupported name)

end Evaluator

end Templating
