import Templating.Proofs.Value.Relabel
import Templating.Proofs.Wire.Pieces

/-!
# The written form does not show identities

* `Writer.rename`: the state of the writer with other identities.
* `Renames f w w'`: `w'` does with other identities what `w` does.
* `dumps_relabel`, `dumpsTemplate_relabel`: **the text is the same whatever the identities are**, as
  long as different templates keep different ones.
-/

namespace Templating.Wire

/-- The state of the writer with other identities. -/
def Writer.rename (f : Relabel) (s : Writer) : Writer :=
  { s with templates := s.templates.map fun p => (f.template p.1, p.2) }

/-- An action does with other identities what another one does, as long as different templates keep
different ones. -/
def Renames (f : Relabel) (w w' : Write) : Prop :=
  Function.Injective f.template → ∀ s, w' (s.rename f) = match w s with
    | .ok _ s' => .ok () (s'.rename f)
    | .error e s' => .error e (s'.rename f)

variable {f : Relabel} {w w' w₁ w₁' w₂ w₂' : Write}

theorem Renames.bind (h₁ : Renames f w₁ w₁') (h₂ : Renames f w₂ w₂') :
    Renames f (w₁ >>= fun _ => w₂) (w₁' >>= fun _ => w₂') := by
  intro hf s
  have hs := h₁ hf s
  cases hw : w₁ s with
  | ok _ s' =>
    rw [hw] at hs
    rw [bind_ok hs, bind_ok hw]
    exact h₂ hf s'
  | error e s' =>
    rw [hw] at hs
    rw [bind_error hs, bind_error hw]

theorem Renames.pure : Renames f (Pure.pure ()) (Pure.pure ()) := fun _ _ => rfl

theorem Renames.emit (text : String) : Renames f (emit text) (Wire.emit text) := fun _ _ => rfl

theorem Renames.fail (e : Error) : Renames f (throw e) (throw e) := fun _ _ => rfl

theorem Renames.str (x : String) : Renames f (writeStr x) (writeStr x) := by
  intro _ s
  rw [writeStr, bind_ok (x := get) rfl, bind_ok (x := get) rfl]
  simp only [Writer.rename]
  cases s.strings.lookup x <;> rfl

theorem Renames.optStr (x : Option String) : Renames f (writeOptStr x) (writeOptStr x) := by
  cases x with
  | none => exact .emit _
  | some x => exact .str x

theorem Renames.beginObject (tag : String) : Renames f (beginObject tag) (beginObject tag) :=
  Renames.bind (fun _ _ => rfl) (.bind (.emit _) (.str _))

theorem Renames.location (l : Location) : Renames f (writeLocation l) (writeLocation l) :=
  .bind (.beginObject _) <| .bind (.str _) <| .bind (.optStr _) <| .bind (.emit _) <|
    .bind (.emit _) <| .bind (.emit _) <| .bind (.emit _) (.emit _)

theorem Renames.optLocation (l : Option Location) :
    Renames f (writeOptLocation l) (writeOptLocation l) := by
  cases l with
  | none => exact .emit _
  | some l => exact .location l

mutual

theorem Renames.target : ∀ target : Target, Renames f (writeTarget target) (writeTarget target)
  | .name x => .str x
  | .tuple items => .bind (.emit _) (.bind (Renames.targets items) (.emit _))

theorem Renames.targets : ∀ items : List Target, Renames f (writeTargets items) (writeTargets items)
  | [] => .pure
  | target :: items => .bind (Renames.target target) (Renames.targets items)

end

theorem Renames.literal (l : Literal) : Renames f (writeLiteral l) (writeLiteral l) := by
  cases l with
  | str s => exact .str s
  | duration d => exact .bind (.emit _) (.bind (.emit _) (.bind (.emit _) (.emit _)))
  | months m => exact .bind (.emit _) (.emit _)
  | color c => exact .bind (.emit _) (.bind (.emit _) (.bind (.emit _) (.bind (.emit _) (.emit _))))
  | _ => exact .emit _

theorem writeKind_ofLiteral (l : Literal) : writeKind (.ofLiteral l) = writeLiteral l := by
  unfold NodeKind.ofLiteral
  split <;> rw [writeKind]
  · rfl
  · rfl
  · rfl

theorem NodeKind.tag_relabel (f : Relabel) (kind : NodeKind) : (kind.relabel f).tag = kind.tag := by
  cases kind with
  | const l =>
    rw [NodeKind.relabel]
    split
    · unfold NodeKind.ofLiteral
      split <;> rfl
    · rfl
  | _ => rfl

/-- A template has the number it had, under its other identity. -/
theorem lookup_rename (hf : Function.Injective f.template) (id : Nat)
    (templates : List (Nat × Nat)) :
    (templates.map fun p => (f.template p.1, p.2)).lookup (f.template id) =
      templates.lookup id := by
  induction templates with
  | nil => rfl
  | cons p templates ih =>
    rw [List.map_cons, List.lookup_cons, List.lookup_cons, ih]
    by_cases h : id = p.1
    · simp [h]
    · have h' : (f.template id == f.template p.1) = false := by simpa using fun heq => h (hf heq)
      have h'' : (id == p.1) = false := by simpa using h
      rw [h', h'']

/-- A template whose fields are written in the same way. -/
theorem Renames.template_of {id : Nat} {fields fields' : Write} (h : Renames f fields fields') :
    Renames f (do
      match (← get).templates.lookup id with
      | some index => writeReference index
      | none =>
        number fun index w => { w with templates := (id, index) :: w.templates }
        fields) (do
      match (← get).templates.lookup (f.template id) with
      | some index => writeReference index
      | none =>
        number fun index w => { w with templates := (f.template id, index) :: w.templates }
        fields') := by
  intro hf s
  rw [bind_ok (x := get) rfl, bind_ok (x := get) rfl]
  simp only [Writer.rename, lookup_rename hf]
  cases s.templates.lookup id with
  | some index => rfl
  | none => exact h hf ⟨s.out, s.records + 1, s.strings, (id, s.records) :: s.templates⟩

/-- A node whose fields are written in the same way. -/
theorem Renames.node_of {id : Nat} {location : Location} {kind : NodeKind}
    (h : Renames f (writeKind kind) (writeKind (kind.relabel f))) :
    Renames f (writeNode ⟨id, location, kind⟩)
      (writeNode (Node.relabel f ⟨id, location, kind⟩)) := by
  cases hkind : kind.template? with
  | some t =>
    obtain rfl : kind = .template t := by cases kind <;> cases hkind; rfl
    exact h
  | none =>
    have hrelabel : (kind.relabel f).template? = none := by
      rw [NodeKind.template?_relabel, hkind]
      rfl
    rw [Node.relabel, NodeKind.place_of_template?_eq_none hkind, ite_self, writeNode_eq hkind,
      writeNode_eq hrelabel, NodeKind.tag_relabel]
    exact .bind (.beginObject _) (.bind (.bind (.location _) h) (.emit _))

mutual

theorem Renames.template : ∀ t : Template, Renames f (writeTemplate t) (writeTemplate (t.relabel f))
  | ⟨id, location, source, name, startDelim, endDelim, block⟩ => by
    rw [Template.relabel, writeTemplate, writeTemplate]
    exact .template_of <| .bind (.emit _) <| .bind (.str _) <| .bind (.str _) <|
      .bind (.str _) <| .bind (.optStr _) <| .bind (.str _) <| .bind (.str _) <|
      .bind (.optLocation _) <| .bind (Renames.block block) (.emit _)

theorem Renames.node : ∀ node : Node, Renames f (writeNode node) (writeNode (node.relabel f))
  | ⟨_, _, kind⟩ => .node_of (Renames.kind kind)

theorem Renames.nodes : ∀ nodes : List Node,
    Renames f (writeNodes nodes) (writeNodes (Node.relabelAll f nodes))
  | [] => .pure
  | node :: nodes => .bind (Renames.node node) (Renames.nodes nodes)

theorem Renames.optNode : ∀ node : Option Node,
    Renames f (writeOptNode node) (writeOptNode (Node.relabelOpt f node))
  | none => .emit _
  | some node => Renames.node node

theorem Renames.kind : ∀ kind : NodeKind, Renames f (writeKind kind) (writeKind (kind.relabel f))
  | .text | .breakLoop | .continueLoop => .pure
  | .noneConst | .trueConst | .falseConst => .emit _
  | .const l => by
    rw [NodeKind.relabel]
    split
    · rw [writeKind_ofLiteral]
      exact .literal l
    · exact .literal l
  | .list items => .bind (.emit _) (.bind (Renames.nodes items) (.emit _))
  | .listComp item comp => .bind (Renames.node item) (Renames.comprehension comp)
  | .genExpr item comp => .bind (Renames.node item) (Renames.comprehension comp)
  | .dict entries => .bind (.emit _) (.bind (Renames.entries entries) (.emit _))
  | .dictComp key value comp =>
    .bind (Renames.node key) (.bind (Renames.node value) (Renames.comprehension comp))
  | .var name => .str name
  | .delVar name => .str name
  | .unary _ operand => Renames.node operand
  | .print value => Renames.node value
  | .printX value => Renames.node value
  | .render value => Renames.node value
  | .binary _ left right => .bind (Renames.node left) (Renames.node right)
  | .getAttr object attr => .bind (Renames.node object) (.str attr)
  | .getSlice object start stop =>
    .bind (Renames.node object) (.bind (Renames.optNode start) (Renames.optNode stop))
  | .callFunc name args =>
    .bind (.str name) (.bind (.emit _) (.bind (Renames.nodes args) (.emit _)))
  | .callMeth name object args => .bind (.str name) <| .bind (Renames.node object) <|
    .bind (.emit _) (.bind (Renames.nodes args) (.emit _))
  | .callMethKeywords name object args => .bind (.str name) <| .bind (Renames.node object) <|
    .bind (.emit _) (.bind (Renames.args args) (.emit _))
  | .storeVar target value => .bind (.target target) (Renames.node value)
  | .augAssign _ name value => .bind (.str name) (Renames.node value)
  | .forLoop target container block =>
    .bind (Renames.block block) (.bind (.target target) (Renames.node container))
  | .chain branches => Renames.block branches
  | .elseBranch block => Renames.block block
  | .ifBranch condition block => .bind (Renames.block block) (Renames.node condition)
  | .elifBranch condition block => .bind (Renames.block block) (Renames.node condition)
  | .template t => Renames.template t

theorem Renames.comprehension : ∀ comp : Comprehension,
    Renames f (writeComprehension comp) (writeComprehension (comp.relabel f))
  | ⟨target, container, condition⟩ =>
    .bind (.target target) (.bind (Renames.node container) (Renames.optNode condition))

theorem Renames.entries : ∀ entries : List DictEntry,
    Renames f (writeEntries entries) (writeEntries (DictEntry.relabelAll f entries))
  | [] => .pure
  | entry :: entries =>
    .bind (.emit _) (.bind (Renames.entry entry) (.bind (.emit _) (Renames.entries entries)))

theorem Renames.entry : ∀ entry : DictEntry,
    Renames f (writeEntry entry) (writeEntry (entry.relabel f))
  | .pair key value => .bind (Renames.node key) (Renames.node value)
  | .splat mapping => Renames.node mapping

theorem Renames.args : ∀ args : List KeywordArg,
    Renames f (writeArgs args) (writeArgs (KeywordArg.relabelAll f args))
  | [] => .pure
  | arg :: args =>
    .bind (.emit _) (.bind (Renames.arg arg) (.bind (.emit _) (Renames.args args)))

theorem Renames.arg : ∀ arg : KeywordArg, Renames f (writeArg arg) (writeArg (arg.relabel f))
  | .named name value => .bind (.str name) (Renames.node value)
  | .splat mapping => Renames.node mapping

theorem Renames.block : ∀ block : Block, Renames f (writeBlock block) (writeBlock (block.relabel f))
  | ⟨stop, content⟩ =>
    .bind (.optLocation stop) (.bind (.emit _) (.bind (Renames.nodes content) (.emit _)))

end

mutual

theorem Renames.value : ∀ v : Value, Renames f (writeValue v) (writeValue (v.relabel f))
  | .none => .emit _
  | .bool b => .literal (.bool b)
  | .int n => .literal (.int n)
  | .float x => .literal (.float x)
  | .str s => .literal (.str s)
  | .date d => .literal (.date d)
  | .duration d => .literal (.duration d)
  | .months m => .literal (.months m)
  | .color c => .literal (.color c)
  | .list items => .bind (.emit _) (.bind (Renames.values items) (.emit _))
  | .dict entries => .bind (.emit _) (.bind (Renames.bindings entries) (.emit _))
  | .template t => .template t
  | .iterator _ => .fail _

theorem Renames.values : ∀ vs : List Value,
    Renames f (writeValues vs) (writeValues (Value.relabelAll f vs))
  | [] => .pure
  | v :: vs => .bind (Renames.value v) (Renames.values vs)

theorem Renames.bindings : ∀ entries : List (String × Value),
    Renames f (writeBindings entries) (writeBindings (Value.relabelBindings f entries))
  | [] => .pure
  | (key, value) :: entries =>
    .bind (.str key) (.bind (Renames.value value) (Renames.bindings entries))

end

theorem Renames.written (h : Renames f w w') (hf : Function.Injective f.template) :
    written w' = written w := by
  have hw : w' .start = _ := h hf .start
  unfold Wire.written EStateM.run
  rw [hw]
  cases w .start <;> rfl

/-- **The text of a value does not show which identities its templates have.** -/
theorem dumps_relabel (hf : Function.Injective f.template) (v : Value) :
    dumps (v.relabel f) = dumps v :=
  (Renames.value v).written hf

/-- **The text of a template does not show which identities its templates have.** -/
theorem dumpsTemplate_relabel (hf : Function.Injective f.template) (t : Template) :
    dumpsTemplate (t.relabel f) = dumpsTemplate t :=
  (Renames.template t).written hf

end Templating.Wire
