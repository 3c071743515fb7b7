import Templating.Proofs.Value.Relabel
import Templating.Proofs.Wire.Pieces

/-!
# What can be written

* `writeTemplate_writes`, `writeNode_writes`: writing a tree never fails.
* `writeValue_writes`, `writeValue_refuses`: writing a value fails exactly if an iterator is in it.
-/

namespace Templating.Wire

/-- An action that never fails. -/
def Writes (w : Write) : Prop := ∀ s, ∃ s', w s = .ok () s'

variable {w w₁ w₂ : Write}

theorem Writes.bind (h₁ : Writes w₁) (h₂ : Writes w₂) : Writes (w₁ >>= fun _ => w₂) := by
  intro s
  obtain ⟨s', hs'⟩ := h₁ s
  obtain ⟨s'', hs''⟩ := h₂ s'
  exact ⟨s'', by rw [bind_ok hs', hs'']⟩

theorem Writes.pure : Writes (Pure.pure ()) := fun s => ⟨s, rfl⟩

theorem Writes.modify (f : Writer → Writer) : Writes (modify f) := fun s => ⟨f s, rfl⟩

theorem Writes.emit (text : String) : Writes (emit text) := .modify _

theorem Writes.get_bind {f : Writer → Write} (h : ∀ s, Writes (f s)) :
    Writes (get >>= f) := fun s => h s s

theorem Writes.str (x : String) : Writes (writeStr x) := by
  refine .get_bind fun s => ?_
  split
  · exact .emit _
  · exact .bind (.modify _) (.emit _)

theorem Writes.optStr (x : Option String) : Writes (writeOptStr x) := by
  cases x with
  | none => exact .emit _
  | some x => exact .str x

theorem Writes.beginObject (tag : String) : Writes (beginObject tag) :=
  .bind (.modify _) (.bind (.emit _) (.str _))

theorem Writes.location (l : Location) : Writes (writeLocation l) :=
  .bind (.beginObject _) <| .bind (.str _) <| .bind (.optStr _) <| .bind (.emit _) <|
    .bind (.emit _) <| .bind (.emit _) <| .bind (.emit _) (.emit _)

theorem Writes.optLocation (l : Option Location) : Writes (writeOptLocation l) := by
  cases l with
  | none => exact .emit _
  | some l => exact .location l

mutual

theorem Writes.target : ∀ target : Target, Writes (writeTarget target)
  | .name x => .str x
  | .tuple items => .bind (.emit _) (.bind (Writes.targets items) (.emit _))

theorem Writes.targets : ∀ items : List Target, Writes (writeTargets items)
  | [] => .pure
  | target :: items => .bind (Writes.target target) (Writes.targets items)

end

theorem Writes.literal (l : Literal) : Writes (writeLiteral l) := by
  cases l with
  | str s => exact .str s
  | duration d => exact .bind (.emit _) (.bind (.emit _) (.bind (.emit _) (.emit _)))
  | months m => exact .bind (.emit _) (.emit _)
  | color c => exact .bind (.emit _) (.bind (.emit _) (.bind (.emit _) (.bind (.emit _) (.emit _))))
  | _ => exact .emit _

/-- A node whose fields can be written. -/
theorem Writes.node_of {id : Nat} {location : Location} {kind : NodeKind}
    (h : Writes (writeKind kind)) : Writes (writeNode ⟨id, location, kind⟩) := by
  cases hkind : kind.template? with
  | some t =>
    obtain rfl : kind = .template t := by cases kind <;> cases hkind; rfl
    exact h
  | none =>
    rw [writeNode_eq hkind]
    exact .bind (.beginObject _) (.bind (.bind (.location _) h) (.emit _))

mutual

theorem writeTemplate_writes : ∀ t : Template, Writes (writeTemplate t)
  | ⟨_, _, _, _, _, _, block⟩ => by
    rw [writeTemplate]
    refine .get_bind fun s => ?_
    split
    · exact .emit _
    · exact .bind (.modify _) <| .bind (.emit _) <| .bind (.str _) <| .bind (.str _) <|
        .bind (.str _) <| .bind (.optStr _) <| .bind (.str _) <| .bind (.str _) <|
        .bind (.optLocation _) <| .bind (writeBlock_writes block) (.emit _)

theorem writeNode_writes : ∀ node : Node, Writes (writeNode node)
  | ⟨_, _, kind⟩ => .node_of (writeKind_writes kind)

theorem writeNodes_writes : ∀ nodes : List Node, Writes (writeNodes nodes)
  | [] => .pure
  | node :: nodes => .bind (writeNode_writes node) (writeNodes_writes nodes)

theorem writeOptNode_writes : ∀ node : Option Node, Writes (writeOptNode node)
  | none => .emit _
  | some node => writeNode_writes node

theorem writeKind_writes : ∀ kind : NodeKind, Writes (writeKind kind)
  | .text | .breakLoop | .continueLoop => .pure
  | .noneConst | .trueConst | .falseConst => .emit _
  | .const l => .literal l
  | .list items => .bind (.emit _) (.bind (writeNodes_writes items) (.emit _))
  | .listComp item comp | .genExpr item comp =>
    .bind (writeNode_writes item) (writeComprehension_writes comp)
  | .dict entries => .bind (.emit _) (.bind (writeEntries_writes entries) (.emit _))
  | .dictComp key value comp => .bind (writeNode_writes key) <|
    .bind (writeNode_writes value) (writeComprehension_writes comp)
  | .var name | .delVar name => .str name
  | .unary _ node | .print node | .printX node | .render node => writeNode_writes node
  | .binary _ left right => .bind (writeNode_writes left) (writeNode_writes right)
  | .getAttr object attr => .bind (writeNode_writes object) (.str attr)
  | .getSlice object start stop => .bind (writeNode_writes object) <|
    .bind (writeOptNode_writes start) (writeOptNode_writes stop)
  | .callFunc name args =>
    .bind (.str name) (.bind (.emit _) (.bind (writeNodes_writes args) (.emit _)))
  | .callMeth name object args => .bind (.str name) <| .bind (writeNode_writes object) <|
    .bind (.emit _) (.bind (writeNodes_writes args) (.emit _))
  | .callMethKeywords name object args => .bind (.str name) <| .bind (writeNode_writes object) <|
    .bind (.emit _) (.bind (writeArgs_writes args) (.emit _))
  | .storeVar target value => .bind (.target target) (writeNode_writes value)
  | .augAssign _ name value => .bind (.str name) (writeNode_writes value)
  | .forLoop target container block => .bind (writeBlock_writes block) <|
    .bind (.target target) (writeNode_writes container)
  | .chain block | .elseBranch block => writeBlock_writes block
  | .ifBranch condition block | .elifBranch condition block =>
    .bind (writeBlock_writes block) (writeNode_writes condition)
  | .template t => writeTemplate_writes t

theorem writeComprehension_writes : ∀ comp : Comprehension, Writes (writeComprehension comp)
  | ⟨target, container, condition⟩ => .bind (.target target) <|
    .bind (writeNode_writes container) (writeOptNode_writes condition)

theorem writeEntries_writes : ∀ entries : List DictEntry, Writes (writeEntries entries)
  | [] => .pure
  | entry :: entries => .bind (.emit _) <| .bind (writeEntry_writes entry) <|
    .bind (.emit _) (writeEntries_writes entries)

theorem writeEntry_writes : ∀ entry : DictEntry, Writes (writeEntry entry)
  | .pair key value => .bind (writeNode_writes key) (writeNode_writes value)
  | .splat mapping => writeNode_writes mapping

theorem writeArgs_writes : ∀ args : List KeywordArg, Writes (writeArgs args)
  | [] => .pure
  | arg :: args => .bind (.emit _) <| .bind (writeArg_writes arg) <|
    .bind (.emit _) (writeArgs_writes args)

theorem writeArg_writes : ∀ arg : KeywordArg, Writes (writeArg arg)
  | .named name value => .bind (.str name) (writeNode_writes value)
  | .splat mapping => writeNode_writes mapping

theorem writeBlock_writes : ∀ block : Block, Writes (writeBlock block)
  | ⟨stop, content⟩ => .bind (.optLocation stop) <| .bind (.emit _) <|
    .bind (writeNodes_writes content) (.emit _)

end

mutual

theorem writeValue_writes : ∀ v : Value, v.hasIterator = false → Writes (writeValue v)
  | .none, _ => .emit _
  | .bool b, _ => .literal (.bool b)
  | .int n, _ => .literal (.int n)
  | .float x, _ => .literal (.float x)
  | .str s, _ => .literal (.str s)
  | .date d, _ => .literal (.date d)
  | .duration d, _ => .literal (.duration d)
  | .months m, _ => .literal (.months m)
  | .color c, _ => .literal (.color c)
  | .list items, h => .bind (.emit _) (.bind (writeValues_writes items h) (.emit _))
  | .dict entries, h => .bind (.emit _) (.bind (writeBindings_writes entries h) (.emit _))
  | .template t, _ => writeTemplate_writes t

theorem writeValues_writes : ∀ vs : List Value, Value.anyIterator vs = false →
    Writes (writeValues vs)
  | [], _ => .pure
  | v :: vs, h => by
    rw [Value.anyIterator, Bool.or_eq_false_iff] at h
    exact .bind (writeValue_writes v h.1) (writeValues_writes vs h.2)

theorem writeBindings_writes : ∀ entries : List (String × Value),
    Value.anyIteratorBound entries = false → Writes (writeBindings entries)
  | [], _ => .pure
  | (key, value) :: entries, h => by
    rw [Value.anyIteratorBound, Bool.or_eq_false_iff] at h
    exact .bind (.str key) (.bind (writeValue_writes value h.1) (writeBindings_writes entries h.2))

end

/-- An action that never fails has a text. -/
theorem Writes.exists_written (h : Writes w) : ∃ text, written w = .ok text := by
  obtain ⟨s, hs⟩ := h .start
  exact ⟨s.out, by rw [written, EStateM.run, hs]⟩

/-! ## Iterators -/

/-- An action that fails because of an iterator. -/
def Refuses (w : Write) : Prop := ∀ s, ∃ s', w s = .error (.notSerializable "iterator") s'

theorem Refuses.bind (h : Refuses w₁) : Refuses (w₁ >>= fun _ => w₂) := by
  intro s
  obtain ⟨s', hs'⟩ := h s
  exact ⟨s', bind_error hs'⟩

theorem Refuses.bind_right (h₁ : Writes w₁) (h₂ : Refuses w₂) : Refuses (w₁ >>= fun _ => w₂) := by
  intro s
  obtain ⟨s', hs'⟩ := h₁ s
  obtain ⟨s'', hs''⟩ := h₂ s'
  exact ⟨s'', by rw [bind_ok hs', hs'']⟩

mutual

theorem writeValue_refuses : ∀ v : Value, v.hasIterator = true → Refuses (writeValue v)
  | .list items, h => .bind_right (.emit _) (.bind (writeValues_refuses items h))
  | .dict entries, h => .bind_right (.emit _) (.bind (writeBindings_refuses entries h))
  | .iterator _, _ => fun s => ⟨s, rfl⟩

theorem writeValues_refuses : ∀ vs : List Value, Value.anyIterator vs = true →
    Refuses (writeValues vs)
  | v :: vs, h => by
    cases hv : v.hasIterator with
    | true => exact .bind (writeValue_refuses v hv)
    | false =>
      rw [Value.anyIterator, hv, Bool.false_or] at h
      exact .bind_right (writeValue_writes v hv) (writeValues_refuses vs h)

theorem writeBindings_refuses : ∀ entries : List (String × Value),
    Value.anyIteratorBound entries = true → Refuses (writeBindings entries)
  | (key, value) :: entries, h => by
    refine .bind_right (.str key) ?_
    cases hv : value.hasIterator with
    | true => exact .bind (writeValue_refuses value hv)
    | false =>
      rw [Value.anyIteratorBound, hv, Bool.false_or] at h
      exact .bind_right (writeValue_writes value hv) (writeBindings_refuses entries h)

end

end Templating.Wire
