import Templating.Proofs.Builtin.Pure
import Templating.Proofs.Value.Bindings
import Templating.Proofs.Wire.Sound

/-!
# Texts of values do not show what they refer to

* `Relabel.Keeps`: what a renaming has to keep so that a running template does not notice it.
* `Relabel.Keeps.loads?`, `Wire.handles_of_loads?`: values from the wire are new.
* `Json.write_rename`, `Json.same_of_read`: JSON text of values, and values from JSON text.
* `Wire.dumps_rename`: the wire format of values.
-/

namespace Templating

variable {f : Relabel} {g : Renaming}

/-- A renaming keeps different templates different and leaves alone what is new. It brings trees
into the form in which they are read. -/
structure Relabel.Keeps (f : Relabel) (limit : Nat) : Prop where
  tidy : f.tidy = true
  injective : Function.Injective f.template
  node : ∀ i, limit ≤ i → f.node i = i
  template : ∀ i, limit ≤ i → f.template i = i

/-- **A value that is read from the wire is new**, so that a renaming leaves it alone. -/
theorem Relabel.Keeps.loads? {limit fresh fresh' : Nat} {text : String} {v : Value}
    (hf : f.Keeps limit) (hlimit : limit ≤ fresh) (h : Wire.loads? text fresh = .ok (v, fresh')) :
    v.relabel f = v ∧ limit ≤ fresh' := by
  obtain ⟨⟨htidy, -, -⟩, hfresh, hrange, -⟩ := Wire.of_loads?_ok h
  have hagrees : ∀ o ∈ v.objects, f.Agrees id id o := by
    intro o ho
    have hnew := Nat.le_trans hlimit (hrange o ho).1
    cases o with
    | node i => exact hf.node i hnew
    | template t => exact hf.template t.id hnew
  have honto : f.onto id id = .tidied := by rw [Relabel.onto, hf.tidy, Relabel.tidied]
  rw [Value.relabel_congr v hagrees, honto]
  exact ⟨htidy, Nat.le_trans hlimit hfresh⟩

namespace Json

/-! ## Writing -/

mutual

/-- The expression for a value is the same if that for each template is. -/
theorem write_rename (hg : ∀ t, Wire.dumpsTemplate (g.template t) = Wire.dumpsTemplate t) :
    ∀ v : Value, write (v.rename g) = write v
  | .none | .bool _ | .int _ | .float _ | .str _ | .date _ | .duration _ | .months _ | .color _
  | .iterator _ => rfl
  | .list items => by simp only [Value.rename, write, writeItems_rename hg items]
  | .dict entries => by simp only [Value.rename, write, writeEntries_rename hg entries]
  | .template t => by simp only [Value.rename, write, templateText, hg t]

theorem writeItems_rename (hg : ∀ t, Wire.dumpsTemplate (g.template t) = Wire.dumpsTemplate t) :
    ∀ items : List Value, writeItems (Value.renameAll g items) = writeItems items
  | [] => rfl
  | item :: items => by
    simp only [Value.renameAll, writeItems, write_rename hg item, writeItems_rename hg items]

theorem writeEntries_rename (hg : ∀ t, Wire.dumpsTemplate (g.template t) = Wire.dumpsTemplate t) :
    ∀ entries : List (String × Value),
      writeEntries (Value.renameBindings g entries) = writeEntries entries
  | [] => rfl
  | (key, value) :: entries => by
    simp only [Value.renameBindings, writeEntries, write_rename hg value,
      writeEntries_rename hg entries]

end

/-! ## Reading -/

/-- What is read satisfies a condition. -/
def Yields {α : Type} (P : α → Prop) (x : Parse α) : Prop :=
  ∀ c a c', x c = .ok a c' → P a

variable {α β : Type} {P : α → Prop} {R : β → Prop} {x : Parse α}

theorem Yields.pure {a : α} (h : P a) : Yields P (Pure.pure a) := by
  rintro c _ _ ⟨⟩
  exact h

theorem Yields.fail (fault : Fault) : Yields P (Parse.fail fault) := by
  rintro c _ _ ⟨⟩

theorem Yields.failNext (fault : Fault) : Yields P (Parse.failNext fault) := by
  rintro c _ _ ⟨⟩

theorem Yields.failAt (fault : Fault) (i : Nat) : Yields P (Parse.failAt fault i) := by
  rintro c _ _ ⟨⟩

theorem Yields.bind {k : α → Parse β} (hx : Yields P x) (hk : ∀ a, P a → Yields R (k a)) :
    Yields R (x >>= k) := by
  intro c b c' h
  obtain ⟨a, s, hxc, hka⟩ := bind_eq_ok h
  exact hk a (hx c a s hxc) s b c' hka

theorem Yields.then {k : α → Parse β} (hk : ∀ a, Yields R (k a)) : Yields R (x >>= k) :=
  Yields.bind (P := fun _ => True) (fun _ _ _ _ => trivial) fun a _ => hk a

theorem Yields.ite {p : Prop} [Decidable p] {y : Parse α} (hx : Yields P x) (hy : Yields P y) :
    Yields P (if p then x else y) := by
  split
  · exact hx
  · exact hy

/-- There is nothing to rename in a value. -/
abbrev Same (g : Renaming) (v : Value) : Prop := v.rename g = v

theorem Yields.floatOf (negative : Bool) (n : Nat) (e : Int) :
    Yields (Same g) (floatOf negative n e) := by
  unfold Json.floatOf
  split
  · exact .pure rfl
  · exact .fail _

theorem same_integerOf (negative : Bool) (n : Nat) : Same g (integerOf negative n) := by
  unfold integerOf
  simp only
  split
  · split <;> rfl
  · rfl

/-- Reads the digits of an exponent and finishes the number. -/
def exponentDigits (negative : Bool) (n : Nat) (e : Int) (down : Bool) (start : Nat) :
    Parse Value := do
  match ← Parse.peek? with
  | none => Parse.fail .eofInValue
  | some c =>
    if !c.isDigit then Parse.failAt .invalidNumber (start + 1)
    else
      let digits ← Parse.takeWhile Char.isDigit
      match absorb exponentLimit 0 digits with
      | (m, []) => Json.floatOf negative n (if down then e - m else e + m)
      | (_, _ :: ignored) =>
        if n ≠ 0 ∧ !down then
          Parse.failAt .numberOutOfRange (start + (digits.length - ignored.length))
        else return .float (Binary64.withSign negative 0)

theorem Yields.exponentDigits (negative : Bool) (n : Nat) (e : Int) (down : Bool) (start : Nat) :
    Yields (Same g) (exponentDigits negative n e down start) := by
  refine .then fun next => ?_
  split
  · exact .fail _
  · refine .ite (.failAt _ _) (.then fun digits => ?_)
    split
    · exact .floatOf _ _ _
    · exact .ite (.failAt _ _) (.pure rfl)

theorem Yields.exponent (negative : Bool) (n : Nat) (e : Int) :
    Yields (Same g) (exponent negative n e) := by
  -- the sign of the exponent decides between three ways to what is left
  have hleft (down : Bool) (start : Nat) := Yields.exponentDigits (g := g) negative n e down start
  unfold Json.exponent
  refine .then fun _ => .then fun sign => ?_
  simp only
  split
  · exact .then fun _ => .then fun down => .then fun c => hleft down c.index
  · exact .then fun _ => .then fun down => .then fun c => hleft down c.index
  · exact .then fun down => .then fun c => hleft down c.index

theorem Yields.floatTail (negative : Bool) (n : Nat) (e : Int) :
    Yields (Same g) (floatTail negative n e) := by
  unfold Json.floatTail
  refine .then fun next => ?_
  split
  · exact .exponent _ _ _
  · exact .exponent _ _ _
  · exact .floatOf _ _ _

theorem Yields.fraction (negative : Bool) (n : Nat) (e : Int) :
    Yields (Same g) (fraction negative n e) :=
  .then fun _ => .then fun _ => .ite (.then fun _ => .failNext _) (.floatTail _ _ _)

theorem Yields.numeral (negative : Bool) : Yields (Same g) (numeral negative) := by
  unfold Json.numeral
  refine .then fun digits => ?_
  simp only
  refine .then fun next => ?_
  split
  · exact .fraction _ _ _
  · exact .exponent _ _ _
  · exact .exponent _ _ _
  · exact .ite (.pure (same_integerOf _ _)) (.floatOf _ _ _)

theorem Yields.manyWithin {more : Bool → Parse Bool} (hx : Yields P x) (bound : List Char)
    (first : Bool) : Yields (fun as => ∀ a ∈ as, P a) (manyWithin more x bound first) := by
  induction bound generalizing first with
  | nil => exact .fail _
  | cons c bound ih =>
    refine .then fun go => .ite ?_ (.then fun _ => .pure (by simp))
    exact .bind hx fun a ha => .bind (ih false) fun as has => .pure (by simpa using ⟨ha, has⟩)

theorem Yields.many {more : Bool → Parse Bool} (hx : Yields P x) :
    Yields (fun as => ∀ a ∈ as, P a) (many more x) :=
  .then fun c => .then fun _ => .manyWithin hx c.rest true

theorem same_list {items : List Value} (h : ∀ v ∈ items, Same g v) : Same g (.list items) := by
  refine congrArg Value.list ?_
  rw [Value.renameAll_eq]
  exact (List.map_congr_left h).trans (List.map_id' _)

theorem same_dict {entries : List (String × Value)} (h : ∀ e ∈ entries, Same g e.2) :
    Same g (.dict (Bindings.ofList entries)) := by
  refine congrArg Value.dict ?_
  rw [Value.renameBindings_eq]
  refine (List.map_congr_left fun e he => ?_).trans (List.map_id' _)
  exact Prod.ext rfl (h e (Bindings.mem_ofList he))

theorem Yields.valueWith {nested? : Option (Parse Value)}
    (h : ∀ value, nested? = some value → Yields (Same g) value) :
    Yields (Same g) (valueWith nested?) := by
  unfold Json.valueWith
  refine .then fun next => ?_
  split
  · exact .failNext _
  split
  · exact .then fun _ => .then fun _ => .pure rfl
  · exact .then fun _ => .then fun _ => .pure rfl
  · exact .then fun _ => .then fun _ => .pure rfl
  · exact .then fun _ => .numeral true
  · exact .then fun _ => .then fun s => .pure rfl
  · split
    · exact .failNext _
    · exact .bind (.many (h _ rfl)) fun items hitems => .pure (same_list hitems)
  · split
    · exact .failNext _
    · refine .bind (P := fun es => ∀ e ∈ es, Same g e.2) (.many ?_) fun entries hentries =>
        .pure (same_dict hentries)
      exact .then fun _ => .then fun key => .then fun _ => .bind (h _ rfl) fun v hv => .pure hv
  · exact .ite (.numeral false) (.failNext _)

theorem Yields.valueWithin (depth : Nat) : Yields (Same g) (valueWithin depth) := by
  induction depth with
  | zero => exact .valueWith (by simp)
  | succ depth ih =>
    refine .valueWith fun value h => ?_
    cases h
    exact ih

/-- **A value that is read from JSON refers to nothing.** -/
theorem same_of_read {text : String} {v : Value} (h : read text = .ok v) : Same g v := by
  have hwhole : Yields (Same g) whole := by
    refine .bind (Yields.valueWithin (g := g) maxNesting) fun v hv => .then fun next => ?_
    split
    · exact .pure hv
    · exact .failNext _
  unfold read at h
  simp only at h
  split at h
  · rename_i value c hvalue
    cases h
    exact hwhole _ _ _ hvalue
  · cases h

end Json

/-! ## The wire format -/

namespace Wire

variable {ρ : Handle → Handle}

mutual

theorem writeValue_rename : ∀ v : Value, writeValue (v.rename (.ofHandles ρ)) = writeValue v
  | .none | .bool _ | .int _ | .float _ | .str _ | .date _ | .duration _ | .months _ | .color _
  | .template _ | .iterator _ => rfl
  | .list items => by simp only [Value.rename, writeValue, writeValues_rename items]
  | .dict entries => by simp only [Value.rename, writeValue, writeBindings_rename entries]

theorem writeValues_rename : ∀ items : List Value,
    writeValues (Value.renameAll (.ofHandles ρ) items) = writeValues items
  | [] => rfl
  | item :: items => by
    simp only [Value.renameAll, writeValues, writeValue_rename item, writeValues_rename items]

theorem writeBindings_rename : ∀ entries : List (String × Value),
    writeBindings (Value.renameBindings (.ofHandles ρ) entries) = writeBindings entries
  | [] => rfl
  | (key, value) :: entries => by
    simp only [Value.renameBindings, writeBindings, writeValue_rename value,
      writeBindings_rename entries]

end

theorem dumps_rename (v : Value) : dumps (v.rename (.ofHandles ρ)) = dumps v := by
  rw [dumps, dumps, writeValue_rename]

/-- A value that is read from the wire contains no iterators. -/
theorem handles_of_loads? {fresh fresh' : Nat} {text : String} {v : Value}
    (h : loads? text fresh = .ok (v, fresh')) : v.handles = [] := by
  obtain ⟨⟨-, hiterator, -⟩, -, -, -⟩ := of_loads?_ok h
  exact v.handles_eq_nil hiterator

end Wire

end Templating
