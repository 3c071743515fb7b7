import Templating.Proofs.Value.Bindings
import Templating.Proofs.Value.Relabel
import Templating.Proofs.Wire.Locality

/-!
# What is read from any text

Whatever a text is, what is read from it has the form that reading gives, all templates in it were
numbered while it was read, and an error is reported at a position in the text.

* `Readable`: what is checked of everything that is read.
* `Stage`: a reader in the middle of a text, and the templates that were read so far.
* `Sound`: an action keeps all of that.
* `sound_load`: **reading an item is sound**.
-/

namespace Templating

/-- Keeps all identities, and puts a tree into the form in which it is read back. -/
def Relabel.tidied : Relabel := ⟨id, id, true⟩

namespace Wire

open Text

/-! ## What is checked -/

/-- What is checked of everything that is read: the objects in it, and its form. -/
class Readable (α : Type) where
  objects : α → List Object
  Tidy : α → Prop

open Readable

/-- Something without objects and of any form. -/
abbrev Readable.plain (α : Type) : Readable α := ⟨fun _ => [], fun _ => True⟩

instance : Readable Unit := .plain _
instance : Readable Bool := .plain _
instance : Readable Nat := .plain _
instance : Readable String := .plain _
instance : Readable (List Char) := .plain _
instance : Readable Int64 := .plain _
instance : Readable UInt32 := .plain _
instance : Readable UInt8 := .plain _
instance : Readable Float := .plain _
instance : Readable Location := .plain _
instance : Readable Target := .plain _

instance {α : Type} [Readable α] : Readable (Option α) :=
  ⟨fun a => a.elim [] objects, fun a => ∀ b ∈ a, Tidy b⟩

instance Readable.list {α : Type} [Readable α] : Readable (List α) :=
  ⟨fun as => as.flatMap objects, fun as => ∀ a ∈ as, Tidy a⟩

instance {α β : Type} [Readable α] [Readable β] : Readable (α × β) :=
  ⟨fun p => objects p.1 ++ objects p.2, fun p => Tidy p.1 ∧ Tidy p.2⟩

instance : Readable Template := ⟨Template.objects, fun t => t.relabel .tidied = t⟩
instance : Readable Node := ⟨Node.objects, fun node => node.relabel .tidied = node⟩
instance : Readable Comprehension :=
  ⟨Comprehension.objects, fun comp => comp.relabel .tidied = comp⟩
instance : Readable DictEntry := ⟨DictEntry.objects, fun entry => entry.relabel .tidied = entry⟩
instance : Readable KeywordArg := ⟨KeywordArg.objects, fun arg => arg.relabel .tidied = arg⟩
instance : Readable Block := ⟨Block.objects, fun block => block.relabel .tidied = block⟩

instance : Readable NodeKind :=
  ⟨NodeKind.objects, fun kind => kind.relabel .tidied = kind ∧ kind.template? = none⟩

instance : Readable Value :=
  ⟨Value.objects, fun v => v.relabel .tidied = v ∧ v.hasIterator = false ∧ v.Proper⟩

instance : Readable Loaded where
  objects
    | .value v => objects v
    | .node node => objects node
    | .location _ => []
  Tidy
    | .value v => Tidy v
    | .node node => Tidy node
    | .location _ => True

/-! ## A reader in the middle of a text -/

/-- A position in a text, counted in bytes. -/
def IsOffset (text : List Char) (offset : Nat) : Prop :=
  ∃ p rest, text = p ++ rest ∧ offset = byteLength p

/-- An entry says at which position in a text it is. -/
abbrev Readable.entry (text : List Char) : Readable Entry where
  objects e := objects e.first ++ objects e.second
  Tidy e := IsOffset text e.start ∧ Tidy e.first ∧ Tidy e.second

/-- An error with a position has it in the text. -/
def Error.Within (text : List Char) (e : Error) : Prop :=
  ∀ offset message, e = .malformed offset message → IsOffset text offset

/-- A reader in the middle of a text, and what was read so far. -/
structure Stage (text : List Char) (base : Nat) (known : List Object) (r : Reader) : Prop where
  consumed : ∃ p, text = p ++ r.rest ∧ r.offset = byteLength p
  base_le : base ≤ r.fresh
  range : ∀ o ∈ known, base ≤ o.id ∧ o.id < r.fresh
  coherent : Coherent known
  records : ∀ (i : Nat) item, r.records[i]? = some (some item) →
    objects item ⊆ known ∧ Tidy item

/-- Given some objects, an action keeps what holds in the middle of a text. -/
def Sound {α : Type} [Readable α] (text : List Char) (base : Nat) (os : List Object)
    (x : Read α) : Prop :=
  ∀ r known, Stage text base known r → os ⊆ known → match x r with
    | .ok a r' => Tidy a ∧ ∃ known', known ⊆ known' ∧ Stage text base known' r' ∧
      objects a ⊆ known'
    | .error e _ => e.Within text

variable {text : List Char} {base : Nat} {known : List Object} {r : Reader}
  {os os' : List Object}

theorem Stage.isOffset (h : Stage text base known r) : IsOffset text r.offset := by
  obtain ⟨p, hp, hoffset⟩ := h.consumed
  exact ⟨p, r.rest, hp, hoffset⟩

theorem IsOffset.within {offset : Nat} (h : IsOffset text offset) (message : String) :
    (Error.malformed offset message).Within text := by
  rintro _ _ ⟨⟩
  exact h

/-- Moving over a stretch stays in the text. -/
theorem Stage.skip (h : Stage text base known r) (n : Nat) : Stage text base known (r.skip n) := by
  refine { h with consumed := ?_ }
  obtain ⟨p, hp, hoffset⟩ := h.consumed
  refine ⟨p ++ r.rest.take n, ?_, ?_⟩
  · rw [List.append_assoc, Reader.skip, List.take_append_drop, hp]
  · rw [byteLength_append, Reader.skip, hoffset]

theorem Stage.record {item : Option Loaded} (h : Stage text base known r)
    (hitem : ∀ x, item = some x → objects x ⊆ known ∧ Tidy x) :
    Stage text base known (r.record item) := by
  refine { h with records := fun i x hx => ?_ }
  rw [Reader.record, Array.getElem?_push] at hx
  split at hx
  · exact hitem x (by simpa using hx)
  · exact h.records i x hx

theorem Stage.complete {index : Nat} {item : Loaded} (h : Stage text base known r)
    (hobjects : objects item ⊆ known) (htidy : Tidy item) :
    Stage text base known (r.complete index item) := by
  refine { h with records := fun i x hx => ?_ }
  rw [Reader.complete, Array.getElem?_setIfInBounds] at hx
  split at hx
  · split at hx
    · cases hx
      exact ⟨hobjects, htidy⟩
    · cases hx
  · exact h.records i x hx

/-- What takes the next identity is known from then on. -/
theorem Stage.fresh {o : Object} (h : Stage text base known r) (hid : o.id = r.fresh) :
    Stage text base (o :: known) { r with fresh := r.fresh + 1 } where
  consumed := h.consumed
  base_le := Nat.le_succ_of_le h.base_le
  range := by
    refine List.forall_mem_cons.2 ⟨⟨hid ▸ h.base_le, hid ▸ Nat.lt_succ_self _⟩, fun u hu => ?_⟩
    exact ⟨(h.range u hu).1, Nat.lt_succ_of_lt (h.range u hu).2⟩
  coherent := by
    have hne : ∀ u ∈ known, o.id ≠ u.id := fun u hu heq =>
      Nat.lt_irrefl _ (hid ▸ heq ▸ (h.range u hu).2)
    intro t u ht hu heq
    rcases List.mem_cons.1 ht with rfl | ht' <;> rcases List.mem_cons.1 hu with hu' | hu'
    · cases hu'
      rfl
    · exact absurd heq (hne _ hu')
    · subst hu'
      exact absurd heq.symm (hne _ ht')
    · exact h.coherent t u ht' hu' heq
  records i item hitem :=
    ⟨List.subset_cons_of_subset o (h.records i item hitem).1, (h.records i item hitem).2⟩

/-! ## One action after another -/

variable {α β : Type} {c : Readable α} {d : Readable β}

theorem Sound.weaken {x : Read α} (h : Sound text base os x) (hos : os ⊆ os') :
    Sound text base os' x := fun r known hr h' => h r known hr (List.Subset.trans hos h')

theorem Sound.bind_with {x : Read α} {f : α → Read β} (hx : Sound text base os x)
    (hf : ∀ a, Tidy a → Sound text base (objects a ++ os) (f a)) :
    Sound text base os (x >>= f) := by
  intro r known hr hos
  have hfirst := hx r known hr hos
  cases h : x r with
  | error e r' =>
    rw [h] at hfirst
    rw [bind_error h]
    exact hfirst
  | ok a r' =>
    rw [h] at hfirst
    obtain ⟨htidy, known', hknown, hr', ha⟩ := hfirst
    have hsecond := hf a htidy r' known' hr'
      (List.append_subset.2 ⟨ha, List.Subset.trans hos hknown⟩)
    rw [bind_ok h]
    cases h' : f a r' with
    | error e r'' =>
      rw [h'] at hsecond
      exact hsecond
    | ok b r'' =>
      rw [h'] at hsecond
      obtain ⟨hb, known'', hknown', hr'', hobjects⟩ := hsecond
      exact ⟨hb, known'', List.Subset.trans hknown hknown', hr'', hobjects⟩

/-- An action that needs no objects, and then another one. -/
theorem Sound.bind {x : Read α} {f : α → Read β} (hx : Sound text base [] x)
    (hf : ∀ a, Tidy a → Sound text base (objects a ++ os) (f a)) : Sound text base os (x >>= f) :=
  (hx.weaken (List.nil_subset os)).bind_with hf

theorem Sound.pure {a : α} (htidy : Tidy a) (hobjects : objects a ⊆ os) :
    Sound text base os (Pure.pure a) :=
  fun _ known hr hos => ⟨htidy, known, List.Subset.refl _, hr, List.Subset.trans hobjects hos⟩

theorem Sound.failAt {offset : Nat} {message : String} (h : IsOffset text offset) :
    Sound text base os (failAt offset message : Read α) := fun _ _ _ _ => h.within message

theorem Sound.failHere {message : String} :
    Sound text base os (failHere message : Read α) := fun _ _ hr _ => hr.isOffset.within message

theorem Sound.throw {e : Error} (h : ∀ offset message, e ≠ .malformed offset message) :
    Sound text base os (throw e : Read α) := fun _ _ _ _ offset message he =>
  absurd he (h offset message)

theorem Sound.here_bind {f : Nat → Read α}
    (hf : ∀ start, IsOffset text start → Sound text base os (f start)) :
    Sound text base os (here >>= f) := by
  intro r known hr hos
  rw [bind_ok (x := here) (a := r.offset) (t := r) rfl]
  exact hf r.offset hr.isOffset r known hr hos

theorem Sound.get_bind {f : Reader → Read α} (hf : ∀ r, Sound text base os (f r)) :
    Sound text base os (get >>= f) := fun r => hf r r

theorem Sound.moves_bind {n : Reader → Nat} {f : Unit → Read α} (hf : Sound text base os (f ())) :
    Sound text base os ((modify fun r => r.skip (n r)) >>= f) := fun r known hr =>
  hf (r.skip (n r)) known (hr.skip (n r))

theorem Sound.skipBlanks_bind {f : Unit → Read α} (hf : Sound text base os (f ())) :
    Sound text base os (skipBlanks >>= f) := Sound.moves_bind hf

theorem Sound.next_bind {f : Option Char → Read α} (hf : ∀ c, Sound text base os (f c)) :
    Sound text base os (next? >>= f) := fun r known hr =>
  hf r.rest.head? (r.skip 1) known (hr.skip 1)

theorem Sound.freshNode_bind {f : Nat → Read α}
    (hf : ∀ new, Sound text base (.node new :: os) (f new)) :
    Sound text base os (freshId >>= f) := by
  intro r known hr hos
  have hafter := hf r.fresh { r with fresh := r.fresh + 1 } (.node r.fresh :: known)
    (hr.fresh rfl) (List.cons_subset_cons _ hos)
  rw [bind_ok (x := freshId) (a := r.fresh) (t := { r with fresh := r.fresh + 1 }) rfl]
  cases h : f r.fresh { r with fresh := r.fresh + 1 } with
  | error e r' =>
    rw [h] at hafter
    exact hafter
  | ok a r' =>
    rw [h] at hafter
    obtain ⟨htidy, known', hknown, hr', hobjects⟩ := hafter
    exact ⟨htidy, known', (List.cons_subset.1 hknown).2, hr', hobjects⟩

theorem Sound.ite {c : Prop} [Decidable c] {x y : Read α} (hx : c → Sound text base os x)
    (hy : ¬c → Sound text base os y) : Sound text base os (if c then x else y) := by
  split
  · exact hx ‹_›
  · exact hy ‹_›

/-! ## The pieces of items -/

theorem Sound.closes (c : Char) : Sound text base [] (closes c) := by
  refine .skipBlanks_bind (.get_bind fun _ => .ite (fun _ => .next_bind fun _ => ?_) fun _ => ?_)
  · exact .pure trivial (List.nil_subset _)
  · exact .pure trivial (List.nil_subset _)

theorem Sound.expect (c : Char) : Sound text base [] (expect c) := by
  refine .skipBlanks_bind (.here_bind fun start hstart => .next_bind fun got => ?_)
  cases got with
  | none => exact .failHere
  | some got => exact .ite (fun _ => .pure trivial (List.nil_subset _)) fun _ => .failAt hstart

theorem Sound.readField : Sound text base [] readField := by
  refine .get_bind fun _ => .get_bind fun _ => .ite (fun _ => .failHere) fun _ => .moves_bind ?_
  exact .pure trivial (List.nil_subset _)

theorem Sound.readNumber {what : String} {parse? : List Char → Option α}
    (h : ∀ cs a, parse? cs = some a → Tidy a ∧ objects a = []) :
    Sound text base [] (readNumber what parse?) := by
  refine .here_bind fun start hstart => .bind .readField fun field _ => ?_
  cases ha : parse? field with
  | none => exact .failAt hstart
  | some a => exact .pure (h field a ha).1 (by rw [(h field a ha).2]; exact List.nil_subset _)

theorem Sound.readText (length : Nat) : Sound text base [] (readText length) :=
  .get_bind fun _ => .ite (fun _ => .failHere) fun _ => .moves_bind <|
    .pure trivial (List.nil_subset _)

theorem Sound.readString : Sound text base [] readString :=
  .bind (.readNumber fun _ _ _ => ⟨trivial, rfl⟩) fun _ _ => .readText _

theorem tidy_cons {a : α} {as : List α} : Tidy (a :: as) ↔ Tidy a ∧ Tidy as := List.forall_mem_cons

theorem objects_cons (a : α) (as : List α) : objects (a :: as) = objects a ++ objects as := rfl

/-- Putting an item before others. -/
theorem Sound.pure_cons {a : α} {as : List α} (ha : Tidy a) (has : Tidy as) :
    Sound text base (objects as ++ (objects a ++ os)) (Pure.pure (a :: as) : Read (List α)) :=
  .pure (List.forall_mem_cons.2 ⟨ha, has⟩)
    (by simp [objects, List.subset_append_of_subset_right])

theorem Sound.pure_nil : Sound text base os (Pure.pure [] : Read (List α)) :=
  .pure (by rintro _ ⟨⟩) (List.nil_subset _)

theorem Sound.itemsUntil {close : Char} {item : Read α} (h : Sound text base [] item) :
    ∀ bound, Sound text base [] (itemsUntil close item bound)
  | [] => .bind (.closes close) fun _ _ => .ite (fun _ => .pure_nil) fun _ =>
      h.bind fun _ ha => .pure (tidy_cons.2 ⟨ha, by rintro _ ⟨⟩⟩) (by simp [objects])
  | _ :: bound => .bind (.closes close) fun _ _ => .ite (fun _ => .pure_nil) fun _ =>
      h.bind fun _ ha => (Sound.itemsUntil h bound).bind fun _ has => .pure_cons ha has

theorem Sound.readUntil {close : Char} {item : Read α} (h : Sound text base [] item) :
    Sound text base [] (readUntil close item) :=
  .get_bind fun r => .itemsUntil h r.rest

/-! ## The parts of trees -/

@[simp] theorem objects_value (v : Value) : objects v = v.objects := rfl
@[simp] theorem objects_loaded (v : Value) : objects (Loaded.value v) = v.objects := rfl
@[simp] theorem objects_template (t : Template) : objects t = t.objects := rfl
@[simp] theorem objects_node (node : Node) : objects node = node.objects := rfl
@[simp] theorem objects_kind (kind : NodeKind) : objects kind = kind.objects := rfl
@[simp] theorem objects_comprehension (comp : Comprehension) : objects comp = comp.objects := rfl
@[simp] theorem objects_dictEntry (entry : DictEntry) : objects entry = entry.objects := rfl
@[simp] theorem objects_keywordArg (arg : KeywordArg) : objects arg = arg.objects := rfl
@[simp] theorem objects_block (block : Block) : objects block = block.objects := rfl

@[simp] theorem objects_optNode (node : Option Node) : objects node = Node.objectsOpt node := by
  cases node <;> rfl

@[simp] theorem objects_nodes (nodes : List Node) : objects nodes = Node.objectsAll nodes := by
  induction nodes with
  | nil => rfl
  | cons node nodes ih => rw [Node.objectsAll, ← ih]; rfl

@[simp] theorem objects_dictEntries (entries : List DictEntry) :
    objects entries = DictEntry.objectsAll entries := by
  induction entries with
  | nil => rfl
  | cons entry entries ih => rw [DictEntry.objectsAll, ← ih]; rfl

@[simp] theorem objects_keywordArgs (args : List KeywordArg) :
    objects args = KeywordArg.objectsAll args := by
  induction args with
  | nil => rfl
  | cons arg args ih => rw [KeywordArg.objectsAll, ← ih]; rfl

@[simp] theorem objects_values (vs : List Value) : objects vs = Value.objectsAll vs := by
  induction vs with
  | nil => rfl
  | cons v vs ih => rw [Value.objectsAll, ← ih]; rfl

@[simp] theorem relabelOpt_tidied {node : Option Node} :
    Node.relabelOpt .tidied node = node ↔ Tidy node := by
  cases node <;> simp [Node.relabelOpt, Tidy]

@[simp] theorem relabel_tidied_node {node : Node} : node.relabel .tidied = node ↔ Tidy node := .rfl

@[simp] theorem relabel_tidied_comprehension {comp : Comprehension} :
    comp.relabel .tidied = comp ↔ Tidy comp := .rfl

@[simp] theorem relabel_tidied_block {block : Block} : block.relabel .tidied = block ↔ Tidy block :=
  .rfl

theorem map_eq_self {γ : Type} {g : γ → γ} {as : List γ} :
    as.map g = as ↔ ∀ a ∈ as, g a = a := by
  conv => lhs; rhs; rw [← List.map_id as]
  exact List.map_inj_left

@[simp] theorem relabelAll_tidied {nodes : List Node} :
    Node.relabelAll .tidied nodes = nodes ↔ Tidy nodes := by
  rw [Node.relabelAll_eq]
  exact map_eq_self

@[simp] theorem relabelAll_tidied_dictEntries {entries : List DictEntry} :
    DictEntry.relabelAll .tidied entries = entries ↔ Tidy entries := by
  rw [DictEntry.relabelAll_eq]
  exact map_eq_self

@[simp] theorem relabelAll_tidied_keywordArgs {args : List KeywordArg} :
    KeywordArg.relabelAll .tidied args = args ↔ Tidy args := by
  rw [KeywordArg.relabelAll_eq]
  exact map_eq_self

theorem tidy_kind {kind : NodeKind} :
    Tidy kind ↔ kind.relabel .tidied = kind ∧ kind.template? = none := .rfl

/-- A node of some kind, none of which is a definition. -/
theorem Sound.kind {kind : NodeKind} (htidy : kind.relabel .tidied = kind)
    (htemplate : kind.template? = none) (hobjects : kind.objects ⊆ os) :
    Sound text base os (Pure.pure kind : Read NodeKind) := .pure ⟨htidy, htemplate⟩ hobjects

theorem tidy_dictEntry {entry : DictEntry} : Tidy entry ↔ entry.relabel .tidied = entry := .rfl

theorem tidy_keywordArg {arg : KeywordArg} : Tidy arg ↔ arg.relabel .tidied = arg := .rfl

theorem tidy_comprehension {target : Target} {container : Node} {condition : Option Node} :
    Tidy (⟨target, container, condition⟩ : Comprehension) ↔ Tidy container ∧ Tidy condition := by
  rw [← relabelOpt_tidied]
  simp [← relabel_tidied_comprehension, Comprehension.relabel]

theorem tidy_block {stop : Option Location} {content : List Node} :
    Tidy (⟨stop, content⟩ : Block) ↔ Tidy content := by
  simp [← relabel_tidied_block, Block.relabel]

/-! ## Items of a certain type -/

section Typed

variable {load : Read Loaded} (h : Sound text base [] load)

include h

theorem Sound.loadAs {expected : String} {take? : Loaded → Option α}
    (htake : ∀ item a, take? item = some a → Tidy item → Tidy a ∧ objects a ⊆ objects item) :
    Sound text base [] (loadAs load expected take?) := by
  refine .here_bind fun start hstart => h.bind fun item hitem => ?_
  cases ha : take? item with
  | none => exact .failAt hstart
  | some a =>
    obtain ⟨htidy, hobjects⟩ := htake item a ha hitem
    exact .pure htidy (by simpa using hobjects)

theorem Sound.loadValue : Sound text base [] (loadValue load) :=
  .loadAs h fun item a ha hitem => by
    cases item <;> cases ha
    exact ⟨hitem, List.Subset.refl _⟩

theorem Sound.loadInt : Sound text base [] (loadInt load) :=
  .loadAs h fun _ _ _ _ => ⟨trivial, List.nil_subset _⟩

theorem Sound.loadStr : Sound text base [] (loadStr load) :=
  .loadAs h fun _ _ _ _ => ⟨trivial, List.nil_subset _⟩

theorem Sound.loadOptStr : Sound text base [] (loadOptStr load) :=
  .loadAs h fun _ a _ _ => ⟨fun _ _ => trivial, by cases a <;> exact List.nil_subset _⟩

theorem Sound.loadLocation : Sound text base [] (loadLocation load) :=
  .loadAs h fun _ _ _ _ => ⟨trivial, List.nil_subset _⟩

theorem Sound.loadOptLocation : Sound text base [] (loadOptLocation load) :=
  .loadAs h fun _ a _ _ => ⟨fun _ _ => trivial, by cases a <;> exact List.nil_subset _⟩

theorem Sound.loadPosition : Sound text base [] (loadPosition load) :=
  .here_bind fun _ hstart => (Sound.loadInt h).bind fun _ _ => .ite
    (fun _ => .pure trivial (List.nil_subset _)) fun _ => .failAt hstart

theorem Sound.loadChannel : Sound text base [] (loadChannel load) :=
  .here_bind fun _ hstart => (Sound.loadInt h).bind fun _ _ => .ite
    (fun _ => .pure trivial (List.nil_subset _)) fun _ => .failAt hstart

theorem Sound.loadLocationFields : Sound text base [] (loadLocationFields load) :=
  .bind (.loadStr h) fun _ _ => .bind (.loadOptStr h) fun _ _ => .bind (.loadPosition h) fun _ _ =>
    .bind (.loadPosition h) fun _ _ => .bind (.loadPosition h) fun _ _ =>
      .bind (.loadPosition h) fun _ _ => .pure trivial (List.nil_subset _)

omit h in
/-- An item as a node. A definition is where its template is. -/
theorem Sound.nodeOf {start : Nat} (hstart : IsOffset text start) {item : Loaded}
    (hitem : Tidy item) : Sound text base (objects item) (nodeOf start item) := by
  cases item with
  | node node => exact .pure hitem (List.Subset.refl _)
  | location l => exact .failAt hstart
  | value v =>
    cases v with
    | template t =>
      obtain ⟨id, place, source, name, startDelim, endDelim, block⟩ := t
      refine .freshNode_bind fun new => .pure ?_ (List.Subset.refl _)
      have ht := hitem.1
      rw [Value.relabel, Value.template.injEq] at ht
      change Node.relabel _ _ = _
      rw [Node.ofTemplate, Node.relabel, NodeKind.relabel, ht]
      simp [Relabel.tidied, NodeKind.place]
    | _ => exact .failAt hstart

theorem Sound.loadNode : Sound text base [] (loadNode load) :=
  .skipBlanks_bind <| .here_bind fun _ hstart => h.bind fun _ hitem =>
    (Sound.nodeOf hstart hitem).weaken (by simp)

theorem Sound.loadOptNode : Sound text base [] (loadOptNode load) :=
  .bind (.closes 'n') fun _ _ => .ite (fun _ => .pure (by rintro _ ⟨⟩) (List.nil_subset _)) fun _ =>
    (Sound.loadNode h).bind fun node hnode =>
      .pure (by rintro _ ⟨⟩; exact hnode) (by simp [objects])

theorem Sound.loadNodes : Sound text base [] (loadNodes load) :=
  .bind (.expect 'l') fun _ _ => .readUntil (.loadNode h)

theorem Sound.targetWithin : ∀ bound, Sound text base [] (targetWithin load bound)
  | [] => .bind (.loadStr h) fun _ _ => .pure trivial (List.nil_subset _)
  | _ :: bound => .bind (.closes 'l') fun _ _ => .ite
      (fun _ => .bind (.readUntil (Sound.targetWithin bound)) fun _ _ =>
        .pure trivial (List.nil_subset _))
      fun _ => .bind (.loadStr h) fun _ _ => .pure trivial (List.nil_subset _)

theorem Sound.loadTarget : Sound text base [] (loadTarget load) :=
  .get_bind fun r => .targetWithin h r.rest

theorem Sound.loadComprehension : Sound text base [] (loadComprehension load) :=
  .bind (.loadTarget h) fun target _ => .bind (.loadNode h) fun container hcontainer =>
    .bind (.loadOptNode h) fun condition hcondition => .pure
      (tidy_comprehension.2 ⟨hcontainer, hcondition⟩)
      (by simp [Comprehension.objects, List.subset_append_of_subset_right])

theorem Sound.loadBlock : Sound text base [] (loadBlock load) :=
  .bind (.loadOptLocation h) fun stop _ => .bind (.loadNodes h) fun content hcontent =>
    .pure (tidy_block.2 hcontent) (by simp [Block.objects])

theorem Sound.loadEntry : @Sound _ (.entry text) text base [] (loadEntry load) := by
  refine .bind (.expect 'l') fun _ _ => .skipBlanks_bind <| .here_bind fun start hstart =>
    h.bind fun first hfirst => .bind (.closes ']') fun _ _ => .ite (fun _ => ?_) fun _ => ?_
  · exact .pure ⟨hstart, hfirst, by rintro _ ⟨⟩⟩ (by simp [objects])
  · exact .bind (.loadNode h) fun node hnode => .bind (.expect ']') fun _ _ =>
      .pure ⟨hstart, hfirst, by rintro _ ⟨⟩; exact hnode⟩ (by simp [objects])

theorem Sound.loadEntries :
    @Sound _ (@Readable.list _ (.entry text)) text base [] (loadEntries load) :=
  .bind (.expect 'l') fun _ _ => .readUntil (.loadEntry h)

end Typed

/-! ## Objects -/

theorem Sound.mapM {f : α → Read β} (hf : ∀ a, Tidy a → Sound text base (objects a) (f a)) :
    ∀ as : List α, Tidy as → Sound text base (objects as) (as.mapM f)
  | [], _ => .pure_nil
  | a :: as, h => by
    rw [List.mapM_cons]
    rw [tidy_cons] at h
    refine .bind_with ((hf a h.1).weaken (by simp [objects_cons])) fun b hb => ?_
    refine .bind_with ((Sound.mapM hf as h.2).weaken ?_) fun bs hbs => ?_
    · simp [objects_cons, List.subset_append_of_subset_right]
    · exact .pure_cons hb hbs

@[simp] theorem Readable.entry_objects (text : List Char) (e : Entry) :
    (Readable.entry text).objects e = objects e.first ++ objects e.second := rfl

theorem Sound.dictEntryOf : ∀ {e : Entry}, (Readable.entry text).Tidy e →
    Sound text base ((Readable.entry text).objects e) (dictEntryOf e)
  | ⟨start, first, second⟩, ⟨hstart, hfirst, hsecond⟩ => by
    refine ((Sound.nodeOf hstart hfirst).weaken (by simp)).bind_with fun node hnode => ?_
    cases second with
    | none =>
      exact .pure (by simp [tidy_dictEntry, DictEntry.relabel, hnode])
        (by simp [DictEntry.objects])
    | some value =>
      have hvalue : Tidy value := hsecond value rfl
      exact .pure (by simp [tidy_dictEntry, DictEntry.relabel, hnode, hvalue])
        (by simp [DictEntry.objects, Node.objectsOpt, List.subset_append_of_subset_right])

theorem Sound.keywordArgOf : ∀ {e : Entry}, (Readable.entry text).Tidy e →
    Sound text base ((Readable.entry text).objects e) (keywordArgOf e)
  | ⟨start, first, second⟩, ⟨hstart, hfirst, hsecond⟩ => by
    unfold Wire.keywordArgOf
    split
    · rename_i name value hname hvalue
      cases hvalue
      have hvalue : Tidy value := hsecond value rfl
      exact .pure (by simp [tidy_keywordArg, KeywordArg.relabel, hvalue])
        (by simp [KeywordArg.objects, Node.objectsOpt])
    · refine ((Sound.nodeOf hstart hfirst).weaken (by simp)).bind_with fun node hnode => ?_
      exact .pure (by simp [tidy_keywordArg, KeywordArg.relabel, hnode])
        (by simp [KeywordArg.objects])
    · exact .failHere

/-- A template takes the next identity. -/
theorem Sound.template {location : Option Location} {source startDelim endDelim : String}
    {name : Option String} {block : Block} (hblock : Tidy block) (hobjects : block.objects ⊆ os) :
    Sound text base os (do
      return Loaded.value
        (.template ⟨← freshId, location, source, name, startDelim, endDelim, block⟩)) := by
  intro r known hr hos
  let t : Template := ⟨r.fresh, location, source, name, startDelim, endDelim, block⟩
  refine ⟨⟨?_, rfl, trivial⟩, .template t :: known, List.subset_cons_self _ known, hr.fresh rfl,
    ?_⟩
  · rw [Value.relabel, Template.relabel, show block.relabel .tidied = block from hblock]
    rfl
  · exact List.cons_subset_cons _ (List.Subset.trans hobjects hos)

section Objects

variable {load : Read Loaded} (h : Sound text base [] load)

include h

theorem Sound.loadConstant : Sound text base [] (loadConstant load) := by
  refine .bind (.loadValue h) fun value _ => ?_
  cases value.literal? with
  | none => exact .failHere
  | some literal =>
    refine .pure (tidy_kind.2 ⟨NodeKind.relabel_ofLiteral _ _, ?_⟩) ?_
    · unfold NodeKind.ofLiteral
      split <;> rfl
    · unfold NodeKind.ofLiteral
      split <;> exact List.nil_subset _

theorem Sound.loadOperator (tag : String) : Sound text base [] (loadOperator load tag) := by
  unfold Wire.loadOperator
  split
  · exact .bind (.loadNode h) fun _ hnode => .kind (by simp [NodeKind.relabel, hnode]) rfl
      (by simp [NodeKind.objects])
  split
  · exact .bind (.loadNode h) fun _ hleft => .bind (.loadNode h) fun _ hright =>
      .kind (by simp [NodeKind.relabel, hleft, hright]) rfl (by simp [NodeKind.objects])
  split
  · exact .bind (.loadStr h) fun _ _ => .bind (.loadNode h) fun _ hvalue =>
      .kind (by simp [NodeKind.relabel, hvalue]) rfl (by simp [NodeKind.objects])
  · exact .throw (by simp)

theorem Sound.loadKind (tag : String) : Sound text base [] (loadKind load tag) := by
  unfold Wire.loadKind
  split
  · exact .pure ⟨rfl, rfl⟩ (List.nil_subset _)
  · exact .loadConstant h
  · exact .bind (.loadNodes h) fun _ hitems => .kind (by simp [NodeKind.relabel, hitems]) rfl
      (by simp [NodeKind.objects])
  · exact .bind (.loadNode h) fun _ hitem => .bind (.loadComprehension h) fun _ hcomp =>
      .kind (by simp [NodeKind.relabel, hitem, hcomp]) rfl (by simp [NodeKind.objects])
  · exact .bind (.loadNode h) fun _ hitem => .bind (.loadComprehension h) fun _ hcomp =>
      .kind (by simp [NodeKind.relabel, hitem, hcomp]) rfl (by simp [NodeKind.objects])
  · exact .bind (.loadEntries h) fun entries hentries =>
      .bind_with ((Sound.mapM (fun _ he => .dictEntryOf he) entries hentries).weaken (by simp))
        fun _ hdict => .kind (by simp [NodeKind.relabel, hdict]) rfl (by simp [NodeKind.objects])
  · exact .bind (.loadNode h) fun _ hkey => .bind (.loadNode h) fun _ hvalue =>
      .bind (.loadComprehension h) fun _ hcomp =>
        .kind (by simp [NodeKind.relabel, hkey, hvalue, hcomp]) rfl
          (by simp [NodeKind.objects, List.subset_append_of_subset_right])
  · exact .bind (.loadStr h) fun _ _ => .kind rfl rfl (List.nil_subset _)
  · exact .bind (.loadNode h) fun _ hvalue => .kind (by simp [NodeKind.relabel, hvalue]) rfl
      (by simp [NodeKind.objects])
  · exact .bind (.loadNode h) fun _ hvalue => .kind (by simp [NodeKind.relabel, hvalue]) rfl
      (by simp [NodeKind.objects])
  · exact .bind (.loadNode h) fun _ hvalue => .kind (by simp [NodeKind.relabel, hvalue]) rfl
      (by simp [NodeKind.objects])
  · exact .bind (.loadNode h) fun _ hobject => .bind (.loadStr h) fun _ _ =>
      .kind (by simp [NodeKind.relabel, hobject]) rfl (by simp [NodeKind.objects, objects])
  · exact .bind (.loadNode h) fun _ hobject => .bind (.loadOptNode h) fun _ hstart =>
      .bind (.loadOptNode h) fun _ hstop =>
        .kind (by simp [NodeKind.relabel, hobject, hstart, hstop]) rfl
          (by simp [NodeKind.objects, List.subset_append_of_subset_right])
  · exact .bind (.loadStr h) fun _ _ => .bind (.loadNodes h) fun _ hargs =>
      .kind (by simp [NodeKind.relabel, hargs]) rfl (by simp [NodeKind.objects])
  · exact .bind (.loadStr h) fun _ _ => .bind (.loadNode h) fun _ hobject =>
      .bind (.loadNodes h) fun _ hargs =>
        .kind (by simp [NodeKind.relabel, hobject, hargs]) rfl (by simp [NodeKind.objects])
  · exact .bind (.loadStr h) fun _ _ => .bind (.loadNode h) fun _ hobject =>
      .bind (.loadEntries h) fun entries hentries =>
        .bind_with ((Sound.mapM (fun _ he => .keywordArgOf he) entries hentries).weaken (by simp))
          fun _ hargs => .kind (by simp [NodeKind.relabel, hobject, hargs]) rfl <| by
            intro o ho
            simp only [NodeKind.objects, List.mem_append] at ho
            simp only [objects_node, objects_keywordArgs, List.mem_append]
            exact ho.elim (fun h => .inr (.inr (.inl h))) .inl
  · exact .bind (.loadTarget h) fun _ _ => .bind (.loadNode h) fun _ hvalue =>
      .kind (by simp [NodeKind.relabel, hvalue]) rfl (by simp [NodeKind.objects])
  · exact .bind (.loadStr h) fun _ _ => .kind rfl rfl (List.nil_subset _)
  · exact .bind (.loadBlock h) fun _ hblock => .bind (.loadTarget h) fun _ _ =>
      .bind (.loadNode h) fun _ hcontainer =>
        .kind (by simp [NodeKind.relabel, hblock, hcontainer]) rfl
          (by simp [NodeKind.objects, List.subset_append_of_subset_right])
  · exact .kind rfl rfl (List.nil_subset _)
  · exact .kind rfl rfl (List.nil_subset _)
  · exact .bind (.loadBlock h) fun _ hblock => .kind (by simp [NodeKind.relabel, hblock]) rfl
      (by simp [NodeKind.objects])
  · exact .bind (.loadBlock h) fun _ hblock => .kind (by simp [NodeKind.relabel, hblock]) rfl
      (by simp [NodeKind.objects])
  · exact .bind (.loadBlock h) fun _ hblock => .bind (.loadNode h) fun _ hcondition =>
      .kind (by simp [NodeKind.relabel, hblock, hcondition]) rfl (by simp [NodeKind.objects])
  · exact .bind (.loadBlock h) fun _ hblock => .bind (.loadNode h) fun _ hcondition =>
      .kind (by simp [NodeKind.relabel, hblock, hcondition]) rfl (by simp [NodeKind.objects])
  · exact .loadOperator h tag

theorem Sound.loadNodeObject (tag : String) :
    Sound text base [] (loadNodeObject load tag) := by
  refine .bind (.loadLocation h) fun location _ => .bind (.loadKind h tag) fun kind hkind =>
    .freshNode_bind fun new => .pure ?_ (by simp [objects, Node.objects])
  change Node.relabel _ _ = _
  rw [Node.relabel, hkind.1, NodeKind.place_of_template?_eq_none hkind.2]
  simp [Relabel.tidied]

theorem Sound.loadTemplateObject (tag : String) :
    Sound text base [] (loadTemplateObject load tag) := by
  refine .bind (.loadStr h) fun version _ => .ite (fun _ => .throw (by simp)) fun _ => ?_
  refine .bind (.loadStr h) fun source _ => .bind (.loadOptStr h) fun name _ =>
    .bind (.loadStr h) fun startDelim _ => .bind (.loadStr h) fun endDelim _ =>
      .bind (.loadOptLocation h) fun location _ => .bind (.loadBlock h) fun block hblock => ?_
  exact .template hblock (by simp)

end Objects

/-! ## Values -/

theorem tidy_list {items : List Value} (h : Tidy items) : Tidy (Value.list items) := by
  induction items with
  | nil => exact ⟨rfl, rfl, trivial⟩
  | cons item items ih =>
    obtain ⟨⟨hrelabel, hiterator, hproper⟩, hitems⟩ := tidy_cons.1 h
    obtain ⟨hrelabel', hiterator', hproper'⟩ := ih hitems
    simp only [Value.relabel, Value.list.injEq] at hrelabel'
    refine ⟨?_, ?_, hproper, hproper'⟩
    · rw [Value.relabel, Value.relabelAll, hrelabel, hrelabel']
    · rw [Value.hasIterator, Value.anyIterator, hiterator, Bool.false_or]
      exact hiterator'

theorem tidy_bindings {entries : List (String × Value)} (h : ∀ b ∈ entries, Tidy b.2) :
    Value.relabelBindings .tidied entries = entries ∧ Value.anyIteratorBound entries = false ∧
      Value.AllProperBound entries := by
  induction entries with
  | nil => exact ⟨rfl, rfl, trivial⟩
  | cons entry entries ih =>
    obtain ⟨key, value⟩ := entry
    obtain ⟨⟨hrelabel, hiterator, hproper⟩, hentries⟩ := List.forall_mem_cons.1 h
    obtain ⟨hrelabel', hiterator', hproper'⟩ := ih hentries
    refine ⟨?_, ?_, hproper, hproper'⟩
    · rw [Value.relabelBindings, hrelabel, hrelabel']
    · rw [Value.anyIteratorBound, hiterator, Bool.false_or]
      exact hiterator'

theorem tidy_dict {pairs : List (String × Value)} (h : Tidy pairs) :
    Tidy (Value.dict (Bindings.ofList pairs)) := by
  obtain ⟨hrelabel, hiterator, hproper⟩ :=
    tidy_bindings fun b (hb : b ∈ Bindings.ofList pairs) => (h b (Bindings.mem_ofList hb)).2
  exact ⟨by rw [Value.relabel, hrelabel], hiterator, Bindings.nodup_keys_ofList pairs, hproper⟩

theorem objects_bindings (entries : List (String × Value)) :
    Value.objectsBindings entries = entries.flatMap fun b => b.2.objects := by
  induction entries with
  | nil => rfl
  | cons entry entries ih => rw [Value.objectsBindings, ih, List.flatMap_cons]

theorem objects_dict_subset (pairs : List (String × Value)) :
    (Value.dict (Bindings.ofList pairs)).objects ⊆ objects pairs := by
  intro o ho
  rw [Value.objects, objects_bindings] at ho
  obtain ⟨b, hb, ho⟩ := List.mem_flatMap.1 ho
  exact List.mem_flatMap.2 ⟨b, Bindings.mem_ofList hb, ho⟩

theorem Sound.loadBool {start : Nat} (hstart : IsOffset text start) :
    Sound text base [] (loadBool start) := by
  refine .next_bind fun c => ?_
  split
  · exact .pure ⟨rfl, rfl, trivial⟩ (List.nil_subset _)
  · exact .pure ⟨rfl, rfl, trivial⟩ (List.nil_subset _)
  · exact .failAt hstart

theorem Sound.loadReference {start : Nat} (hstart : IsOffset text start) :
    Sound text base [] (loadReference start) := by
  refine .bind (.readNumber fun _ _ _ => ⟨trivial, rfl⟩) fun index _ => ?_
  intro r known hr _
  rw [bind_ok (x := get) (t := r) rfl]
  cases hrecord : r.records[index]? with
  | none => exact hstart.within _
  | some record =>
    cases record with
    | none => exact hstart.within _
    | some item =>
      obtain ⟨hobjects, htidy⟩ := hr.records index item hrecord
      exact ⟨htidy, known, List.Subset.refl _, hr, hobjects⟩

theorem Sound.loadString : Sound text base [] loadString := by
  refine .bind .readString fun x _ => ?_
  intro r known hr _
  refine ⟨⟨rfl, rfl, trivial⟩, known, List.Subset.refl _, hr.record fun item hitem => ?_, ?_⟩
  · cases hitem
    exact ⟨List.nil_subset _, rfl, rfl, trivial⟩
  · exact List.nil_subset _

theorem Sound.loadDate {start : Nat} (hstart : IsOffset text start) :
    Sound text base [] (loadDate start) := by
  refine .get_bind fun r => ?_
  split
  · exact .failHere
  · split
    · exact .moves_bind (.pure ⟨rfl, rfl, trivial⟩ (List.nil_subset _))
    · exact .failAt hstart

section Items

variable {load : Read Loaded} (h : Sound text base [] load)

include h

theorem Sound.loadDuration {start : Nat} (hstart : IsOffset text start) :
    Sound text base [] (loadDuration load start) := by
  refine .bind (.loadInt h) fun _ _ => .bind (.loadInt h) fun _ _ =>
    .bind (.loadInt h) fun _ _ => ?_
  split
  · exact .pure ⟨rfl, rfl, trivial⟩ (List.nil_subset _)
  · exact .failAt hstart

theorem Sound.loadColor : Sound text base [] (loadColor load) :=
  .bind (.loadChannel h) fun _ _ => .bind (.loadChannel h) fun _ _ =>
    .bind (.loadChannel h) fun _ _ => .bind (.loadChannel h) fun _ _ =>
      .pure ⟨rfl, rfl, trivial⟩ (List.nil_subset _)

theorem Sound.loadPair : Sound text base [] (loadPair load) :=
  .bind (.loadStr h) fun _ _ => .bind (.loadValue h) fun _ hvalue =>
    .pure ⟨trivial, hvalue⟩ (by simp [objects])

/-- All loaders of a registry are sound. -/
def Registry.Sound (registry : Registry) : Prop :=
  ∀ tag loader, registry.get? tag = some loader → ∀ (text : List Char) (base : Nat) load short,
    Wire.Sound text base [] load → Wire.Sound text base [] (loader load short)

omit h in
theorem Registry.sound_builtin : Registry.builtin.Sound := by
  intro tag loader hloader text base load short h
  rw [Registry.get?_builtin] at hloader
  split at hloader
  · cases hloader
    exact .loadNodeObject h short
  split at hloader
  · cases hloader
    exact .loadTemplateObject h short
  split at hloader
  · cases hloader
    exact .bind (.loadLocationFields h) fun _ _ => .pure trivial (List.nil_subset _)
  · cases hloader

variable {registry : Registry}

theorem Sound.loadObject (hregistry : registry.Sound) :
    Sound text base [] (loadObject registry load) := by
  refine .get_bind fun r => ?_
  intro r' known hr hos
  refine (Sound.loadStr h).bind_with (fun tag _ => ?_) (r'.record none) known
    (hr.record (by simp)) hos
  cases hloader : registry.get? tag with
  | none => exact .throw (by simp)
  | some loader =>
    refine .bind (hregistry tag loader hloader text base load _ h) fun item hitem =>
      .bind (.expect ')') fun _ _ => ?_
    intro r'' known' hr' hos'
    have hobjects : objects item ⊆ known' := List.Subset.trans (by simp) hos'
    exact ⟨hitem, known', List.Subset.refl _, hr'.complete hobjects hitem, hobjects⟩

theorem Sound.loadCoded (hregistry : registry.Sound) {start : Nat} (hstart : IsOffset text start)
    (code : Char) : Sound text base [] (loadCoded registry load start code) := by
  unfold Wire.loadCoded
  split
  · exact .pure ⟨rfl, rfl, trivial⟩ (List.nil_subset _)
  · exact .bind (.loadBool hstart) fun _ hv => .pure hv (by simp)
  · exact .bind (.readNumber fun _ _ _ => ⟨trivial, rfl⟩) fun _ _ =>
      .pure ⟨rfl, rfl, trivial⟩ (List.nil_subset _)
  · exact .bind (.readNumber fun _ _ _ => ⟨trivial, rfl⟩) fun _ _ =>
      .pure ⟨rfl, rfl, trivial⟩ (List.nil_subset _)
  · exact .bind .loadString fun _ hv => .pure hv (by simp)
  · exact .loadReference hstart
  · exact .bind (.loadDate hstart) fun _ hv => .pure hv (by simp)
  · exact .bind (.loadDuration h hstart) fun _ hv => .pure hv (by simp)
  · exact .bind (.loadInt h) fun _ _ => .pure ⟨rfl, rfl, trivial⟩ (List.nil_subset _)
  · exact .bind (.loadColor h) fun _ hv => .pure hv (by simp)
  · exact .bind (.readUntil (.loadValue h)) fun _ hitems => .pure (tidy_list hitems)
      (by simp [Value.objects])
  · exact .bind (.readUntil (.loadPair h)) fun pairs hpairs => .pure (tidy_dict hpairs)
      (List.Subset.trans (objects_dict_subset pairs) (List.subset_append_left _ _))
  · exact .loadObject h hregistry
  · exact .failAt hstart

theorem Sound.loadItem (hregistry : registry.Sound) :
    Sound text base [] (loadItem registry load) := by
  refine .skipBlanks_bind <| .here_bind fun start hstart => .next_bind fun code => ?_
  cases code with
  | none => exact .failHere
  | some code => exact .loadCoded h hregistry hstart code

end Items

theorem Sound.loadWithin {registry : Registry} (hregistry : registry.Sound) :
    ∀ bound, Sound text base [] (loadWithin registry bound)
  | [] => .loadItem .failHere hregistry
  | _ :: bound => .loadItem (.loadWithin hregistry bound) hregistry

/-- **Reading an item is sound.** -/
theorem sound_load {registry : Registry} (hregistry : registry.Sound) :
    Sound text base [] (load registry) :=
  .get_bind fun r => .loadWithin hregistry r.rest

/-! ## Whole texts -/

theorem Sound.finish : Sound text base [] finish :=
  .skipBlanks_bind <| .get_bind fun _ => .ite (fun _ => .pure trivial (List.nil_subset _)) fun _ =>
    .failHere

/-- A whole text as a value. -/
def loadWhole : Read Value := do
  let value ← loadValue (load .builtin)
  finish
  return value

theorem Sound.loadWhole : Sound text base [] loadWhole :=
  .bind (.loadValue (sound_load Registry.sound_builtin)) fun _ hv => .bind .finish fun _ _ =>
    .pure hv (by simp [objects])

theorem Stage.start (text : String) (fresh : Nat) :
    Stage text.toList fresh [] (.ofText text fresh) where
  consumed := ⟨[], rfl, rfl⟩
  base_le := Nat.le_refl fresh
  range := by rintro _ ⟨⟩
  coherent := by rintro _ _ ⟨⟩
  records := by simp [Reader.ofText]

theorem loads?_eq (text : String) (fresh : Nat) :
    loads? text fresh = match loadWhole (.ofText text fresh) with
      | .ok value r => .ok (value, r.fresh)
      | .error e _ => .error e := rfl

variable {text : String} {fresh fresh' : Nat}

/-- **A value that is read from a text is tidy, and everything in it was numbered meanwhile.** -/
theorem of_loads?_ok {v : Value} (h : loads? text fresh = .ok (v, fresh')) :
    Tidy v ∧ fresh ≤ fresh' ∧ (∀ o ∈ v.objects, fresh ≤ o.id ∧ o.id < fresh') ∧
      Coherent v.objects := by
  have hsound : Sound text.toList fresh [] loadWhole := .loadWhole
  have hread := hsound _ [] (.start text fresh) (List.nil_subset _)
  rw [loads?_eq] at h
  split at h
  · rename_i value r hvalue
    cases h
    rw [hvalue] at hread
    obtain ⟨htidy, known, -, hr, hobjects⟩ := hread
    exact ⟨htidy, hr.base_le, fun o ho => hr.range o (hobjects ho), fun t u ht hu =>
      hr.coherent t u (hobjects ht) (hobjects hu)⟩
  · cases h

/-- **An error is reported at a position in the text.** -/
theorem of_loads?_error {e : Error} (h : loads? text fresh = .error e) : e.Within text.toList := by
  have hsound : Sound text.toList fresh [] loadWhole := .loadWhole
  have hread := hsound _ [] (.start text fresh) (List.nil_subset _)
  rw [loads?_eq] at h
  split at h
  · cases h
  · rename_i hvalue
    cases h
    rwa [hvalue] at hread

end Wire

end Templating
