import Templating.Proofs.Syntax.Relabel
import Templating.Proofs.Wire.MirrorItem

/-!
# Nodes and templates in step

* `Scene.Admits`: the templates in a tree are known, and none of them is being written.
* `writeNode_mirrors`, `writeTemplate_mirrors`: nodes and templates are read as they were written,
  with other identities. A template is written out once, then referred to.
-/

namespace Templating.Wire

variable {scene : Scene}

/-- The reading action of everything below. -/
abbrev item : Read Loaded := load .builtin

theorem reads_item (n : Nat) : Reads n .eats item item := .loadAny Registry.local_builtin

/-- The templates among some objects are known, and none of them is being written. -/
def Scene.Admits (scene : Scene) (objects : List Object) : Prop :=
  ∀ t, .template t ∈ objects → scene.known t ∧ t.id ∉ scene.opened.map Prod.fst

theorem Scene.admits_append {os os' : List Object} :
    scene.Admits (os ++ os') ↔ scene.Admits os ∧ scene.Admits os' :=
  ⟨fun h => ⟨fun t ht => h t (List.mem_append_left _ ht),
      fun t ht => h t (List.mem_append_right _ ht)⟩,
    fun h t ht => (List.mem_append.1 ht).elim (h.1 t) (h.2 t)⟩

theorem Scene.admits_node {id : Nat} {os : List Object} :
    scene.Admits (.node id :: os) ↔ scene.Admits os := by
  simp [Scene.Admits]

/-- What is inside a template is admitted when the template has begun. -/
theorem Scene.Admits.block {t : Template} (h : scene.Admits t.objects) (index : Nat)
    (pending : List Nat) : { scene with
      opened := (t.id, index) :: scene.opened, pending }.Admits t.block.objects := by
  rw [t.objects_eq] at h
  obtain ⟨hknown, -⟩ := h t List.mem_cons_self
  intro u hu
  obtain ⟨hknown', hclosed⟩ := h u (List.mem_cons_of_mem _ hu)
  refine ⟨hknown', fun hmem => ?_⟩
  rcases List.mem_cons.1 hmem with heq | hmem
  · -- a template with the same identity is the same template, which does not contain itself
    cases scene.coherent u t hknown' hknown heq
    exact t.not_mem_block hu
  · exact hclosed hmem

/-! ## Targets -/

mutual

theorem writeTarget_mirrors : ∀ target : Target,
    Mirrors scene (Begins ['l', 'S', '^']) (writeTarget target) (loadTarget item)
      fun _ target' => target' = target
  | .name x => by
    rw [writeTarget, funext (loadTarget_apply reads_item)]
    refine (Mirrors.closes_false_bind (K := ['S', '^']) ?_ rfl).conseq
      (fun _ h => h.mono (by decide)) fun _ _ => id
    rw [if_neg Bool.false_ne_true]
    refine ((Mirrors.loadStr x).map Target.name).conseq (fun _ => id) ?_
    rintro _ _ ⟨_, rfl, rfl⟩
    rfl
  | .tuple items => by
    rw [writeTarget, funext (loadTarget_apply reads_item)]
    refine ((Mirrors.ends (c := 'l') rfl rfl).begins_bind
      (R := fun _ _ target' => target' = Target.tuple items) fun b ⟨_, hb⟩ => ?_).conseq
      (fun _ h => h.mono (by decide)) ?_
    · rw [if_pos hb]
      refine ((writeTargets_mirrors items).map Target.tuple).conseq (fun _ => id) ?_
      rintro _ _ ⟨_, rfl, rfl⟩
      rfl
    · rintro _ _ ⟨_, _, h⟩
      exact h

theorem writeTargets_mirrors : ∀ items : List Target,
    Mirrors scene Any (writeTargets items >>= fun _ => emit "]") (readUntil ']' (loadTarget item))
      fun _ items' => items' = items
  | [] => .items_nil rfl rfl fun n => (reads_item n).loadTarget
  | target :: items => by
    rw [writeTargets, bind_assoc]
    refine (Mirrors.items_cons (writeTarget_mirrors target) (writeTargets_mirrors items)
      rfl fun n => (reads_item n).loadTarget).conseq (fun _ => id) ?_
    rintro _ _ ⟨_, _, rfl, rfl, rfl⟩
    rfl

end

/-! ## Fields of nodes -/

/-- An item is what a node is read back as. -/
def Loaded.IsNode (σ : Nat → Nat) (node : Node) : Loaded → Prop
  | .node node' => node'.relabel .anonymous = node.relabel (.readBack σ)
  | .value (.template t') =>
    ∃ t, node.kind = .template t ∧ t'.relabel .anonymous = t.relabel (.readBack σ)
  | _ => False

/-- A definition is read as its template and gets its place from there. -/
theorem Node.relabel_ofTemplate {σ : Nat → Nat} {node : Node} {t t' : Template} (new : Nat)
    (hkind : node.kind = .template t)
    (h : t'.relabel .anonymous = t.relabel (.readBack σ)) :
    (Node.ofTemplate new (Location.ofText t'.source .empty) t').relabel .anonymous =
      node.relabel (.readBack σ) := by
  obtain ⟨id₀, location₀, kind⟩ := node
  obtain rfl : kind = .template t := hkind
  obtain ⟨id₁, location, source, name, startDelim, endDelim, block⟩ := t
  obtain ⟨id₂, location', source', name', startDelim', endDelim', block'⟩ := t'
  simp only [Template.relabel, Relabel.anonymous, Relabel.readBack, Template.mk.injEq] at h
  obtain ⟨hid, rfl, rfl, rfl, rfl, rfl, hblock⟩ := h
  simpa [Node.ofTemplate, Node.relabel, NodeKind.relabel, Template.relabel, Relabel.anonymous,
    Relabel.readBack, NodeKind.place, hblock] using hid

theorem Mirrors.asNode {node : Node} {start : Nat} {loaded : Loaded}
    (h : ∃ σ, loaded.IsNode σ node) :
    Mirrors scene Any (Pure.pure ()) (nodeOf start loaded) fun σ node' =>
      loaded.IsNode σ node → node'.relabel .anonymous = node.relabel (.readBack σ) := by
  cases loaded with
  | node node' =>
    refine (Mirrors.pure node').conseq (fun _ => id) ?_
    rintro σ _ rfl h
    exact h
  | location l => exact absurd h (by simp [Loaded.IsNode])
  | value v =>
    cases v with
    | template t' =>
      refine (Mirrors.freshId.map fun id =>
        Node.ofTemplate id (Location.ofText t'.source .empty) t').conseq (fun _ => id) ?_
      rintro σ _ ⟨id, -, rfl⟩ ⟨t, hkind, h⟩
      exact Node.relabel_ofTemplate id hkind h
    | _ => exact absurd h (by simp [Loaded.IsNode])

section Fields

variable {node : Node} {w : Write}

/-- A node where a node is expected. -/
theorem Mirrors.readNode (h : Mirrors scene (Begins ['O', '^']) w item
      fun σ loaded => loaded.IsNode σ node) :
    Mirrors scene (Begins ['O', '^']) w (loadNode item) fun σ node' =>
      node'.relabel .anonymous = node.relabel (.readBack σ) := by
  refine .skipBlanks_bind (.here_bind fun start => .of_bind_pure ?_) rfl
  refine (h.begins_bind fun loaded hloaded => Mirrors.asNode hloaded).conseq (fun _ => id) ?_
  rintro σ _ ⟨loaded, hloaded, himp⟩
  exact himp hloaded

theorem Mirrors.loadOptNode_some (h : Mirrors scene (Begins ['O', '^']) w item
      fun σ loaded => loaded.IsNode σ node) :
    Mirrors scene (Begins ['n', 'O', '^']) w (loadOptNode item) fun σ node' =>
      Node.relabelOpt .anonymous node' = Node.relabelOpt (.readBack σ) (some node) := by
  refine (Mirrors.closes_false_bind (K := ['O', '^']) ?_ rfl).conseq
    (fun _ h => h.mono (by decide)) fun _ _ => id
  rw [if_neg Bool.false_ne_true]
  refine (h.readNode.map some).conseq (fun _ => id) ?_
  rintro σ _ ⟨node', h, rfl⟩
  rw [Node.relabelOpt, Node.relabelOpt, h]

theorem Mirrors.loadOptNode_none :
    Mirrors scene (Begins ['n', 'O', '^']) writeNone (loadOptNode item) fun σ node' =>
      Node.relabelOpt .anonymous node' = Node.relabelOpt (.readBack σ) none := by
  refine ((Mirrors.ends (c := 'n') rfl rfl).bind_pure fun b ⟨_, hb⟩ => ?_).conseq
    (fun _ h => h.mono (by decide)) fun _ _ => id
  exact ⟨none, by rw [if_pos hb], fun _ _ => rfl⟩

/-- A list between its code and its end. -/
theorem Mirrors.bracketed {α : Type} {x : Read (List α)} {Q : (Nat → Nat) → List α → Prop}
    (h : Mirrors scene Any w x Q) : Mirrors scene Any (emit "l" >>= fun _ => w) (do
      expect 'l'
      x) Q := by
  refine ((Mirrors.comes (c := 'l') rfl rfl).bind (R := fun _ => Q) fun _ _ => h).conseq
    (fun _ => id) ?_
  rintro σ _ ⟨_, -, h⟩
  exact h

/-! ## Entries -/

variable {K : List Char} {w₁ w₂ : Write} {P : (Nat → Nat) → Loaded → Prop}
  {R : (Nat → Nat) → Node → Prop}

/-- An entry of one item. -/
theorem Mirrors.entry_one (h : Mirrors scene (Begins K) w₁ item P)
    (hcodes : K.all (!Text.isBlank ·)) :
    Mirrors scene (Begins ['l']) (emit "l" >>= fun _ => w₁ >>= fun _ => emit "]") (loadEntry item)
      fun σ e => P σ e.first ∧ e.second = none := by
  refine ((Mirrors.comes (c := 'l') rfl rfl).begins_bind (R := fun _ σ e => P σ e.first ∧
    e.second = none) fun _ _ => Mirrors.any (S := Begins K)
    (.skipBlanks_bind (.here_bind fun start => ?_) hcodes)).conseq (fun _ => id) ?_
  · refine (h.begins_bind (R := fun first _ e => e = ⟨start, first, none⟩) fun first _ => ?_).conseq
      (fun _ => id) ?_
    · refine (Mirrors.ends rfl rfl).any.bind_pure fun b ⟨_, hb⟩ => ?_
      exact ⟨⟨start, first, none⟩, by rw [if_pos hb], fun _ _ => rfl⟩
    · rintro σ _ ⟨first, h, rfl⟩
      exact ⟨h, rfl⟩
  · rintro σ e ⟨_, -, h⟩
    exact h

/-- An entry of two items. -/
theorem Mirrors.entry_two (h₁ : Mirrors scene (Begins K) w₁ item P)
    (hcodes : K.all (!Text.isBlank ·))
    (h₂ : Mirrors scene (Begins ['O', '^']) w₂ (loadNode item) R) :
    Mirrors scene (Begins ['l']) (emit "l" >>= fun _ => w₁ >>= fun _ => w₂ >>= fun _ => emit "]")
      (loadEntry item) fun σ e => P σ e.first ∧ ∃ node, e.second = some node ∧ R σ node := by
  refine ((Mirrors.comes (c := 'l') rfl rfl).begins_bind (R := fun _ σ e => P σ e.first ∧
    ∃ node, e.second = some node ∧ R σ node) fun _ _ => Mirrors.any (S := Begins K)
    (.skipBlanks_bind (.here_bind fun start => ?_) hcodes)).conseq (fun _ => id) ?_
  · refine (h₁.begins_bind (R := fun first σ e => ∃ node, e = ⟨start, first, some node⟩ ∧
      R σ node) fun first _ => ?_).conseq (fun _ => id) ?_
    · refine Mirrors.any (S := Begins ['O', '^']) (.closes_false_bind ?_ rfl)
      rw [if_neg Bool.false_ne_true]
      refine (h₂.begins_bind fun node _ => (Mirrors.comes rfl rfl).any.map fun _ =>
        (⟨start, first, some node⟩ : Entry)).conseq (fun _ => id) ?_
      rintro σ _ ⟨node, h, _, -, rfl⟩
      exact ⟨node, rfl, h⟩
    · rintro σ _ ⟨first, h, node, rfl, h'⟩
      exact ⟨h, node, rfl, h'⟩
  · rintro σ e ⟨_, -, h⟩
    exact h

/-- What an entry of a dict display is read back as, before its items become nodes. -/
def Entry.IsDictEntry (σ : Nat → Nat) (e : Entry) : DictEntry → Prop
  | .pair key value => e.first.IsNode σ key ∧
    ∃ node, e.second = some node ∧ node.relabel .anonymous = value.relabel (.readBack σ)
  | .splat mapping => e.first.IsNode σ mapping ∧ e.second = none

/-- What a keyword argument is read back as, before its items become nodes. -/
def Entry.IsKeywordArg (σ : Nat → Nat) (e : Entry) : KeywordArg → Prop
  | .named name value => e.first = .value (.str name) ∧
    ∃ node, e.second = some node ∧ node.relabel .anonymous = value.relabel (.readBack σ)
  | .splat mapping => e.first.IsNode σ mapping ∧ e.second = none

theorem Mirrors.dictEntry {e : Entry} {entry : DictEntry} (h : ∃ σ, e.IsDictEntry σ entry) :
    Mirrors scene Any (Pure.pure ()) (dictEntryOf e) fun σ entry' =>
      e.IsDictEntry σ entry → entry'.relabel .anonymous = entry.relabel (.readBack σ) := by
  obtain ⟨start, first, second⟩ := e
  cases entry with
  | pair key value =>
    obtain ⟨σ, hfirst, node, hsecond, -⟩ := h
    obtain rfl : second = some node := hsecond
    refine ((Mirrors.asNode ⟨σ, hfirst⟩).map fun key' => DictEntry.pair key' node).conseq
      (fun _ => id) ?_
    rintro σ _ ⟨key', hkey, rfl⟩ ⟨hfirst, node', hsecond, hvalue⟩
    cases hsecond
    rw [DictEntry.relabel, DictEntry.relabel, hkey hfirst, hvalue]
  | splat mapping =>
    obtain ⟨σ, hfirst, hsecond⟩ := h
    obtain rfl : second = none := hsecond
    refine ((Mirrors.asNode ⟨σ, hfirst⟩).map DictEntry.splat).conseq (fun _ => id) ?_
    rintro σ _ ⟨mapping', hmapping, rfl⟩ ⟨hfirst, -⟩
    rw [DictEntry.relabel, DictEntry.relabel, hmapping hfirst]

theorem Mirrors.keywordArg {e : Entry} {arg : KeywordArg} (h : ∃ σ, e.IsKeywordArg σ arg) :
    Mirrors scene Any (Pure.pure ()) (keywordArgOf e) fun σ arg' =>
      e.IsKeywordArg σ arg → arg'.relabel .anonymous = arg.relabel (.readBack σ) := by
  obtain ⟨start, first, second⟩ := e
  cases arg with
  | named name value =>
    obtain ⟨σ, hfirst, node, hsecond, -⟩ := h
    obtain rfl : second = some node := hsecond
    obtain rfl : first = .value (.str name) := hfirst
    refine (Mirrors.pure (KeywordArg.named name node)).conseq (fun _ => id) ?_
    rintro σ _ rfl ⟨-, node', hsecond, hvalue⟩
    cases hsecond
    rw [KeywordArg.relabel, KeywordArg.relabel, hvalue]
  | splat mapping =>
    obtain ⟨σ, hfirst, hsecond⟩ := h
    obtain rfl : second = none := hsecond
    have hread : keywordArgOf ⟨start, first, none⟩ = do
        return KeywordArg.splat (← nodeOf start first) := by
      rcases first with v | _ | _
      · cases v <;> rfl
      · rfl
      · rfl
    rw [hread]
    refine ((Mirrors.asNode ⟨σ, hfirst⟩).map KeywordArg.splat).conseq (fun _ => id) ?_
    rintro σ _ ⟨mapping', hmapping, rfl⟩ ⟨hfirst, -⟩
    rw [KeywordArg.relabel, KeywordArg.relabel, hmapping hfirst]

/-- Entries become parts of a node one after another. -/
theorem Mirrors.mapM {β γ : Type} {f : Entry → Read γ} {Is : (Nat → Nat) → Entry → β → Prop}
    {S : (Nat → Nat) → β → γ → Prop}
    (hf : ∀ {scene : Scene} e b, (∃ σ, Is σ e b) →
      Mirrors scene Any (Pure.pure ()) (f e) fun σ c => Is σ e b → S σ b c) :
    ∀ {es : List Entry} {bs : List β}, (∃ σ, List.Forall₂ (Is σ) es bs) →
      Mirrors scene Any (Pure.pure ()) (es.mapM f) fun σ cs =>
        List.Forall₂ (Is σ) es bs → List.Forall₂ (S σ) bs cs
  | [], bs, h => by
    obtain ⟨_, h⟩ := h
    cases h
    refine (Mirrors.pure []).conseq (fun _ => id) ?_
    rintro σ _ rfl -
    exact .nil
  | e :: es, bs, h => by
    obtain ⟨σ, h⟩ := h
    cases h with
    | cons he hes =>
      rw [List.mapM_cons]
      refine .of_bind_pure (((hf _ _ ⟨σ, he⟩).bind fun c _ =>
        (Mirrors.mapM hf ⟨σ, hes⟩).map (c :: ·)).conseq (fun _ => id) ?_)
      rintro σ _ ⟨c, hc, cs, hcs, rfl⟩ h
      cases h with
      | cons he hes => exact .cons (hc he) (hcs hes)

end Fields

/-! ## Objects with fields -/

/-- The fields of a template, with an identity that is replaced later. -/
def templateFields (load : Read Loaded) : Read Template := do
  let version ← loadStr load
  if version ≠ formatVersion then throw (.version formatVersion version)
  else
    let source ← loadStr load
    let name ← loadOptStr load
    let startDelim ← loadStr load
    let endDelim ← loadStr load
    let location ← loadOptLocation load
    let block ← loadBlock load
    return ⟨0, location, source, name, startDelim, endDelim, block⟩

theorem loadTemplateObject_eq (load : Read Loaded) (tag : String) :
    loadTemplateObject load tag =
      templateFields load >>= built (fun t id => .value (.template { t with id })) 1 := by
  unfold loadTemplateObject templateFields
  rw [bind_assoc]
  congr
  funext version
  split
  · rfl
  · simp only [bind_assoc, pure_bind]
    rfl

/-- The fields of a node, with an identity that is replaced later. -/
def nodeFields (load : Read Loaded) (tag : String) : Read Node := do
  let location ← loadLocation load
  let kind ← loadKind load tag
  return ⟨0, location, kind⟩

theorem loadNodeObject_eq (load : Read Loaded) (tag : String) :
    loadNodeObject load tag =
      nodeFields load tag >>= built (fun node id => .node { node with id }) 1 := by
  simp only [loadNodeObject, nodeFields, bind_assoc, pure_bind]
  rfl

section Objects

variable {t : Template}

theorem writeTemplate_known {s : Writer} {i : Nat} (h : s.templates.lookup t.id = some i) :
    writeTemplate t s = .ok () { s with out := s.out ++ s!"^{i}|" } := by
  obtain ⟨id, location, source, name, startDelim, endDelim, block⟩ := t
  rw [writeTemplate, bind_ok (x := get) rfl, h]
  rfl

/-- The fields of a template after its tag. -/
def writeTemplateFields (t : Template) : Write := do
  writeStr formatVersion
  writeStr t.source
  writeOptStr t.name
  writeStr t.startDelim
  writeStr t.endDelim
  writeOptLocation t.location
  writeBlock t.block

theorem writeTemplate_new {s : Writer} (h : s.templates.lookup t.id = none) :
    writeTemplate t s = (emit "O" >>= fun _ => writeStr (typePrefix ++ "template") >>= fun _ =>
      writeTemplateFields t >>= fun _ => endObject)
        ⟨s.out, s.records + 1, s.strings, (t.id, s.records) :: s.templates⟩ := by
  obtain ⟨id, location, source, name, startDelim, endDelim, block⟩ := t
  rw [writeTemplate, bind_ok (x := get) rfl, h]
  simp only [writeTemplateFields, bind_assoc]
  rfl

theorem Mirrors.templateFields (h : Mirrors scene Any (writeBlock t.block) (loadBlock item)
      fun σ block => block.relabel .anonymous = t.block.relabel (.readBack σ)) :
    Mirrors scene Any (writeTemplateFields t) (templateFields item) fun σ t' =>
      ∀ id, σ t.id = id →
        { t' with id }.relabel .anonymous = t.relabel (.readBack σ) := by
  refine .bind_eq (.loadStr _) ?_
  rw [if_neg (by simp)]
  refine .bind_eq (.loadStr t.source) <| .bind_eq (.loadOptStr t.name) <|
    .bind_eq (.loadStr t.startDelim) <| .bind_eq (.loadStr t.endDelim) <|
    .bind_eq (.loadOptLocation t.location) ?_
  refine (h.map _).conseq (fun _ => id) ?_
  rintro σ _ ⟨block, hblock, rfl⟩ id hid
  obtain ⟨old, location, source, name, startDelim, endDelim, oldBlock⟩ := t
  simp only [Template.relabel, hblock]
  rw [show (Relabel.readBack σ).template old = id from hid]
  rfl

/-- A template whose block is read as it was written. -/
theorem Mirrors.template (hadmits : scene.Admits t.objects)
    (hblock : ∀ index pending, Mirrors
      { scene with opened := (t.id, index) :: scene.opened, pending } Any
      (writeBlock t.block) (loadBlock item)
      fun σ block => block.relabel .anonymous = t.block.relabel (.readBack σ)) :
    Mirrors scene (Begins ['O', '^']) (writeTemplate t) item fun σ loaded =>
      ∃ t', loaded = .value (.template t') ∧
        t'.relabel .anonymous = t.relabel (.readBack σ) := by
  rw [t.objects_eq] at hadmits
  obtain ⟨hknown, hclosed⟩ := hadmits t List.mem_cons_self
  intro s r names hsync
  cases hlookup : s.templates.lookup t.id with
  | some i =>
    -- it ended before: the record under its number was read from the same template
    obtain ⟨t₀, t', hknown₀, heq, hat, hsame⟩ :=
      (hsync.template_at t.id i hlookup).resolve_left hclosed
    obtain rfl : t₀ = t := scene.coherent t₀ t hknown₀ hknown heq
    exact hsync.mirrors_reference (writeTemplate_known hlookup) hat (by decide)
      fun σ h => ⟨t', rfl, hsame σ h⟩
  | none =>
    have hindex := hsync.size_not_pending
    have hsync₀ :=
      (hsync.begin_object hsync.records_lt_length).open_template r.records.size hlookup
    rw [hsync.size] at hsync₀
    obtain ⟨s', text, t', r', names', hw, htext, hbegins, hread, hsync', hσ⟩ :=
      object_apply (s := ⟨s.out, s.records + 1, s.strings, (t.id, s.records) :: s.templates⟩)
        Registry.get?_builtin_template (loadTemplateObject_eq _ _)
        (Mirrors.templateFields (hblock s.records _)) hsync₀
    rw [hsync.size] at hread hindex
    refine ⟨s', text, _, _, (t.id, r'.fresh) :: names', ?_, htext, hbegins.mono (by decide), hread,
      hsync'.end_template hindex hclosed hknown rfl ?_, ?_⟩
    · rw [writeTemplate_new hlookup, hw]
    · exact fun σ h hid => (hσ σ h).2 _ hid
    · intro σ h
      simp only [Follows, List.forall_mem_cons] at h
      exact ⟨(hσ σ h.2).1, _, rfl, (hσ σ h.2).2 _ h.1⟩

end Objects

/-! ## Nodes -/

theorem UnaryOp.tag_mem (op : UnaryOp) : op.tag ∈ nodeTags := by cases op <;> decide

theorem BinaryOp.tag_mem (op : BinaryOp) : op.tag ∈ nodeTags := by cases op <;> decide

theorem AugOp.tag_mem (op : AugOp) : op.tag ∈ nodeTags := by cases op <;> decide

theorem tag_mem_nodeTags {kind : NodeKind} (h : kind.template? = none) : kind.tag ∈ nodeTags := by
  cases kind with
  | unary op => exact UnaryOp.tag_mem op
  | binary op => exact BinaryOp.tag_mem op
  | augAssign op => exact AugOp.tag_mem op
  | template t => cases h
  | _ =>
    simp only [NodeKind.tag]
    decide

theorem loadKind_unary (load : Read Loaded) (op : UnaryOp) :
    loadKind load op.tag = do return .unary op (← loadNode load) := by
  cases op <;> rfl

theorem loadKind_binary (load : Read Loaded) (op : BinaryOp) : loadKind load op.tag = do
    let left ← loadNode load
    let right ← loadNode load
    return .binary op left right := by
  cases op <;> rfl

theorem loadKind_augAssign (load : Read Loaded) (op : AugOp) : loadKind load op.tag = do
    let name ← loadStr load
    return .augAssign op name (← loadNode load) := by
  cases op <;> rfl

/-- A node whose fields are read as they were written. -/
theorem Mirrors.node {id : Nat} {location : Location} {kind : NodeKind}
    (htemplate : kind.template? = none)
    (h : ∀ pending, Mirrors { scene with pending } Any (writeKind kind) (loadKind item kind.tag)
      fun σ kind' => kind'.relabel .anonymous = kind.relabel (.readBack σ)) :
    Mirrors scene (Begins ['O', '^']) (writeNode ⟨id, location, kind⟩) item fun σ loaded =>
      loaded.IsNode σ ⟨id, location, kind⟩ := by
  have hfields (pending : List Nat) : Mirrors { scene with pending } Any
      (writeLocation location >>= fun _ => writeKind kind) (nodeFields item kind.tag)
      fun σ node' => ∀ new, { node' with id := new }.relabel .anonymous =
        Node.relabel (.readBack σ) ⟨id, location, kind⟩ := by
    refine .bind_eq (.loadLocation location) (((h pending).map _).conseq (fun _ h => h) ?_)
    rintro σ _ ⟨kind', hkind, rfl⟩ new
    simp [Node.relabel, hkind, NodeKind.place_of_template?_eq_none htemplate]
  rw [writeNode_eq htemplate]
  refine (Mirrors.object (Registry.get?_builtin_node (tag_mem_nodeTags htemplate))
    (by rw [shortTag_typePrefix, loadNodeObject_eq]) hfields (by simp) (by simp)).conseq
    (fun _ h => h.mono (by decide)) ?_
  rintro σ _ ⟨node', new, rfl, hnode⟩
  exact hnode new

/-- The nodes of a list between its code and its end. -/
theorem Mirrors.nodeList {nodes : List Node} (h : Mirrors scene Any
      (writeNodes nodes >>= fun _ => emit "]") (readUntil ']' (loadNode item)) fun σ nodes' =>
        Node.relabelAll .anonymous nodes' = Node.relabelAll (.readBack σ) nodes) :
    Mirrors scene Any (emit "l" >>= fun _ => writeNodes nodes >>= fun _ => emit "]")
      (loadNodes item) fun σ nodes' =>
        Node.relabelAll .anonymous nodes' = Node.relabelAll (.readBack σ) nodes :=
  h.bracketed

theorem DictEntry.relabelAll_of_forall₂ {f g : Relabel} {es es' : List DictEntry}
    (h : List.Forall₂ (fun e e' => e'.relabel f = e.relabel g) es es') :
    DictEntry.relabelAll f es' = DictEntry.relabelAll g es := by
  induction h with
  | nil => rfl
  | cons he _ ih => rw [DictEntry.relabelAll, DictEntry.relabelAll, he, ih]

theorem KeywordArg.relabelAll_of_forall₂ {f g : Relabel} {as as' : List KeywordArg}
    (h : List.Forall₂ (fun a a' => a'.relabel f = a.relabel g) as as') :
    KeywordArg.relabelAll f as' = KeywordArg.relabelAll g as := by
  induction h with
  | nil => rfl
  | cons ha _ ih => rw [KeywordArg.relabelAll, KeywordArg.relabelAll, ha, ih]

theorem Mirrors.dictEntryList {es : List Entry} {entries : List DictEntry}
    (h : ∃ σ, List.Forall₂ (Entry.IsDictEntry σ) es entries) :
    Mirrors scene Any (Pure.pure ()) (es.mapM dictEntryOf) fun σ entries' =>
      List.Forall₂ (Entry.IsDictEntry σ) es entries →
        DictEntry.relabelAll .anonymous entries' = DictEntry.relabelAll (.readBack σ) entries :=
  (Mirrors.mapM (S := fun σ entry entry' => entry'.relabel .anonymous =
    entry.relabel (.readBack σ)) (fun _ _ h => .dictEntry h) h).conseq (fun _ h => h)
    fun _ _ hall hes => DictEntry.relabelAll_of_forall₂ (hall hes)

theorem Mirrors.keywordArgList {es : List Entry} {args : List KeywordArg}
    (h : ∃ σ, List.Forall₂ (Entry.IsKeywordArg σ) es args) :
    Mirrors scene Any (Pure.pure ()) (es.mapM keywordArgOf) fun σ args' =>
      List.Forall₂ (Entry.IsKeywordArg σ) es args →
        KeywordArg.relabelAll .anonymous args' = KeywordArg.relabelAll (.readBack σ) args :=
  (Mirrors.mapM (S := fun σ arg arg' => arg'.relabel .anonymous =
    arg.relabel (.readBack σ)) (fun _ _ h => .keywordArg h) h).conseq (fun _ h => h)
    fun _ _ hall hes => KeywordArg.relabelAll_of_forall₂ (hall hes)

theorem Value.literal?_ofLiteral (l : Literal) : (Value.ofLiteral l).literal? = some l := by
  cases l <;> rfl

/-- A constant, which becomes a dedicated node where there is one. -/
theorem Mirrors.constant {S : List Char → Prop} {w : Write} {l : Literal}
    (h : Mirrors scene S w item fun _ loaded => loaded = .value (.ofLiteral l)) :
    Mirrors scene Any w (loadConstant item) fun _ kind' =>
      kind'.relabel .anonymous = .ofLiteral l := by
  have hvalue : Mirrors scene S w (loadValue item) fun _ v => v = .ofLiteral l :=
    .loadAs <| h.conseq (fun _ h => h) fun _ _ h => ⟨_, by rw [h], rfl⟩
  refine hvalue.any.bind_pure fun v ⟨_, hv⟩ => ⟨.ofLiteral l, ?_, fun _ _ => ?_⟩
  · rw [hv, Value.literal?_ofLiteral]
  · rw [NodeKind.relabel_ofLiteral]

mutual

theorem writeTemplate_mirrors : ∀ (t : Template) {scene : Scene}, scene.Admits t.objects →
    Mirrors scene (Begins ['O', '^']) (writeTemplate t) item fun σ loaded =>
      ∃ t', loaded = .value (.template t') ∧ t'.relabel .anonymous = t.relabel (.readBack σ)
  | ⟨_, _, _, _, _, _, block⟩, _, h =>
    .template h fun index pending => writeBlock_mirrors block (h.block index pending)

theorem writeNode_mirrors : ∀ (node : Node) {scene : Scene}, scene.Admits node.objects →
    Mirrors scene (Begins ['O', '^']) (writeNode node) item fun σ loaded => loaded.IsNode σ node
  | ⟨id, location, kind⟩, scene, h => by
    rw [Node.objects, Scene.admits_node] at h
    cases kind with
    | template t =>
      rw [writeNode]
      refine (writeTemplate_mirrors t h).conseq (fun _ h => h) ?_
      rintro σ _ ⟨t', rfl, ht⟩
      exact ⟨t, rfl, ht⟩
    | _ => exact .node rfl fun pending => writeKind_mirrors _ rfl h

theorem writeNodes_mirrors : ∀ (nodes : List Node) {scene : Scene},
    scene.Admits (Node.objectsAll nodes) → Mirrors scene Any
      (writeNodes nodes >>= fun _ => emit "]") (readUntil ']' (loadNode item)) fun σ nodes' =>
        Node.relabelAll .anonymous nodes' = Node.relabelAll (.readBack σ) nodes
  | [], scene, _ => (Mirrors.items_nil rfl rfl fun n => (reads_item n).loadNode).conseq
    (fun _ h => h) fun _ _ h => by rw [h]; rfl
  | node :: nodes, scene, h => by
    rw [Node.objectsAll, Scene.admits_append] at h
    rw [writeNodes, bind_assoc]
    refine (Mirrors.items_cons (writeNode_mirrors node h.1).readNode
      (writeNodes_mirrors nodes h.2) rfl fun n => (reads_item n).loadNode).conseq
      (fun _ h => h) ?_
    rintro σ _ ⟨node', nodes', rfl, hnode, hnodes⟩
    rw [Node.relabelAll, Node.relabelAll, hnode, hnodes]

theorem writeOptNode_mirrors : ∀ (node : Option Node) {scene : Scene},
    scene.Admits (Node.objectsOpt node) → Mirrors scene (Begins ['n', 'O', '^'])
      (writeOptNode node) (loadOptNode item) fun σ node' =>
        Node.relabelOpt .anonymous node' = Node.relabelOpt (.readBack σ) node
  | none, _, _ => .loadOptNode_none
  | some node, _, h => (writeNode_mirrors node h).loadOptNode_some

theorem writeKind_mirrors : ∀ (kind : NodeKind) {scene : Scene}, kind.template? = none →
    scene.Admits kind.objects → Mirrors scene Any (writeKind kind) (loadKind item kind.tag)
      fun σ kind' => kind'.relabel .anonymous = kind.relabel (.readBack σ)
  | .text, _, _, _ => (Mirrors.pure NodeKind.text).conseq (fun _ h => h) fun _ _ h => by rw [h]; rfl
  | .breakLoop, _, _, _ =>
    (Mirrors.pure NodeKind.breakLoop).conseq (fun _ h => h) fun _ _ h => by rw [h]; rfl
  | .continueLoop, _, _, _ =>
    (Mirrors.pure NodeKind.continueLoop).conseq (fun _ h => h) fun _ _ h => by rw [h]; rfl
  | .noneConst, _, _, _ =>
    (Mirrors.constant (l := .none) .absent).conseq (fun _ h => h) fun _ _ h => h
  | .trueConst, _, _, _ =>
    (Mirrors.constant (l := .bool true) (.bool true)).conseq (fun _ h => h) fun _ _ h => h
  | .falseConst, _, _, _ =>
    (Mirrors.constant (l := .bool false) (.bool false)).conseq (fun _ h => h) fun _ _ h => h
  | .const value, _, _, _ =>
    (Mirrors.constant (.literal value)).conseq (fun _ h => h) fun _ _ h => h
  | .list items, _, _, h => by
    refine ((writeNodes_mirrors items h).nodeList.map NodeKind.list).conseq (fun _ h => h) ?_
    rintro σ _ ⟨items', hitems, rfl⟩
    rw [NodeKind.relabel, NodeKind.relabel, hitems]
  | .listComp item comp, _, _, h => by
    rw [NodeKind.objects, Scene.admits_append] at h
    refine ((writeNode_mirrors item h.1).readNode.bind fun item' _ =>
      (writeComprehension_mirrors comp h.2).map (NodeKind.listComp item')).conseq (fun _ h => h) ?_
    rintro σ _ ⟨item', hitem, comp', hcomp, rfl⟩
    rw [NodeKind.relabel, NodeKind.relabel, hitem, hcomp]
  | .genExpr item comp, _, _, h => by
    rw [NodeKind.objects, Scene.admits_append] at h
    refine ((writeNode_mirrors item h.1).readNode.bind fun item' _ =>
      (writeComprehension_mirrors comp h.2).map (NodeKind.genExpr item')).conseq (fun _ h => h) ?_
    rintro σ _ ⟨item', hitem, comp', hcomp, rfl⟩
    rw [NodeKind.relabel, NodeKind.relabel, hitem, hcomp]
  | .dict entries, _, _, h => by
    refine .of_bind_pure (((writeEntries_mirrors entries h).bracketed.bind fun es hes =>
      (Mirrors.dictEntryList hes).map NodeKind.dict).conseq (fun _ h => h) ?_)
    rintro σ _ ⟨es, hes, entries', hentries, rfl⟩
    rw [NodeKind.relabel, NodeKind.relabel, hentries hes]
  | .dictComp key value comp, _, _, h => by
    rw [NodeKind.objects, Scene.admits_append, Scene.admits_append] at h
    refine ((writeNode_mirrors key h.1).readNode.bind fun key' _ =>
      (writeNode_mirrors value h.2.1).readNode.bind fun value' _ =>
      (writeComprehension_mirrors comp h.2.2).map (NodeKind.dictComp key' value')).conseq
      (fun _ h => h) ?_
    rintro σ _ ⟨key', hkey, value', hvalue, comp', hcomp, rfl⟩
    rw [NodeKind.relabel, NodeKind.relabel, hkey, hvalue, hcomp]
  | .var name, _, _, _ => by
    refine ((Mirrors.loadStr name).any.map NodeKind.var).conseq (fun _ h => h) ?_
    rintro σ _ ⟨_, rfl, rfl⟩
    rfl
  | .delVar name, _, _, _ => by
    refine ((Mirrors.loadStr name).any.map NodeKind.delVar).conseq (fun _ h => h) ?_
    rintro σ _ ⟨_, rfl, rfl⟩
    rfl
  | .unary op operand, _, _, h => by
    rw [NodeKind.tag, loadKind_unary]
    refine ((writeNode_mirrors operand h).readNode.any.map (NodeKind.unary op)).conseq
      (fun _ h => h) ?_
    rintro σ _ ⟨operand', hoperand, rfl⟩
    rw [NodeKind.relabel, NodeKind.relabel, hoperand]
  | .binary op left right, _, _, h => by
    rw [NodeKind.objects, Scene.admits_append] at h
    rw [NodeKind.tag, loadKind_binary]
    refine ((writeNode_mirrors left h.1).readNode.bind fun left' _ =>
      (writeNode_mirrors right h.2).readNode.any.map (NodeKind.binary op left')).conseq
      (fun _ h => h) ?_
    rintro σ _ ⟨left', hleft, right', hright, rfl⟩
    rw [NodeKind.relabel, NodeKind.relabel, hleft, hright]
  | .getAttr object attr, _, _, h => by
    refine ((writeNode_mirrors object h).readNode.bind fun object' _ =>
      (Mirrors.loadStr attr).any.map (NodeKind.getAttr object')).conseq (fun _ h => h) ?_
    rintro σ _ ⟨object', hobject, _, rfl, rfl⟩
    rw [NodeKind.relabel, NodeKind.relabel, hobject]
  | .getSlice object start stop, _, _, h => by
    rw [NodeKind.objects, Scene.admits_append, Scene.admits_append] at h
    refine ((writeNode_mirrors object h.1).readNode.bind fun object' _ =>
      (writeOptNode_mirrors start h.2.1).bind fun start' _ =>
      (writeOptNode_mirrors stop h.2.2).any.map (NodeKind.getSlice object' start')).conseq
      (fun _ h => h) ?_
    rintro σ _ ⟨object', hobject, start', hstart, stop', hstop, rfl⟩
    rw [NodeKind.relabel, NodeKind.relabel, hobject, hstart, hstop]
  | .callFunc name args, _, _, h => by
    refine .bind_eq (.loadStr name) (((writeNodes_mirrors args h).nodeList.map
      (NodeKind.callFunc name)).conseq (fun _ h => h) ?_)
    rintro σ _ ⟨args', hargs, rfl⟩
    rw [NodeKind.relabel, NodeKind.relabel, hargs]
  | .callMeth name object args, _, _, h => by
    rw [NodeKind.objects, Scene.admits_append] at h
    refine .bind_eq (.loadStr name) (((writeNode_mirrors object h.1).readNode.bind fun object' _ =>
      (writeNodes_mirrors args h.2).nodeList.map (NodeKind.callMeth name object')).conseq
      (fun _ h => h) ?_)
    rintro σ _ ⟨object', hobject, args', hargs, rfl⟩
    rw [NodeKind.relabel, NodeKind.relabel, hobject, hargs]
  | .callMethKeywords name object args, _, _, h => by
    rw [NodeKind.objects, Scene.admits_append] at h
    refine .bind_eq (.loadStr name) (.of_bind_pure ?_)
    rw [bind_assoc]
    refine ((writeNode_mirrors object h.1).readNode.bind fun object' _ =>
      (writeArgs_mirrors args h.2).bracketed.bind fun es hes =>
      (Mirrors.keywordArgList hes).map (NodeKind.callMethKeywords name object')).conseq
      (fun _ h => h) ?_
    rintro σ _ ⟨object', hobject, es, hes, args', hargs, rfl⟩
    rw [NodeKind.relabel, NodeKind.relabel, hobject, hargs hes]
  | .print value, _, _, h => by
    refine ((writeNode_mirrors value h).readNode.any.map NodeKind.print).conseq (fun _ h => h) ?_
    rintro σ _ ⟨value', hvalue, rfl⟩
    rw [NodeKind.relabel, NodeKind.relabel, hvalue]
  | .printX value, _, _, h => by
    refine ((writeNode_mirrors value h).readNode.any.map NodeKind.printX).conseq (fun _ h => h) ?_
    rintro σ _ ⟨value', hvalue, rfl⟩
    rw [NodeKind.relabel, NodeKind.relabel, hvalue]
  | .render value, _, _, h => by
    refine ((writeNode_mirrors value h).readNode.any.map NodeKind.render).conseq (fun _ h => h) ?_
    rintro σ _ ⟨value', hvalue, rfl⟩
    rw [NodeKind.relabel, NodeKind.relabel, hvalue]
  | .storeVar target value, _, _, h => by
    refine .bind_eq (writeTarget_mirrors target) (((writeNode_mirrors value h).readNode.any.map
      (NodeKind.storeVar target)).conseq (fun _ h => h) ?_)
    rintro σ _ ⟨value', hvalue, rfl⟩
    rw [NodeKind.relabel, NodeKind.relabel, hvalue]
  | .augAssign op name value, _, _, h => by
    rw [NodeKind.tag, loadKind_augAssign]
    refine .bind_eq (.loadStr name) (((writeNode_mirrors value h).readNode.any.map
      (NodeKind.augAssign op name)).conseq (fun _ h => h) ?_)
    rintro σ _ ⟨value', hvalue, rfl⟩
    rw [NodeKind.relabel, NodeKind.relabel, hvalue]
  | .forLoop target container block, _, _, h => by
    rw [NodeKind.objects, Scene.admits_append] at h
    refine ((writeBlock_mirrors block h.2).bind fun block' _ =>
      .bind_eq (writeTarget_mirrors target) ((writeNode_mirrors container h.1).readNode.any.map
        fun container' => NodeKind.forLoop target container' block')).conseq (fun _ h => h) ?_
    rintro σ _ ⟨block', hblock, container', hcontainer, rfl⟩
    rw [NodeKind.relabel, NodeKind.relabel, hblock, hcontainer]
  | .chain branches, _, _, h => by
    refine ((writeBlock_mirrors branches h).map NodeKind.chain).conseq (fun _ h => h) ?_
    rintro σ _ ⟨branches', hbranches, rfl⟩
    rw [NodeKind.relabel, NodeKind.relabel, hbranches]
  | .elseBranch block, _, _, h => by
    refine ((writeBlock_mirrors block h).map NodeKind.elseBranch).conseq (fun _ h => h) ?_
    rintro σ _ ⟨block', hblock, rfl⟩
    rw [NodeKind.relabel, NodeKind.relabel, hblock]
  | .ifBranch condition block, _, _, h => by
    rw [NodeKind.objects, Scene.admits_append] at h
    refine ((writeBlock_mirrors block h.2).bind fun block' _ =>
      (writeNode_mirrors condition h.1).readNode.any.map
        fun condition' => NodeKind.ifBranch condition' block').conseq (fun _ h => h) ?_
    rintro σ _ ⟨block', hblock, condition', hcondition, rfl⟩
    rw [NodeKind.relabel, NodeKind.relabel, hblock, hcondition]
  | .elifBranch condition block, _, _, h => by
    rw [NodeKind.objects, Scene.admits_append] at h
    refine ((writeBlock_mirrors block h.2).bind fun block' _ =>
      (writeNode_mirrors condition h.1).readNode.any.map
        fun condition' => NodeKind.elifBranch condition' block').conseq (fun _ h => h) ?_
    rintro σ _ ⟨block', hblock, condition', hcondition, rfl⟩
    rw [NodeKind.relabel, NodeKind.relabel, hblock, hcondition]

theorem writeComprehension_mirrors : ∀ (comp : Comprehension) {scene : Scene},
    scene.Admits comp.objects → Mirrors scene Any (writeComprehension comp)
      (loadComprehension item) fun σ comp' =>
        comp'.relabel .anonymous = comp.relabel (.readBack σ)
  | ⟨target, container, condition⟩, _, h => by
    rw [Comprehension.objects, Scene.admits_append] at h
    refine .bind_eq (writeTarget_mirrors target) (((writeNode_mirrors container h.1).readNode.bind
      fun container' _ => (writeOptNode_mirrors condition h.2).any.map
        (Comprehension.mk target container')).conseq (fun _ h => h) ?_)
    rintro σ _ ⟨container', hcontainer, condition', hcondition, rfl⟩
    rw [Comprehension.relabel, Comprehension.relabel, hcontainer, hcondition]

theorem writeEntries_mirrors : ∀ (entries : List DictEntry) {scene : Scene},
    scene.Admits (DictEntry.objectsAll entries) → Mirrors scene Any
      (writeEntries entries >>= fun _ => emit "]") (readUntil ']' (loadEntry item)) fun σ es =>
        List.Forall₂ (Entry.IsDictEntry σ) es entries
  | [], _, _ => (Mirrors.items_nil rfl rfl fun n => (reads_item n).loadEntry).conseq
    (fun _ h => h) fun _ _ h => h ▸ .nil
  | entry :: entries, _, h => by
    rw [DictEntry.objectsAll, Scene.admits_append] at h
    have hwrite : (writeEntries (entry :: entries) >>= fun _ => emit "]") =
        (emit "l" >>= fun _ => writeEntry entry >>= fun _ => emit "]") >>= fun _ =>
          writeEntries entries >>= fun _ => emit "]" := by
      simp only [writeEntries, bind_assoc]
    rw [hwrite]
    refine (Mirrors.items_cons (writeEntry_mirrors entry h.1) (writeEntries_mirrors entries h.2)
      rfl fun n => (reads_item n).loadEntry).conseq (fun _ h => h) ?_
    rintro σ _ ⟨e, es, rfl, he, hes⟩
    exact .cons he hes

theorem writeEntry_mirrors : ∀ (entry : DictEntry) {scene : Scene}, scene.Admits entry.objects →
    Mirrors scene (Begins ['l']) (emit "l" >>= fun _ => writeEntry entry >>= fun _ => emit "]")
      (loadEntry item) fun σ e => e.IsDictEntry σ entry
  | .pair key value, _, h => by
    rw [DictEntry.objects, Scene.admits_append] at h
    rw [writeEntry, bind_assoc]
    exact .entry_two (writeNode_mirrors key h.1) rfl
      (writeNode_mirrors value h.2).readNode
  | .splat mapping, _, h => .entry_one (writeNode_mirrors mapping h) rfl

theorem writeArgs_mirrors : ∀ (args : List KeywordArg) {scene : Scene},
    scene.Admits (KeywordArg.objectsAll args) → Mirrors scene Any
      (writeArgs args >>= fun _ => emit "]") (readUntil ']' (loadEntry item)) fun σ es =>
        List.Forall₂ (Entry.IsKeywordArg σ) es args
  | [], _, _ => (Mirrors.items_nil rfl rfl fun n => (reads_item n).loadEntry).conseq
    (fun _ h => h) fun _ _ h => h ▸ .nil
  | arg :: args, _, h => by
    rw [KeywordArg.objectsAll, Scene.admits_append] at h
    have hwrite : (writeArgs (arg :: args) >>= fun _ => emit "]") =
        (emit "l" >>= fun _ => writeArg arg >>= fun _ => emit "]") >>= fun _ =>
          writeArgs args >>= fun _ => emit "]" := by
      simp only [writeArgs, bind_assoc]
    rw [hwrite]
    refine (Mirrors.items_cons (writeArg_mirrors arg h.1) (writeArgs_mirrors args h.2)
      rfl fun n => (reads_item n).loadEntry).conseq (fun _ h => h) ?_
    rintro σ _ ⟨e, es, rfl, he, hes⟩
    exact .cons he hes

theorem writeArg_mirrors : ∀ (arg : KeywordArg) {scene : Scene}, scene.Admits arg.objects →
    Mirrors scene (Begins ['l']) (emit "l" >>= fun _ => writeArg arg >>= fun _ => emit "]")
      (loadEntry item) fun σ e => e.IsKeywordArg σ arg
  | .named name value, _, h => by
    rw [writeArg, bind_assoc]
    exact .entry_two (.str name) rfl (writeNode_mirrors value h).readNode
  | .splat mapping, _, h => .entry_one (writeNode_mirrors mapping h) rfl

theorem writeBlock_mirrors : ∀ (block : Block) {scene : Scene}, scene.Admits block.objects →
    Mirrors scene Any (writeBlock block) (loadBlock item)
      fun σ block' => block'.relabel .anonymous = block.relabel (.readBack σ)
  | ⟨stop, content⟩, scene, h => by
    refine .bind_eq (.loadOptLocation stop) (((writeNodes_mirrors content h).nodeList.map _).conseq
      (fun _ h => h) ?_)
    rintro σ _ ⟨content', hcontent, rfl⟩
    rw [Block.relabel, Block.relabel, hcontent]

end

end Templating.Wire
