import Templating.Proofs.Value.Bindings
import Templating.Proofs.Wire.MirrorNode
import Templating.Proofs.Wire.Rename
import Templating.Proofs.Wire.Sound
import Templating.Proofs.Wire.Writes

/-!
# Reading back what was written

* `writeValue_mirrors`: a value without iterators is read as it was written, with other identities.
* `writeValues_mirrors`: the same for values that are written one after another.
* `exists_renaming`: a numbering of identities is part of a renaming.
* `Mirrors.run`: what is written from the beginning is read from the beginning.
* `plain_values_round_trip`: **values without templates**, one after another.
* `value_round_trip`: **all values that can be written**, with their sharing.
* `loads_robust`: **any text** is read or refused at a position in it.
-/

namespace Templating.Wire

/-! ## Values in step -/

section Values

variable {scene : Scene}

/-- The K that values begin with. -/
def valueCodes : List Char := literalCodes ++ ['l', 'd', 'O']

theorem Mirrors.readValue {S : List Char → Prop} {w : Write} {v : Value}
    (h : Mirrors scene S w item fun σ loaded =>
      ∃ v', loaded = .value v' ∧ v'.relabel .anonymous = v.relabel (.readBack σ)) :
    Mirrors scene S w (loadValue item) fun σ v' =>
      v'.relabel .anonymous = v.relabel (.readBack σ) :=
  .loadAs <| h.conseq (fun _ h => h) fun _ _ ⟨v', h, h'⟩ => ⟨v', by rw [h], h'⟩

theorem Mirrors.literalValue (l : Literal) :
    Mirrors scene (Begins valueCodes) (writeLiteral l) item fun σ loaded =>
      ∃ v', loaded = .value v' ∧
        v'.relabel .anonymous = (Value.ofLiteral l).relabel (.readBack σ) := by
  refine (Mirrors.literal l).conseq (fun _ h => h.mono (by decide)) ?_
  rintro σ _ rfl
  exact ⟨_, rfl, by cases l <;> rfl⟩

theorem relabelBindings_keys {f g : Relabel} {pairs entries : List (String × Value)}
    (h : Value.relabelBindings f pairs = Value.relabelBindings g entries) :
    pairs.map Prod.fst = entries.map Prod.fst := by
  have := congrArg (List.map Prod.fst) h
  simpa [Value.relabelBindings_eq, Function.comp_def] using this

mutual

theorem writeValue_mirrors : ∀ (v : Value) {scene : Scene}, scene.Admits v.objects →
    v.hasIterator = false → v.Proper →
    Mirrors scene (Begins valueCodes) (writeValue v) item fun σ loaded =>
      ∃ v', loaded = .value v' ∧ v'.relabel .anonymous = v.relabel (.readBack σ)
  | .none, _, _, _, _ => .literalValue .none
  | .bool b, _, _, _, _ => .literalValue (.bool b)
  | .int n, _, _, _, _ => .literalValue (.int n)
  | .float x, _, _, _, _ => .literalValue (.float x)
  | .str s, _, _, _, _ => .literalValue (.str s)
  | .date d, _, _, _, _ => .literalValue (.date d)
  | .duration d, _, _, _, _ => .literalValue (.duration d)
  | .months m, _, _, _, _ => .literalValue (.months m)
  | .color c, _, _, _, _ => .literalValue (.color c)
  | .list items, _, h, hi, hp => by
    refine (Mirrors.coded (c := 'l') rfl rfl fun start =>
      (writeItems_mirrors items h hi hp).map fun vs => Loaded.value (.list vs)).conseq
      (fun _ h => h.mono (by decide)) ?_
    rintro σ _ ⟨items', hitems, rfl⟩
    exact ⟨_, rfl, by rw [Value.relabel, Value.relabel, hitems]⟩
  | .dict entries, _, h, hi, hp => by
    refine (Mirrors.coded (c := 'd') rfl rfl fun start =>
      (writeBindings_mirrors entries h hi hp.2).map
        fun ps => Loaded.value (.dict (Bindings.ofList ps))).conseq
      (fun _ h => h.mono (by decide)) ?_
    rintro σ _ ⟨pairs, hpairs, rfl⟩
    have hnodup : (pairs.map Prod.fst).Nodup := by
      rw [relabelBindings_keys hpairs]
      exact hp.1
    rw [Bindings.ofList_of_nodup hnodup]
    exact ⟨_, rfl, by rw [Value.relabel, Value.relabel, hpairs]⟩
  | .template t, _, h, _, _ => by
    refine (writeTemplate_mirrors t h).conseq (fun _ h => h.mono (by decide)) ?_
    rintro σ _ ⟨t', rfl, ht⟩
    exact ⟨_, rfl, by rw [Value.relabel, Value.relabel, ht]⟩

theorem writeItems_mirrors : ∀ (items : List Value) {scene : Scene},
    scene.Admits (Value.objectsAll items) → Value.anyIterator items = false →
    Value.AllProper items → Mirrors scene Any (writeValues items >>= fun _ => emit "]")
      (readUntil ']' (loadValue item)) fun σ items' =>
        Value.relabelAll .anonymous items' = Value.relabelAll (.readBack σ) items
  | [], _, _, _, _ => (Mirrors.items_nil rfl rfl fun n => (reads_item n).loadAs).conseq
    (fun _ h => h) fun _ _ h => by rw [h]; rfl
  | v :: items, _, h, hi, hp => by
    rw [Value.objectsAll, Scene.admits_append] at h
    rw [Value.anyIterator, Bool.or_eq_false_iff] at hi
    rw [writeValues, bind_assoc]
    refine (Mirrors.items_cons (writeValue_mirrors v h.1 hi.1 hp.1).readValue
      (writeItems_mirrors items h.2 hi.2 hp.2) rfl fun n => (reads_item n).loadAs).conseq
      (fun _ h => h) ?_
    rintro σ _ ⟨v', items', rfl, hv, hitems⟩
    rw [Value.relabelAll, Value.relabelAll, hv, hitems]

theorem writeBindings_mirrors : ∀ (entries : List (String × Value)) {scene : Scene},
    scene.Admits (Value.objectsBindings entries) → Value.anyIteratorBound entries = false →
    Value.AllProperBound entries →
    Mirrors scene Any (writeBindings entries >>= fun _ => emit "\x7d")
      (readUntil '\x7d' (loadPair item)) fun σ entries' =>
        Value.relabelBindings .anonymous entries' = Value.relabelBindings (.readBack σ) entries
  | [], _, _, _, _ => (Mirrors.items_nil rfl rfl fun n => (reads_item n).loadPair).conseq
    (fun _ h => h) fun _ _ h => by rw [h]; rfl
  | (key, v) :: entries, _, h, hi, hp => by
    rw [Value.objectsBindings, Scene.admits_append] at h
    rw [Value.anyIteratorBound, Bool.or_eq_false_iff] at hi
    have hwrite : (writeBindings ((key, v) :: entries) >>= fun _ => emit "\x7d") =
        (writeStr key >>= fun _ => writeValue v) >>= fun _ =>
          writeBindings entries >>= fun _ => emit "\x7d" := by
      simp only [writeBindings, bind_assoc]
    rw [hwrite]
    refine (Mirrors.items_cons (K := ['S', '^']) ((Mirrors.loadStr key).begins_bind
        fun key' _ => (writeValue_mirrors v h.1 hi.1 hp.1).readValue.any.map (Prod.mk key'))
      (writeBindings_mirrors entries h.2 hi.2 hp.2) rfl
      fun n => (reads_item n).loadPair).conseq (fun _ h => h) ?_
    rintro σ _ ⟨_, entries', rfl, ⟨_, rfl, v', hv, rfl⟩, hentries⟩
    rw [Value.relabelBindings, Value.relabelBindings, hv, hentries]

end

/-- Reads some values one after another. -/
def loadValues (load : Read Loaded) : Nat → Read (List Value)
  | 0 => return []
  | n + 1 => do
    let v ← loadValue load
    let vs ← loadValues load n
    return v :: vs

/-- Values that are written one after another are read one after another. -/
theorem writeValues_mirrors (vs : List Value) (h : scene.Admits (Value.objectsAll vs))
    (hi : Value.anyIterator vs = false) (hp : Value.AllProper vs) :
    Mirrors scene Any (writeValues vs) (loadValues item vs.length) fun σ ws =>
      Value.relabelAll .anonymous ws = Value.relabelAll (.readBack σ) vs := by
  induction vs with
  | nil => exact (Mirrors.pure []).conseq (fun _ h => h) fun _ _ h => by rw [h]; rfl
  | cons v vs ih =>
    rw [Value.objectsAll, Scene.admits_append] at h
    rw [Value.anyIterator, Bool.or_eq_false_iff] at hi
    refine ((writeValue_mirrors v h.1 hi.1 hp.1).readValue.bind fun v' _ =>
      (ih h.2 hi.2 hp.2).map (List.cons v')).conseq (fun _ h => h) ?_
    rintro σ _ ⟨v', hv, ws, hws, rfl⟩
    rw [Value.relabelAll, Value.relabelAll, hv, hws]

end Values

open Text

/-! ## Renamings that follow a numbering -/

theorem Follows.cons {σ : Nat → Nat} {p : Nat × Nat} {names : List (Nat × Nat)} :
    Follows σ (p :: names) ↔ σ p.1 = p.2 ∧ Follows σ names := List.forall_mem_cons

/-- A numbering in which no identity occurs twice is part of a renaming that keeps different
identities different. It can leave alone what does not occur. -/
theorem exists_renaming {names : List (Nat × Nat)} (holds : (names.map Prod.fst).Nodup)
    (hnews : (names.map Prod.snd).Nodup) :
    ∃ σ : Nat → Nat, Function.Injective σ ∧ Follows σ names ∧
      ((∀ p ∈ names, ∀ q ∈ names, p.1 ≠ q.2) →
        ∀ i, (∀ p ∈ names, i ≠ p.1 ∧ i ≠ p.2) → σ i = i) := by
  induction names with
  | nil => exact ⟨id, Function.injective_id, by simp [Follows], by simp⟩
  | cons p names ih =>
    rw [List.map_cons, List.nodup_cons] at holds hnews
    obtain ⟨σ, hσ, hfollows, hrest⟩ := ih holds.2 hnews.2
    -- each name is put in place by a swap, which leaves the names before it where they are
    refine ⟨fun i => Equiv.swap (σ p.1) p.2 (σ i), (Equiv.injective _).comp hσ,
      Follows.cons.2 ⟨Equiv.swap_apply_left _ _, fun q hq => ?_⟩, fun hapart i hi => ?_⟩
    · have hold : q.1 ≠ p.1 := fun h => holds.1 (h ▸ List.mem_map_of_mem hq)
      have hnew : q.2 ≠ p.2 := fun h => hnews.1 (h ▸ List.mem_map_of_mem hq)
      have hother : σ q.1 ≠ σ p.1 := fun h => hold (hσ h)
      rw [hfollows q hq] at hother
      change Equiv.swap (σ p.1) p.2 (σ q.1) = q.2
      rw [hfollows q hq]
      exact Equiv.swap_apply_of_ne_of_ne hother hnew
    · rw [List.forall_mem_cons] at hi
      have hkeep := hrest fun p hp q hq =>
        hapart p (List.mem_cons_of_mem _ hp) q (List.mem_cons_of_mem _ hq)
      have hp : σ p.1 = p.1 := hkeep p.1 fun q hq =>
        ⟨fun h => holds.1 (h ▸ List.mem_map_of_mem hq),
          hapart p List.mem_cons_self q (List.mem_cons_of_mem _ hq)⟩
      change Equiv.swap (σ p.1) p.2 (σ i) = i
      rw [hkeep i hi.2, hp]
      exact Equiv.swap_apply_of_ne_of_ne hi.1.1 hi.1.2

/-! ## Whole texts -/

/-- The templates among some objects, none of which is being written. -/
def Scene.whole (os : List Object) (h : Coherent os) (base : Nat) : Scene where
  known t := Object.template t ∈ os
  coherent := h
  opened := []
  pending := []
  base := base

theorem Scene.admits_whole {os : List Object} (h : Coherent os) (base : Nat) :
    (Scene.whole os h base).Admits os := fun _ ht => ⟨ht, List.not_mem_nil⟩

theorem Synced.start {os : List Object} (h : Coherent os) (base : Nat) (rest : List Char) :
    Synced (.whole os h base) .start ⟨rest, 0, #[], base⟩ [] where
  size := rfl
  records_le := Nat.zero_le _
  string_at := by simp [Writer.start]
  string_numbered := by simp
  opened_at := by simp [Scene.whole]
  template_at := by simp [Writer.start]
  template_numbered := by simp
  pending_at := by simp [Scene.whole]
  named := by simp
  olds_nodup := by simp
  news_nodup := by simp
  news_range := by simp
  base_le := Nat.le_refl base

/-- Whatever is written from the beginning is read from the beginning. -/
theorem Mirrors.run {α : Type} {os : List Object} {h : Coherent os} {base : Nat}
    {shape : List Char → Prop} {w : Write} {x : Read α} {Q : (Nat → Nat) → α → Prop}
    (hmirrors : Mirrors (.whole os h base) shape w x Q) :
    ∃ s a r names, w .start = .ok () s ∧ Synced (.whole os h base) s r names ∧
      (∀ σ, Follows σ names → Q σ a) ∧
      (s.out.length < 0x10000000000000000 →
        ∀ rest, x ⟨s.out.toList ++ rest, 0, #[], base⟩ = .ok a (r.facing rest)) := by
  obtain ⟨s, text, a, r, names, hw, hout, -, hread, hsync, hσ⟩ :=
    hmirrors _ _ _ (Synced.start h base [])
  obtain rfl : s.out.toList = text := hout
  exact ⟨s, a, r, names, hw, hsync, fun σ h => (hσ σ h).2, hread⟩

/-- No string and no template is recorded twice. -/
def Reader.Distinct (r : Reader) : Prop :=
  (∀ (i j : Nat) x, r.records[i]? = some (some (.value (.str x))) →
    r.records[j]? = some (some (.value (.str x))) → i = j) ∧
  ∀ (i j : Nat) t u, r.records[i]? = some (some (.value (.template t))) →
    r.records[j]? = some (some (.value (.template u))) → t.id = u.id → i = j

theorem Synced.distinct {scene : Scene} {s : Writer} {r : Reader} {names : List (Nat × Nat)}
    (h : Synced scene s r names) : r.Distinct := by
  refine ⟨fun i j x hi hj => ?_, fun i j t u hi hj hid => ?_⟩
  · have heq := (h.string_numbered x i hi).symm.trans (h.string_numbered x j hj)
    exact Option.some.inj heq
  · obtain ⟨old, hold, hnames⟩ := h.template_numbered t i hi
    obtain ⟨old', hold', hnames'⟩ := h.template_numbered u j hj
    rw [hid] at hnames
    obtain rfl : old = old' := congrArg Prod.fst
      (List.inj_on_of_nodup_map h.news_nodup hnames hnames' rfl)
    exact Option.some.inj (hold.symm.trans hold')

theorem anonymous_injective : Function.Injective Relabel.anonymous.template := Function.injective_id

/-- A value that was read back is written in the same way. -/
theorem dumps_readBack {v v' : Value} {σ : Nat → Nat} (hσ : Function.Injective σ)
    (h : v'.relabel .anonymous = v.relabel (.readBack σ)) : dumps v' = dumps v := by
  rw [← dumps_relabel anonymous_injective v', h, dumps_relabel hσ v]

/-- At the end, what was named is a template of the whole. -/
theorem Synced.old_mem {os : List Object} {h : Coherent os} {base : Nat} {s : Writer} {r : Reader}
    {names : List (Nat × Nat)} (hsync : Synced (.whole os h base) s r names) {p : Nat × Nat}
    (hp : p ∈ names) : ∃ t, .template t ∈ os ∧ t.id = p.1 := by
  obtain ⟨i, hi⟩ := Option.isSome_iff_exists.1 (hsync.named p hp).1
  rcases hsync.template_at p.1 i hi with hopen | ⟨t, -, hknown, hid, -⟩
  · cases hopen
  · exact ⟨t, hknown, hid⟩

/-- A value is read back from its text. -/
theorem loadValue_dumps (v : Value) (hcoherent : Coherent v.objects)
    (hiterator : v.hasIterator = false) (hproper : v.Proper) (fresh : Nat) :
    ∃ text, dumps v = .ok text ∧ (text.length < 0x10000000000000000 → ∃ v' r names,
        loadValue (load .builtin) (.ofText text fresh) = .ok v' r ∧
        loads? text fresh = .ok (v', r.fresh) ∧ r.Distinct ∧
        (names.map Prod.fst).Nodup ∧ (names.map Prod.snd).Nodup ∧
        (∀ p ∈ names, (∃ t, .template t ∈ v.objects ∧ t.id = p.1) ∧
          fresh ≤ p.2 ∧ p.2 < r.fresh) ∧
        ∀ σ, Follows σ names → v'.relabel .anonymous = v.relabel (.readBack σ)) := by
  obtain ⟨s, v', r, names, hs, hsync, hσ, hread⟩ :=
    (writeValue_mirrors v (Scene.admits_whole hcoherent fresh) hiterator hproper).readValue.run
  refine ⟨s.out, by rw [dumps, written, EStateM.run, hs], fun hsize => ?_⟩
  have hvalue : loadValue (load .builtin) (.ofText s.out fresh) = .ok v' (r.facing []) := by
    have := hread hsize []
    rwa [List.append_nil] at this
  have hfinish : finish (r.facing []) = .ok () (r.facing []) := rfl
  refine ⟨v', r.facing [], names, hvalue, ?_, hsync.distinct, hsync.olds_nodup, hsync.news_nodup,
    fun p hp => ⟨hsync.old_mem hp, hsync.news_range p hp⟩, hσ⟩
  have hwhole : loadWhole (.ofText s.out fresh) = .ok v' (r.facing []) := by
    rw [loadWhole, bind_ok hvalue, bind_ok hfinish]
    rfl
  rw [loads?_eq, hwhole]

theorem Reads.loadValues (n k : Nat) : Reads n .firm (loadValues item k) (loadValues item k) := by
  induction k with
  | zero => exact .pure []
  | succ k ih =>
    exact ((reads_item n).loadAs.bind (m := .firm) fun v => ih.bind (m := .firm) fun vs =>
      .pure (v :: vs)).firm

/-- **A value is read back from its text with its sharing**: only nodes and templates get new
identities, different templates different ones. The text writes no string and no template twice. -/
theorem value_round_trip (v : Value) (hcoherent : Coherent v.objects)
    (hiterator : v.hasIterator = false) (hproper : v.Proper) (fresh : Nat) :
    ∃ text, dumps v = .ok text ∧ (∀ t, v = .template t → dumpsTemplate t = .ok text) ∧
      (text.length < 0x10000000000000000 → ∃ v' r σ,
        loadValue (load .builtin) (.ofText text fresh) = .ok v' r ∧ r.Distinct ∧
        loads? text fresh = .ok (v', r.fresh) ∧
        (∀ t, v = .template t →
          ∃ t', v' = .template t' ∧ loadsTemplate? text fresh = .ok (t', r.fresh)) ∧
        Function.Injective σ ∧ v'.relabel .anonymous = v.relabel (.readBack σ) ∧
        Coherent v'.objects ∧ dumps v' = .ok text) := by
  obtain ⟨text, htext, hread⟩ := loadValue_dumps v hcoherent hiterator hproper fresh
  refine ⟨text, htext, fun t ht => by rw [← htext, ht]; rfl, fun hsize => ?_⟩
  obtain ⟨v', r, names, hvalue, hloads, hdistinct, holds, hnews, -, hσ⟩ := hread hsize
  obtain ⟨σ, hinjective, hfollows, -⟩ := exists_renaming holds hnews
  have hsame := hσ σ hfollows
  refine ⟨v', r, σ, hvalue, hdistinct, hloads, fun t ht => ?_, hinjective, hsame, ?_, ?_⟩
  · subst ht
    rw [Value.relabel] at hsame
    cases v' with
    | template t' => exact ⟨t', rfl, by rw [loadsTemplate?, hloads]; rfl⟩
    | _ => cases hsame
  · exact (of_loads?_ok hloads).2.2.2
  · rw [dumps_readBack hinjective hsame, htext]

/-- A list in which a template occurs twice. -/
theorem value_round_trip_pair : ∃ text v' fresh',
    dumps (.list [.template ⟨3, none, "ab", none, "<?", "?>", ⟨none, []⟩⟩,
      .template ⟨3, none, "ab", none, "<?", "?>", ⟨none, []⟩⟩]) = .ok text ∧
    loads? text 7 = .ok (v', fresh') ∧ dumps v' = .ok text := by
  obtain ⟨text, htext, -, hread⟩ := value_round_trip
    (.list [.template ⟨3, none, "ab", none, "<?", "?>", ⟨none, []⟩⟩,
      .template ⟨3, none, "ab", none, "<?", "?>", ⟨none, []⟩⟩])
    (by
      intro t u ht hu _
      simp only [Value.objects, Value.objectsAll, Template.objects, Block.objects, Node.objectsAll,
        List.append_nil, List.cons_append, List.nil_append, List.mem_cons, Object.template.injEq,
        List.not_mem_nil, or_false, or_self] at ht hu
      rw [ht, hu])
    rfl ⟨trivial, trivial, trivial⟩ 7
  have hsize : text.length < 0x10000000000000000 := by
    obtain rfl := Except.ok.inj (htext.symm.trans rfl)
    -- counting bytes decodes nothing
    exact Nat.lt_of_le_of_lt (Text.length_le_utf8ByteSize _) (by decide +kernel)
  obtain ⟨v', r, -, -, -, hloads, -, -, -, -, hdumps⟩ := hread hsize
  exact ⟨text, v', r.fresh, htext, hloads, hdumps⟩

/-- A template is read back apart from everything that had an identity before. -/
theorem loadsTemplate?_dumpsTemplate (t : Template) (hcoherent : Coherent t.objects) {fresh : Nat}
    (hbelow : ∀ o ∈ t.objects, o.id < fresh) :
    ∃ text, dumpsTemplate t = .ok text ∧ (text.length < 0x10000000000000000 → ∃ t' fresh' σ,
      loadsTemplate? text fresh = .ok (t', fresh') ∧ fresh ≤ fresh' ∧
      (∀ o ∈ t'.objects, fresh ≤ o.id ∧ o.id < fresh') ∧ Function.Injective σ ∧
      t'.relabel .anonymous = t.relabel (.readBack σ) ∧
      ∀ i, (∀ u, .template u ∈ t.objects → u.id ≠ i) → (i < fresh ∨ fresh' ≤ i) → σ i = i) := by
  obtain ⟨text, htext, hread⟩ := loadValue_dumps (.template t) hcoherent rfl trivial fresh
  refine ⟨text, htext, fun hsize => ?_⟩
  obtain ⟨v', r, names, -, hloads, -, holds, hnews, hnames, hσ⟩ := hread hsize
  obtain ⟨σ, hinjective, hfollows, hrest⟩ := exists_renaming holds hnews
  have hsame := hσ σ hfollows
  rw [Value.relabel] at hsame
  obtain ⟨-, hfresh, hrange, -⟩ := of_loads?_ok hloads
  cases v' with
  | template t' =>
    refine ⟨t', r.fresh, σ, by rw [loadsTemplate?, hloads]; rfl, hfresh, hrange, hinjective,
      Value.template.inj hsame, fun i hi hout => hrest (fun p hp q hq heq => ?_) i fun p hp => ?_⟩
    · obtain ⟨u, hu, hid⟩ := (hnames p hp).1
      have hold : u.id < fresh := hbelow _ hu
      have hnew := (hnames q hq).2.1
      omega
    · obtain ⟨⟨u, hu, hid⟩, hlow, hhigh⟩ := hnames p hp
      have hne := hi u hu
      omega
  | _ => cases hsame

/-- **Reading any text ends well**: an error is reported at a position in the text, an item is read
in the same way before any other continuation, and a value that is read can be written and is read
back from that text with other templates. -/
theorem loads_robust (text : String) (fresh : Nat) :
    (∀ offset message, loads? text fresh = .error (.malformed offset message) →
      ∃ before after, text = before ++ after ∧ offset = before.utf8ByteSize) ∧
    (∀ r item r', load .builtin r = .ok item r' → ∃ p, r.rest = p ++ r'.rest ∧
      r'.offset = r.offset + byteLength p ∧
      ∀ other, load .builtin (r.facing (p ++ other)) = .ok item (r'.facing other)) ∧
    load .builtin = loadItem .builtin (load .builtin) ∧
    ∀ v fresh', loads? text fresh = .ok (v, fresh') → v.hasIterator = false ∧
      ∃ text', dumps v = .ok text' ∧ (text'.length < 0x10000000000000000 → ∃ v' fresh'' σ,
        loads? text' fresh' = .ok (v', fresh'') ∧ Function.Injective σ ∧
        v'.relabel .anonymous = v.relabel ⟨fun _ => 0, σ, false⟩ ∧ dumps v' = .ok text') := by
  refine ⟨fun offset message h => ?_, fun r item r' h => ?_, load_unfold Registry.local_builtin,
    fun v fresh' h => ?_⟩
  · obtain ⟨p, rest, hp, hoffset⟩ := of_loads?_error h offset message rfl
    refine ⟨String.ofList p, String.ofList rest, ?_, ?_⟩
    · rw [← String.toList_inj, String.toList_append, String.toList_ofList, String.toList_ofList, hp]
    · rw [← byteLength_toList, String.toList_ofList, hoffset]
  · obtain ⟨p, hp, hoffset, -, hlocal⟩ := (reads_item r.rest.length r (Nat.le_refl _)).2 item r' h
    exact ⟨p, hp, hoffset, fun other => hlocal other (by simp)⟩
  · obtain ⟨⟨htidy, hiterator, hproper⟩, -, -, hcoherent⟩ := of_loads?_ok h
    refine ⟨hiterator, ?_⟩
    obtain ⟨text', htext', hread⟩ := loadValue_dumps v hcoherent hiterator hproper fresh'
    refine ⟨text', htext', fun hsize => ?_⟩
    obtain ⟨v', r, names, -, hloads, -, holds, hnews, -, hσ⟩ := hread hsize
    obtain ⟨σ, hinjective, hfollows, -⟩ := exists_renaming holds hnews
    have hsame := hσ σ hfollows
    refine ⟨v', r.fresh, σ, hloads, hinjective, ?_, by
      rw [dumps_readBack hinjective hsame, htext']⟩
    have htwice : (v.relabel .tidied).relabel ⟨fun _ => 0, σ, false⟩ = v.relabel (.readBack σ) :=
      Value.relabel_relabel v
    rw [hsame, ← htwice, htidy]

/-- A reference to nothing is reported at its code, and blanks are not written again. -/
theorem loads_robust_list :
    (∃ before after, "l^0|]" = before ++ after ∧ 1 = before.utf8ByteSize) ∧
    ∃ text, dumps (.list [.str "a", .str "a"]) = .ok text := by
  have hbad : loads? "l^0|]" 0 = .error (.malformed 1 "unknown backreference 0") := rfl
  have hgood : loads? "l S1|a ^0| ]" 0 = .ok (.list [.str "a", .str "a"], 0) := by cbv
  refine ⟨(loads_robust "l^0|]" 0).1 1 _ hbad, ?_⟩
  obtain ⟨-, text, htext, -⟩ := (loads_robust "l S1|a ^0| ]" 0).2.2.2 _ 0 hgood
  exact ⟨text, htext⟩

end Templating.Wire
