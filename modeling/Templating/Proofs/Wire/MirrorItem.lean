import Templating.Proofs.Number.FloatText
import Templating.Proofs.Wire.Locality
import Templating.Proofs.Wire.Mirror

/-!
# Items in step

* `Mirrors.int`, `Mirrors.str`: integers and strings. A string is written out once, and then
  referred to.
* `Mirrors.loadAs`: an item of a certain type.
* `Mirrors.items`: items up to a closing character.
* `Mirrors.object`: an object with its tag and its fields.
-/

namespace Templating.Wire

open Text

variable {α β : Type} {scene : Scene} {S : List Char → Prop} {w : Write}

/-- An item begins with its code. -/
theorem load_code {r : Reader} {c : Char} {q : List Char} (h : r.rest = c :: q)
    (hc : isBlank c = false) : load .builtin r =
      loadCoded .builtin (load .builtin) r.offset c (r.behind [c] q) := by
  have hskip : skipBlanks r = .ok () r := by
    rw [skipBlanks_apply (p := []) h (by simp) (by simpa using hc)]
    obtain ⟨rest, offset, records, fresh⟩ := r
    cases h
    rfl
  rw [load_apply Registry.local_builtin, loadItem, bind_ok hskip, bind_ok (x := here) rfl,
    bind_ok (next?_cons h)]

theorem Reader.behind_behind (r : Reader) (p q rest rest' : List Char) :
    (r.behind p rest').behind q rest = r.behind (p ++ q) rest := by
  simp [Reader.behind, Nat.add_assoc]

/-! ## Integers -/

theorem word?_repr {n : Int} {w : Int64} (h : Number.ofInt? n = some w) :
    word? n.repr.toList = some w := by
  rw [word?, Decimal.readInt?_repr, Option.bind_some, h]

theorem count?_repr {n : Nat} (h : n < 0x10000000000000000) : count? n.repr.toList = some n := by
  rw [count?, Decimal.readUnsigned?_repr, Option.bind_some, if_pos h]

/-- The text of a number between a code and a bar. -/
theorem toList_coded (code : String) (c : Char) (h : code.toList = [c]) (digits : String) :
    (code ++ digits ++ "|").toList = c :: (digits.toList ++ ['|']) := by
  simp [h]

theorem Mirrors.int {n : Int} {word : Int64} (h : Number.ofInt? n = some word) :
    Mirrors scene (Begins ['i']) (writeInt n) (load .builtin)
      fun _ item => item = .value (.int word) := by
  have htext : (s!"i{n}|").toList = 'i' :: (n.repr.toList ++ ['|']) :=
    toList_coded "i" 'i' rfl n.repr
  refine Mirrors.written ⟨'i', by simp, _, htext⟩ fun r rest => ?_
  rw [htext, load_code (c := 'i') (q := n.repr.toList ++ '|' :: rest) (by simp [Reader.facing])
    rfl]
  rw [loadCoded, bind_ok (readNumber_apply rfl (Decimal.bar_not_mem_intRepr n) (word?_repr h))]
  simp only [Reader.behind_behind]
  rfl

/-! ## Strings -/

theorem getElem?_record (r : Reader) (item : Option Loaded) (i : Nat) :
    (r.record item).records[i]? = if i = r.records.size then some item else r.records[i]? :=
  Array.getElem?_push

/-- A new record leaves the others in place. -/
theorem getElem?_record_of_some {r : Reader} {i : Nat} {item item' : Option Loaded}
    (h : r.records[i]? = some item) : (r.record item').records[i]? = some item := by
  have hlt : i < r.records.size := (Array.getElem?_eq_some_iff.1 h).1
  rw [getElem?_record, if_neg (by omega), h]

/-- An item that is there behind a new record is the new one or was there before. -/
theorem of_getElem?_record {r : Reader} {new : Option Loaded} {i : Nat} {item : Loaded}
    (h : (r.record new).records[i]? = some (some item)) :
    i = r.records.size ∧ new = some item ∨ r.records[i]? = some (some item) := by
  rw [getElem?_record] at h
  split at h
  case isTrue hi => exact .inl ⟨hi, Option.some.inj h⟩
  case isFalse => exact .inr h

theorem lookup_cons {γ δ : Type} [BEq γ] [LawfulBEq γ] [DecidableEq γ] (x y : γ) (d : δ)
    (table : List (γ × δ)) :
    ((y, d) :: table).lookup x = if x = y then some d else table.lookup x := by
  rw [List.lookup_cons]
  by_cases h : x = y
  · simp [h]
  · have h' : (x == y) = false := by simpa using h
    simp [h, h']

theorem Synced.behind {s : Writer} {r : Reader} {names : List (Nat × Nat)}
    (h : Synced scene s r names) (p rest : List Char) : Synced scene s (r.behind p rest) names :=
  { h with }

/-- A template that has been read stays where it is, as long as the items of the reader do. -/
theorem Synced.template_stays {s : Writer} {r r' : Reader} {names : List (Nat × Nat)} {id i : Nat}
    (h : Synced scene s r names)
    (hstays : ∀ item, r.records[i]? = some (some item) → r'.records[i]? = some (some item))
    (hid : s.templates.lookup id = some i) : id ∈ scene.opened.map Prod.fst ∨
      ∃ t t', scene.known t ∧ t.id = id ∧ r'.records[i]? = some (some (.value (.template t'))) ∧
        ∀ σ, Follows σ names → t'.relabel .anonymous = t.relabel (.readBack σ) := by
  obtain hopened | ⟨t, t', hknown, heq, hat, hsame⟩ := h.template_at id i hid
  · exact .inl hopened
  · exact .inr ⟨t, t', hknown, heq, hstays _ hat, hsame⟩

/-- A string takes the next number on both sides. -/
theorem Synced.push_string {s : Writer} {r : Reader} {names : List (Nat × Nat)} {x out : String}
    (h : Synced scene s r names) (hx : s.strings.lookup x = none)
    (hout : s.records + 1 ≤ out.length) :
    Synced scene ⟨out, s.records + 1, (x, s.records) :: s.strings, s.templates⟩
      (r.record (some (.value (.str x)))) names := by
  have hsize := h.size
  refine { h with
    size := by simp [Reader.record, hsize]
    records_le := hout
    string_at := ?_
    string_numbered := ?_
    template_at := ?_
    template_numbered := ?_
    pending_at := ?_ }
  · intro y i hy
    simp only [lookup_cons] at hy
    split at hy
    · cases hy
      rw [getElem?_record, hsize]
      simp [*]
    · exact getElem?_record_of_some (h.string_at y i hy)
  · intro y i hy
    obtain ⟨rfl, hnew⟩ | hold := of_getElem?_record hy
    · obtain rfl : x = y := by simpa using hnew
      rw [lookup_cons, if_pos rfl, hsize]
    · have hat := h.string_numbered y i hold
      rw [lookup_cons, if_neg (by rintro rfl; simp [hx] at hat), hat]
  · exact fun id i => h.template_stays fun _ => getElem?_record_of_some
  · exact fun t' i hat => h.template_numbered t' i <|
      (of_getElem?_record hat).resolve_left (by simp)
  · exact fun i hi => getElem?_record_of_some (h.pending_at i hi)

/-- A reference is read as the record it names. -/
theorem load_reference (r : Reader) {i : Nat} {item : Loaded} (rest : List Char)
    (hi : i < 0x10000000000000000) (hat : r.records[i]? = some (some item)) :
    load .builtin (r.facing ('^' :: (i.repr.toList ++ ['|']) ++ rest)) =
      .ok item (r.behind ('^' :: (i.repr.toList ++ ['|'])) rest) := by
  rw [load_code (c := '^') (q := i.repr.toList ++ '|' :: rest) (by simp [Reader.facing]) rfl]
  rw [loadCoded, loadReference,
    bind_ok (readNumber_apply rfl (Decimal.bar_not_mem_repr i) (count?_repr hi)),
    bind_ok (x := get) rfl]
  simp only [Reader.behind_behind]
  simp only [Reader.behind, Reader.facing, hat]
  rfl

/-- **What is written as a reference** to a record is read as the item of the record. -/
theorem Synced.mirrors_reference {s : Writer} {r : Reader} {names : List (Nat × Nat)}
    {K : List Char} {i : Nat} {item : Loaded} {Q : (Nat → Nat) → Loaded → Prop}
    (h : Synced scene s r names)
    (hwrite : w s = .ok () { s with out := s.out ++ s!"^{i}|" })
    (hat : r.records[i]? = some (some item)) (hK : '^' ∈ K)
    (hQ : ∀ σ, Follows σ names → Q σ item) :
    ∃ s' text a r' names', w s = .ok () s' ∧ s'.out.toList = s.out.toList ++ text ∧
      Begins K text ∧ (s'.out.length < 0x10000000000000000 →
        ∀ rest, load .builtin (r.facing (text ++ rest)) = .ok a (r'.facing rest)) ∧
      Synced scene s' r' names' ∧ ∀ σ, Follows σ names' → Follows σ names ∧ Q σ a := by
  have htext : (s!"^{i}|").toList = '^' :: (i.repr.toList ++ ['|']) :=
    toList_coded "^" '^' rfl i.repr
  refine ⟨_, _, item, r.behind (s!"^{i}|").toList r.rest, names, hwrite, String.toList_append ..,
    ⟨'^', hK, _, htext⟩, fun hlen rest => ?_, h.of_emit _ rfl rfl, fun σ hσ => ⟨hσ, hQ σ hσ⟩⟩
  -- there are no more records than characters, so the number of one fits a word
  have hi : i < 0x10000000000000000 := by
    have hlt : i < r.records.size := (Array.getElem?_eq_some_iff.1 hat).1
    have hle := h.records_le
    rw [h.size] at hlt
    simp only [String.length_append] at hlen
    omega
  rw [htext]
  exact load_reference r rest hi hat

theorem writeStr_known {s : Writer} {x : String} {i : Nat} (h : s.strings.lookup x = some i) :
    writeStr x s = .ok () { s with out := s.out ++ s!"^{i}|" } := by
  rw [writeStr, bind_ok (x := get) rfl, h]
  rfl

theorem writeStr_new {s : Writer} {x : String} (h : s.strings.lookup x = none) :
    writeStr x s = .ok () ⟨s.out ++ (s!"S{x.length}|" ++ x), s.records + 1,
      (x, s.records) :: s.strings, s.templates⟩ := by
  rw [writeStr, bind_ok (x := get) rfl, h]
  rfl

theorem readString_apply {r : Reader} {x : String} {rest : List Char}
    (h : r.rest = x.length.repr.toList ++ '|' :: (x.toList ++ rest))
    (hx : x.length < 0x10000000000000000) :
    readString r = .ok x (r.behind (x.length.repr.toList ++ '|' :: x.toList) rest) := by
  have hchars := readText_apply (r := r.behind (x.length.repr.toList ++ ['|']) (x.toList ++ rest))
    rfl
  rw [String.length_toList, String.ofList_toList, Reader.behind_behind] at hchars
  rw [readString, bind_ok (readNumber_apply h (Decimal.bar_not_mem_repr x.length)
    (count?_repr hx)), hchars]
  simp

theorem load_string (r : Reader) {x : String} (rest : List Char)
    (hx : x.length < 0x10000000000000000) :
    load .builtin (r.facing ('S' :: (x.length.repr.toList ++ '|' :: x.toList) ++ rest)) =
      .ok (.value (.str x))
        ((r.behind ('S' :: (x.length.repr.toList ++ '|' :: x.toList)) rest).record
          (some (.value (.str x)))) := by
  have hrest : (r.facing ('S' :: (x.length.repr.toList ++ '|' :: x.toList) ++ rest)).rest =
      'S' :: (x.length.repr.toList ++ '|' :: (x.toList ++ rest)) := by simp [Reader.facing]
  have hread := readString_apply (r := (r.facing ('S' :: (x.length.repr.toList ++
    '|' :: x.toList) ++ rest)).behind ['S'] (x.length.repr.toList ++ '|' :: (x.toList ++ rest)))
    rfl hx
  rw [Reader.behind_behind] at hread
  have hload : loadString ((r.facing ('S' :: (x.length.repr.toList ++ '|' :: x.toList) ++
      rest)).behind ['S'] (x.length.repr.toList ++ '|' :: (x.toList ++ rest))) =
      .ok (.str x) ((r.behind ('S' :: (x.length.repr.toList ++ '|' :: x.toList)) rest).record
        (some (.value (.str x)))) := by
    rw [loadString, bind_ok hread]
    rfl
  rw [load_code hrest rfl, loadCoded, bind_ok hload, pure_apply]

theorem Mirrors.str (x : String) : Mirrors scene (Begins ['S', '^']) (writeStr x) (load .builtin)
    fun _ item => item = .value (.str x) := by
  intro s r names hsync
  cases hx : s.strings.lookup x with
  | some i =>
    exact hsync.mirrors_reference (writeStr_known hx) (hsync.string_at x i hx) (by decide)
      fun _ _ => rfl
  | none =>
    have htext : (s!"S{x.length}|" ++ x).toList =
        'S' :: (x.length.repr.toList ++ '|' :: x.toList) := by
      rw [String.toList_append]
      have hnum : (s!"S{x.length}|").toList = 'S' :: (x.length.repr.toList ++ ['|']) :=
        toList_coded "S" 'S' rfl x.length.repr
      rw [hnum]
      simp
    have hout : s.records + 1 ≤ (s.out ++ (s!"S{x.length}|" ++ x)).length := by
      have hle := hsync.records_le
      have := congrArg List.length htext
      simp only [String.length_toList, List.length_cons] at this
      rw [String.length_append]
      omega
    refine ⟨_, _, .value (.str x), (r.behind (s!"S{x.length}|" ++ x).toList r.rest).record
      (some (.value (.str x))), names, writeStr_new hx, String.toList_append ..,
      ⟨'S', by simp, _, htext⟩, fun hlen rest => ?_, ?_, fun _ h => ⟨h, rfl⟩⟩
    · have hx' : x.length < 0x10000000000000000 := by
        simp only [String.length_append] at hlen
        omega
      rw [htext]
      exact load_string r rest hx'
    · exact (hsync.behind _ _).push_string hx hout

/-! ## Items of a certain type -/

theorem Mirrors.loadAs {expected : String} {take? : Loaded → Option β}
    {Q : (Nat → Nat) → β → Prop}
    (h : Mirrors scene S w (load .builtin) fun σ item => ∃ b, take? item = some b ∧ Q σ b) :
    Mirrors scene S w (loadAs (load .builtin) expected take?) Q := by
  refine .here_bind fun start => h.bind_pure fun item ⟨_, b, hb, _⟩ => ⟨b, ?_, ?_⟩
  · rw [hb]
  · rintro σ ⟨b', hb', hQ⟩
    cases hb.symm.trans hb'
    exact hQ

theorem Mirrors.loadStr (x : String) : Mirrors scene (Begins ['S', '^']) (writeStr x)
    (loadStr (load .builtin)) fun _ y => y = x :=
  .loadAs <| (Mirrors.str x).conseq (fun _ => id) fun _ _ h => ⟨x, by rw [h], rfl⟩

theorem Mirrors.loadInt {n : Int} {word : Int64} (h : Number.ofInt? n = some word) :
    Mirrors scene (Begins ['i']) (writeInt n) (loadInt (load .builtin)) fun _ m => m = word :=
  .loadAs <| (Mirrors.int h).conseq (fun _ => id) fun _ _ h => ⟨word, by rw [h], rfl⟩

theorem Mirrors.loadPosition (p : UInt32) : Mirrors scene (Begins ['i']) (writeInt p.toNat)
    (loadPosition (load .builtin)) fun _ q => q = p := by
  have hlt := p.toNat_lt
  obtain ⟨word, hword, hint⟩ := Number.ofInt?_of_fits (n := p.toNat) (by constructor <;> omega)
  refine .here_bind fun start => (Mirrors.loadInt hword).bind_pure ?_
  rintro _ ⟨-, rfl⟩
  refine ⟨p, ?_, fun _ _ => rfl⟩
  rw [hint, if_pos (by constructor <;> omega), Int.toNat_natCast, UInt32.ofNat_toNat]

theorem Mirrors.loadChannel (c : UInt8) : Mirrors scene (Begins ['i']) (writeInt c.toNat)
    (loadChannel (load .builtin)) fun _ d => d = c := by
  have hlt := c.toNat_lt
  obtain ⟨word, hword, hint⟩ := Number.ofInt?_of_fits (n := c.toNat) (by constructor <;> omega)
  refine .here_bind fun start => (Mirrors.loadInt hword).bind_pure ?_
  rintro _ ⟨-, rfl⟩
  refine ⟨c, ?_, fun _ _ => rfl⟩
  rw [hint, if_pos (by constructor <;> omega), Int.toNat_natCast, UInt8.ofNat_toNat]

/-! ## Values with a code -/

/-- A code, and then what is read after it. -/
theorem Mirrors.coded {code : String} {c : Char} {Q : (Nat → Nat) → Loaded → Prop}
    (hcode : code.toList = [c]) (hc : isBlank c = false)
    (h : ∀ start, Mirrors scene Any w (loadCoded .builtin (load .builtin) start c) Q) :
    Mirrors scene (Begins [c]) (emit code >>= fun _ => w) (load .builtin) Q := by
  intro s r names hsync
  obtain ⟨s', text, a, r', names', hw, hout, -, hread, hsync', hσ⟩ :=
    h r.offset _ (r.behind [c] r.rest) names (hsync.of_emit code rfl rfl)
  refine ⟨s', c :: text, a, r', names', ?_, ?_, ⟨c, by simp, text, rfl⟩, fun hlen rest => ?_,
    hsync', hσ⟩
  · rw [bind_ok (x := emit code) rfl, hw]
  · rw [hout, String.toList_append, hcode, List.append_assoc, List.singleton_append]
  · rw [load_code (c := c) (q := text ++ rest) rfl hc]
    exact hread hlen rest

/-- A code, and then a text that is read without any record. -/
theorem Mirrors.code {text : String} {c : Char} {l : List Char} {item : Loaded}
    (htext : text.toList = c :: l) (hc : isBlank c = false)
    (h : ∀ start (r : Reader) rest, r.rest = l ++ rest →
      loadCoded .builtin (load .builtin) start c r = .ok item (r.behind l rest)) :
    Mirrors scene (Begins [c]) (emit text) (load .builtin) fun _ b => b = item := by
  refine Mirrors.written ⟨c, by simp, l, htext⟩ fun r rest => ?_
  rw [htext, load_code (c := c) (q := l ++ rest) rfl hc, h _ _ rest rfl, Reader.behind_behind]
  rfl

theorem loadDate_apply (d : Date) {start : Nat} {r : Reader} {rest : List Char}
    (h : r.rest = d.compact.toList ++ rest) :
    loadDate start r = .ok (.date d) (r.behind d.compact.toList rest) := by
  have htake : takeBytes? 20 r.rest = some d.compact.toList := by
    rw [h, ← d.length_compact]
    exact takeBytes?_digits (fun c hc => d.isDigit_of_mem_compact hc) rest
  rw [loadDate, bind_ok (x := get) rfl]
  simp only [htake, String.ofList_toList, d.ofCompact_compact]
  rw [bind_ok (x := modify _) rfl, Reader.skip_length h]
  rfl

/-- The K that literals begin with. -/
def literalCodes : List Char := ['n', 'b', 'i', 'f', 'S', '^', 't', 'T', 'm', 'c']

theorem Mirrors.bool (b : Bool) : Mirrors scene (Begins ['b']) (emit (if b then "bT" else "bF"))
    (load .builtin) fun _ item => item = .value (.bool b) := by
  have hnext (start : Nat) (c : Char) (r : Reader) (rest : List Char) (h : r.rest = [c] ++ rest)
      (hc : c = if b then 'T' else 'F') :
      loadCoded .builtin (load .builtin) start 'b' r =
        .ok (.value (.bool b)) (r.behind [c] rest) := by
    have hb : loadBool start r = .ok (.bool b) (r.behind [c] rest) := by
      rw [loadBool, bind_ok (next?_cons h)]
      cases b <;> simp [hc]
    rw [loadCoded, bind_ok hb, pure_apply]
  cases b with
  | true => exact .code (l := ['T']) rfl rfl fun start r rest h => hnext start 'T' r rest h rfl
  | false => exact .code (l := ['F']) rfl rfl fun start r rest h => hnext start 'F' r rest h rfl

theorem Mirrors.absent : Mirrors scene (Begins ['n']) writeNone (load .builtin)
    fun _ item => item = .value .none :=
  .code (l := []) rfl rfl fun start r rest h => by
    obtain ⟨rest', offset, records, fresh⟩ := r
    cases h
    rfl

theorem Mirrors.float (x : Float) :
    Mirrors scene (Begins ['f']) (emit ("f" ++ Decimal.floatRepr x ++ "|")) (load .builtin)
      fun _ item => item = .value (.float x) := by
  refine .code (toList_coded "f" 'f' rfl _) rfl fun start r rest h => ?_
  rw [List.append_assoc, List.singleton_append] at h
  rw [loadCoded, bind_ok (readNumber_apply h (Decimal.bar_not_mem_floatRepr x)
    (Decimal.readFloat?_floatRepr x)), pure_apply]

theorem Mirrors.date (d : Date) : Mirrors scene (Begins ['t']) (emit ("t" ++ d.compact))
    (load .builtin) fun _ item => item = .value (.date d) := by
  refine .code (l := d.compact.toList) (by simp) rfl fun start r rest h => ?_
  rw [loadCoded, bind_ok (loadDate_apply d h), pure_apply]

theorem Mirrors.duration (d : Duration) :
    Mirrors scene (Begins ['T']) (writeLiteral (.duration d)) (load .builtin)
      fun _ item => item = .value (.duration d) := by
  have hs := d.seconds_lt
  have hm := d.micros_lt
  simp only [secondsPerDay, microsPerSecond] at hs hm
  obtain ⟨seconds, hseconds, hsint⟩ := Number.ofInt?_of_fits (n := d.seconds)
    (by constructor <;> omega)
  obtain ⟨micros, hmicros, hmint⟩ := Number.ofInt?_of_fits (n := d.micros)
    (by constructor <;> omega)
  refine .coded rfl rfl fun start => ?_
  rw [loadCoded, loadDuration, bind_assoc]
  refine .bind_eq (.loadInt (Number.ofInt?_toInt d.days)) ?_
  rw [bind_assoc]
  refine .bind_eq (.loadInt hseconds) ?_
  rw [bind_assoc]
  refine (Mirrors.loadInt hmicros).any.bind_pure fun m ⟨_, hm⟩ => ?_
  refine ⟨.value (.duration d), ?_, fun _ _ => rfl⟩
  rw [hm, hsint, hmint, Duration.ofParts?_self]
  rfl

theorem Mirrors.months (m : Months) :
    Mirrors scene (Begins ['m']) (writeLiteral (.months m)) (load .builtin)
      fun _ item => item = .value (.months m) := by
  refine .coded rfl rfl fun start => ?_
  rw [loadCoded]
  refine ((Mirrors.loadInt (Number.ofInt?_toInt m.count)).any.map _).conseq (fun _ => id) ?_
  rintro _ _ ⟨_, rfl, rfl⟩
  rfl

theorem Mirrors.color (c : Color) :
    Mirrors scene (Begins ['c']) (writeLiteral (.color c)) (load .builtin)
      fun _ item => item = .value (.color c) := by
  refine .coded rfl rfl fun start => ?_
  rw [loadCoded, loadColor, bind_assoc]
  refine .bind_eq (.loadChannel c.r) ?_
  rw [bind_assoc]
  refine .bind_eq (.loadChannel c.g) ?_
  rw [bind_assoc]
  refine .bind_eq (.loadChannel c.b) ?_
  rw [bind_assoc]
  refine (Mirrors.loadChannel c.a).any.bind_pure fun a ⟨_, ha⟩ => ?_
  exact ⟨.value (.color c), by rw [ha]; rfl, fun _ _ => rfl⟩

/-- A literal is read back as the value it stands for. -/
theorem Mirrors.literal (l : Literal) :
    Mirrors scene (Begins literalCodes) (writeLiteral l) (load .builtin)
      fun _ item => item = .value (.ofLiteral l) := by
  cases l with
  | none => exact Mirrors.absent.conseq (fun _ h => h.mono (by decide)) fun _ _ => id
  | bool b => exact (Mirrors.bool b).conseq (fun _ h => h.mono (by decide)) fun _ _ => id
  | int n =>
    exact (Mirrors.int (Number.ofInt?_toInt n)).conseq (fun _ h => h.mono (by decide))
      fun _ _ => id
  | float x => exact (Mirrors.float x).conseq (fun _ h => h.mono (by decide)) fun _ _ => id
  | str s => exact (Mirrors.str s).conseq (fun _ h => h.mono (by decide)) fun _ _ => id
  | date d => exact (Mirrors.date d).conseq (fun _ h => h.mono (by decide)) fun _ _ => id
  | duration d => exact (Mirrors.duration d).conseq (fun _ h => h.mono (by decide)) fun _ _ => id
  | months m => exact (Mirrors.months m).conseq (fun _ h => h.mono (by decide)) fun _ _ => id
  | color c => exact (Mirrors.color c).conseq (fun _ h => h.mono (by decide)) fun _ _ => id

/-! ## Items up to a closing character -/

section Items

variable {text : String} {close : Char} {K : List Char} {item : Read α} {w₁ w₂ : Write}
  {P : (Nat → Nat) → α → Prop} {R : (Nat → Nat) → List α → Prop}

theorem Mirrors.items_nil (htext : text.toList = [close]) (hclose : isBlank close = false)
    (hreads : ∀ n, Reads n .eats item item) :
    Mirrors scene Any (emit text) (readUntil close item) fun _ as => as = [] := by
  rw [funext (readUntil_apply hreads)]
  refine (Mirrors.ends htext hclose).any.bind_pure fun b ⟨_, hb⟩ => ⟨[], ?_, fun _ _ => rfl⟩
  rw [if_pos hb]

theorem Mirrors.items_cons (hitem : Mirrors scene (Begins K) w₁ item P)
    (hrest : Mirrors scene Any w₂ (readUntil close item) R)
    (hcodes : K.all fun c => !isBlank c && c != close)
    (hreads : ∀ n, Reads n .eats item item) :
    Mirrors scene Any (w₁ >>= fun _ => w₂) (readUntil close item)
      fun σ as => ∃ a as', as = a :: as' ∧ P σ a ∧ R σ as' := by
  rw [funext (readUntil_apply hreads)]
  refine (Mirrors.closes_false_bind (hitem.begins_bind fun a _ => hrest.map _) hcodes).conseq
    (fun _ _ => trivial) ?_
  rintro σ _ ⟨a, ha, as, has, rfl⟩
  exact ⟨a, as, rfl, ha, has⟩

end Items

/-! ## Objects -/

/-- Builds an object from its fields, with a number of new identities from the next one on. -/
def built (build : α → Nat → Loaded) (count : Nat) (fields : α) : Read Loaded := fun r =>
  .ok (build fields r.fresh) { r with fresh := r.fresh + count }

/-- An object from its code to its end. -/
theorem object_apply {tag : String} {loader : Loader} {fields : Write} {x : Read α}
    {build : α → Nat → Loaded} {k : Nat} {Q : (Nat → Nat) → α → Prop}
    (hloader : Registry.builtin.get? tag = some loader)
    (hbuild : loader (load .builtin) (shortTag tag) = x >>= built build k)
    (hx : Mirrors scene Any fields x Q) {s : Writer} {r : Reader} {names : List (Nat × Nat)}
    (hsync : Synced scene { s with out := s.out ++ "O" } (r.record none) names) :
    ∃ s' text a r' names', (do emit "O"; writeStr tag; fields; endObject : Write) s = .ok () s' ∧
      s'.out.toList = s.out.toList ++ text ∧ Begins ['O'] text ∧
      (s'.out.length < 0x10000000000000000 → ∀ rest, load .builtin (r.facing (text ++ rest)) =
        .ok (build a r'.fresh) (({ r' with fresh := r'.fresh + k }.complete r.records.size
          (build a r'.fresh)).facing rest)) ∧
      Synced scene s' r' names' ∧ ∀ σ, Follows σ names' → Follows σ names ∧ Q σ a := by
  obtain ⟨s₁, text₁, tag', r₁, names₁, hw₁, hout₁, -, hread₁, hsync₁, hσ₁⟩ :=
    Mirrors.loadStr tag _ _ names (hsync.behind ['O'] [])
  obtain ⟨σ, hfollows⟩ := exists_follows hsync₁.olds_nodup
  obtain rfl : tag' = tag := (hσ₁ σ hfollows).2
  obtain ⟨s₂, text₂, a, r₂, names₂, hw₂, hout₂, -, hread₂, hsync₂, hσ₂⟩ := hx s₁ r₁ names₁ hsync₁
  refine ⟨{ s₂ with out := s₂.out ++ ")" }, 'O' :: (text₁ ++ text₂ ++ [')']), a,
    r₂.behind [')'] [], names₂, ?_, ?_, ⟨'O', by simp, _, rfl⟩, fun hlen rest => ?_,
    hsync₂.of_emit ")" rfl rfl, fun σ h => ⟨(hσ₁ σ (hσ₂ σ h).1).1, (hσ₂ σ h).2⟩⟩
  · rw [bind_ok (x := emit "O") rfl, bind_ok hw₁, bind_ok hw₂]
    rfl
  · simp [hout₂, hout₁]
  · have hlen₂ : s₂.out.length < 0x10000000000000000 := by
      simp only [String.length_append] at hlen
      omega
    have hlen₁ : s₁.out.length < 0x10000000000000000 := by
      have := congrArg List.length hout₂
      simp only [String.length_toList, List.length_append] at this
      omega
    have hclose : expect ')' ({ r₂ with fresh := r₂.fresh + k }.facing (')' :: rest)) =
        .ok () (({ r₂ with fresh := r₂.fresh + k }.facing (')' :: rest)).behind [')'] rest) :=
      expect_apply rfl rfl
    have hfields : loader (load .builtin) (shortTag tag') (r₁.facing (text₂ ++ ')' :: rest)) =
        .ok (build a r₂.fresh) ({ r₂ with fresh := r₂.fresh + k }.facing (')' :: rest)) := by
      rw [hbuild, bind_ok (hread₂ hlen₂ (')' :: rest))]
      rfl
    rw [load_code (c := 'O') (q := text₁ ++ (text₂ ++ ')' :: rest)) (by simp [Reader.facing]) rfl,
      loadCoded, loadObject, bind_ok (x := get) rfl, bind_ok (x := modify _)
      (t := ((r.record none).behind ['O'] []).facing (text₁ ++ (text₂ ++ ')' :: rest))) rfl,
      bind_ok (hread₁ hlen₁ (text₂ ++ ')' :: rest))]
    simp only [hloader]
    rw [bind_ok hfields, bind_ok hclose]
    rfl

section Objects

variable {s : Writer} {r : Reader} {names : List (Nat × Nat)} {index : Nat}

/-- The next number belongs to none of the objects that are being written. -/
theorem Synced.size_not_pending (h : Synced scene s r names) :
    r.records.size ∉ scene.pending := by
  intro hmem
  obtain ⟨hlt, -⟩ := Array.getElem?_eq_some_iff.1 (h.pending_at _ hmem)
  exact Nat.lt_irrefl _ hlt

/-- The code of an object makes room for one more record. -/
theorem Synced.records_lt_length (h : Synced scene s r names) :
    s.records + 1 ≤ (s.out ++ "O").length := by
  rw [String.length_append]
  exact Nat.add_le_add_right h.records_le 1

/-- An object begins: it takes the next number on both sides. -/
theorem Synced.begin_object {out : String} (h : Synced scene s r names)
    (hout : s.records + 1 ≤ out.length) :
    Synced { scene with pending := r.records.size :: scene.pending }
      { s with out, records := s.records + 1 } (r.record none) names := by
  refine { h with
    size := by simp [Reader.record, h.size]
    records_le := hout
    string_at := fun x i hx => getElem?_record_of_some (h.string_at x i hx)
    string_numbered := ?_
    template_at := ?_
    template_numbered := ?_
    pending_at := ?_ }
  · exact fun x i hat => h.string_numbered x i <|
      (of_getElem?_record hat).resolve_left (by simp)
  · exact fun id i => h.template_stays fun _ => getElem?_record_of_some
  · exact fun t' i hat => h.template_numbered t' i <|
      (of_getElem?_record hat).resolve_left (by simp)
  · intro i hi
    rcases List.mem_cons.1 hi with rfl | hi
    · rw [getElem?_record, if_pos rfl]
    · exact getElem?_record_of_some (h.pending_at i hi)

/-- A template begins: the writer remembers it under its number. -/
theorem Synced.open_template {id : Nat} (index : Nat) (h : Synced scene s r names)
    (hid : s.templates.lookup id = none) :
    Synced { scene with opened := (id, index) :: scene.opened }
      { s with templates := (id, index) :: s.templates } r names := by
  have hother {id' i} (h' : s.templates.lookup id' = some i) : id' ≠ id := by
    rintro rfl
    rw [hid] at h'
    cases h'
  refine { h with opened_at := ?_, template_at := ?_, template_numbered := ?_, named := ?_ }
  · intro p hp
    simp only [lookup_cons]
    rcases List.mem_cons.1 hp with rfl | hp
    · rw [if_pos rfl]
    · have hat := h.opened_at p hp
      rw [if_neg (hother hat), hat]
  · intro id' i hid'
    simp only [lookup_cons] at hid'
    split at hid'
    · exact .inl (by simp [*])
    · exact (h.template_at id' i hid').imp_left fun hmem => List.mem_cons_of_mem _ hmem
  · intro t' i hat
    obtain ⟨id', hid', hmem⟩ := h.template_numbered t' i hat
    refine ⟨id', ?_, hmem⟩
    rw [lookup_cons, if_neg (hother hid'), hid']
  · intro p hp
    obtain ⟨hsome, hclosed⟩ := h.named p hp
    obtain ⟨i, hi⟩ := Option.isSome_iff_exists.1 hsome
    refine ⟨?_, ?_⟩
    · rw [lookup_cons, if_neg (hother hi), hi]
      rfl
    · simpa using ⟨hother hi, by simpa using hclosed⟩

theorem getElem?_complete {i : Nat} (item : Loaded) (hindex : r.records[index]? = some none) :
    (r.complete index item).records[i]? =
      if i = index then some (some item) else r.records[i]? := by
  have hlt : index < r.records.size := (Array.getElem?_eq_some_iff.1 hindex).1
  rw [Reader.complete, Array.getElem?_setIfInBounds]
  by_cases h : index = i
  · simp [← h, hlt]
  · rw [if_neg h, if_neg (Ne.symm h)]

/-- Completing an object leaves the other records in place. -/
theorem getElem?_complete_of_some {i : Nat} {item item' : Loaded}
    (hindex : r.records[index]? = some none) (h : r.records[i]? = some (some item)) :
    (r.complete index item').records[i]? = some (some item) := by
  rw [getElem?_complete _ hindex, if_neg (by rintro rfl; simp [hindex] at h), h]

/-- An item that is there when an object is completed is the object or was there before. -/
theorem of_getElem?_complete {i : Nat} {new item : Loaded}
    (hindex : r.records[index]? = some none)
    (h : (r.complete index new).records[i]? = some (some item)) :
    i = index ∧ new = item ∨ r.records[i]? = some (some item) := by
  rw [getElem?_complete _ hindex] at h
  split at h
  case isTrue hi => exact .inl ⟨hi, Option.some.inj (Option.some.inj h)⟩
  case isFalse => exact .inr h

/-- Completing an object completes none of those around it. -/
theorem Synced.pending_stays {outer : List Nat} {item : Loaded} (h : Synced scene s r names)
    (hpending : scene.pending = index :: outer) (hindex : index ∉ outer) {i : Nat}
    (hi : i ∈ outer) : (r.complete index item).records[i]? = some none := by
  have hmem {j : Nat} (hj : j ∈ index :: outer) : r.records[j]? = some none :=
    h.pending_at j (hpending ▸ hj)
  have hne : i ≠ index := by
    rintro rfl
    exact hindex hi
  rw [getElem?_complete _ (hmem List.mem_cons_self), if_neg hne, hmem (List.mem_cons_of_mem _ hi)]

/-- An object ends that is neither a string nor a template. -/
theorem Synced.end_object {item : Loaded} {count : Nat}
    (h : Synced { scene with pending := index :: scene.pending } s r names)
    (hindex : index ∉ scene.pending) (hstr : ∀ x, item ≠ .value (.str x))
    (htemplate : ∀ t, item ≠ .value (.template t)) :
    Synced scene s ({ r with fresh := r.fresh + count }.complete index item) names := by
  have hat : r.records[index]? = some none := h.pending_at index List.mem_cons_self
  refine { h with
    size := by simp [Reader.complete, h.size]
    string_at := fun x i hx => getElem?_complete_of_some hat (h.string_at x i hx)
    string_numbered := ?_
    template_at := ?_
    template_numbered := ?_
    pending_at := ?_
    news_range := fun p hp => ⟨(h.news_range p hp).1, ?_⟩
    base_le := Nat.le_add_right_of_le h.base_le }
  · exact fun x i hx => h.string_numbered x i <|
      (of_getElem?_complete hat hx).resolve_left fun hnew => hstr x hnew.2
  · exact fun id i => h.template_stays fun _ => getElem?_complete_of_some hat
  · exact fun t' i hi => h.template_numbered t' i <|
      (of_getElem?_complete hat hi).resolve_left fun hnew => htemplate t' hnew.2
  · exact fun i => h.pending_stays rfl hindex
  · exact Nat.lt_add_right count (h.news_range p hp).2

/-- A template ends: its old and its new identity are known from now on. -/
theorem Synced.end_template {t t' : Template}
    (h : Synced { scene with opened := (t.id, index) :: scene.opened,
                             pending := index :: scene.pending } s r names)
    (hindex : index ∉ scene.pending) (hclosed : t.id ∉ scene.opened.map Prod.fst)
    (hknown : scene.known t) (hnew : t'.id = r.fresh)
    (hsame : ∀ σ, Follows σ names → σ t.id = r.fresh →
      t'.relabel .anonymous = t.relabel (.readBack σ)) :
    Synced scene s ({ r with fresh := r.fresh + 1 }.complete index (.value (.template t')))
      ((t.id, r.fresh) :: names) := by
  have hat : r.records[index]? = some none := h.pending_at index List.mem_cons_self
  have hlookup : s.templates.lookup t.id = some index := h.opened_at _ List.mem_cons_self
  refine
    { size := by simp [Reader.complete, h.size]
      records_le := h.records_le
      string_at := fun x i hx => getElem?_complete_of_some hat (h.string_at x i hx)
      string_numbered := ?_
      opened_at := fun p hp => h.opened_at p (List.mem_cons_of_mem _ hp)
      template_at := ?_
      template_numbered := ?_
      pending_at := ?_
      named := ?_
      olds_nodup := ?_
      news_nodup := ?_
      news_range := ?_
      base_le := Nat.le_add_right_of_le h.base_le }
  · exact fun x i hx => h.string_numbered x i <|
      (of_getElem?_complete hat hx).resolve_left (by simp)
  · intro id i hid
    simp only [Follows, List.forall_mem_cons]
    have hstays (item : Loaded) (hitem : r.records[i]? = some (some item)) :
        (Reader.complete { r with fresh := r.fresh + 1 } index
          (.value (.template t'))).records[i]? = some (some item) :=
      getElem?_complete_of_some hat hitem
    obtain hopened | ⟨t₀, t₀', hknown₀, heq, hi, hsame₀⟩ := h.template_stays hstays hid
    · obtain rfl | hopened := List.mem_cons.1 hopened
      · -- the template that ends has the number that it began with
        obtain rfl : i = index := Option.some.inj (hid.symm.trans hlookup)
        have hi := (getElem?_complete (i := i) (.value (.template t')) hat).trans (if_pos rfl)
        exact .inr ⟨t, t', hknown, rfl, hi, fun σ hσ => hsame σ hσ.2 hσ.1⟩
      · exact .inl hopened
    · exact .inr ⟨t₀, t₀', hknown₀, heq, hi, fun σ hσ => hsame₀ σ hσ.2⟩
  · intro t₀' i hi
    obtain ⟨rfl, heq⟩ | hold := of_getElem?_complete hat hi
    · obtain rfl : t' = t₀' := by simpa using heq
      exact ⟨t.id, hlookup, by simp [hnew]⟩
    · obtain ⟨id, hid, hmem⟩ := h.template_numbered t₀' i hold
      exact ⟨id, hid, List.mem_cons_of_mem _ hmem⟩
  · exact fun i => h.pending_stays rfl hindex
  · simp only [List.forall_mem_cons]
    refine ⟨⟨by simp [hlookup], hclosed⟩, fun p hp => ⟨(h.named p hp).1, fun hmem => ?_⟩⟩
    exact (h.named p hp).2 (List.mem_cons_of_mem _ hmem)
  · rw [List.map_cons, List.nodup_cons]
    refine ⟨fun hmem => ?_, h.olds_nodup⟩
    obtain ⟨p, hp, heq⟩ := List.mem_map.1 hmem
    exact (h.named p hp).2 (by simp [heq])
  · -- the identities that were given so far are below the next one
    rw [List.map_cons, List.nodup_cons]
    refine ⟨fun hmem => ?_, h.news_nodup⟩
    obtain ⟨p, hp, heq⟩ := List.mem_map.1 hmem
    exact Nat.ne_of_lt (h.news_range p hp).2 heq
  · simp only [List.forall_mem_cons]
    refine ⟨⟨h.base_le, Nat.lt_succ_self _⟩, fun p hp => ?_⟩
    exact ⟨(h.news_range p hp).1, Nat.lt_succ_of_lt (h.news_range p hp).2⟩

end Objects

/-- An object that is neither a string nor a template. -/
theorem Mirrors.object {tag : String} {loader : Loader} {fields : Write} {x : Read α}
    {b : α → Nat → Loaded} {n : Nat} {Q : (Nat → Nat) → α → Prop}
    (hloader : Registry.builtin.get? (typePrefix ++ tag) = some loader)
    (hbuild : loader (load .builtin) (shortTag (typePrefix ++ tag)) = x >>= built b n)
    (hx : ∀ pending, Mirrors { scene with pending } Any fields x Q)
    (hstr : ∀ a id y, b a id ≠ .value (.str y))
    (htemplate : ∀ a id t, b a id ≠ .value (.template t)) :
    Mirrors scene (Begins ['O']) (do beginObject tag; fields; endObject) (load .builtin)
      fun σ item => ∃ a id, item = b a id ∧ Q σ a := by
  intro s r names hsync
  obtain ⟨s', text, a, r', names', hw, htext, hbegins, hread, hsync', hσ⟩ :=
    object_apply (s := { s with records := s.records + 1 }) hloader hbuild (hx _)
      (hsync.begin_object hsync.records_lt_length)
  refine ⟨s', text, b a r'.fresh, _, names', ?_, htext, hbegins, hread,
    hsync'.end_object hsync.size_not_pending (hstr a _) (htemplate a _),
    fun σ h => ⟨(hσ σ h).1, a, _, rfl, (hσ σ h).2⟩⟩
  rw [← hw, beginObject, bind_assoc, bind_ok (x := number _) rfl, bind_assoc]

/-! ## Locations -/

theorem shortTag_typePrefix (tag : String) : shortTag (typePrefix ++ tag) = tag := by
  simp [shortTag]

theorem built_zero (build : α → Nat → Loaded) (f : α → Loaded) (h : ∀ a id, build a id = f a) :
    built build 0 = fun a => Pure.pure (f a) := by
  funext a r
  rw [built, h]
  rfl

/-- A string or `None`. -/
theorem Mirrors.loadOptStr (x : Option String) :
    Mirrors scene (Begins ['n', 'S', '^']) (writeOptStr x) (loadOptStr (load .builtin))
      fun _ y => y = x := by
  refine .loadAs ?_
  cases x with
  | none =>
    refine Mirrors.absent.conseq (fun _ h => h.mono (by decide)) ?_
    rintro _ _ rfl
    exact ⟨none, rfl, rfl⟩
  | some x =>
    refine (Mirrors.str x).conseq (fun _ h => h.mono (by decide)) ?_
    rintro _ _ rfl
    exact ⟨some x, rfl, rfl⟩

theorem Mirrors.locationFields (l : Location) :
    Mirrors scene Any (do
      writeStr l.source
      writeOptStr l.tagType
      writeInt l.tag.start.toNat
      writeInt l.tag.stop.toNat
      writeInt l.code.start.toNat
      writeInt l.code.stop.toNat) (loadLocationFields (load .builtin)) fun _ m => m = l := by
  refine .bind_eq (.loadStr l.source) <| .bind_eq (.loadOptStr l.tagType) <|
    .bind_eq (.loadPosition l.tag.start) <| .bind_eq (.loadPosition l.tag.stop) <|
    .bind_eq (.loadPosition l.code.start) ?_
  refine (Mirrors.loadPosition l.code.stop).any.bind_pure fun p ⟨_, hp⟩ => ⟨l, ?_, fun _ _ => rfl⟩
  rw [hp]

theorem Mirrors.location (l : Location) :
    Mirrors scene (Begins ['O']) (writeLocation l) (load .builtin)
      fun _ item => item = .location l := by
  have hobject : Mirrors scene _ _ _ _ := Mirrors.object (b := fun l _ => .location l) (n := 0)
    Registry.get?_builtin_location (by rw [built_zero _ Loaded.location fun _ _ => rfl]; rfl)
    (fun _ => Mirrors.locationFields l) (by simp) (by simp)
  have hwrite : writeLocation l = beginObject "location" >>= fun _ => (do
      writeStr l.source
      writeOptStr l.tagType
      writeInt l.tag.start.toNat
      writeInt l.tag.stop.toNat
      writeInt l.code.start.toNat
      writeInt l.code.stop.toNat) >>= fun _ => endObject := by
    simp only [writeLocation, bind_assoc]
  rw [hwrite]
  refine hobject.conseq (fun _ => id) ?_
  rintro σ _ ⟨m, -, rfl, rfl⟩
  rfl

theorem Mirrors.loadLocation (l : Location) :
    Mirrors scene (Begins ['O']) (writeLocation l) (loadLocation (load .builtin))
      fun _ m => m = l :=
  .loadAs <| (Mirrors.location l).conseq (fun _ => id) fun _ _ h => ⟨l, by rw [h], rfl⟩

/-- A location or `None`. -/
theorem Mirrors.loadOptLocation (l : Option Location) :
    Mirrors scene (Begins ['n', 'O']) (writeOptLocation l) (loadOptLocation (load .builtin))
      fun _ m => m = l := by
  refine .loadAs ?_
  cases l with
  | none =>
    refine Mirrors.absent.conseq (fun _ h => h.mono (by decide)) ?_
    rintro _ _ rfl
    exact ⟨none, rfl, rfl⟩
  | some l =>
    refine (Mirrors.location l).conseq (fun _ h => h.mono (by decide)) ?_
    rintro _ _ rfl
    exact ⟨some l, rfl, rfl⟩

end Templating.Wire
