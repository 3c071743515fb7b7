import Templating.Builtin.FunctionCall
import Templating.Proofs.Json.Scalar
import Templating.Proofs.Json.Writer
import Templating.Text.Blank

/-!
# Data read back from JSON

* `Value.nesting`: how deeply lists and dicts are nested.
* `reads_chars`: the text of data is read as the data, before whatever can follow it.
* `read_written`: so is the whole text, if the nesting is within the reader's limit.
* `json_roundTrip`: **`asjson` and `fromjson` are inverse on data**, and `asjson` fails exactly for
  what holds an iterator.
-/

namespace Templating

open Text

namespace Value

mutual

/-- How deeply lists and dicts are nested in a value. -/
def nesting : Value → Nat
  | .list items => nestingOf items + 1
  | .dict entries => nestingOfBound entries + 1
  | .none | .bool _ | .int _ | .float _ | .str _ | .date _ | .duration _ | .months _ | .color _
  | .template _ | .iterator _ => 0

/-- How deeply lists and dicts are nested in some values. -/
def nestingOf : List Value → Nat
  | [] => 0
  | item :: items => max item.nesting (nestingOf items)

/-- How deeply lists and dicts are nested in the bindings of a dict. -/
def nestingOfBound : List (String × Value) → Nat
  | [] => 0
  | (_, value) :: entries => max value.nesting (nestingOfBound entries)

end

variable {items : List Value} {entries : List (String × Value)} {depth : Nat}

theorem nestingOf_le_iff : nestingOf items ≤ depth ↔ ∀ x ∈ items, x.nesting ≤ depth := by
  induction items with
  | nil => simp [nestingOf]
  | cons x items ih => simp [nestingOf, ih]

theorem nestingOfBound_le_iff :
    nestingOfBound entries ≤ depth ↔ ∀ e ∈ entries, e.2.nesting ≤ depth := by
  induction entries with
  | nil => simp [nestingOfBound]
  | cons e entries ih => simp [nestingOfBound, ih]

/-- Below the limit there is room for a list, and one level less for its items. -/
theorem nesting_list_le_iff :
    (list items).nesting ≤ depth ↔ ∃ d, depth = d + 1 ∧ ∀ x ∈ items, x.nesting ≤ d := by
  rw [nesting]
  cases depth with
  | zero => simp
  | succ d => simp [nestingOf_le_iff]

theorem nesting_dict_le_iff :
    (dict entries).nesting ≤ depth ↔ ∃ d, depth = d + 1 ∧ ∀ e ∈ entries, e.2.nesting ≤ d := by
  rw [nesting]
  cases depth with
  | zero => simp
  | succ d => simp [nestingOfBound_le_iff]

end Value

namespace Json

open Parse

variable {v : Value} {depth : Nat} {nested? : Option (Parse Value)}

/-! ## Values before a rest -/

/-- A blank before a value does not count. -/
theorem valueWithin_blank (depth : Nat) (cs : List Char) (i : Nat) :
    valueWithin depth ⟨' ' :: cs, i⟩ = valueWithin depth ⟨cs, i + 1⟩ := by
  have hwith (nested? : Option (Parse Value)) :
      valueWith nested? ⟨' ' :: cs, i⟩ = valueWith nested? ⟨cs, i + 1⟩ := by
    unfold valueWith
    rw [bind_apply, bind_apply, peekToken?_blank]
  cases depth with
  | zero => exact hwith _
  | succ depth => exact hwith _

theorem reads_string (s : String) (S : List Char → Prop) :
    Reads (valueWith nested?) (scriptChars s.toList) S (.str s) :=
  .token rfl ((Reads.skip '"').before ((reads_quoted s).map rfl))

theorem reads_scalar (hv : v.IsScalar) :
    Reads (valueWith nested?) (chars v) (Leaves isNumberChar) v := by
  cases v with
  | none => exact .token rfl ((Reads.skip 'n').before ((Reads.word ['u', 'l', 'l']).map rfl))
  | bool b =>
    cases b with
    | false =>
      exact .token rfl ((Reads.skip 'f').before ((Reads.word ['a', 'l', 's', 'e']).map rfl))
    | true => exact .token rfl ((Reads.skip 't').before ((Reads.word ['r', 'u', 'e']).map rfl))
  | int n => exact reads_integer nested? n
  | str s =>
    rw [chars_str]
    exact reads_string s _
  | _ => exact hv.elim

/-- A key is read behind its quote, and the value behind a blank. -/
theorem entryChars_eq (e : String × Value) :
    entryChars e = '"' :: ((scriptChars e.1.toList).tail ++ ':' :: ' ' :: chars e.2) := by
  rw [entryChars, script, String.toList_ofList]
  rfl

theorem reads_colon : Reads colon [':'] Anything () := .token rfl (.skip ':')

theorem reads_entry {e : String × Value} {S : List Char → Prop}
    (h : Reads (valueWithin depth) (chars e.2) S e.2) :
    Reads (entry (valueWithin depth)) (entryChars e) S e := by
  have hvalue : Reads (valueWithin depth) (' ' :: chars e.2) S e.2 := by
    intro r hr i
    rw [List.cons_append, valueWithin_blank]
    exact h hr (i + 1)
  rw [entryChars_eq]
  exact (Reads.skip '"').before ((reads_quoted e.1).before (reads_colon.before (hvalue.map rfl)))

theorem fails_entry {e : String × Value} {S : List Char → Prop}
    (h : Fails (valueWithin depth) (chars e.2) S) :
    Fails (entry (valueWithin depth)) (entryChars e) S := by
  have hvalue : Fails (valueWithin depth) (' ' :: chars e.2) S := by
    intro r hr i
    rw [List.cons_append, valueWithin_blank]
    exact h hr (i + 1)
  rw [entryChars_eq]
  exact (Reads.skip '"').before_fails
    ((reads_quoted e.1).before_fails (reads_colon.before_fails hvalue.bind))

/-- What can stand behind a value inside a list or a dict continues no number. -/
theorem leaves_of_close {close c : Char} (hclose : isNumberChar close = false)
    (hc : c = ',' ∨ c = close) (r : List Char) : Leaves isNumberChar (c :: r) := by
  rcases hc with rfl | rfl
  · exact .cons rfl r
  · exact .cons hclose r

theorem isBlank_eq_false {c : Char} (hc : IsPrintable c) (hblank : c ≠ ' ') :
    isBlank c = false := by
  have hne : c.toNat ≠ 0x20 := fun h => hblank (Char.toNat_inj.1 h)
  obtain ⟨hlow, hhigh⟩ := hc
  have hascii : c.toNat < 0x80 := by omega
  have hrange : ¬ (9 ≤ c.toNat ∧ c.toNat ≤ 13) := by omega
  simpa [isBlank, hascii, hne] using hrange

theorem isGap_eq_false {c : Char} (hc : IsPrintable c) (hblank : c ≠ ' ') : isGap c = false := by
  have hne {d : Char} (hd : ¬ IsPrintable d) : c ≠ d := fun h => hd (h ▸ hc)
  have hline : c ≠ '\n' := hne (by decide)
  have htab : c ≠ '\t' := hne (by decide)
  have hreturn : c ≠ '\r' := hne (by decide)
  simp [isGap, hblank, hline, htab, hreturn]

/-- Data begins as an item of a list may begin. -/
theorem exists_opening (hv : v.IsData) :
    ∃ c cs, chars v = c :: cs ∧ isGap c = false ∧ c ≠ ']' := by
  obtain ⟨c, cs, hchars, hblank, hclose⟩ := exists_first hv
  have hprintable : IsPrintable c := isPrintable_of_mem_chars hv (hchars ▸ List.mem_cons_self)
  exact ⟨c, cs, hchars, isGap_eq_false hprintable hblank, hclose⟩

/-- **The text of data is read as the data**, before whatever continues no number. -/
theorem reads_chars (hv : v.IsData) (hproper : v.Proper) (hdepth : v.nesting ≤ depth) :
    Reads (valueWithin depth) (chars v) (Leaves isNumberChar) v := by
  have hiterator := hv.hasIterator
  unfold Value.IsData at hv
  -- the structure of the value decides; the depth shrinks with every list and dict
  induction hv generalizing depth with
  | atom _ hscalar =>
    cases depth with
    | zero => exact reads_scalar hscalar
    | succ depth => exact reads_scalar hscalar
  | @list items hitems ih =>
    obtain ⟨depth, rfl, hnesting⟩ := Value.nesting_list_le_iff.1 hdepth
    rw [Value.proper_list_iff] at hproper
    rw [chars_list hiterator]
    refine (Reads.token rfl ?_).anywhere
    refine (Reads.many separates_hasItem (fun x hx => ?_)
      (fun c hc r => leaves_of_close rfl hc r) '[').map rfl
    have hdata : x.IsData := hitems x hx
    exact ⟨exists_opening hdata, ih x hx (hproper x hx) (hnesting x hx) hdata.hasIterator⟩
  | @dict entries hentries ih =>
    obtain ⟨depth, rfl, hnesting⟩ := Value.nesting_dict_le_iff.1 hdepth
    rw [Value.proper_dict_iff] at hproper
    have hkeys : Bindings.ofList entries = entries := Bindings.ofList_of_nodup hproper.1
    rw [chars_dict hiterator]
    refine (Reads.token rfl ?_).anywhere
    refine (Reads.many separates_hasKey (fun e he => ?_)
      (fun c hc r => leaves_of_close rfl hc r) '\x7b').map (by rw [hkeys])
    have hdata : e.2.IsData := hentries e he
    have hvalue := ih e he (hproper.2 e he) (hnesting e he) hdata.hasIterator
    exact ⟨⟨'"', _, entryChars_eq e, rfl⟩, reads_entry hvalue⟩

/-- **The text of data that is nested too deeply is refused.** -/
theorem fails_chars (hv : v.IsData) (hproper : v.Proper) (hdepth : depth < v.nesting) :
    Fails (valueWithin depth) (chars v) (Leaves isNumberChar) := by
  have hiterator := hv.hasIterator
  unfold Value.IsData at hv
  -- a member that is nested too deeply is there, and those before it are read
  induction hv generalizing depth with
  | @atom a hatom _ =>
    have hzero : a.nesting = 0 := by cases a <;> first | rfl | exact hatom.elim
    omega
  | @list items hitems ih =>
    rw [Value.proper_list_iff] at hproper
    rw [chars_list hiterator]
    cases depth with
    | zero => exact (Reads.token_fails rfl fails_failNext).anywhere
    | succ depth =>
      refine (Reads.token_fails rfl ?_).anywhere
      have hreads (x : Value) (hx : x ∈ items) (h : x.nesting ≤ depth) :
          Reads (valueWithin depth) (chars x) (Leaves isNumberChar) x :=
        reads_chars (hitems x hx) (hproper x hx) h
      have hfails (x : Value) (hx : x ∈ items) (h : ¬ x.nesting ≤ depth) :
          Fails (valueWithin depth) (chars x) (Leaves isNumberChar) :=
        ih x hx (hproper x hx) (Nat.lt_of_not_le h) (Value.IsData.hasIterator (hitems x hx))
      have hdeep : ∃ x ∈ items, ¬ x.nesting ≤ depth := by
        by_contra! h
        exact Nat.not_le_of_lt hdepth (Value.nesting_list_le_iff.2 ⟨depth, rfl, h⟩)
      exact (Fails.many separates_hasItem (fun x hx => exists_opening (hitems x hx)) hreads hfails
        (fun c hc r => leaves_of_close rfl hc r) hdeep '[').bind
  | @dict entries hentries ih =>
    rw [Value.proper_dict_iff] at hproper
    rw [chars_dict hiterator]
    cases depth with
    | zero => exact (Reads.token_fails rfl fails_failNext).anywhere
    | succ depth =>
      refine (Reads.token_fails rfl ?_).anywhere
      have hreads (e : String × Value) (he : e ∈ entries) (h : e.2.nesting ≤ depth) :
          Reads (entry (valueWithin depth)) (entryChars e) (Leaves isNumberChar) e :=
        reads_entry (reads_chars (hentries e he) (hproper.2 e he) h)
      have hfails (e : String × Value) (he : e ∈ entries) (h : ¬ e.2.nesting ≤ depth) :
          Fails (entry (valueWithin depth)) (entryChars e) (Leaves isNumberChar) :=
        fails_entry (ih e he (hproper.2 e he) (Nat.lt_of_not_le h)
          (Value.IsData.hasIterator (hentries e he)))
      have hdeep : ∃ e ∈ entries, ¬ e.2.nesting ≤ depth := by
        by_contra! h
        exact Nat.not_le_of_lt hdepth (Value.nesting_dict_le_iff.2 ⟨depth, rfl, h⟩)
      exact (Fails.many separates_hasKey (fun e _ => ⟨'"', _, entryChars_eq e, rfl⟩) hreads hfails
        (fun c hc r => leaves_of_close rfl hc r) hdeep '\x7b').bind

/-! ## Whole texts -/

/-- The ends of the text of data are no blanks, so all of it is read. -/
theorem trim_written (hv : v.IsData) : trim (written v).toList = chars v := by
  have hprintable {x : Char} (hx : x ∈ chars v) : IsPrintable x := isPrintable_of_mem_chars hv hx
  obtain ⟨c, cs, hfirst, hc, -⟩ := exists_first hv
  obtain ⟨ds, d, hlast, hd⟩ := exists_last hv
  have htrim : trim ([] ++ chars v ++ []) = chars v :=
    trim_between (List.forall_mem_nil _) (by rw [hfirst]; rfl)
      (isBlank_eq_false (hprintable (by simp [hfirst])) hc) (by rw [hlast]; simp)
      (isBlank_eq_false (hprintable (by simp [hlast])) hd) (List.forall_mem_nil _)
  rwa [List.nil_append, List.append_nil] at htrim

theorem read_written (hv : v.IsData) (hproper : v.Proper) (hdepth : v.nesting ≤ maxNesting) :
    read (written v) = .ok v := by
  have hwhole : Reads whole (chars v ++ []) (fun r => r = []) v := by
    -- nothing is left behind the value
    refine (reads_chars hv hproper hdepth).bind (fun r hr i => ?_) fun r hr => ?_
    · subst hr
      exact ⟨i, rfl⟩
    · subst hr
      exact fun _ hc => nomatch hc
  obtain ⟨j, hj⟩ := hwhole rfl 0
  rw [List.append_nil, List.append_nil] at hj
  simp only [read, trim_written hv, EStateM.run, hj]

theorem read_written_fails (hv : v.IsData) (hproper : v.Proper) (hdepth : maxNesting < v.nesting) :
    ∃ e, read (written v) = .error e := by
  have hwhole : Fails whole (chars v) (Leaves isNumberChar) := (fails_chars hv hproper hdepth).bind
  obtain ⟨failure, cursor, hfailure⟩ := hwhole (r := []) (fun _ hc => nomatch hc) 0
  rw [List.append_nil] at hfailure
  refine ⟨failure.toError (chars v), ?_⟩
  simp only [read, trim_written hv, EStateM.run, hfailure]

end Json

/-! ## Calls -/

variable {v : Value}

theorem callFunction_asJson (ev : Evaluator) (v : Value) :
    callFunction ev "asjson" [v] = do return .str (← Eval.liftWire (Json.write v)) := rfl

theorem callFunction_fromJson (ev : Evaluator) (text : String) :
    callFunction ev "fromjson" [.str text] = Builtin.fromJson (.str text) := rfl

theorem fromJson_of_ok {text : String} (h : Json.read text = .ok v) (m : Machine) :
    Builtin.fromJson (.str text) m = .ok v m := by
  have htext : (Eval.lift (strArg "fromjson" (.str text))) m = .ok text m := rfl
  rw [Builtin.fromJson, bind_ok htext]
  simp only [h]
  rfl

theorem fromJson_of_error {text : String} {e : Json.Error} (h : Json.read text = .error e)
    (m : Machine) : ∃ abort, Builtin.fromJson (.str text) m = .error abort m := by
  have htext : (Eval.lift (strArg "fromjson" (.str text))) m = .ok text m := rfl
  rw [Builtin.fromJson, bind_ok htext]
  simp only [h]
  exact ⟨_, rfl⟩

/-- **JSON round trip.** `asjson` fails exactly for values with an iterator in them. Its text for
data is printable, and `fromjson` of the text is the data again, exactly if lists and dicts are not
nested more deeply than the reader goes. `Proper` asks for distinct keys in every dict, as the
operations on bindings keep them: no entry is read over another one. -/
theorem json_roundTrip (ev : Evaluator) (v : Value) (m : Machine) :
    ((∃ e m', callFunction ev "asjson" [v] m = .error e m') ↔ v.hasIterator = true) ∧
      (v.IsData → v.Proper → ∃ text : String,
        callFunction ev "asjson" [v] m = .ok (.str text) m ∧
        (∀ c ∈ text.toList, 0x20 ≤ c.toNat ∧ c.toNat ≤ 0x7f) ∧
        (callFunction ev "fromjson" [.str text] m = .ok v m ↔ v.nesting ≤ Json.maxNesting)) := by
  rw [callFunction_asJson]
  refine ⟨⟨?_, fun h => ?_⟩, fun hv hproper => ?_⟩
  · rintro ⟨e, m', herror⟩
    by_contra h
    obtain ⟨text, htext⟩ := Json.write_writes v (Bool.eq_false_of_not_eq_true h)
    rw [htext] at herror
    cases herror
  · rw [Json.write_refuses v h]
    exact ⟨_, m, rfl⟩
  · obtain ⟨text, htext⟩ := Json.write_writes v hv.hasIterator
    refine ⟨Json.written v, ?_, fun c hc => Json.isPrintable_of_mem_chars hv hc, ?_⟩
    · rw [Json.write_eq_written htext]
      rfl
    rw [callFunction_fromJson]
    by_cases hnesting : v.nesting ≤ Json.maxNesting
    · exact iff_of_true (fromJson_of_ok (Json.read_written hv hproper hnesting) m) hnesting
    · obtain ⟨e, he⟩ := Json.read_written_fails hv hproper (Nat.lt_of_not_le hnesting)
      obtain ⟨abort, hfails⟩ := fromJson_of_error he m
      refine iff_of_false (fun h => ?_) hnesting
      rw [hfails] at h
      cases h

/-- Both ends of the range of integers, and strings and keys with a quote, a control character and
a character outside the basic plane. -/
theorem json_roundTrip_nested :
    let v := Value.list [.int Int64.minValue, .int Int64.maxValue, .bool true, .none,
      .dict [("\"\\\n", .list [.str "\x00é😀"]), ("😀", .dict [])], .list []]
    v.hasIterator = false ∧ v.IsData ∧ v.Proper ∧ v.nesting = 3 ∧
      ∀ ev m, ∃ text : String, callFunction ev "asjson" [v] m = .ok (.str text) m ∧
        (∀ c ∈ text.toList, 0x20 ≤ c.toNat ∧ c.toNat ≤ 0x7f) ∧
        callFunction ev "fromjson" [.str text] m = .ok v m := by
  intro v
  have hint (n : Int64) : Value.MadeOf Value.IsScalar (.int n) := .atom trivial trivial
  have hstr (s : String) : Value.MadeOf Value.IsScalar (.str s) := .atom trivial trivial
  have hbool (b : Bool) : Value.MadeOf Value.IsScalar (.bool b) := .atom trivial trivial
  have hnone : Value.MadeOf Value.IsScalar .none := .atom trivial trivial
  have hv : v.IsData := by
    simp [v, Value.IsData, Value.madeOf_list_iff, Value.madeOf_dict_iff, hint, hstr, hbool, hnone]
  have hproper : v.Proper := by
    simp [v, Value.Proper, Value.AllProper, Value.AllProperBound]
  refine ⟨rfl, hv, hproper, rfl, fun ev m => ?_⟩
  obtain ⟨text, hwritten, hprintable, hread⟩ := (json_roundTrip ev v m).2 hv hproper
  exact ⟨text, hwritten, hprintable, hread.2 (by decide)⟩

end Templating
