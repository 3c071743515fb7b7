import Templating.Json.Writer
import Templating.Proofs.Value.Members
import Templating.Proofs.Value.Printable
import Templating.Proofs.Wire.Writes

/-!
# The text of a value for scripts

* `write_writes`, `write_refuses`: writing fails exactly for a value with an iterator in it.
* `Value.IsData`: `None`, truth values, integers and strings, in lists and dicts.
* `chars_list`, `chars_dict`: the texts of lists and dicts from those of their members.
* `isPrintable_of_mem_chars`: **their texts are printable**, whatever the strings and keys are.
* `exists_first`, `exists_last`: no blank stands at the ends of their texts.
-/

namespace Templating

open Text

variable {v : Value} {items : List Value} {entries : List (String × Value)} {c x : Char}

namespace Json

/-- The text of a value; empty if there is none. -/
def written (v : Value) : String := (write v).toOption.getD ""

/-- A key and the text of its value. -/
def writtenEntry (e : String × Value) : String := script e.1 ++ ": " ++ written e.2

theorem write_eq_written {text : String} (h : write v = .ok text) : write v = .ok (written v) := by
  rw [written, h]
  rfl

mutual

theorem write_writes : ∀ v : Value, v.hasIterator = false → ∃ text, write v = .ok text
  | .none, _ | .bool _, _ | .int _, _ | .float _, _ | .str _, _ | .date _, _ | .duration _, _
  | .months _, _ | .color _, _ => ⟨_, rfl⟩
  | .list items, h => ⟨_, by rw [write, writeItems_writes items h]; rfl⟩
  | .dict entries, h => ⟨_, by rw [write, writeEntries_writes entries h]; rfl⟩
  | .template t, _ => by
    obtain ⟨text, htext⟩ := (Wire.writeTemplate_writes t).exists_written
    exact ⟨_, by rw [write, templateText, Wire.dumpsTemplate, htext]; rfl⟩

theorem writeItems_writes : ∀ items : List Value, Value.anyIterator items = false →
    writeItems items = .ok (items.map written)
  | [], _ => rfl
  | item :: items, h => by
    rw [Value.anyIterator, Bool.or_eq_false_iff] at h
    obtain ⟨text, htext⟩ := write_writes item h.1
    rw [writeItems, write_eq_written htext, writeItems_writes items h.2]
    rfl

theorem writeEntries_writes : ∀ entries : List (String × Value),
    Value.anyIteratorBound entries = false →
      writeEntries entries = .ok (entries.map writtenEntry)
  | [], _ => rfl
  | (key, value) :: entries, h => by
    rw [Value.anyIteratorBound, Bool.or_eq_false_iff] at h
    obtain ⟨text, htext⟩ := write_writes value h.1
    rw [writeEntries, write_eq_written htext, writeEntries_writes entries h.2]
    rfl

end

mutual

theorem write_refuses : ∀ v : Value, v.hasIterator = true →
    write v = .error (.notSerializable "iterator")
  | .list items, h => by
    rw [write, writeItems_refuses items h]
    rfl
  | .dict entries, h => by
    rw [write, writeEntries_refuses entries h]
    rfl
  | .iterator _, _ => rfl

theorem writeItems_refuses : ∀ items : List Value, Value.anyIterator items = true →
    writeItems items = .error (.notSerializable "iterator")
  | item :: items, h => by
    rw [writeItems]
    cases hitem : item.hasIterator with
    | true =>
      rw [write_refuses item hitem]
      rfl
    | false =>
      obtain ⟨text, htext⟩ := write_writes item hitem
      rw [Value.anyIterator, hitem, Bool.false_or] at h
      rw [htext, writeItems_refuses items h]
      rfl

theorem writeEntries_refuses : ∀ entries : List (String × Value),
    Value.anyIteratorBound entries = true →
      writeEntries entries = .error (.notSerializable "iterator")
  | (key, value) :: entries, h => by
    rw [writeEntries]
    cases hvalue : value.hasIterator with
    | true =>
      rw [write_refuses value hvalue]
      rfl
    | false =>
      obtain ⟨text, htext⟩ := write_writes value hvalue
      rw [Value.anyIteratorBound, hvalue, Bool.false_or] at h
      rw [htext, writeEntries_refuses entries h]
      rfl

end

end Json

/-! ## Data -/

namespace Value

/-- What JSON and values have in common besides lists, dicts and floats. -/
def IsScalar : Value → Prop
  | none | bool _ | int _ | str _ => True
  | float _ | date _ | duration _ | months _ | color _ | template _ | iterator _ | list _
  | dict _ => False

/-- `None`, truth values, integers and strings, and lists and dicts of them, nested to any depth. -/
def IsData (v : Value) : Prop := MadeOf IsScalar v

theorem anyIterator_eq_false_iff :
    anyIterator items = false ↔ ∀ x ∈ items, x.hasIterator = false := by
  induction items with
  | nil => simp [anyIterator]
  | cons x items ih => simp [anyIterator, ih]

theorem anyIteratorBound_eq_false_iff :
    anyIteratorBound entries = false ↔ ∀ e ∈ entries, e.2.hasIterator = false := by
  induction entries with
  | nil => simp [anyIteratorBound]
  | cons e entries ih => simp [anyIteratorBound, ih]

theorem IsData.hasIterator (hv : v.IsData) : v.hasIterator = false := by
  unfold IsData at hv
  induction hv with
  | @atom a _ hscalar => cases a <;> first | rfl | exact hscalar.elim
  | list _ ih => exact anyIterator_eq_false_iff.2 ih
  | dict _ ih => exact anyIteratorBound_eq_false_iff.2 ih

end Value

namespace Json

/-- The characters of the text of a value. -/
def chars (v : Value) : List Char := (written v).toList

/-- The characters of a key and of the text of its value. -/
def entryChars (e : String × Value) : List Char := (script e.1).toList ++ ':' :: ' ' :: chars e.2

theorem chars_list (h : (Value.list items).hasIterator = false) :
    chars (.list items) = '[' :: (commaText chars items ++ [']']) := by
  have htext : written (.list items) = "[" ++ commas (items.map written) ++ "]" := by
    rw [written, write, writeItems_writes items h]
    rfl
  rw [chars, htext, String.toList_append, String.toList_append, toList_commas, commaText_map]
  rfl

theorem chars_dict (h : (Value.dict entries).hasIterator = false) :
    chars (.dict entries) = '\x7b' :: (commaText entryChars entries ++ ['\x7d']) := by
  have htext : written (.dict entries) = "\x7b" ++ commas (entries.map writtenEntry) ++ "\x7d" := by
    rw [written, write, writeEntries_writes entries h]
    rfl
  have hentry : String.toList ∘ writtenEntry = entryChars := by
    funext e
    simp [writtenEntry, entryChars, chars]
  rw [chars, htext, String.toList_append, String.toList_append, toList_commas, commaText_map,
    hentry]
  rfl

theorem chars_int (n : Int64) : chars (.int n) = intChars n.toInt := rfl

theorem chars_str (s : String) : chars (.str s) = scriptChars s.toList := String.toList_ofList

/-! ## Characters -/

theorem isPrintable_of_mem_scriptChar (h : x ∈ scriptChar c) : IsPrintable x := by
  unfold scriptChar at h
  split_ifs at h with _ _ _ _ _ hplain
  · exact isPrintable_of_mem_pair (by decide) h
  · exact isPrintable_of_mem_pair (by decide) h
  · exact isPrintable_of_mem_pair (by decide) h
  · exact isPrintable_of_mem_pair (by decide) h
  · exact isPrintable_of_mem_pair (by decide) h
  · rw [List.mem_singleton.1 h]
    exact hplain
  · obtain ⟨unit, -, h⟩ := List.mem_flatMap.1 h
    exact isPrintable_of_mem_escape (by decide) h

theorem isPrintable_of_mem_scriptChars {cs : List Char} (h : x ∈ scriptChars cs) :
    IsPrintable x := by
  rw [scriptChars, List.cons_append, List.mem_cons, List.mem_append, List.mem_singleton,
    List.mem_flatMap] at h
  rcases h with rfl | ⟨c, -, h⟩ | rfl
  · decide
  · exact isPrintable_of_mem_scriptChar h
  · decide

theorem isPrintable_of_scalar (hv : v.IsScalar) (h : x ∈ chars v) : IsPrintable x := by
  cases v with
  | none => exact isPrintable_of_all (show "null".toList.all _ = true from rfl) h
  | bool b =>
    cases b with
    | false => exact isPrintable_of_all (show "false".toList.all _ = true from rfl) h
    | true => exact isPrintable_of_all (show "true".toList.all _ = true from rfl) h
  | int n => exact isPrintable_of_mem_intChars h
  | str s =>
    rw [chars_str] at h
    exact isPrintable_of_mem_scriptChars h
  | _ => exact hv.elim

/-- **The text of data is printable**, whatever the strings and keys in it. -/
theorem isPrintable_of_mem_chars (hv : v.IsData) (h : x ∈ chars v) : IsPrintable x := by
  have hiterator := hv.hasIterator
  unfold Value.IsData at hv
  induction hv generalizing x with
  | atom _ hscalar => exact isPrintable_of_scalar hscalar h
  | list hitems ih =>
    rw [chars_list hiterator, List.mem_cons, List.mem_append, List.mem_singleton] at h
    rcases h with rfl | h | rfl
    · decide
    · exact isPrintable_of_mem_commaText
        (fun item hitem _ hc => ih item hitem hc (Value.IsData.hasIterator (hitems item hitem))) h
    · decide
  | dict hentries ih =>
    rw [chars_dict hiterator, List.mem_cons, List.mem_append, List.mem_singleton] at h
    rcases h with rfl | h | rfl
    · decide
    · refine isPrintable_of_mem_commaText (fun e he c hc => ?_) h
      simp only [entryChars, script, String.toList_ofList, List.mem_append, List.mem_cons] at hc
      rcases hc with hc | rfl | rfl | hc
      · exact isPrintable_of_mem_scriptChars hc
      · decide
      · decide
      · exact ih e he hc (Value.IsData.hasIterator (hentries e he))
    · decide

/-- The text of data begins with no blank and no closing bracket. -/
theorem exists_first (hv : v.IsData) : ∃ c cs, chars v = c :: cs ∧ c ≠ ' ' ∧ c ≠ ']' := by
  have hiterator := hv.hasIterator
  cases hv with
  | atom _ hscalar =>
    cases v with
    | none => exact ⟨'n', _, rfl, by decide, by decide⟩
    | bool b =>
      cases b with
      | false => exact ⟨'f', _, rfl, by decide, by decide⟩
      | true => exact ⟨'t', _, rfl, by decide, by decide⟩
    | int n =>
      obtain ⟨c, cs, hn, hc⟩ := head?_intChars n.toInt
      have hne (d : Char) (hd : (d.isDigit || d = '-') = false) : c ≠ d := by
        rintro rfl
        rw [hd] at hc
        cases hc
      exact ⟨c, cs, hn, hne ' ' rfl, hne ']' rfl⟩
    | str s => exact ⟨'"', _, chars_str s, by decide, by decide⟩
    | _ => exact hscalar.elim
  | list _ => exact ⟨'[', _, chars_list hiterator, by decide, by decide⟩
  | dict _ => exact ⟨'\x7b', _, chars_dict hiterator, by decide, by decide⟩

/-- The text of data does not end with a blank. -/
theorem exists_last (hv : v.IsData) : ∃ cs c, chars v = cs ++ [c] ∧ c ≠ ' ' := by
  have hiterator := hv.hasIterator
  cases hv with
  | atom _ hscalar =>
    cases v with
    | none => exact ⟨['n', 'u', 'l'], 'l', rfl, by decide⟩
    | bool b =>
      cases b with
      | false => exact ⟨['f', 'a', 'l', 's'], 'e', rfl, by decide⟩
      | true => exact ⟨['t', 'r', 'u'], 'e', rfl, by decide⟩
    | int n =>
      -- a number ends with a digit, whatever its sign
      obtain ⟨cs, c, hdigits⟩ :=
        (List.eq_nil_or_concat (Nat.toDigits 10 n.toInt.natAbs)).resolve_left Nat.toDigits_ne_nil
      have hmem : c ∈ Nat.toDigits 10 n.toInt.natAbs := by simp [hdigits]
      have hc : c.isDigit := Decimal.isDigit_of_mem_toDigits hmem
      refine ⟨(if n.toInt < 0 then ['-'] else []) ++ cs, c, ?_, Decimal.ne_of_isDigit hc rfl⟩
      rw [chars_int, intChars, Decimal.toList_intRepr, hdigits, List.concat_eq_append,
        List.append_assoc]
    | str s => exact ⟨_, '"', chars_str s, by decide⟩
    | _ => exact hscalar.elim
  | @list items _ => exact ⟨'[' :: commaText chars items, ']', chars_list hiterator, by decide⟩
  | @dict entries _ =>
    exact ⟨'\x7b' :: commaText entryChars entries, '\x7d', chars_dict hiterator, by decide⟩

end Json

end Templating
