import Templating.Proofs.Builtin.Split
import Templating.Proofs.Text.Entity
import Templating.Proofs.Text.Field
import Templating.Proofs.Text.Url

/-!
# Texts inside other formats, and read back

* `ReadsEscapes`: a call returns the text whose bytes a quoted text stands for, and refuses others.
* `url_quoting_round_trip`: **`urlunquote` reads what `urlquote` writes**, and exactly the texts
  that stand for the bytes of a text.
* `WritesEscaped`: what `xmlescape` returns for a value, and `printx` puts out.
* `escaping_safe_and_lossless`: **an escaped text has no special characters but entities**, and
  replacing those gives back the text.
* `csv_fields_read_back`: **fields of `csv` with commas between them are read back.**
-/

namespace Templating

open Eval Text

variable {s t : String}

/-! ## URLs -/

/-- The outcome of reading a quoted text. The text whose bytes it stands for is returned. The call
fails if an escape is not complete, or if the bytes are not those of a text. -/
structure ReadsEscapes (t : String) (m : Machine) (r : Outcome Value) : Prop where
  returns_iff : ∀ s : String, r = .ok (.str s) m ↔
    EscapesComplete t.toList ∧ Unquotes t.toList (bytes s.toList)
  fails_iff : (∃ e, r = .error (.failed e) m ∧ e.category = .valueError ∧
      e.message = s!"malformed URL escape in {(Value.str t).repr}") ↔
    ¬ (EscapesComplete t.toList ∧ ∃ s : String, Unquotes t.toList (bytes s.toList))

theorem unquoteUrl_str (t : String) : Builtin.unquoteUrl (.str t) =
    (urlUnquote? t).elim (.error (.malformedEscape (Value.str t).repr)) fun s => .ok (.str s) := by
  have htext : strArg "urlunquote" (.str t) = .ok t := rfl
  rw [Builtin.unquoteUrl, htext]
  simp only [bind, Except.bind]
  cases urlUnquote? t with
  | none => rfl
  | some s => rfl

theorem callFunction_urlUnquote_ok (h : urlUnquote? t = some s) (ev : Evaluator) (m : Machine) :
    callFunction ev "urlunquote" [.str t] m = .ok (.str s) m := by
  have hread : Builtin.unquoteUrl (.str t) = .ok (.str s) := by
    rw [unquoteUrl_str, h]
    rfl
  exact congrArg (lift · m) hread

theorem callFunction_urlUnquote_error (h : urlUnquote? t = none) (ev : Evaluator) (m : Machine) :
    callFunction ev "urlunquote" [.str t] m =
      .error (.failed (.ofCause (.malformedEscape (Value.str t).repr))) m := by
  have hread : Builtin.unquoteUrl (.str t) = .error (.malformedEscape (Value.str t).repr) := by
    rw [unquoteUrl_str, h]
    rfl
  exact congrArg (lift · m) hread

theorem readsEscapes (ev : Evaluator) (t : String) (m : Machine) :
    ReadsEscapes t m (callFunction ev "urlunquote" [.str t] m) := by
  have hreads (s : String) : EscapesComplete t.toList ∧ Unquotes t.toList (bytes s.toList) ↔
      urlUnquote? t = some s := by
    rw [urlUnquote?_eq_some_iff, and_iff_right_iff_imp]
    exact Unquotes.escapesComplete
  cases hread : urlUnquote? t with
  | some s =>
    rw [callFunction_urlUnquote_ok hread]
    refine ⟨fun s' => ?_, iff_of_false (fun ⟨_, h, _⟩ => nomatch h) (not_not_intro ?_)⟩
    · rw [hreads, hread, Option.some_inj]
      exact ⟨fun h => by cases h; rfl, fun h => by rw [h]⟩
    · obtain ⟨hcomplete, hs⟩ := (hreads s).2 hread
      exact ⟨hcomplete, s, hs⟩
  | none =>
    rw [callFunction_urlUnquote_error hread]
    refine ⟨fun s' => ?_, iff_of_true ⟨_, rfl, rfl, rfl⟩ fun ⟨hcomplete, s', hs⟩ => ?_⟩
    · rw [hreads, hread]
      exact ⟨fun h => (nomatch h), fun h => (nomatch h)⟩
    · cases hread.symm.trans ((hreads s').1 ⟨hcomplete, hs⟩)

/-- **URLs can be read back.** A quoted text consists of unreserved characters and escapes, and
`urlunquote` gives back what was quoted. Of other texts, it reads exactly those in which two digits
follow each `%` and the escapes can be replaced by bytes so that a text comes out. The bytes are
those that are found when one byte is read after another. -/
theorem url_quoting_round_trip (ev : Evaluator) (m : Machine) :
    (∀ s, ∃ q, callFunction ev "urlquote" [.str s] m = .ok (.str q) m ∧ IsQuoted q.toList ∧
      callFunction ev "urlunquote" [.str q] m = .ok (.str s) m) ∧
    (∀ t, ReadsEscapes t m (callFunction ev "urlunquote" [.str t] m)) ∧
    ∀ t : String, (EscapesComplete t.toList ↔ ∃ bs, Unquotes t.toList bs) ∧
      ∀ bs, Unquotes t.toList bs ↔ scanBytes? (bytes t.toList) = some bs := by
  refine ⟨fun s => ⟨urlQuote s, rfl, ?_, ?_⟩, fun t => readsEscapes ev t m,
    fun t => ⟨escapesComplete_iff, fun bs => ?_⟩⟩
  · rw [urlQuote, String.toList_ofList, flatMap_urlQuoteChar]
    exact isQuoted_flatMap _
  · refine callFunction_urlUnquote_ok (urlUnquote?_eq_some_iff.2 ?_) ev m
    rw [urlQuote, String.toList_ofList, flatMap_urlQuoteChar]
    exact unquotes_flatMap _
  · rw [scanBytes?_bytes, unquotedBytes?_eq_some_iff]

/-- A character of two escapes, the first of these alone, and a sign that is no digit. -/
example : urlUnquote? "%c3%A9" = some "é" ∧ urlUnquote? "%C3©" = none ∧
    urlUnquote? "%+1" = none := by decide +kernel

/-! ## XML -/

/-- What is written for a value inside XML, by a call and by a statement. -/
structure WritesEscaped (ev : Evaluator) (v : Value) (e : String) : Prop where
  call : ∀ m, callFunction ev "xmlescape" [v] m = .ok (.str e) m
  print : ∀ node value m m', node.kind = .printX value → ev.eval value m = .ok v m' →
    ev.evalNode node m = .ok .none { m' with output := m'.output.push e }

theorem writesEscaped (ev : Evaluator) (v : Value) : WritesEscaped ev v (xmlEscape v.text) := by
  refine ⟨fun m => rfl, fun node value m m' hkind heval => locating_ok ?_ _⟩
  rw [hkind]
  have hwrite : (ev.eval value >>= fun v => emit (xmlEscape v.text)) m =
      .ok () { m' with output := m'.output.push (xmlEscape v.text) } := bind_ok heval
  exact bind_ok hwrite

/-- **Escaping is safe and lossless.** What is written has no special characters, but for `&` at the
beginning of entities, and replacing the entities gives back the text of the value. So different
texts are told apart, also those with entities in them. Joined texts are escaped in parts. -/
theorem escaping_safe_and_lossless (ev : Evaluator) :
    (∀ v, ∃ e, WritesEscaped ev v e ∧ IsEscaped e.toList ∧ unescape e.toList = v.text.toList) ∧
    (∀ v w m, callFunction ev "xmlescape" [v] m = callFunction ev "xmlescape" [w] m ↔
      v.text = w.text) ∧
    ∀ s t, Value.binary .add (.str s) (.str t) = .ok (.str (s ++ t)) ∧
      ∃ e e', WritesEscaped ev (.str s) e ∧ WritesEscaped ev (.str t) e' ∧
        WritesEscaped ev (.str (s ++ t)) (e ++ e') := by
  refine ⟨fun v => ⟨_, writesEscaped ev v, ?_, ?_⟩, fun v w m => ?_, fun s t => ⟨rfl, ?_⟩⟩
  · rw [xmlEscape, String.toList_ofList]
    exact isEscaped_xmlEscapeChars _
  · rw [xmlEscape, String.toList_ofList]
    exact unescape_xmlEscapeChars _
  · rw [(writesEscaped ev v).call, (writesEscaped ev w).call]
    constructor
    · intro h
      injection h with hvalue
      injection hvalue with htext
      exact xmlEscape_injective htext
    · intro h
      rw [h]
  · have happend := writesEscaped ev (.str (s ++ t))
    rw [show (Value.str (s ++ t)).text = s ++ t from rfl, xmlEscape_append] at happend
    exact ⟨_, _, writesEscaped ev (.str s), writesEscaped ev (.str t), happend⟩

/-- An entity that is escaped, and one that comes about where two texts meet. -/
example : xmlEscape "&lt;" = "&amp;lt;" ∧ xmlEscape ("&" ++ "gt;") = "&amp;gt;" := by decide +kernel

/-! ## Comma separated values -/

/-- **Fields are read back.** The fields that are read from texts with commas between them are those
texts again, and without quotes around it, a field has no line break. -/
theorem csv_fields_read_back (ev : Evaluator) (m : Machine) {texts : List String}
    (hne : texts ≠ []) : ∃ written joined fields,
    List.Forall₂ (fun text w => callFunction ev "csv" [.str text] m = .ok (.str w) m)
      texts written ∧ Joins "," written joined ∧
    readFields joined.toList = some fields ∧ fields.map (fun f => String.ofList f.text) = texts ∧
    joined.toList = [','].intercalate (fields.map Field.written) ∧
    ∀ f ∈ fields, f.quoted = false → '\n' ∉ f.text := by
  have hwritten : (texts.map csvField) = ((texts.map String.toList).map csvFieldChars).map
      String.ofList := by
    rw [List.map_map, List.map_map]
    rfl
  have hjoined : (",".intercalate (texts.map csvField)).toList =
      [','].intercalate ((texts.map String.toList).map csvFieldChars) := by
    rw [hwritten, intercalate_ofList, String.toList_ofList]
    rfl
  have hmapped : texts.map String.toList ≠ [] := by simpa using hne
  have hread := readFields_csvFieldChars hmapped
  refine ⟨texts.map csvField, _, _, ?_, joins_intercalate "," _, hjoined ▸ hread, ?_,
    hjoined.trans ?_, ?_⟩
  · exact List.forall₂_map_right_iff.2 (List.forall₂_same.2 fun text _ => rfl)
  · simp [Function.comp_def, fieldOf]
  · exact (readFields_eq_some_iff.1 hread).2.2
  · intro f hf hquoted
    obtain ⟨cs, -, rfl⟩ := List.mem_map.1 hf
    exact not_mem_fieldOf hquoted rfl

/-- Fields with a comma, quotes at either end and a line break, and an empty one between them. -/
theorem csv_fields_read_back_quotes :
    let texts := ["a,\"b\"", "", "\"", "x\ny"]
    texts ≠ [] ∧ ∃ joined fields,
      Joins "," ["\"a,\"\"b\"\"\"", "", "\"\"\"\"", "\"x\ny\""] joined ∧
      readFields joined.toList = some fields ∧
      fields.map (fun f => String.ofList f.text) = texts := by
  intro texts
  have hne : texts ≠ [] := List.cons_ne_nil _ _
  obtain ⟨written, joined, fields, hcalls, hjoins, hread, htexts, -⟩ :=
    csv_fields_read_back (.within 0) (.start 0 0 .first (.ofVars [] 0)) hne
  have hcsv {text w : String} {ev : Evaluator} {m : Machine}
      (h : callFunction ev "csv" [.str text] m = .ok (.str w) m) : csvField text = w := by
    injection h with hvalue
    injection hvalue
  have hwritten : texts.map csvField = written := by
    rw [← List.forall₂_eq_eq_eq, List.forall₂_map_left_iff]
    exact hcalls.imp fun _ _ => hcsv
  refine ⟨hne, joined, fields, ?_, hread, htexts⟩
  rw [← hwritten] at hjoins
  exact hjoins

end Templating
