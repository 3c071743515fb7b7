import Mathlib.Data.List.Basic
import Templating.Text.Escape

/-!
# Texts with entities

Five characters are written as entities. A text that already contains entities is not told apart
from others: each `&` in it is written as an entity, too.

* `Entity`, `entities`: the entities and the characters that they stand for.
* `unescape`: a text with its entities replaced, from left to right.
* `IsEscaped`: texts in which the five characters stand only where an entity begins.
* `isEscaped_xmlEscapeChars`, `unescape_xmlEscapeChars`: **escaping writes such a text, and
  replacing its entities gives back what was escaped.**
* `xmlEscape_append`, `xmlEscape_injective`: texts are escaped in parts, and told apart.
-/

namespace Templating.Text

variable {c : Char} {cs before after : List Char}

/-- An entity as it is written, and the character that it stands for. -/
structure Entity where
  written : List Char
  char : Char

/-- The entities. -/
def entities : List Entity :=
  [⟨"&amp;".toList, '&'⟩, ⟨"&lt;".toList, '<'⟩, ⟨"&gt;".toList, '>'⟩, ⟨"&#39;".toList, '\''⟩,
    ⟨"&quot;".toList, '"'⟩]

/-- The entity with which a text begins. -/
def entityAt? (cs : List Char) : Option Entity := entities.find? (·.written.isPrefixOf cs)

variable {entity : Entity}

/-- An entity is an `&` and more. -/
theorem exists_of_mem_entities (h : entity ∈ entities) : ∃ name, entity.written = '&' :: name := by
  have hall : ∀ entity ∈ entities, entity.written.head? = some '&' := by decide
  exact List.head?_eq_some_iff.1 (hall entity h)

theorem mem_of_entityAt? (h : entityAt? cs = some entity) :
    entity ∈ entities ∧ entity.written <+: cs :=
  ⟨List.mem_of_find?_eq_some h, List.isPrefixOf_iff_prefix.1 (List.find?_some h :)⟩

theorem length_drop_entity_lt (h : entityAt? (c :: cs) = some entity) :
    ((c :: cs).drop entity.written.length).length < (c :: cs).length := by
  obtain ⟨name, hname⟩ := exists_of_mem_entities (mem_of_entityAt? h).1
  rw [hname, List.length_drop, List.length_cons, List.length_cons]
  omega

/-- A text with its entities replaced by their characters, from left to right. -/
def unescape : List Char → List Char
  | [] => []
  | c :: cs =>
    match _h : entityAt? (c :: cs) with
    | some entity => entity.char :: unescape ((c :: cs).drop entity.written.length)
    | none => c :: unescape cs
termination_by cs => cs.length
decreasing_by
  · exact length_drop_entity_lt ‹_›
  · exact Nat.lt_succ_self _

/-- No special character stands in a text, but for `&` as the first character of an entity. -/
structure IsEscaped (cs : List Char) : Prop where
  not_mem : ∀ c ∈ ['<', '>', '\'', '"'], c ∉ cs
  ampersand : ∀ before after, cs = before ++ '&' :: after →
    ∃ entity ∈ entities, entity.written <+: '&' :: after

/-! ## Entities are replaced -/

/-- No entity begins another one. -/
theorem entityAt?_append (h : entity ∈ entities) (rest : List Char) :
    entityAt? (entity.written ++ rest) = some entity := by
  simp only [entities, List.mem_cons, List.not_mem_nil, or_false] at h
  obtain rfl | rfl | rfl | rfl | rfl := h <;> rfl

theorem unescape_entity (h : entity ∈ entities) (rest : List Char) :
    unescape (entity.written ++ rest) = entity.char :: unescape rest := by
  have hat := entityAt?_append h rest
  have hdrop : (entity.written ++ rest).drop entity.written.length = rest := List.drop_left
  obtain ⟨name, hname⟩ := exists_of_mem_entities h
  generalize entity.written ++ rest = cs at hat hdrop
  cases cs with
  | nil => cases hat
  | cons c cs =>
    rw [unescape]
    split
    · rename_i found hfound
      obtain rfl := Option.some_inj.1 (hat.symm.trans hfound)
      rw [hdrop]
    · rename_i hnone
      exact absurd (hat.symm.trans hnone) (Option.some_ne_none _)

theorem unescape_plain (hc : c ≠ '&') (rest : List Char) :
    unescape (c :: rest) = c :: unescape rest := by
  rw [unescape]
  split
  · rename_i entity hfound
    obtain ⟨hmem, hprefix⟩ := mem_of_entityAt? hfound
    obtain ⟨name, hname⟩ := exists_of_mem_entities hmem
    rw [hname, List.cons_prefix_cons] at hprefix
    exact absurd hprefix.1.symm hc
  · rfl

/-! ## Escaping -/

/-- A character is written as its entity, or it has none and stands for itself. -/
theorem xmlEscapeChar_cases (c : Char) :
    (∃ entity ∈ entities, entity.char = c ∧ xmlEscapeChar c = entity.written) ∨
      c ∉ ['&', '<', '>', '\'', '"'] ∧ xmlEscapeChar c = [c] := by
  by_cases h : c ∈ ['&', '<', '>', '\'', '"']
  · left
    simp only [List.mem_cons, List.not_mem_nil, or_false] at h
    obtain rfl | rfl | rfl | rfl | rfl := h <;> simp [entities, xmlEscapeChar]
  · refine .inr ⟨h, ?_⟩
    simp only [List.mem_cons, List.not_mem_nil, or_false, not_or] at h
    obtain ⟨hamp, hlt, hgt, hquote, hdouble⟩ := h
    exact xmlEscapeChar.eq_6 c hamp hlt hgt hquote hdouble

/-- **Replacing the entities gives back what was escaped.** -/
theorem unescape_xmlEscapeChars (cs : List Char) : unescape (xmlEscapeChars cs) = cs := by
  induction cs with
  | nil => exact unescape.eq_1
  | cons c cs ih =>
    rw [xmlEscapeChars, List.flatMap_cons]
    change unescape (_ ++ xmlEscapeChars cs) = _
    obtain ⟨entity, hmem, rfl, hwritten⟩ | ⟨hplain, hwritten⟩ := xmlEscapeChar_cases c
    · rw [hwritten, unescape_entity hmem, ih]
    · rw [hwritten, List.singleton_append, unescape_plain (fun h => hplain (by simp [h])), ih]

/-- A character that is not in the front stands behind it. -/
theorem exists_of_not_mem {front : List Char} (h : c ∉ front)
    (heq : front ++ cs = before ++ c :: after) : ∃ middle, cs = middle ++ c :: after := by
  obtain ⟨middle, -, hcs⟩ | ⟨middle, rfl, hmiddle⟩ := List.append_eq_append_iff.1 heq
  · exact ⟨middle, hcs⟩
  · cases middle with
    | nil => exact ⟨[], hmiddle.symm⟩
    | cons _ _ =>
      cases hmiddle
      exact absurd (List.mem_append_right _ List.mem_cons_self) h

/-- The other special characters stand in no entity. -/
theorem not_mem_written (h : entity ∈ entities) (hc : c ∈ ['<', '>', '\'', '"']) :
    c ∉ entity.written := by
  have hall : ∀ entity ∈ entities, '<' ∉ entity.written ∧ '>' ∉ entity.written ∧
      '\'' ∉ entity.written ∧ '"' ∉ entity.written := by decide
  obtain ⟨hlt, hgt, hquote, hdouble⟩ := hall entity h
  simp only [List.mem_cons, List.not_mem_nil, or_false] at hc
  obtain rfl | rfl | rfl | rfl := hc
  · exact hlt
  · exact hgt
  · exact hquote
  · exact hdouble

/-- In an entity, only the first character is special. -/
theorem IsEscaped.entity_append (h : entity ∈ entities) (hcs : IsEscaped cs) :
    IsEscaped (entity.written ++ cs) := by
  have htail : ∀ entity ∈ entities, '&' ∉ entity.written.tail := by decide
  obtain ⟨name, hname⟩ := exists_of_mem_entities h
  refine ⟨fun c hc hmem => ?_, fun before after heq => ?_⟩
  · obtain hmem | hmem := List.mem_append.1 hmem
    · exact not_mem_written h hc hmem
    · exact hcs.not_mem c hc hmem
  · cases before with
    | nil => exact ⟨entity, h, cs, heq⟩
    | cons _ before =>
      -- behind the first character of the entity, an `&` is one of the rest
      rw [hname, List.cons_append, List.cons_append] at heq
      have hamp : '&' ∉ name := by simpa [hname] using htail entity h
      obtain ⟨middle, hmiddle⟩ := exists_of_not_mem hamp (List.cons.inj heq).2
      exact hcs.ampersand middle after hmiddle

theorem IsEscaped.cons (hc : c ∉ ['&', '<', '>', '\'', '"']) (hcs : IsEscaped cs) :
    IsEscaped (c :: cs) := by
  refine ⟨fun d hd hmem => ?_, fun before after heq => ?_⟩
  · obtain rfl | hmem := List.mem_cons.1 hmem
    · exact hc (List.mem_cons_of_mem _ hd)
    · exact hcs.not_mem d hd hmem
  · have hamp : '&' ∉ [c] := fun h => hc (List.mem_singleton.1 h ▸ List.mem_cons_self)
    obtain ⟨middle, hmiddle⟩ := exists_of_not_mem hamp heq
    exact hcs.ampersand middle after hmiddle

/-- **In an escaped text, the special characters are written as entities.** -/
theorem isEscaped_xmlEscapeChars (cs : List Char) : IsEscaped (xmlEscapeChars cs) := by
  induction cs with
  | nil => exact ⟨fun _ _ => List.not_mem_nil, fun before _ heq => by cases before <;> cases heq⟩
  | cons c cs ih =>
    rw [xmlEscapeChars, List.flatMap_cons]
    obtain ⟨entity, hmem, -, hwritten⟩ | ⟨hplain, hwritten⟩ := xmlEscapeChar_cases c
    · rw [hwritten]
      exact ih.entity_append hmem
    · rw [hwritten]
      exact ih.cons hplain

/-- Texts are escaped in parts. -/
theorem xmlEscape_append (s t : String) : xmlEscape (s ++ t) = xmlEscape s ++ xmlEscape t := by
  unfold xmlEscape xmlEscapeChars
  rw [String.toList_append, List.flatMap_append, String.ofList_append]

/-- Texts are told apart by their escaped forms, also those with entities in them. -/
theorem xmlEscape_injective : Function.Injective xmlEscape := by
  intro s t h
  have hchars : xmlEscapeChars s.toList = xmlEscapeChars t.toList := String.ofList_injective h
  rw [← String.toList_inj, ← unescape_xmlEscapeChars s.toList, hchars, unescape_xmlEscapeChars]

end Templating.Text
