import Templating.Proofs.Text.Apart
import Templating.Text.Escape

/-!
# Comma separated fields

A field is in quotes, in which a quote is doubled, or it is without them and extends to the next
comma. Line breaks are not looked at, so they may stand in either.

* `Field`: a field as it is read. `Field.written` is its form, and `Field.Separable` says that it
  cannot be taken for another one.
* `readField`, `readFields`: the fields of a text, with commas between them.
* `readFields_eq_some_iff`: **the fields that are read are those that are written**, and a text is
  read in one way.
* `fieldOf`: the field that a text is written as; its line breaks are in quotes.
-/

namespace Templating.Text

/-- A field: whether it is in quotes, and what it says. -/
structure Field where
  quoted : Bool
  text : List Char

/-- A text with its quotes doubled. -/
def doubled (cs : List Char) : List Char := cs.flatMap fun c => if c = '"' then ['"', '"'] else [c]

namespace Field

/-- A field as it is written. -/
def written (f : Field) : List Char := if f.quoted then '"' :: doubled f.text ++ ['"'] else f.text

/-- Without quotes, there is no comma in a field and no quote at its beginning. -/
def Separable (f : Field) : Prop := f.quoted = false → ',' ∉ f.text ∧ f.text.head? ≠ some '"'

end Field

variable {f : Field} {fields : List Field} {text cs rest : List Char}

/-! ## Reading -/

/-- Reads up to the quote that ends a field. It is the next one that is not followed by another one,
and two quotes stand for one. -/
def readQuoted : List Char → Option (List Char × List Char)
  | [] => none
  | '"' :: '"' :: cs => (readQuoted cs).map fun (text, rest) => ('"' :: text, rest)
  | '"' :: cs => some ([], cs)
  | c :: cs => (readQuoted cs).map fun (text, rest) => (c :: text, rest)

/-- Reads a field. The rest is what follows the closing quote, or the text from the next comma
on. -/
def readField : List Char → Option (Field × List Char)
  | '"' :: cs => (readQuoted cs).map fun (text, rest) => (⟨true, text⟩, rest)
  | cs => some (⟨false, cs.takeWhile (· ≠ ',')⟩, cs.dropWhile (· ≠ ','))

theorem readQuoted_plain {c : Char} (hc : c ≠ '"') (cs : List Char) :
    readQuoted (c :: cs) = (readQuoted cs).map fun (text, rest) => (c :: text, rest) :=
  readQuoted.eq_4 c cs (fun _ h _ => hc h) hc

/-- **Doubled quotes up to a single one** are what is read. -/
theorem readQuoted_eq_some_iff : readQuoted cs = some (text, rest) ↔
    cs = doubled text ++ '"' :: rest ∧ rest.head? ≠ some '"' := by
  constructor
  · intro h
    induction cs using readQuoted.induct generalizing text with
    | case1 => cases h
    | case2 cs ih =>
      obtain ⟨⟨_, _⟩, hread, ⟨⟩⟩ := Option.map_eq_some_iff.1 h
      obtain ⟨rfl, hrest⟩ := ih hread
      exact ⟨rfl, hrest⟩
    | case3 cs hsingle =>
      rw [readQuoted.eq_3 cs hsingle] at h
      cases h
      refine ⟨rfl, fun hhead => ?_⟩
      obtain ⟨cs, rfl⟩ := List.head?_eq_some_iff.1 hhead
      exact hsingle cs rfl
    | case4 c cs _ hc ih =>
      rw [readQuoted_plain hc] at h
      obtain ⟨⟨text, _⟩, hread, ⟨⟩⟩ := Option.map_eq_some_iff.1 h
      obtain ⟨rfl, hrest⟩ := ih hread
      refine ⟨?_, hrest⟩
      rw [doubled, doubled, List.flatMap_cons, if_neg hc]
      rfl
  · rintro ⟨rfl, hrest⟩
    induction text with
    | nil =>
      refine readQuoted.eq_3 rest fun cs h => hrest ?_
      rw [h]
      rfl
    | cons c text ih =>
      rw [doubled, List.flatMap_cons, List.append_assoc]
      by_cases hc : c = '"'
      · rw [if_pos hc, hc]
        exact congrArg (Option.map _) ih
      · rw [if_neg hc, List.singleton_append, readQuoted_plain hc]
        exact congrArg (Option.map _) ih

theorem readField_unquoted (h : cs.head? ≠ some '"') :
    readField cs = some (⟨false, cs.takeWhile (· ≠ ',')⟩, cs.dropWhile (· ≠ ',')) :=
  readField.eq_2 cs fun rest heq => h (by rw [heq]; rfl)

/-- A field up to a comma or to the end of the text is read. -/
theorem readField_written (hf : f.Separable) (hrest : Leaves (· ≠ ',') rest) :
    readField (f.written ++ rest) = some (f, rest) := by
  have hcomma : ∀ c ∈ rest.head?, c = ',' := fun c hc => by simpa using hrest c hc
  obtain ⟨quoted, text⟩ := f
  cases quoted with
  | true =>
    have hread : readQuoted (doubled text ++ '"' :: rest) = some (text, rest) :=
      readQuoted_eq_some_iff.2 ⟨rfl, fun h => absurd (hcomma _ h) (by decide)⟩
    have hwritten : Field.written ⟨true, text⟩ ++ rest = '"' :: (doubled text ++ '"' :: rest) := by
      simp [Field.written]
    rw [hwritten, readField, hread]
    rfl
  | false =>
    obtain ⟨hnone, hquote⟩ := hf rfl
    have hall : ∀ c ∈ text, decide (c ≠ ',') = true := fun c hc =>
      decide_eq_true fun h => hnone (h ▸ hc)
    have hhead : (text ++ rest).head? ≠ some '"' := by
      cases text with
      | nil => exact fun h => absurd (hcomma _ h) (by decide)
      | cons c text => exact hquote
    have hdrop : (text ++ rest).dropWhile (fun c => decide (c ≠ ',')) = rest := by
      have hwhole := List.takeWhile_append_dropWhile (p := (· ≠ ',')) (l := text ++ rest)
      rw [takeWhile_append_of_leaves hall hrest] at hwhole
      exact List.append_cancel_left hwhole
    change readField (text ++ rest) = _
    rw [readField_unquoted hhead, takeWhile_append_of_leaves hall hrest, hdrop]

/-- Only what is written is read. -/
theorem separable_of_readField (h : readField cs = some (f, rest)) :
    f.Separable ∧ cs = f.written ++ rest := by
  -- the first character decides which form the field has
  by_cases hquote : cs.head? = some '"'
  · obtain ⟨cs, rfl⟩ := List.head?_eq_some_iff.1 hquote
    obtain ⟨⟨text, _⟩, hread, ⟨⟩⟩ := Option.map_eq_some_iff.1 h
    obtain ⟨rfl, -⟩ := readQuoted_eq_some_iff.1 hread
    exact ⟨fun h => (Bool.noConfusion h :), by simp [Field.written]⟩
  · rw [readField_unquoted hquote] at h
    cases h
    refine ⟨fun _ => ⟨fun hmem => ?_, fun hhead => hquote ?_⟩,
      List.takeWhile_append_dropWhile.symm⟩
    · simpa using List.mem_takeWhile_imp hmem
    · change (cs.takeWhile (· ≠ ',')).head? = _ at hhead
      rw [List.head?_takeWhile, Option.filter_eq_some_iff] at hhead
      exact hhead.1

/-! ## All fields -/

theorem length_rest_lt (h : readField cs = some (f, ',' :: rest)) : rest.length < cs.length := by
  rw [(separable_of_readField h).2, List.length_append, List.length_cons]
  omega

/-- Reads the fields of a text. A field is followed by a comma, or it is the last one. -/
def readFields (cs : List Char) : Option (List Field) :=
  match _h : readField cs with
  | some (f, []) => some [f]
  | some (f, ',' :: rest) => (readFields rest).map (f :: ·)
  | _ => none
termination_by cs.length
decreasing_by exact length_rest_lt ‹_›

theorem intercalate_written (f : Field) (hne : fields ≠ []) :
    [','].intercalate ((f :: fields).map Field.written) =
      f.written ++ ',' :: [','].intercalate (fields.map Field.written) := by
  rw [List.map_cons, List.intercalate_cons_of_ne_nil (by simpa using hne), List.append_assoc]
  rfl

/-- A field up to the end of the text is the last one. -/
theorem readFields_written (hf : f.Separable) : readFields f.written = some [f] := by
  have hread : readField (f.written ++ []) = some (f, []) :=
    readField_written hf fun _ h => nomatch h
  rw [List.append_nil] at hread
  rw [readFields]
  split
  · rename_i h
    cases hread.symm.trans h
    rfl
  · rename_i h
    cases hread.symm.trans h
  · rename_i hend _
    exact (hend f hread).elim

/-- Behind a comma, there are more fields. -/
theorem readFields_written_comma (hf : f.Separable) (cs : List Char) :
    readFields (f.written ++ ',' :: cs) = (readFields cs).map (f :: ·) := by
  have hread : readField (f.written ++ ',' :: cs) = some (f, ',' :: cs) :=
    readField_written hf (Leaves.cons rfl cs)
  rw [readFields]
  split
  · rename_i h
    cases hread.symm.trans h
  · rename_i h
    cases hread.symm.trans h
    rfl
  · rename_i hcomma
    exact (hcomma f cs hread).elim

/-- **The fields that are read are those that are written**, with commas between them. -/
theorem readFields_eq_some_iff : readFields cs = some fields ↔
    fields ≠ [] ∧ (∀ f ∈ fields, f.Separable) ∧
      cs = [','].intercalate (fields.map Field.written) := by
  constructor
  · intro h
    induction cs using readFields.induct generalizing fields with
    | case1 cs f hread =>
      obtain ⟨hf, rfl⟩ := separable_of_readField hread
      rw [List.append_nil, readFields_written hf] at h
      cases h
      refine ⟨List.cons_ne_nil _ _, by simpa using hf, ?_⟩
      rw [List.append_nil, List.map_singleton, List.intercalate_singleton]
    | case2 cs f rest hread ih =>
      obtain ⟨hf, rfl⟩ := separable_of_readField hread
      rw [readFields_written_comma hf] at h
      obtain ⟨fields, hrest, rfl⟩ := Option.map_eq_some_iff.1 h
      obtain ⟨hne, hall, rfl⟩ := ih hrest
      exact ⟨List.cons_ne_nil _ _, List.forall_mem_cons.2 ⟨hf, hall⟩,
        (intercalate_written f hne).symm⟩
    | case3 cs hend hcomma =>
      rw [readFields] at h
      split at h
      · rename_i hread
        exact (hend _ hread).elim
      · rename_i hread
        exact (hcomma _ _ hread).elim
      · cases h
  · rintro ⟨hne, hall, rfl⟩
    induction fields with
    | nil => exact absurd rfl hne
    | cons f fields ih =>
      obtain ⟨hf, hall⟩ := List.forall_mem_cons.1 hall
      cases fields with
      | nil =>
        rw [List.map_singleton, List.intercalate_singleton]
        exact readFields_written hf
      | cons g fields =>
        have hmore := List.cons_ne_nil g fields
        rw [intercalate_written f hmore, readFields_written_comma hf, ih hmore hall]
        rfl

/-! ## Writing -/

/-- The field that a text is written as. -/
def fieldOf (cs : List Char) : Field := ⟨cs.any forcesQuotes, cs⟩

theorem csvFieldChars_eq (cs : List Char) : csvFieldChars cs = (fieldOf cs).written := rfl

/-- Without quotes around it, a text has no character that forces them. -/
theorem not_mem_fieldOf {c : Char} (h : (fieldOf cs).quoted = false) (hc : forcesQuotes c = true) :
    c ∉ (fieldOf cs).text := by
  intro hmem
  have hany : cs.any forcesQuotes = true := List.any_eq_true.2 ⟨c, hmem, hc⟩
  exact absurd (hany.symm.trans h) (by decide)

theorem separable_fieldOf (cs : List Char) : (fieldOf cs).Separable := by
  intro h
  exact ⟨not_mem_fieldOf h rfl, fun hhead => not_mem_fieldOf h rfl (List.mem_of_head? hhead)⟩

/-- **Fields that are written are read back**, one for each text. -/
theorem readFields_csvFieldChars {texts : List (List Char)} (hne : texts ≠ []) :
    readFields ([','].intercalate (texts.map csvFieldChars)) = some (texts.map fieldOf) := by
  have hwritten : texts.map csvFieldChars = (texts.map fieldOf).map Field.written := by
    rw [List.map_map]
    exact List.map_congr_left fun cs _ => csvFieldChars_eq cs
  rw [hwritten, readFields_eq_some_iff]
  refine ⟨by simpa using hne, fun f hf => ?_, rfl⟩
  obtain ⟨text, -, rfl⟩ := List.mem_map.1 hf
  exact separable_fieldOf text

end Templating.Text
