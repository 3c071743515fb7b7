import Templating.Proofs.Builtin.Argument
import Templating.Proofs.Eval.Denote
import Templating.Proofs.Text.Words

/-!
# Splitting, joining and replacing

The methods `split` and `rsplit` cut a string at a separator, or at blanks if there is none.

* `Joins`: what `join` makes of the parts of a string.
* `PartsOf`: parts that make up a string, how many there are, and which of them have no separator
  inside.
* `splits_join_and_replace`: **splitting at a separator** gives such parts, from either end, and
  replacing is joining them with something else.
* `splits_at_blanks`: **splitting at blanks** gives the words, and from the end the mirror image.
-/

namespace Templating

open Eval Text

variable {args : List Value} {limit : Option ℕ} {s sep : String}

/-! ## Joining -/

/-- The method `join` makes a string of some parts. It puts an iterator into the store, and changes
nothing else. -/
def Joins (sep : String) (parts : List String) (s : String) : Prop :=
  ∀ store, ∃ store', Yields store
    (fun ev => callMethod ev (.str sep) "join" [.list (parts.map .str)]) (.str s) store'

/-- **Joining puts the separator between the parts.** -/
theorem joins_intercalate (sep : String) (parts : List String) :
    Joins sep parts (sep.intercalate parts) := by
  intro store
  have hd : Denotes (store.push ⟨.items (parts.map .str), false⟩) store.size {store.size}
      (parts.map .str) := .items Array.getElem?_push_size
  have hjoined {taken : List String} {store' : Array Cell}
      (hfold : Yields (store.push ⟨.items (parts.map .str), false⟩) _ taken store') :
      Yields store (fun ev => Builtin.joined ev sep (.list (parts.map .str)))
        (.str (sep.intercalate taken.reverse)) store' :=
    (Yields.allocate _).bind (hfold.bind (.pure _))
  have htaken : (parts.map Value.str).foldl (fun taken v => v.asStr?.toList ++ taken) [] =
      parts.reverse := by
    rw [List.foldl_map]
    exact List.foldl_flip_cons_eq_append'.trans (List.append_nil _)
  have hall := (hd.fold _ (fun taken v => v.asStr?.toList ++ taken)
    (fun v hv taken => by obtain ⟨part, -, rfl⟩ := List.mem_map.1 hv; rfl) []).imp
      fun store' h => hjoined h.1
  rwa [htaken, List.reverse_reverse] at hall

theorem intercalate_ofList (sep : String) (pieces : List (List Char)) :
    sep.intercalate (pieces.map String.ofList) = String.ofList (sep.toList.intercalate pieces) := by
  rw [← String.toList_inj, String.toList_intercalate, List.map_map, String.toList_ofList]
  simp [Function.comp_def]

/-! ## At a separator -/

/-- Parts that make up a string with separators between them, at most one more than a limit. The
inner ones have no separator inside, and neither has any part if there is no limit or if it is not
reached. -/
structure PartsOf (sep s : String) (limit : Option ℕ) (parts inner : List String) : Prop where
  joins : Joins sep parts s
  length_le : ∀ k, limit = some k → parts.length ≤ k + 1
  inner_free : ∀ part ∈ inner, Value.contains (.str sep) (.str part) = .ok false
  free : limit = none → ∀ part ∈ parts, Value.contains (.str sep) (.str part) = .ok false
  unreached_free : ∀ k, limit = some k → parts.length < k + 1 →
    ∀ part ∈ parts, Value.contains (.str sep) (.str part) = .ok false

theorem contains_str_eq_false_iff (t s : String) :
    Value.contains (.str t) (.str s) = .ok false ↔ ¬ t.toList <:+: s.toList := by
  rw [← contains_iff, Bool.not_eq_true]
  exact Except.ok.injEq (Text.contains t.toList s.toList) false ▸ Iff.rfl

/-- Pieces between separators, as strings. -/
theorem PartsOf.of_pieces {pieces inner : List (List Char)}
    (hjoin : sep.toList.intercalate pieces = s.toList)
    (hlength : ∀ k, limit = some k → pieces.length ≤ k + 1)
    (hinner : ∀ piece ∈ inner, ¬ sep.toList <:+: piece)
    (hfree : (∀ k, limit = some k → pieces.length < k + 1) →
      ∀ piece ∈ pieces, ¬ sep.toList <:+: piece) :
    PartsOf sep s limit (pieces.map String.ofList) (inner.map String.ofList) := by
  -- membership in strings is occurrence in their characters
  have hcontains {pieces : List (List Char)} (h : ∀ piece ∈ pieces, ¬ sep.toList <:+: piece) :
      ∀ part ∈ pieces.map String.ofList, Value.contains (.str sep) (.str part) = .ok false := by
    intro part hpart
    obtain ⟨piece, hpiece, rfl⟩ := List.mem_map.1 hpart
    rw [contains_str_eq_false_iff, String.toList_ofList]
    exact h piece hpiece
  refine ⟨?_, fun k hk => ?_, hcontains hinner, fun hnone => hcontains (hfree ?_),
    fun k hk hlt => hcontains (hfree ?_)⟩
  · have hs : sep.intercalate (pieces.map String.ofList) = s := by
      rw [intercalate_ofList, hjoin, String.ofList_toList]
    exact hs ▸ joins_intercalate sep _
  · rw [List.length_map]
    exact hlength k hk
  · rintro k hk
    rw [hnone] at hk
    cases hk
  · rintro k' hk'
    cases hk.symm.trans hk'
    rwa [List.length_map] at hlt

theorem partsOf_splitOn (hsep : sep.toList ≠ []) (s : String) (limit : Option ℕ) :
    PartsOf sep s limit ((splitOn sep.toList s.toList limit).map String.ofList)
      ((splitOn sep.toList s.toList limit).map String.ofList).dropLast := by
  have hsplits := splits_splitOn hsep s.toList limit
  rw [← List.map_dropLast]
  exact .of_pieces hsplits.intercalate_eq (fun _ => hsplits.length_le)
    (hsplits.not_infix_of_mem_dropLast hsep) (hsplits.not_infix_of_mem hsep)

theorem partsOf_rsplitOn (hsep : sep.toList ≠ []) (s : String) (limit : Option ℕ) :
    PartsOf sep s limit ((rsplitOn sep.toList s.toList limit).map String.ofList)
      ((rsplitOn sep.toList s.toList limit).map String.ofList).tail := by
  obtain ⟨pieces, hsplits, heq⟩ := rsplits_rsplitOn hsep s.toList limit
  have hreverse : sep.toList.reverse ≠ [] := mt List.reverse_eq_nil_iff.1 hsep
  have hmirror {pieces : List (List Char)} (h : ∀ piece ∈ pieces, ¬ sep.toList.reverse <:+: piece) :
      ∀ piece ∈ (pieces.map List.reverse).reverse, ¬ sep.toList <:+: piece := by
    intro piece hpiece
    obtain ⟨piece, hmem, rfl⟩ := List.mem_map.1 (List.mem_reverse.1 hpiece)
    rw [← List.reverse_infix, List.reverse_reverse]
    exact h piece hmem
  -- the piece that is left over stands at the front
  rw [heq, ← List.map_tail, List.tail_reverse, ← List.map_dropLast]
  refine .of_pieces ?_ (fun k hk => ?_) (hmirror (hsplits.not_infix_of_mem_dropLast hreverse))
    fun hlimit => hmirror (hsplits.not_infix_of_mem hreverse fun k hk => ?_)
  · rw [← List.reverse_inj, reverse_intercalate, List.map_reverse, List.reverse_reverse,
      List.map_map, List.reverse_involutive.comp_self, List.map_id]
    exact hsplits.intercalate_eq
  · simpa using hsplits.length_le hk
  · simpa using hlimit k hk

/-! ## The methods -/

theorem toList_ne_nil (hsep : sep ≠ "") : sep.toList ≠ [] := mt String.toList_eq_nil_iff.1 hsep

/-- From one end or the other, the pieces at a separator. -/
theorem splitText_separator (hlimit : IsLimit args limit) (hsep : sep.toList ≠ [])
    (method : Method) (cs : List Char) :
    Builtin.splitText ⟨method, .str sep :: args⟩ cs =
      .ok (.list ((if method = .splitRight then rsplitOn sep.toList cs limit
        else splitOn sep.toList cs limit).map Builtin.strOf)) := by
  have hread : Builtin.MethodCall.limit? ⟨method, .str sep :: args⟩ 1 = .ok limit :=
    hlimit.read method [.str sep]
  unfold Builtin.splitText
  rw [hread]
  change (if sep.toList = [] then _ else _) = _
  rw [if_neg hsep]
  rfl

theorem callMethod_split (ev : Evaluator) (s : String) (hcount : args.length ≤ 2) (m : Machine) :
    callMethod ev (.str s) "split" args m = lift (Builtin.splitText ⟨.split, args⟩ s.toList) m ∧
      callMethod ev (.str s) "rsplit" args m =
        lift (Builtin.splitText ⟨.splitRight, args⟩ s.toList) m := by
  match args, hcount with
  | [], _ | [_], _ | [_, _], _ => exact ⟨rfl, rfl⟩

theorem callMethod_replace (ev : Evaluator) (s old new : String) (hlimit : IsLimit args limit)
    (m : Machine) :
    callMethod ev (.str s) "replace" (.str old :: .str new :: args) m =
      .ok (Builtin.strOf (replaced old.toList new.toList s.toList limit)) m := by
  have hread : Builtin.MethodCall.limit? ⟨.replace, .str old :: .str new :: args⟩ 2 = .ok limit :=
    hlimit.read .replace [.str old, .str new]
  have hreplace : Builtin.textMethod ⟨.replace, .str old :: .str new :: args⟩ s =
      .ok (Builtin.strOf (replaced old.toList new.toList s.toList limit)) := by
    change Builtin.MethodCall.limit? _ _ >>= _ = _
    rw [hread]
    rfl
  exact callMethod_eq_ok .replace (by cases hlimit <;> rfl) (congrArg lift hreplace)

/-- **Splitting at a separator, joining and replacing are consistent.** From either end, the parts
make up the string again, there is one more of them than the limit at most, and only the part that
is left over may contain the separator, unless the limit is not reached. Replacing a text is joining
the parts that it separates. -/
theorem splits_join_and_replace (ev : Evaluator) (hsep : sep ≠ "") (hlimit : IsLimit args limit)
    (s : String) (m : Machine) :
    ∃ parts parts' : List String, callMethod ev (.str s) "split" (.str sep :: args) m =
        .ok (.list (parts.map .str)) m ∧
      callMethod ev (.str s) "rsplit" (.str sep :: args) m = .ok (.list (parts'.map .str)) m ∧
      PartsOf sep s limit parts parts.dropLast ∧ PartsOf sep s limit parts' parts'.tail ∧
      ∀ new, ∃ result, callMethod ev (.str s) "replace" (.str sep :: .str new :: args) m =
        .ok (.str result) m ∧ Joins new parts result := by
  have hsep := toList_ne_nil hsep
  have hcount : (Value.str sep :: args).length ≤ 2 := Nat.succ_le_succ hlimit.length_le
  obtain ⟨hsplit, hrsplit⟩ := callMethod_split ev s hcount m
  rw [splitText_separator hlimit hsep] at hsplit hrsplit
  refine ⟨(splitOn sep.toList s.toList limit).map String.ofList,
    (rsplitOn sep.toList s.toList limit).map String.ofList, ?_, ?_,
    partsOf_splitOn hsep s limit, partsOf_rsplitOn hsep s limit, fun new => ⟨_,
    callMethod_replace ev s sep new hlimit m, ?_⟩⟩
  · rw [hsplit, List.map_map]
    rfl
  · rw [hrsplit, List.map_map]
    rfl
  · rw [replaced_eq hsep]
    exact intercalate_ofList new _ ▸ joins_intercalate new _

/-- A separator of characters of two bytes that overlaps itself, with a limit. -/
theorem splits_join_and_replace_overlap :
    let ev := Evaluator.within 0
    let m := Machine.start 0 0 .first (.ofVars [] 0)
    IsLimit [.int 1] (some 1) ∧
      callMethod ev (.str "éééaéé") "split" [.str "éé", .int 1] m =
        .ok (.list [.str "", .str "éaéé"]) m ∧
      callMethod ev (.str "éééaéé") "rsplit" [.str "éé", .int 1] m =
        .ok (.list [.str "éééa", .str ""]) m ∧
      PartsOf "éé" "éééaéé" (some 1) ["", "éaéé"] [""] ∧
      PartsOf "éé" "éééaéé" (some 1) ["éééa", ""] [""] ∧
      callMethod ev (.str "éééaéé") "replace" [.str "éé", .str "-", .int 1] m =
        .ok (.str "-éaéé") m ∧
      Joins "-" ["", "éaéé"] "-éaéé" := by
  intro ev m
  have hlimit : IsLimit [.int 1] (some 1) := .given rfl rfl
  obtain ⟨parts, parts', hsplit, hrsplit, hparts, hparts', hreplace⟩ :=
    splits_join_and_replace ev (by decide : "éé" ≠ "") hlimit "éééaéé" m
  obtain ⟨result, hreplaced, hjoins⟩ := hreplace "-"
  have hleft : callMethod ev (.str "éééaéé") "split" [.str "éé", .int 1] m =
      .ok (.list [.str "", .str "éaéé"]) m := rfl
  have hright : callMethod ev (.str "éééaéé") "rsplit" [.str "éé", .int 1] m =
      .ok (.list [.str "éééa", .str ""]) m := rfl
  have hresult : callMethod ev (.str "éééaéé") "replace" [.str "éé", .str "-", .int 1] m =
      .ok (.str "-éaéé") m := rfl
  have hinjective : Function.Injective (List.map Value.str) :=
    List.map_injective_iff.2 fun _ _ => Value.str.inj
  injection hsplit.symm.trans hleft with hparts₁
  injection hrsplit.symm.trans hright with hparts₂
  obtain rfl : parts = ["", "éaéé"] := hinjective (Value.list.inj hparts₁)
  obtain rfl : parts' = ["éééa", ""] := hinjective (Value.list.inj hparts₂)
  cases hreplaced.symm.trans hresult
  exact ⟨hlimit, hleft, hright, hparts, hparts', hresult, hjoins⟩

/-! ## At blanks -/

/-- Arguments without a separator, and a limit. -/
inductive WithoutSeparator : List Value → Option ℕ → Prop where
  | omitted : WithoutSeparator [] none
  | missing {args : List Value} {limit : Option ℕ} :
      IsLimit args limit → WithoutSeparator (.none :: args) limit

/-- The characters of a string in reverse order. -/
def reversed (s : String) : String := .ofList s.toList.reverse

theorem reversed_ofList (cs : List Char) :
    (reversed ∘ String.ofList) cs = String.ofList cs.reverse := by
  rw [Function.comp_apply, reversed, String.toList_ofList]

theorem WithoutSeparator.length_le (h : WithoutSeparator args limit) : args.length ≤ 2 := by
  cases h with
  | omitted => exact Nat.zero_le 2
  | missing hlimit => exact Nat.succ_le_succ hlimit.length_le

/-- From one end or the other, the pieces at blanks. -/
theorem splitText_blank (hargs : WithoutSeparator args limit) (method : Method) (cs : List Char) :
    Builtin.splitText ⟨method, args⟩ cs =
      .ok (.list ((if method = .splitRight then rsplitBlank cs limit
        else splitBlank cs limit).map Builtin.strOf)) := by
  unfold Builtin.splitText
  cases hargs with
  | omitted => rfl
  | @missing args _ hlimit =>
    have hread : Builtin.MethodCall.limit? ⟨method, .none :: args⟩ 1 = .ok limit :=
      hlimit.read method [.none]
    rw [hread]
    rfl

/-- **Splitting at blanks gives the words**: without a limit all of them in order, and with a limit
as many and then the rest of the string from the next word on. Splitting from the end is the mirror
image, and without a limit gives the words as well. Neither loop goes on forever. -/
theorem splits_at_blanks (ev : Evaluator) (s : String) (m : Machine) :
    (∃ spans, Words s.toList spans ∧
      (∀ args limit, WithoutSeparator args limit →
        callMethod ev (.str s) "split" args m =
          .ok (.list ((wordsWithin s.toList spans limit).map Builtin.strOf)) m ∧
        ∃ parts : List String, callMethod ev (.str (reversed s)) "split" args m =
            .ok (.list (parts.map .str)) m ∧
          callMethod ev (.str s) "rsplit" args m =
            .ok (.list ((parts.map reversed).reverse.map .str)) m) ∧
      ∀ args, WithoutSeparator args none →
        callMethod ev (.str s) "rsplit" args m =
          .ok (.list ((spans.map (wordOf s.toList)).map Builtin.strOf)) m) ∧
    WellFounded (fun rest cs : List Char => cs ≠ [] ∧ rest = (firstWord cs).2) ∧
    WellFounded (fun rest cs : List Char => cs ≠ [] ∧ rest = (lastWord cs).2) := by
  obtain ⟨spans, hspans, hsplit⟩ := exists_words s.toList
  refine ⟨⟨spans, hspans, fun args limit hargs => ⟨?_, ?_⟩, fun args hargs => ?_⟩,
    wellFounded_firstWord, wellFounded_lastWord⟩
  · rw [(callMethod_split ev s hargs.length_le m).1, splitText_blank hargs, ← hsplit]
    rfl
  · refine ⟨(splitBlank s.toList.reverse limit).map String.ofList, ?_, ?_⟩
    · rw [(callMethod_split ev _ hargs.length_le m).1, splitText_blank hargs, reversed,
        String.toList_ofList, List.map_map]
      rfl
    · rw [(callMethod_split ev _ hargs.length_le m).2, splitText_blank hargs, if_pos rfl,
        rsplitBlank_eq, List.map_map (g := reversed), funext reversed_ofList, List.map_reverse,
        List.map_reverse, List.map_map, List.map_map]
      rfl
  · rw [(callMethod_split ev s hargs.length_le m).2, splitText_blank hargs, if_pos rfl,
      rsplitBlank_none hspans]
    rfl

/-- Blanks of several bytes at both ends, and a limit. -/
theorem splits_at_blanks_limit :
    let ev := Evaluator.within 0
    let m := Machine.start 0 0 .first (.ofVars [] 0)
    let s := "\u2003a\u00a0 b  c "
    ∃ spans, Words s.toList spans ∧ WithoutSeparator [.none, .int 1] (some 1) ∧
      callMethod ev (.str s) "split" [.none, .int 1] m =
        .ok (.list ((wordsWithin s.toList spans (some 1)).map Builtin.strOf)) m ∧
      wordsWithin s.toList spans (some 1) = ["a".toList, "b  c ".toList] ∧
      callMethod ev (.str s) "rsplit" [] m =
        .ok (.list ((spans.map (wordOf s.toList)).map Builtin.strOf)) m := by
  intro ev m s
  obtain ⟨⟨spans, hspans, hwithin, hall⟩, -, -⟩ := splits_at_blanks ev s m
  have hlimit : WithoutSeparator [.none, .int 1] (some 1) := .missing (.given rfl rfl)
  refine ⟨spans, hspans, hlimit, (hwithin _ _ hlimit).1, ?_, hall [] .omitted⟩
  obtain ⟨spans', hspans', hsplit⟩ := exists_words s.toList
  obtain rfl := hspans.unique hspans'
  rw [← hsplit]
  decide +kernel

end Templating
