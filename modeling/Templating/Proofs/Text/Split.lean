import Templating.Proofs.Text.Search

/-!
# Splitting at a separator

A text is cut at the first occurrence of a separator, then the text behind it, and so on. What is
cut from the right is the mirror image of what is cut from the left.

* `Splits`: the pieces of a text, cut by cut.
* `splits_splitOn`: **the pieces are cut one after another** until nothing can be cut.
* `Splits.intercalate_eq`: the pieces with separators between them make up the text.
* `Splits.length_le`, `Splits.not_infix_of_mem_dropLast`, `Splits.not_infix_of_mem`: how many pieces
  there are, and which of them contain no separator.
* `replaced_eq`: replacing is splitting and joining.
-/

namespace Templating.Text

variable {sep cs piece rest new : List Char} {limit : Option ℕ} {pieces : List (List Char)}

/-! ## Single cuts -/

theorem cut?_eq_none_iff : cut? sep cs = none ↔ ¬ sep <:+: cs := by
  rw [cut?, Option.map_eq_none_iff, find?_eq_none_iff]

/-- A text is cut at the first occurrence of the separator. -/
theorem cut?_eq_some (h : cut? sep cs = some (piece, rest)) :
    cs = piece ++ sep ++ rest ∧ IsFirst (OccursAt sep cs) (some piece.length) := by
  obtain ⟨i, hi, heq⟩ := Option.map_eq_some_iff.1 h
  have hfirst := isFirst_find? sep cs
  rw [hi] at hfirst
  obtain ⟨before, after, hcs, hlength⟩ := hfirst.1
  subst hcs hlength
  rw [List.drop_left' (List.length_append ..), List.append_assoc, List.take_left] at heq
  cases heq
  exact ⟨rfl, hfirst⟩

theorem mayCut_eq_true_iff : mayCut limit = true ↔ limit ≠ some 0 := by
  unfold mayCut
  split <;> simp_all

/-! ## Pieces -/

/-- The pieces of a text that is cut at the first separator, and of the rest behind it, until there
is none or the limit is reached. -/
inductive Splits (sep : List Char) : Option ℕ → List Char → List (List Char) → Prop where
  | limited {cs : List Char} : Splits sep (some 0) cs [cs]
  | whole {limit : Option ℕ} {cs : List Char} : ¬ sep <:+: cs → Splits sep limit cs [cs]
  | cut {limit : Option ℕ} {piece rest : List Char} {pieces : List (List Char)} :
      limit ≠ some 0 → IsFirst (OccursAt sep (piece ++ sep ++ rest)) (some piece.length) →
      Splits sep (lessOne limit) rest pieces → Splits sep limit (piece ++ sep ++ rest)
        (piece :: pieces)

/-- The fuel lasts, since a separator that is not empty shortens the rest. -/
theorem splits_splitFrom (hsep : sep ≠ []) {fuel : ℕ} (hfuel : cs.length < fuel) :
    Splits sep limit cs (splitFrom sep fuel limit cs) := by
  induction fuel generalizing limit cs with
  | zero => exact (Nat.not_lt_zero _ hfuel).elim
  | succ fuel ih =>
    unfold splitFrom
    split
    · rename_i hlimit
      split
      · rename_i piece rest hcut
        obtain ⟨rfl, hfirst⟩ := cut?_eq_some hcut
        refine .cut (mayCut_eq_true_iff.1 hlimit) hfirst (ih ?_)
        -- the rest is shorter by the separator at least
        have hpos := List.length_pos_iff.2 hsep
        simp only [List.length_append] at hfuel
        omega
      · rename_i hcut
        exact .whole (cut?_eq_none_iff.1 hcut)
    · rename_i hlimit
      rw [mayCut_eq_true_iff, not_not] at hlimit
      subst hlimit
      exact .limited

/-- **The pieces are cut one after another.** -/
theorem splits_splitOn (hsep : sep ≠ []) (cs : List Char) (limit : Option ℕ) :
    Splits sep limit cs (splitOn sep cs limit) :=
  splits_splitFrom hsep (Nat.lt_succ_self _)

namespace Splits

theorem ne_nil (h : Splits sep limit cs pieces) : pieces ≠ [] := by
  cases h <;> exact List.cons_ne_nil _ _

/-- **The pieces make up the text**, with separators between them. -/
theorem intercalate_eq (h : Splits sep limit cs pieces) : sep.intercalate pieces = cs := by
  induction h with
  | limited => exact List.intercalate_singleton
  | whole => exact List.intercalate_singleton
  | cut _ _ hrest ih => rw [List.intercalate_cons_of_ne_nil hrest.ne_nil, ih]

/-- There is one piece more than there are cuts. -/
theorem length_le {k : ℕ} (h : Splits sep limit cs pieces) (hk : limit = some k) :
    pieces.length ≤ k + 1 := by
  induction h generalizing k with
  | limited => exact Nat.le_add_left 1 k
  | whole => exact Nat.le_add_left 1 k
  | cut hlimit _ _ ih =>
    subst hk
    have hpos : k ≠ 0 := fun h => hlimit (congrArg some h)
    have hle := ih (k := k - 1) rfl
    rw [List.length_cons]
    omega

/-- What stands in front of the first separator contains none. -/
theorem not_infix_of_isFirst (hsep : sep ≠ [])
    (h : IsFirst (OccursAt sep (piece ++ sep ++ rest)) (some piece.length)) :
    ¬ sep <:+: piece := by
  -- one inside would stand in front of the first one
  rintro ⟨before, after, rfl⟩
  have hpos := List.length_pos_iff.2 hsep
  have hle : (before ++ sep ++ after).length ≤ before.length :=
    h.2 ⟨before, after ++ sep ++ rest, by simp, rfl⟩
  simp only [List.length_append] at hle
  omega

/-- Only the last piece may contain a separator. -/
theorem not_infix_of_mem_dropLast (hsep : sep ≠ []) (h : Splits sep limit cs pieces) :
    ∀ piece ∈ pieces.dropLast, ¬ sep <:+: piece := by
  induction h with
  | limited => exact fun _ hmem => absurd hmem List.not_mem_nil
  | whole => exact fun _ hmem => absurd hmem List.not_mem_nil
  | cut _ hfirst hrest ih =>
    rw [List.dropLast_cons_of_ne_nil hrest.ne_nil, List.forall_mem_cons]
    exact ⟨not_infix_of_isFirst hsep hfirst, ih⟩

/-- If the limit is not reached, no piece contains a separator. -/
theorem not_infix_of_mem (hsep : sep ≠ []) (h : Splits sep limit cs pieces)
    (hlimit : ∀ k, limit = some k → pieces.length < k + 1) :
    ∀ piece ∈ pieces, ¬ sep <:+: piece := by
  induction h with
  | limited => exact (Nat.lt_irrefl 1 (hlimit 0 rfl)).elim
  | whole hwhole => exact List.forall_mem_singleton.2 hwhole
  | @cut limit _ _ pieces _ hfirst hrest ih =>
    refine List.forall_mem_cons.2 ⟨not_infix_of_isFirst hsep hfirst, ih fun k hk => ?_⟩
    obtain ⟨k', rfl, rfl⟩ := Option.map_eq_some_iff.1 hk
    have hlt := hlimit k' rfl
    have hpos := List.length_pos_iff.2 hrest.ne_nil
    rw [List.length_cons] at hlt
    omega

end Splits

/-! ## Pieces from the right -/

theorem intercalate_concat (sep piece : List Char) (hne : pieces ≠ []) :
    sep.intercalate (pieces ++ [piece]) = sep.intercalate pieces ++ sep ++ piece := by
  induction pieces with
  | nil => exact (hne rfl).elim
  | cons first pieces ih =>
    cases pieces with
    | nil => simp
    | cons second pieces =>
      rw [List.cons_append, List.intercalate_cons_of_ne_nil (by simp), ih (List.cons_ne_nil _ _),
        List.intercalate_cons_of_ne_nil (List.cons_ne_nil _ _)]
      simp only [List.append_assoc]

/-- A text of pieces, seen from its end. -/
theorem reverse_intercalate (sep : List Char) (pieces : List (List Char)) :
    (sep.intercalate pieces).reverse =
      sep.reverse.intercalate (pieces.map List.reverse).reverse := by
  induction pieces with
  | nil => rfl
  | cons piece pieces ih =>
    cases pieces with
    | nil => simp
    | cons second pieces =>
      rw [List.intercalate_cons_of_ne_nil (List.cons_ne_nil _ _), List.map_cons,
        List.reverse_cons, intercalate_concat _ _ (by simp), ← ih]
      simp only [List.reverse_append, List.append_assoc]

/-- The pieces from the right are those of the reversed text, each reversed. -/
theorem rsplits_rsplitOn (hsep : sep ≠ []) (cs : List Char) (limit : Option ℕ) :
    ∃ pieces, Splits sep.reverse limit cs.reverse pieces ∧
      rsplitOn sep cs limit = (pieces.map List.reverse).reverse :=
  ⟨_, splits_splitOn (mt List.reverse_eq_nil_iff.1 hsep) _ _, rfl⟩

/-! ## Replacing -/

theorem splitFrom_ne_nil (sep : List Char) (fuel : ℕ) (limit : Option ℕ) (cs : List Char) :
    splitFrom sep fuel limit cs ≠ [] := by
  cases fuel with
  | zero => exact List.cons_ne_nil _ _
  | succ fuel =>
    unfold splitFrom
    split
    · split <;> exact List.cons_ne_nil _ _
    · exact List.cons_ne_nil _ _

theorem replaceFrom_eq (old new : List Char) (fuel : ℕ) (limit : Option ℕ) (cs : List Char) :
    replaceFrom old new fuel limit cs = new.intercalate (splitFrom old fuel limit cs) := by
  induction fuel generalizing limit cs with
  | zero => exact List.intercalate_singleton.symm
  | succ fuel ih =>
    unfold replaceFrom splitFrom
    split
    · split
      · rw [List.intercalate_cons_of_ne_nil (splitFrom_ne_nil _ _ _ _), ih]
      · exact List.intercalate_singleton.symm
    · exact List.intercalate_singleton.symm

/-- **Replacing is splitting and joining.** -/
theorem replaced_eq {old : List Char} (hold : old ≠ []) (new cs : List Char) (limit : Option ℕ) :
    replaced old new cs limit = new.intercalate (splitOn old cs limit) := by
  rw [replaced, if_neg hold]
  exact replaceFrom_eq old new _ limit cs

end Templating.Text
