import Mathlib.Data.List.Infix
import Mathlib.Order.Bounds.Image
import Templating.Text.Search

/-!
# Where a text occurs

A text occurs in another one at the positions in front of which and behind which the rest of that
one stands. A search finds the least of these positions, or the greatest one.

* `OccursAt`: a list occurs in another one at a position.
* `IsFirst`, `IsLast`: the least and the greatest position with a property, or that there is none.
* `isFirst_find?`, `isLast_rfind?`: **the searches from the left and from the right.**
* `firstAt`, `lastAt`: the same searches in any list, one position after another.
* `contains_iff`: a text contains another one if it occurs somewhere.
-/

namespace Templating.Text

variable {α : Type} {needle hay before after : List α} {i j : ℕ}

/-! ## Positions -/

/-- A list occurs in another one at a position. -/
def OccursAt (needle hay : List α) (i : ℕ) : Prop :=
  ∃ before after, hay = before ++ needle ++ after ∧ before.length = i

theorem OccursAt.add_length_le (h : OccursAt needle hay i) :
    i + needle.length ≤ hay.length := by
  obtain ⟨before, after, rfl, rfl⟩ := h
  simp only [List.length_append]
  omega

theorem occursAt_zero_iff : OccursAt needle hay 0 ↔ needle <+: hay := by
  constructor
  · rintro ⟨before, after, rfl, hlength⟩
    rw [List.length_eq_zero_iff.1 hlength]
    exact List.prefix_append _ _
  · rintro ⟨after, rfl⟩
    exact ⟨[], after, rfl, rfl⟩

theorem occursAt_nil_iff : OccursAt needle [] i ↔ needle = [] ∧ i = 0 := by
  constructor
  · intro h
    have hlength := h.add_length_le
    rw [List.length_nil] at hlength
    exact ⟨List.length_eq_zero_iff.1 (by omega), by omega⟩
  · rintro ⟨rfl, rfl⟩
    exact occursAt_zero_iff.2 List.nil_prefix

/-- Behind an item the positions are one less. -/
theorem occursAt_succ_iff {item : α} :
    OccursAt needle (item :: hay) (i + 1) ↔ OccursAt needle hay i := by
  constructor
  · rintro ⟨_ | ⟨item', before⟩, after, heq, hlength⟩
    · cases hlength
    · cases heq
      exact ⟨before, after, rfl, Nat.succ.inj hlength⟩
  · rintro ⟨before, after, rfl, rfl⟩
    exact ⟨item :: before, after, rfl, rfl⟩

/-- A position at which a list occurs is told by the items from there on. -/
theorem occursAt_iff_take_drop :
    OccursAt needle hay i ↔
      i + needle.length ≤ hay.length ∧ (hay.drop i).take needle.length = needle := by
  constructor
  · intro h
    refine ⟨h.add_length_le, ?_⟩
    obtain ⟨before, after, rfl, rfl⟩ := h
    rw [List.append_assoc, List.drop_left, List.take_left]
  · rintro ⟨hle, hneedle⟩
    refine ⟨hay.take i, (hay.drop i).drop needle.length, ?_, by rw [List.length_take]; omega⟩
    conv_rhs => rw [← hneedle, List.length_take, List.length_drop]
    rw [List.append_assoc, show min needle.length (hay.length - i) = needle.length by omega,
      List.take_append_drop, List.take_append_drop]

theorem exists_occursAt_iff : (∃ i, OccursAt needle hay i) ↔ needle <:+: hay := by
  constructor
  · rintro ⟨i, before, after, rfl, -⟩
    exact ⟨before, after, rfl⟩
  · rintro ⟨before, after, rfl⟩
    exact ⟨_, before, after, rfl, rfl⟩

/-- Seen from the end, a list occurs where it ends. -/
theorem occursAt_reverse_iff :
    OccursAt needle.reverse hay.reverse j ↔
      ∃ i, OccursAt needle hay i ∧ hay.length - needle.length - i = j ∧
        i + needle.length ≤ hay.length := by
  constructor
  · rintro ⟨before, after, heq, rfl⟩
    have hhay : hay = after.reverse ++ needle ++ before.reverse := by
      rw [← List.reverse_reverse hay, heq]
      simp
    refine ⟨after.length, ⟨_, _, hhay, List.length_reverse⟩, ?_⟩
    rw [hhay]
    simp only [List.length_append, List.length_reverse]
    omega
  · rintro ⟨i, ⟨before, after, rfl, rfl⟩, rfl, -⟩
    refine ⟨after.reverse, before.reverse, by simp, ?_⟩
    simp only [List.length_append, List.length_reverse]
    omega

/-! ## The least and the greatest position -/

/-- The least position with a property, or that no position has it. -/
def IsFirst (P : ℕ → Prop) : Option ℕ → Prop
  | some i => IsLeast {i | P i} i
  | none => ∀ i, ¬ P i

/-- The greatest position with a property, or that no position has it. -/
def IsLast (P : ℕ → Prop) : Option ℕ → Prop
  | some i => IsGreatest {i | P i} i
  | none => ∀ i, ¬ P i

section

variable {P Q : ℕ → Prop} {found : Option ℕ} {f : ℕ → ℕ}

theorem IsFirst.eq_none_iff (h : IsFirst P found) : found = none ↔ ∀ i, ¬ P i := by
  cases found with
  | none => exact iff_of_true rfl h
  | some i => exact iff_of_false (Option.some_ne_none i) fun hnone => hnone i h.1

theorem IsLast.eq_none_iff (h : IsLast P found) : found = none ↔ ∀ i, ¬ P i := by
  cases found with
  | none => exact iff_of_true rfl h
  | some i => exact iff_of_false (Option.some_ne_none i) fun hnone => hnone i h.1

theorem IsFirst.eq_some_zero_iff (h : IsFirst P found) : found = some 0 ↔ P 0 := by
  cases found with
  | none => exact iff_of_false (Option.some_ne_none 0).symm (h 0)
  | some i =>
    rw [Option.some_inj]
    exact ⟨fun hi => hi ▸ h.1, fun hzero => Nat.le_zero.1 (h.2 hzero)⟩

theorem IsFirst.unique {found' : Option ℕ} (h : IsFirst P found) (h' : IsFirst P found') :
    found = found' := by
  cases found with
  | none => exact (h'.eq_none_iff.2 h).symm
  | some i =>
    cases found' with
    | none => exact (h' i h.1).elim
    | some j => exact congrArg some (IsLeast.unique h h')

theorem IsLast.unique {found' : Option ℕ} (h : IsLast P found) (h' : IsLast P found') :
    found = found' := by
  cases found with
  | none => exact (h'.eq_none_iff.2 h).symm
  | some i =>
    cases found' with
    | none => exact (h' i h.1).elim
    | some j => exact congrArg some (IsGreatest.unique h h')

/-- Positions that are counted in another way. -/
theorem IsFirst.map (h : IsFirst P found) (hf : Monotone f)
    (hQ : ∀ j, Q j ↔ ∃ i, P i ∧ f i = j) : IsFirst Q (found.map f) := by
  have hset : {j | Q j} = f '' {i | P i} := Set.ext hQ
  cases found with
  | none => exact fun j hj => let ⟨i, hi, _⟩ := (hQ j).1 hj; h i hi
  | some i =>
    change IsLeast {j | Q j} (f i)
    rw [hset]
    exact hf.map_isLeast h

theorem IsLast.map (h : IsLast P found) (hf : Monotone f)
    (hQ : ∀ j, Q j ↔ ∃ i, P i ∧ f i = j) : IsLast Q (found.map f) := by
  have hset : {j | Q j} = f '' {i | P i} := Set.ext hQ
  cases found with
  | none => exact fun j hj => let ⟨i, hi, _⟩ := (hQ j).1 hj; h i hi
  | some i =>
    change IsGreatest {j | Q j} (f i)
    rw [hset]
    exact hf.map_isGreatest h

/-- Positions that are counted from the other end. -/
theorem IsFirst.isLast_map (h : IsFirst P found) (hf : Antitone f)
    (hQ : ∀ j, Q j ↔ ∃ i, P i ∧ f i = j) : IsLast Q (found.map f) := by
  have hset : {j | Q j} = f '' {i | P i} := Set.ext hQ
  cases found with
  | none => exact fun j hj => let ⟨i, hi, _⟩ := (hQ j).1 hj; h i hi
  | some i =>
    change IsGreatest {j | Q j} (f i)
    rw [hset]
    exact hf.map_isLeast h

end

/-! ## Searches -/

/-- **The search from the left** finds the least position. -/
theorem isFirst_find? (needle hay : List Char) :
    IsFirst (OccursAt needle hay) (find? needle hay) := by
  induction hay with
  | nil =>
    unfold find?
    by_cases hempty : needle = []
    · rw [if_pos hempty]
      exact ⟨occursAt_nil_iff.2 ⟨hempty, rfl⟩, fun _ _ => Nat.zero_le _⟩
    · rw [if_neg hempty]
      exact fun i hi => hempty (occursAt_nil_iff.1 hi).1
  | cons c hay ih =>
    unfold find?
    by_cases hhere : needle.isPrefixOf (c :: hay)
    · rw [if_pos hhere]
      exact ⟨occursAt_zero_iff.2 (List.isPrefixOf_iff_prefix.1 hhere), fun _ _ => Nat.zero_le _⟩
    · -- behind the first item, positions count one more
      rw [if_neg hhere]
      refine ih.map (fun _ _ => Nat.succ_le_succ) fun j => ?_
      cases j with
      | zero =>
        refine iff_of_false (fun h => hhere ?_) fun ⟨_, _, h⟩ => Nat.succ_ne_zero _ h
        exact List.isPrefixOf_iff_prefix.2 (occursAt_zero_iff.1 h)
      | succ j => simp [occursAt_succ_iff]

/-- **The search from the right** finds the greatest position. -/
theorem isLast_rfind? (needle hay : List Char) :
    IsLast (OccursAt needle hay) (rfind? needle hay) := by
  -- what occurs at a position occurs in the mirror image as well, counted from the other end
  have hback (j : ℕ) : OccursAt needle hay j ↔
      ∃ i, OccursAt needle.reverse hay.reverse i ∧ hay.length - needle.length - i = j := by
    have h : OccursAt needle.reverse.reverse hay.reverse.reverse j ↔ _ := occursAt_reverse_iff
    rw [List.reverse_reverse, List.reverse_reverse, List.length_reverse, List.length_reverse] at h
    rw [h]
    refine exists_congr fun i => and_congr_right fun hi => ?_
    have hle := hi.add_length_le
    rw [List.length_reverse, List.length_reverse] at hle
    exact and_iff_left hle
  exact (isFirst_find? needle.reverse hay.reverse).isLast_map
    (fun _ _ h => Nat.sub_le_sub_left h _) hback

theorem find?_eq_none_iff {needle hay : List Char} :
    find? needle hay = none ↔ ¬ needle <:+: hay := by
  rw [(isFirst_find? needle hay).eq_none_iff, ← exists_occursAt_iff, not_exists]

/-- A text contains another one if that one occurs somewhere. -/
theorem contains_iff {needle hay : List Char} : contains needle hay = true ↔ needle <:+: hay := by
  rw [contains, Option.isSome_iff_ne_none, ne_eq, find?_eq_none_iff, not_not]

/-! ## One position after another -/

section

variable [BEq α]

/-- The first position at which a list occurs. -/
def firstAt (needle hay : List α) : Option ℕ :=
  (List.range (hay.length + 1)).find? fun i => needle.isPrefixOf (hay.drop i)

/-- The last position at which a list occurs. -/
def lastAt (needle hay : List α) : Option ℕ :=
  (List.range (hay.length + 1)).reverse.find? fun i => needle.isPrefixOf (hay.drop i)

omit [BEq α] in
/-- The first item with a property comes before all others with it. -/
theorem rel_of_find?_eq_some {r : α → α → Prop} {p : α → Bool} {items : List α} {item other : α}
    (hr : items.Pairwise r) (hfound : items.find? p = some item) (hmem : other ∈ items)
    (hother : p other) : other = item ∨ r item other := by
  obtain ⟨-, before, after, rfl, hbefore⟩ := List.find?_eq_some_iff_append.1 hfound
  rcases List.mem_append.1 hmem with hmem | hmem
  · exact absurd hother (by simpa using hbefore other hmem)
  · rcases List.mem_cons.1 hmem with rfl | hmem
    · exact .inl rfl
    · exact .inr ((List.pairwise_cons.1 (List.pairwise_append.1 hr).2.1).1 other hmem)

variable [LawfulBEq α]

theorem isPrefixOf_drop_iff :
    i ∈ List.range (hay.length + 1) ∧ needle.isPrefixOf (hay.drop i) = true ↔
      OccursAt needle hay i := by
  rw [List.mem_range, List.isPrefixOf_iff_prefix]
  constructor
  · rintro ⟨hle, after, heq⟩
    refine ⟨hay.take i, after, ?_, by rw [List.length_take]; omega⟩
    rw [List.append_assoc, heq, List.take_append_drop]
  · intro h
    have hle := h.add_length_le
    obtain ⟨before, after, rfl, rfl⟩ := h
    refine ⟨by omega, after, ?_⟩
    rw [List.append_assoc, List.drop_left]

theorem isFirst_firstAt (needle hay : List α) :
    IsFirst (OccursAt needle hay) (firstAt needle hay) := by
  unfold firstAt
  cases hfound : (List.range (hay.length + 1)).find? fun i => needle.isPrefixOf (hay.drop i) with
  | none =>
    intro i hi
    obtain ⟨hmem, hprefix⟩ := isPrefixOf_drop_iff.2 hi
    exact List.find?_eq_none.1 hfound i hmem hprefix
  | some i =>
    have hhere : needle.isPrefixOf (hay.drop i) = true := by
      simpa using List.find?_some (p := fun i => needle.isPrefixOf (hay.drop i)) hfound
    refine ⟨isPrefixOf_drop_iff.1 ⟨List.mem_of_find?_eq_some hfound, hhere⟩, fun j hj => ?_⟩
    obtain ⟨hmem, hprefix⟩ := isPrefixOf_drop_iff.2 hj
    exact (rel_of_find?_eq_some List.pairwise_lt_range hfound hmem hprefix).elim
      (fun h => h.ge) le_of_lt

theorem isLast_lastAt (needle hay : List α) :
    IsLast (OccursAt needle hay) (lastAt needle hay) := by
  unfold lastAt
  cases hfound :
    (List.range (hay.length + 1)).reverse.find? fun i => needle.isPrefixOf (hay.drop i) with
  | none =>
    intro i hi
    obtain ⟨hmem, hprefix⟩ := isPrefixOf_drop_iff.2 hi
    exact List.find?_eq_none.1 hfound i (List.mem_reverse.2 hmem) hprefix
  | some i =>
    have hhere : needle.isPrefixOf (hay.drop i) = true := by
      simpa using List.find?_some (p := fun i => needle.isPrefixOf (hay.drop i)) hfound
    refine ⟨isPrefixOf_drop_iff.1 ⟨List.mem_reverse.1 (List.mem_of_find?_eq_some hfound), hhere⟩,
      fun j hj => ?_⟩
    obtain ⟨hmem, hprefix⟩ := isPrefixOf_drop_iff.2 hj
    have hpairwise := List.pairwise_reverse.2 (List.pairwise_lt_range (n := hay.length + 1))
    exact (rel_of_find?_eq_some hpairwise hfound (List.mem_reverse.2 hmem) hprefix).elim
      (fun h => h.le) le_of_lt

end

end Templating.Text
