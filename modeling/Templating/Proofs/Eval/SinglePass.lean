import Templating.Proofs.Eval.Account
import Templating.Proofs.Eval.Producer

/-!
# Iterators that share their sources

Functions on sequences make iterators of others without copying them. Whatever is shared, and in
whichever order the iterators are advanced, every item of a source goes to one place.

* `Spent`: an iterator that can have no more items.
* `TakesAll`: advances one after another, with the record before and after them.
* `Piece`, `buildAll`: some iterators, each of which wraps sequences and earlier ones.
* `SinglePass`: what the record says of some advances.
* `shared_iterators_single_pass`: **however the iterators are advanced, they take each item once.**
-/

namespace Templating

open Builtin Eval

variable {C C₁ C' : Custody} {s s' s₁ : Array Cell} {h i : Handle} {hs : List Handle}
  {cursor cursor' : Cursor} {r : Option Row} {rows : List (Option Row)}
  {full : Handle → List Value} {base n : Nat}

/-! ## Iterators that came to their end -/

/-- An iterator ends when one of these ends. -/
def Cursor.EndsWith : Cursor → Handle → Prop
  | .enumerate inner _, i => i = inner
  | .zip inners, i => i ∈ inners
  | _, _ => False

theorem Cursor.endsWith_skeleton (cursor : Cursor) (i : Handle) :
    cursor.skeleton.EndsWith i ↔ cursor.EndsWith i := by
  cases cursor <;> rfl

theorem Cursor.Later.endsWith (h : cursor.Later cursor') :
    cursor'.EndsWith i ↔ cursor.EndsWith i := by
  rw [← cursor'.endsWith_skeleton, h.skeleton, cursor.endsWith_skeleton]

/-- A source without a next item has no items. -/
theorem Cursor.isOver_of_uncons (hsource : cursor.IsSource) (h : cursor.uncons = none) :
    cursor.IsOver := by
  cases cursor with
  | items rest =>
    cases rest with
    | nil => trivial
    | cons v rest => cases h
  | range next step remaining =>
    cases remaining with
    | zero => trivial
    | succ remaining => cases h
  | _ => exact hsource.elim

/-- An iterator can have no more items, whatever is done with others. -/
inductive Spent (s : Array Cell) : Handle → Prop where
  | missing {h : Handle} : s[h]? = none → Spent s h
  | here {h : Handle} {cursor : Cursor} {busy : Bool} : s[h]? = some ⟨cursor, busy⟩ →
      cursor.IsOver → Spent s h
  | inner {h i : Handle} {cursor : Cursor} {busy : Bool} : s[h]? = some ⟨cursor, busy⟩ →
      cursor.EndsWith i → Spent s i → Spent s h

/-- An iterator without items has none later on. -/
theorem Spent.onward (hspent : Spent s h) (honward : Onward s s') : Spent s' h := by
  induction hspent with
  | missing hcell =>
    rw [Array.getElem?_eq_none_iff] at hcell
    exact .missing (Array.getElem?_eq_none_iff.2 (honward.size.symm ▸ hcell))
  | here hcell hover =>
    obtain ⟨cursor', busy', hcell', hlater⟩ := honward.cells _ _ _ hcell
    exact .here hcell' (hlater.isOver hover)
  | inner hcell hends _ ih =>
    obtain ⟨cursor', busy', hcell', hlater⟩ := honward.cells _ _ _ hcell
    exact .inner hcell' (hlater.endsWith.2 hends) ih

/-- Why an iterator in the store is spent. -/
theorem Spent.cases {busy : Bool} (hspent : Spent s h) (hcell : s[h]? = some ⟨cursor, busy⟩) :
    cursor.IsOver ∨ ∃ i, cursor.EndsWith i ∧ Spent s i := by
  cases hspent with
  | missing hnone =>
    rw [hcell] at hnone
    cases hnone
  | here hcell' hover =>
    rw [hcell] at hcell'
    cases hcell'
    exact .inl hover
  | inner hcell' hends hspent =>
    rw [hcell] at hcell'
    cases hcell'
    exact .inr ⟨_, hends, hspent⟩

theorem Spent.of_release {busy : Bool} (hcell : s[h]? = some ⟨cursor, busy⟩)
    (hlater : cursor.Later cursor') (hspent : cursor'.IsOver ∨ ∃ i, cursor.EndsWith i ∧ Spent s i) :
    Spent (release s h cursor') h := by
  have hcell' : (release s h cursor')[h]? = some ⟨cursor', false⟩ :=
    Array.getElem?_setIfInBounds_self_of_lt (Array.getElem?_eq_some_iff.1 hcell).1
  rcases hspent with hover | ⟨i, hends, hspent⟩
  · exact .here hcell' hover
  · exact .inner hcell' (hlater.endsWith.2 hends) (hspent.onward (.set hcell hlater))

mutual

/-- **An iterator that has come to its end is spent.** -/
theorem Takes.spent {C C' : Custody} {s s' : Array Cell} {h : Handle} {r : Option Row} :
    Takes C s h r C' s' → r = none → Spent s' h
  | .missing hcell => fun _ => .missing hcell
  | .step hcell hworks => fun hr =>
    .of_release (hworks.sameBusy.busy (getElem?_seize hcell)) hworks.later (hworks.spent hr)

theorem Works.spent {C C' : Custody} {s s' : Array Cell} {h : Handle} {cursor cursor' : Cursor}
    {r : Option Row} : Works C s h cursor r cursor' C' s' → r = none →
      cursor'.IsOver ∨ ∃ i, cursor.EndsWith i ∧ Spent s' i
  | .source _ | .enumerate _ | .marked .. | .marked_first .. | .marked_held .. | .zip _ => nofun
  | .source_ended hsource huncons => fun _ => .inl (Cursor.isOver_of_uncons hsource huncons)
  | .enumerate_ended htakes => fun _ => .inr ⟨_, rfl, htakes.spent rfl⟩
  | .marked_none _ | .marked_ended | .zip_nil => fun _ => .inl trivial
  | .zip_ended heach => fun _ => .inr (heach.spent rfl)

theorem TakesEach.spent {z : Handle} {C C' : Custody} {s s' : Array Cell} {hs : List Handle}
    {complete : Bool} {rows : List Row} : TakesEach z C s hs complete rows C' s' →
      complete = false → ∃ i ∈ hs, Spent s' i
  | .nil => nofun
  | .ended htakes => fun _ => ⟨_, List.mem_cons_self, htakes.spent rfl⟩
  | .cons _ heach => fun hcomplete =>
    have ⟨i, hi, hspent⟩ := heach.spent hcomplete
    ⟨i, List.mem_cons_of_mem _ hi, hspent⟩

end

mutual

/-- **A spent iterator has no items.** -/
theorem Takes.none_of_spent {C C' : Custody} {s s' : Array Cell} {h : Handle} {r : Option Row} :
    Takes C s h r C' s' → Spent s h → r = none
  | .missing _ => fun _ => rfl
  | .step hcell hworks => fun hspent =>
    hworks.none_of_spent ((hspent.onward (.set hcell (.refl _))).cases (getElem?_seize hcell))

theorem Works.none_of_spent {C C' : Custody} {s s' : Array Cell} {h : Handle}
    {cursor cursor' : Cursor} {r : Option Row} : Works C s h cursor r cursor' C' s' →
      (cursor.IsOver ∨ ∃ i, cursor.EndsWith i ∧ Spent s i) → r = none
  | .source huncons => fun hspent => by
    unfold Cursor.uncons at huncons
    split at huncons
    · exact hspent.elim False.elim fun ⟨_, hends, _⟩ => hends.elim
    · exact hspent.elim False.elim fun ⟨_, hends, _⟩ => hends.elim
    · cases huncons
  | .source_ended .. | .enumerate_ended _ | .marked_none _ | .marked_ended | .zip_ended _
  | .zip_nil => fun _ => rfl
  | .enumerate htakes => fun hspent => by
    obtain ⟨i, hi, hinner⟩ := hspent.resolve_left id
    cases htakes.none_of_spent (Eq.subst hi hinner)
  | .marked .. | .marked_first .. | .marked_held .. => fun hspent =>
    (hspent.resolve_left id).elim fun _ h => h.1.elim
  | .zip heach => fun hspent => by
    cases heach.false_of_spent (hspent.resolve_left id)

theorem TakesEach.false_of_spent {z : Handle} {C C' : Custody} {s s' : Array Cell}
    {hs : List Handle} {complete : Bool} {rows : List Row} :
    TakesEach z C s hs complete rows C' s' → (∃ i ∈ hs, Spent s i) → complete = false
  | .nil => fun ⟨_, hi, _⟩ => nomatch hi
  | .ended _ => fun _ => rfl
  | .cons htakes heach => fun ⟨i, hi, hspent⟩ => by
    rcases List.mem_cons.1 hi with hi | hi
    · cases htakes.none_of_spent (hi ▸ hspent)
    · exact heach.false_of_spent ⟨i, hi, hspent.onward htakes.onward⟩

end

/-! ## Advances one after another -/

/-- Advances of some iterators one after another, with the record before and after them. -/
inductive TakesAll : Custody → Array Cell → List Handle → List (Option Row) → Custody →
    Array Cell → Prop where
  | nil {C : Custody} {s : Array Cell} : TakesAll C s [] [] C s
  | cons {C C₁ C' : Custody} {s s₁ s' : Array Cell} {h : Handle} {hs : List Handle}
      {r : Option Row} {rows : List (Option Row)} : Takes C s h r C₁ s₁ →
      TakesAll C₁ s₁ hs rows C' s' → TakesAll C s (h :: hs) (r :: rows) C' s'

namespace TakesAll

/-- Advances with a record are advances. -/
theorem yields (ht : TakesAll C s hs rows C' s') :
    Yields s (fun ev => hs.mapM ev.advance) (rows.map (·.map Row.value)) s' := by
  induction ht with
  | nil => exact .pure _
  | cons htakes _ ih =>
    simp only [List.mapM_cons]
    exact htakes.pulls.bind (ih.bind (.pure _))

theorem onward (ht : TakesAll C s hs rows C' s') : Onward s s' := by
  induction ht with
  | nil => exact .refl _
  | cons htakes _ ih => exact htakes.onward.trans ih

theorem sameBusy (ht : TakesAll C s hs rows C' s') : SameBusy s s' := by
  induction ht with
  | nil => exact .refl _
  | cons htakes _ ih => exact htakes.sameBusy.trans ih

/-- Advances keep the record right. -/
theorem accounts (ht : TakesAll C s hs rows C' s') (hf : Tallies full C s) (hn : s.size ≤ n) :
    Tallies full C' s' ∧ C.Moves n (rows.flatMap Row.tokens?) C' ∧
      ∀ row, some row ∈ rows → row.value.Holds full row.tokens := by
  induction ht with
  | nil => exact ⟨hf, .refl _ n, nofun⟩
  | cons htakes _ ih =>
    have hfirst := htakes.accounts hf hn
    obtain ⟨hf', hmoves, hshown⟩ := ih hfirst.tallies (htakes.onward.size.trans_le hn)
    refine ⟨hf', hfirst.moves.trans hmoves, fun row hrow => ?_⟩
    exact (List.mem_cons.1 hrow).elim (fun h => hfirst.shown row h.symm) (hshown row)

/-- A spent iterator has no items at any time. -/
theorem none_of_spent (ht : TakesAll C s hs rows C' s') (hspent : Spent s h) {k : Nat}
    (hk : hs[k]? = some h) : rows[k]? = some none := by
  induction ht generalizing k with
  | nil => cases hk
  | cons htakes _ ih =>
    cases k with
    | zero =>
      cases hk
      exact congrArg some (htakes.none_of_spent hspent)
    | succ k => exact ih (hspent.onward htakes.onward) hk

/-- **An iterator that has come to its end has no items later on.** -/
theorem ended (ht : TakesAll C s hs rows C' s') {j k : Nat} (hjk : j < k) (hj : hs[j]? = some h)
    (hk : hs[k]? = some h) (hend : rows[j]? = some none) : rows[k]? = some none := by
  induction ht generalizing j k with
  | nil => cases hj
  | cons htakes hrest ih =>
    obtain ⟨k, rfl⟩ := Nat.exists_eq_succ_of_ne_zero (Nat.ne_zero_of_lt hjk)
    cases j with
    | zero =>
      cases hj
      cases hend
      exact hrest.none_of_spent (htakes.spent rfl) hk
    | succ j => exact ih (Nat.lt_of_succ_lt_succ hjk) hj hk hend

end TakesAll

/-- All advances can be recorded, if iterators wrap older ones only. -/
theorem Ready.takesAll (hready : Ready base n s) (hhs : ∀ h ∈ hs, base ≤ h ∧ h < n)
    (C : Custody) : ∃ rows C' s', TakesAll C s hs rows C' s' := by
  induction hs generalizing s C with
  | nil => exact ⟨_, _, _, .nil⟩
  | cons h hs ih =>
    obtain ⟨⟨hle, hlt⟩, hhs⟩ := List.forall_mem_cons.1 hhs
    obtain ⟨r, C₁, s₁, hfirst⟩ := (hready.mono hlt).takes hle C
    obtain ⟨rows, C', s', hrest⟩ := ih (hready.after hfirst.onward hfirst.sameBusy) hhs C₁
    exact ⟨_, _, _, .cons hfirst hrest⟩

/-! ## Iterators of sequences and of each other -/

/-- What an iterator wraps: a sequence, or one of the iterators that were made before. -/
inductive Wrapped where
  | sequence (v : Value)
  | shared (k : Nat)

namespace Wrapped

/-- The argument of the function. -/
def value (made : List Handle) : Wrapped → Value
  | sequence v => v
  | shared k => .iterator (made.getD k 0)

/-- A sequence is one, and there are enough iterators. -/
def IsValid (count : Nat) : Wrapped → Prop
  | sequence v => v.sequence?.isSome
  | shared k => k < count

end Wrapped

/-- An iterator, and the function that makes it. -/
inductive Piece where
  | iterate (inner : Wrapped)
  | range (bounds : Bounds)
  | enumerate (start : Option Int64) (inner : Wrapped)
  | marked (marking : Marking) (inner : Wrapped)
  | zip (inners : List Wrapped)

namespace Piece

/-- Makes the iterator, given those that were made before. -/
def build (made : List Handle) : Piece → Program Handle
  | iterate inner, _ => (inner.value made).iterate
  | range bounds, ev => do (← callFunction ev "range" bounds.args).iterate
  | enumerate start inner, ev => do
    (← callFunction ev "enumerate" (inner.value made :: start.toList.map .int)).iterate
  | marked marking inner, ev => do
    (← callFunction ev marking.name (inner.value made :: marking.args)).iterate
  | zip inners, ev => do (← callFunction ev "zip" (inners.map (·.value made))).iterate

/-- The arguments are as they should be, given how many iterators were made before. -/
def IsValid (count : Nat) : Piece → Prop
  | range bounds => bounds.step ≠ 0
  | iterate inner | enumerate _ inner | marked _ inner => inner.IsValid count
  | zip inners => ∀ inner ∈ inners, inner.IsValid count

/-- Makes iterators after those that were made before. -/
def buildAll : List Piece → List Handle → Program (List Handle)
  | [], made, _ => return made
  | p :: ps, made, ev => do buildAll ps (made ++ [← p.build made ev]) ev

/-- The arguments are as they should be for all of the pieces. -/
def AreValid : List Piece → Nat → Prop
  | [], _ => True
  | p :: ps, count => p.IsValid count ∧ AreValid ps (count + 1)

end Piece

/-- The iterators from a place on run no code and wrap older ones only, and some of them are
known. -/
structure Stocked (base : Nat) (s : Array Cell) (known : List Handle) : Prop where
  base_le : base ≤ s.size
  ready : Ready base s.size s
  known : ∀ h ∈ known, base ≤ h ∧ h < s.size

namespace Stocked

variable {known known' : List Handle}

theorem mono (hs : Stocked base s known) (hsub : known' ⊆ known) : Stocked base s known' :=
  ⟨hs.base_le, hs.ready, fun h hh => hs.known h (hsub hh)⟩

/-- A new iterator that wraps known ones. -/
theorem push (hs : Stocked base s known) (cursor : Cursor) (hbuiltin : cursor.IsBuiltin)
    (hsound : cursor.IsSound) (hsources : cursor.sources ⊆ known) :
    Stocked base (s.push ⟨cursor, false⟩) (s.size :: known) where
  base_le := by
    rw [Array.size_push]
    exact hs.base_le.trans (Nat.le_succ _)
  ready i hi hlt := by
    rw [Array.size_push] at hlt
    rcases Nat.lt_succ_iff_lt_or_eq.1 hlt with hlt | rfl
    · obtain ⟨c, hcell, hc⟩ := hs.ready i hi hlt
      exact ⟨c, by rw [Array.getElem?_push, if_neg hlt.ne, hcell], hc⟩
    · exact ⟨cursor, by simp, hbuiltin, hsound, fun j hj => hs.known j (hsources hj)⟩
  known := by
    rw [Array.size_push]
    refine List.forall_mem_cons.2 ⟨⟨hs.base_le, Nat.lt_succ_self _⟩, fun h hh => ?_⟩
    exact ⟨(hs.known h hh).1, (hs.known h hh).2.trans (Nat.lt_succ_self _)⟩

/-- What is wrapped as an iterator. -/
theorem iterate (hs : Stocked base s known) {inner : Wrapped} {made : List Handle}
    (hmade : made ⊆ known) (hinner : inner.IsValid made.length) :
    ∃ h s', Yields s (fun _ => (inner.value made).iterate) h s' ∧ Stocked base s' (h :: known) := by
  cases inner with
  | sequence v =>
    obtain ⟨vs, hv⟩ := Option.isSome_iff_exists.1 hinner
    have hrun : v.iterate = Eval.allocate (.items vs) := by
      cases v <;> cases hv <;> rfl
    refine ⟨_, _, ?_, hs.push (.items vs) trivial trivial (List.nil_subset _)⟩
    rw [Wrapped.value, hrun]
    exact .allocate _
  | shared k =>
    have hlt : k < made.length := hinner
    refine ⟨_, s, .pure _, hs.mono (List.cons_subset.2 ⟨hmade ?_, List.Subset.refl _⟩)⟩
    rw [List.getD_eq_getElem _ _ hlt]
    exact List.getElem_mem hlt

theorem iterateEach (hs : Stocked base s known) {inners : List Wrapped} {made : List Handle}
    (hmade : made ⊆ known) (hinners : ∀ inner ∈ inners, inner.IsValid made.length) :
    ∃ hs' s', Yields s (fun _ => (inners.map (·.value made)).mapM Value.iterate) hs' s' ∧
      Stocked base s' (hs' ++ known) := by
  induction inners generalizing s known with
  | nil => exact ⟨[], s, .pure _, hs⟩
  | cons inner inners ih =>
    obtain ⟨hinner, hinners⟩ := List.forall_mem_cons.1 hinners
    obtain ⟨h, s₁, hrun, hs₁⟩ := hs.iterate hmade hinner
    obtain ⟨hs', s', hruns, hs''⟩ := ih hs₁ (List.subset_cons_of_subset h hmade) hinners
    refine ⟨h :: hs', s', ?_, hs''.mono ?_⟩
    · simp only [List.map_cons, List.mapM_cons]
      exact hrun.bind (hruns.bind (.pure _))
    · rw [List.cons_append]
      exact List.perm_middle.symm.subset

/-- A new iterator, returned as a value and taken from it. -/
theorem wrap (hs : Stocked base s known) (cursor : Cursor) (hbuiltin : cursor.IsBuiltin)
    (hsound : cursor.IsSound) (hsources : cursor.sources ⊆ known) :
    ∃ h s', Yields s (fun _ => do (← Builtin.iterator cursor).iterate) h s' ∧
      Stocked base s' (h :: known) :=
  ⟨_, _, ((Yields.allocate cursor).bind (.pure _)).bind (.pure _),
    hs.push cursor hbuiltin hsound hsources⟩

/-- A piece can be made. -/
theorem build (hs : Stocked base s known) {p : Piece} (hp : p.IsValid known.length) :
    ∃ h s', Yields s (p.build known) h s' ∧ Stocked base s' (h :: known) := by
  have hmade : known ⊆ known := List.Subset.refl _
  cases p with
  | iterate inner => exact hs.iterate hmade hp
  | range bounds =>
    -- a valid range has a step, so the call does not fail
    have hstep : bounds.step ≠ 0 := hp
    obtain ⟨h, s', hrun, hs'⟩ := hs.wrap (.range bounds.first bounds.step bounds.length)
      trivial trivial (List.nil_subset _)
    refine ⟨h, s', ?_, hs'⟩
    unfold Piece.build
    simp only [callFunction_range, bounds.range?_eq hstep]
    exact hrun
  | enumerate start inner =>
    obtain ⟨i, s₁, hinner, hs₁⟩ := hs.iterate hmade hp
    obtain ⟨h, s', hrun, hs'⟩ := hs₁.wrap (.enumerate i (start.getD 0)) trivial trivial
      (List.cons_subset.2 ⟨List.mem_cons_self, List.nil_subset _⟩)
    refine ⟨h, s', ?_, hs'.mono ?_⟩
    · unfold Piece.build
      simp only [callFunction_enumerate, bind_assoc]
      exact hinner.bind hrun
    · exact List.cons_subset_cons _ (List.subset_cons_self _ _)
  | marked marking inner =>
    obtain ⟨i, s₁, hinner, hs₁⟩ := hs.iterate hmade hp
    obtain ⟨h, s', hrun, hs'⟩ := hs₁.wrap (.marked i marking.markers marking.start) trivial
      trivial (List.cons_subset.2 ⟨List.mem_cons_self, List.nil_subset _⟩)
    refine ⟨h, s', ?_, hs'.mono ?_⟩
    · unfold Piece.build
      simp only [callFunction_marked, bind_assoc]
      exact hinner.bind hrun
    · exact List.cons_subset_cons _ (List.subset_cons_self _ _)
  | zip inners =>
    obtain ⟨inners', s₁, hinners, hs₁⟩ := hs.iterateEach hmade hp
    obtain ⟨h, s', hrun, hs'⟩ := hs₁.wrap (.zip inners') trivial trivial
      (List.subset_append_left _ _)
    refine ⟨h, s', ?_, hs'.mono ?_⟩
    · unfold Piece.build
      simp only [callFunction_zip, bind_assoc]
      exact hinners.bind hrun
    · exact List.cons_subset_cons _ (List.subset_append_right _ _)

/-- All pieces can be made. -/
theorem buildAll (hs : Stocked base s known) {ps : List Piece}
    (hps : Piece.AreValid ps known.length) :
    ∃ made s', Yields s (Piece.buildAll ps known) made s' ∧ Stocked base s' made ∧
      made.length = known.length + ps.length := by
  induction ps generalizing s known with
  | nil => exact ⟨known, s, .pure _, hs, rfl⟩
  | cons p ps ih =>
    obtain ⟨h, s₁, hrun, hs₁⟩ := hs.build hps.1
    have hmade : Stocked base s₁ (known ++ [h]) := hs₁.mono (List.perm_append_singleton _ _).subset
    obtain ⟨made, s', hruns, hs', hlength⟩ := ih hmade (by simpa using hps.2)
    refine ⟨made, s', hrun.bind hruns, hs', ?_⟩
    simpa [Nat.add_assoc, Nat.add_comm 1] using hlength

end Stocked

/-! ## Every item goes to one place -/

/-- The items that a source in a store has left. -/
def leftIn (s : Array Cell) (h : Handle) : List Value := s[h]?.elim [] fun cell => cell.cursor.left

/-- Before the first advance the record agrees with every store. -/
theorem Tallies.empty (s : Array Cell) : Tallies (leftIn s) .empty s where
  cells i cursor busy hcell := by
    have hleft : leftIn s i = cursor.left := by
      unfold leftIn
      rw [hcell]
      rfl
    exact ⟨fun _ => ⟨Nat.zero_le _, hleft.symm⟩, fun _ w => ⟨.nil, nofun⟩, fun v _ => .nil v,
      fun _ => rfl⟩
  dropped := nofun

/-- What a record says of advances of some iterators one after another, and of the items that they
gave. -/
structure SinglePass (s : Array Cell) (hs : List Handle) (rows : List (Option Row)) (C : Custody)
    (s' : Array Cell) : Prop where
  /-- What was taken of a source is a beginning of it. -/
  segment : ∀ (i : Handle) (cursor : Cursor) (busy : Bool), s[i]? = some ⟨cursor, busy⟩ →
    cursor.IsSource → C.taken i ≤ cursor.left.length ∧
      ∃ cursor', s'[i]? = some ⟨cursor', busy⟩ ∧ cursor'.left = cursor.left.drop (C.taken i)
  /-- A position that was taken is in one item, or is held back, or was lost, and this once. -/
  once : ∀ t, (rows.flatMap Row.tokens?).count t +
      (∑ i ∈ Finset.range s.size, (C.held i).count t) + (C.dropped.map Prod.snd).count t =
    if t.2 < C.taken t.1 then 1 else 0
  /-- The items at the positions of a row are in it. -/
  shown : ∀ row, some row ∈ rows → row.value.Holds (leftIn s) row.tokens
  /-- What is held back is in the item that an iterator with markers took in advance. -/
  held : ∀ (i : Handle) (cursor : Cursor) (busy : Bool), s'[i]? = some ⟨cursor, busy⟩ →
    C.held i ≠ [] → ∃ v, cursor.pending? = some v ∧ v.Holds (leftIn s) (C.held i)
  /-- Only an iterator over others at once loses items. -/
  dropped : ∀ d ∈ C.dropped, ∃ inners busy, s'[d.1]? = some ⟨.zip inners, busy⟩
  /-- What an iterator gets from a source, it gets in the order of the source. -/
  ordered : ∀ (w i : Handle) (cursor : Cursor) (busy : Bool), s[i]? = some ⟨cursor, busy⟩ →
    cursor.IsSource → (C.received w i).Pairwise (·.2 < ·.2) ∧ ∀ t ∈ C.received w i, t.1 = i
  /-- An iterator that has come to its end has no items later on. -/
  ended : ∀ (j k : Nat) (h : Handle), j < k → hs[j]? = some h → hs[k]? = some h →
    rows[j]? = some none → rows[k]? = some none

/-- **Recorded advances are a single pass**, whatever the store. -/
theorem TakesAll.singlePass (ht : TakesAll .empty s hs rows C s') : SinglePass s hs rows C s' := by
  obtain ⟨htallies, hmoves, hshown⟩ := ht.accounts (Tallies.empty s) le_rfl
  -- a source is one later on
  have hsource (i : Handle) (cursor : Cursor) (busy : Bool) (hcell : s[i]? = some ⟨cursor, busy⟩)
      (hs : cursor.IsSource) : leftIn s i = cursor.left ∧
        ∃ cursor', s'[i]? = some ⟨cursor', busy⟩ ∧ cursor'.IsSource := by
    obtain ⟨cursor', hcell', -⟩ := ht.sameBusy i cursor busy hcell
    obtain ⟨c, b, hc, hlater⟩ := ht.onward.cells i cursor busy hcell
    obtain rfl : cursor' = c := by
      rw [hcell'] at hc
      cases hc
      rfl
    refine ⟨?_, cursor', hcell', ?_⟩
    · unfold leftIn
      rw [hcell]
      rfl
    · rwa [← Cursor.isSource_skeleton, hlater.skeleton, Cursor.isSource_skeleton]
  refine ⟨fun i cursor busy hcell hs => ?_, fun t => ?_, hshown, fun i cursor busy hcell hne => ?_,
    htallies.dropped, fun w i cursor busy hcell hs => ?_, fun j k h hjk hj hk => ht.ended hjk hj hk⟩
  · obtain ⟨hleft, cursor', hcell', hs'⟩ := hsource i cursor busy hcell hs
    obtain ⟨hle, hdrop⟩ := (htallies.cells i cursor' busy hcell').source hs'
    rw [hleft] at hle hdrop
    exact ⟨hle, cursor', hcell', hdrop⟩
  · have hmoved := hmoves t
    have hkept : Custody.empty.kept s.size t = 0 := by simp [Custody.kept, Custody.empty]
    have hmark : Custody.empty.mark t = 0 := by simp [Custody.mark, Custody.empty]
    rw [hkept, hmark, Custody.kept, Custody.mark] at hmoved
    omega
  · cases hpending : cursor.pending? with
    | none => exact (hne ((htallies.cells i cursor busy hcell).idle hpending)).elim
    | some v => exact ⟨v, rfl, (htallies.cells i cursor busy hcell).pending v hpending⟩
  · obtain ⟨-, cursor', hcell', hs'⟩ := hsource i cursor busy hcell hs
    have horder := (htallies.cells i cursor' busy hcell').inOrder hs' w
    exact ⟨horder.1, fun t ht => (horder.2 t ht).1⟩

/-- **Iterators that share their sources take each item once.** Iterators that run no code are made
of sequences, ranges and each other, and advanced in any order. The advances succeed, and there is a
record of the positions that they took. -/
theorem shared_iterators_single_pass (ps : List Piece) (hps : Piece.AreValid ps 0) (m : Machine) :
    ∃ made m₁, Gives (Piece.buildAll ps []) m (.ok made m₁) ∧ made.length = ps.length ∧
      ∀ hs : List Handle, hs ⊆ made → ∃ rows C m₂,
        Gives (fun ev => hs.mapM ev.advance) m₁ (.ok (rows.map (·.map Row.value)) m₂) ∧
        TakesAll .empty m₁.store hs rows C m₂.store ∧ SinglePass m₁.store hs rows C m₂.store := by
  have hstart : Stocked m.store.size m.store [] :=
    ⟨le_rfl, fun i hi hlt => absurd hlt (not_lt.2 hi), nofun⟩
  obtain ⟨made, s, hbuild, hs, hlength⟩ := hstart.buildAll hps
  refine ⟨made, { m with store := s }, hbuild m, by simpa using hlength, fun hs' hsub => ?_⟩
  obtain ⟨rows, C, s', htakes⟩ := hs.ready.takesAll (fun h hh => hs.known h (hsub hh)) .empty
  exact ⟨rows, C, { m with store := s' }, htakes.yields _, htakes, htakes.singlePass⟩

/-- A list with the last item marked, and pairs of neighbours of the same list. -/
theorem shared_iterators_single_pass_neighbours :
    let ps : List Piece := [.iterate (.sequence (.list [.bool true, .bool false, .bool true])),
      .marked .isLast (.shared 0), .zip [.shared 0, .shared 0]]
    let m := Machine.start 0 0 .first (.ofVars [] 0)
    Piece.AreValid ps 0 ∧ ∃ made m₁, Gives (Piece.buildAll ps []) m (.ok made m₁) ∧
      ∃ rows C m₂,
        Gives (fun ev => (made ++ made).mapM ev.advance) m₁
          (.ok (rows.map (·.map Row.value)) m₂) ∧
        SinglePass m₁.store (made ++ made) rows C m₂.store := by
  intro ps m
  have hps : Piece.AreValid ps 0 :=
    ⟨rfl, Nat.zero_lt_one, by simp [Piece.IsValid, Wrapped.IsValid], trivial⟩
  obtain ⟨made, m₁, hbuild, -, hadvances⟩ := shared_iterators_single_pass ps hps m
  obtain ⟨rows, C, m₂, hrun, -, hpass⟩ := hadvances (made ++ made)
    (List.append_subset.2 ⟨List.Subset.refl _, List.Subset.refl _⟩)
  exact ⟨hps, made, m₁, hbuild, rows, C, m₂, hrun, hpass⟩

end Templating
