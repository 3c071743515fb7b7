import Mathlib
import Templating.Proofs.Tracked.Ledger
import Templating.Proofs.Tracked.Reach

/-!
# Books that agree with a store

* `Ledger.Covers`, `Balanced`: the books agree with the position of an iterator, and with a store.
* `Balanced.push`, `Balanced.leave`: **a new iterator, and an advance**, after which books agree
  again.
* `Sourced`: an iterator takes its items from others without end only if it is part of a cycle,
  which no program can make.
* `exists_balanced`: **there are books for every store** in which iterators are sourced.
-/

namespace Templating

open Carries (handles)

/-- What the books say about an iterator agrees with its position. -/
structure Ledger.Covers (L : Ledger) (h : Handle) (cursor : Cursor) : Prop where
  own : cursor.IsOwn
  known : ∀ i ∈ handles cursor, i ∈ L.known
  height : ∀ i ∈ cursor.sources, L.height i < L.height h
  bound : cursor.bound L.left ≤ L.left h
  code : ∀ g, cursor = .generator g → L.code h = some (g.source, g.rank)

/-- The books agree with the positions of all iterators that are known. -/
def Balanced (L : Ledger) (s : Array Cell) : Prop :=
  ∀ h ∈ L.known, ∃ cell, s[h]? = some cell ∧ L.Covers h cell.cursor

/-- Books that continue others, while nothing happens to the iterators that are being advanced. -/
structure Ledger.Follows (L : Ledger) (s : Array Cell) (L' : Ledger) (s' : Array Cell) : Prop where
  le : L ≤ L'
  busy : ∀ h ∈ L.known, ∀ cursor, s[h]? = some ⟨cursor, true⟩ →
    s'[h]? = some ⟨cursor, true⟩ ∧ L'.left h = L.left h

variable {L L' : Ledger} {s s' : Array Cell} {h i : Handle} {cursor : Cursor} {cell : Cell}

namespace Ledger

theorem Follows.refl (L : Ledger) (s : Array Cell) : L.Follows s L s :=
  ⟨le_rfl, fun _ _ _ h => ⟨h, rfl⟩⟩

theorem Follows.trans {L'' : Ledger} {s'' : Array Cell} (h : L.Follows s L' s')
    (h' : L'.Follows s' L'' s'') : L.Follows s L'' s'' := by
  refine ⟨h.le.trans h'.le, fun i hi cursor hcell => ?_⟩
  obtain ⟨hcell', hleft⟩ := h.busy i hi cursor hcell
  obtain ⟨hcell'', hleft'⟩ := h'.busy i (h.le.known hi) cursor hcell'
  exact ⟨hcell'', hleft'.trans hleft⟩

/-- What the books say of a position stays true. -/
theorem Covers.mono (hc : L.Covers h cursor) (hle : L ≤ L') (hh : h ∈ L.known)
    (hleft : L'.left h = L.left h) : L'.Covers h cursor := by
  have hsource (i : Handle) (hi : i ∈ cursor.sources) : i ∈ L.known :=
    hc.known i (cursor.sources_subset hi)
  refine ⟨hc.own, fun i hi => hle.known (hc.known i hi), fun i hi => ?_, ?_, fun g hg => ?_⟩
  · rw [hle.height i (hsource i hi), hle.height h hh]
    exact hc.height i hi
  · rw [hleft]
    exact (Cursor.bound_mono fun i hi => hle.left i (hsource i hi)).trans hc.bound
  · exact (hle.code h hh).trans (hc.code g hg)

end Ledger

namespace Balanced

theorem lt_size (hs : Balanced L s) (hh : h ∈ L.known) : h < s.size := by
  obtain ⟨cell, hcell, -⟩ := hs h hh
  exact (Array.getElem?_eq_some_iff.1 hcell).1

theorem size_notMem (hs : Balanced L s) : s.size ∉ L.known :=
  fun hmem => Nat.lt_irrefl _ (hs.lt_size hmem)

/-- The height of a new iterator that takes its items from known ones. -/
def above (L : Ledger) (cursor : Cursor) : Nat := (cursor.sources.map L.height).sum + 1

theorem lt_above (hi : i ∈ cursor.sources) : L.height i < above L cursor :=
  Nat.lt_succ_of_le (List.le_sum_of_mem (List.mem_map_of_mem hi))

/-- **A new iterator is entered into the books.** -/
theorem push (hs : Balanced L s) (hown : cursor.IsOwn) (hrefs : ∀ i ∈ handles cursor, i ∈ L.known)
    {code : Option (Handle × Rank)} (hcode : ∀ p ∈ code, p.1 ∈ L.known)
    (hgenerator : ∀ g, cursor = .generator g → code = some (g.source, g.rank)) :
    let L' := L.enter s.size (cursor.bound L.left) (above L cursor) code hcode
    Balanced L' (s.push ⟨cursor, false⟩) ∧ L.Follows s L' (s.push ⟨cursor, false⟩) := by
  intro L'
  have hnew : s.size ∉ L.known := hs.size_notMem
  have hle : L ≤ L' := Ledger.le_enter hnew
  have hleft {i : Handle} (hi : i ∈ L.known) : L'.left i = L.left i :=
    Function.update_of_ne (Ledger.ne_of_notMem hnew hi) ..
  have hstore {i : Handle} (hi : i ∈ L.known) : (s.push ⟨cursor, false⟩)[i]? = s[i]? := by
    rw [Array.getElem?_push, if_neg (Nat.ne_of_lt (hs.lt_size hi))]
  have hsource {i : Handle} (hi : i ∈ cursor.sources) : i ∈ L.known :=
    hrefs i (cursor.sources_subset hi)
  refine ⟨fun i hi => ?_, hle, fun i hi c hcell => ⟨(hstore hi).trans hcell, hleft hi⟩⟩
  -- the new iterator itself, and those that were there, whose entries stay as they are
  rcases Finset.mem_insert.1 hi with rfl | hi
  · refine ⟨_, Array.getElem?_push_size, hown, fun i hi => hle.known (hrefs i hi), fun i hi => ?_,
      ?_, fun g hg => ?_⟩
    · rw [hle.height i (hsource hi)]
      simpa [L', Ledger.enter] using lt_above hi
    · have hbound : cursor.bound L'.left ≤ cursor.bound L.left :=
        Cursor.bound_mono fun i hi => (hleft (hsource hi)).le
      simpa [L', Ledger.enter] using hbound
    · simpa [L', Ledger.enter] using hgenerator g hg
  · obtain ⟨cell, hcell, hcovers⟩ := hs i hi
    exact ⟨cell, (hstore hi).trans hcell, hcovers.mono hle hi (hleft hi)⟩

/-- An iterator is being advanced, or is not. -/
theorem mark (hs : Balanced L s) {busy : Bool} (hcell : s[h]? = some ⟨cursor, busy⟩) :
    Balanced L (s.setIfInBounds h ⟨cursor, true⟩) := by
  intro i hi
  obtain ⟨cell, hcell', hcovers⟩ := hs i hi
  by_cases heq : h = i
  · subst heq
    obtain rfl := Option.some.inj (hcell.symm.trans hcell')
    exact ⟨_, Array.getElem?_setIfInBounds_self_of_lt (hs.lt_size hi), hcovers⟩
  · exact ⟨cell, (Array.getElem?_setIfInBounds_ne heq).trans hcell', hcovers⟩

/-- **After an advance the books agree with the new position.** An item that was given is written
off. -/
theorem leave {old : Cursor} (hs : Balanced L s) (hh : h ∈ L.known)
    (hcell : s[h]? = some ⟨old, false⟩)
    (hfollows : L.Follows (s.setIfInBounds h ⟨old, true⟩) L' s') (hs' : Balanced L' s')
    (hown : cursor.IsOwn) (hrefs : ∀ i ∈ handles cursor, i ∈ L'.known)
    (hsources : cursor.sources = old.sources) (hbound : cursor.bound L'.left ≤ old.bound L.left)
    (hcode : ∀ g, cursor = .generator g →
      ∃ g', old = .generator g' ∧ g.source = g'.source ∧ g.rank = g'.rank) :
    let L'' := L'.spend h (cursor.bound L'.left)
    cursor.bound L'.left ≤ L'.left h ∧ L'.left h = L.left h ∧
      Balanced L'' (s'.setIfInBounds h ⟨cursor, false⟩) ∧
      L.Follows s L'' (s'.setIfInBounds h ⟨cursor, false⟩) := by
  intro L''
  obtain ⟨cell, hcell', hcovers⟩ := hs h hh
  obtain rfl := Option.some.inj (hcell.symm.trans hcell')
  have hle := hfollows.le
  have hbusy := Array.getElem?_setIfInBounds_self_of_lt (a := (⟨old, true⟩ : Cell)) (hs.lt_size hh)
  obtain ⟨-, hleft⟩ := hfollows.busy h hh old hbusy
  -- nothing was written off while the iterator was being advanced, so its old bound still stands
  have hspent : cursor.bound L'.left ≤ L'.left h := by
    rw [hleft]
    exact hbound.trans hcovers.bound
  have hle' : L' ≤ L'' := Ledger.le_spend hspent
  have hother {i : Handle} (hne : h ≠ i) : L''.left i = L'.left i :=
    Ledger.spend_left_of_ne (Ne.symm hne)
  have hsource {i : Handle} (hi : i ∈ cursor.sources) : i ∈ L.known ∧ L.height i < L.height h := by
    rw [hsources] at hi
    exact ⟨hcovers.known i (old.sources_subset hi), hcovers.height i hi⟩
  refine ⟨hspent, hleft, fun i hi => ?_, hle.trans hle', fun i hi c hc => ?_⟩
  · by_cases heq : h = i
    · subst heq
      refine ⟨_, Array.getElem?_setIfInBounds_self_of_lt (hs'.lt_size hi), hown, hrefs,
        fun i hi => ?_, ?_, fun g hg => ?_⟩
      · obtain ⟨hknown, hlt⟩ := hsource hi
        exact ((hle.height i hknown).trans_lt hlt).trans_eq (hle.height h hh).symm
      · -- the iterator is not its own source
        have hself (i : Handle) (hi : i ∈ cursor.sources) : L''.left i ≤ L'.left i := by
          refine (hother ?_).le
          rintro rfl
          exact Nat.lt_irrefl _ (hsource hi).2
        exact (Cursor.bound_mono hself).trans_eq Ledger.spend_left_self.symm
      · obtain ⟨g', rfl, hsource, hrank⟩ := hcode g hg
        rw [hsource, hrank]
        exact (hle.code h hh).trans (hcovers.code g' rfl)
    · obtain ⟨cell, hcell, hcovers⟩ := hs' i hi
      exact ⟨cell, (Array.getElem?_setIfInBounds_ne heq).trans hcell,
        hcovers.mono hle' hi (hother heq)⟩
  · have hne : h ≠ i := by
      rintro rfl
      cases hcell.symm.trans hc
    rw [Array.getElem?_setIfInBounds_ne hne, hother hne]
    exact hfollows.busy i hi c ((Array.getElem?_setIfInBounds_ne hne).trans hc)

end Balanced

/-! ## Where books come from -/

/-- An iterator that exists, whose items do not come from outside, and so for the iterators from
which it takes them. An iterator is made from others that are there already, so it takes no items
from itself. -/
inductive Sourced (s : Array Cell) : Handle → Prop where
  | intro {h : Handle} {cell : Cell} : s[h]? = some cell → cell.cursor.IsOwn →
      (∀ i ∈ cell.cursor.sources, Sourced s i) → Sourced s h

theorem Sourced.exists_cell {h : Handle} (hh : Sourced s h) : ∃ cell, s[h]? = some cell ∧
    cell.cursor.IsOwn ∧ ∀ i ∈ cell.cursor.sources, Sourced s i := by
  obtain ⟨hcell, hown, hsources⟩ := hh
  exact ⟨_, hcell, hown, hsources⟩

/-- Numbers may be given to iterators by way of those of their sources. -/
theorem Sourced.exists_numbers (s : Array Cell) (F : (Handle → Nat) → Cursor → Nat)
    (hF : ∀ f f' cursor, (∀ i ∈ cursor.sources, f i = f' i) → F f cursor = F f' cursor) :
    ∃ f : Handle → Nat, ∀ h, Sourced s h → ∀ cell, s[h]? = some cell → f h = F f cell.cursor := by
  classical
  -- sources come before the iterators that take items from them
  let R (i h : Handle) : Prop := Sourced s h ∧ ∃ cell, s[h]? = some cell ∧ i ∈ cell.cursor.sources
  have hacc (h : Handle) (hh : Sourced s h) : Acc R h := by
    induction hh with
    | intro hcell _ _ ih =>
      refine ⟨_, ?_⟩
      rintro i ⟨-, cell, hcell', hi⟩
      obtain rfl := Option.some.inj (hcell.symm.trans hcell')
      exact ih i hi
  have hwf : WellFounded R := ⟨fun h => ⟨h, fun _ hi => (hacc h hi.1).inv hi⟩⟩
  let step (h : Handle) (ih : ∀ i, R i h → Nat) : Nat := match s[h]? with
    | none => 0
    | some cell => F (fun i => if hi : R i h then ih i hi else 0) cell.cursor
  refine ⟨hwf.fix step, fun h hh cell hcell => ?_⟩
  rw [hwf.fix_eq]
  simp only [step, hcell]
  refine hF _ _ _ fun i hi => ?_
  rw [dif_pos ⟨hh, cell, hcell, hi⟩]

/-- The source of a generator, with the rank of its code. -/
noncomputable def Cell.code? : Cell → Option (Handle × Rank)
  | ⟨.generator g, _⟩ => some (g.source, g.rank)
  | _ => none

/-- **There are books for every set of iterators** that refer to one another only, if each is
sourced. -/
theorem exists_balanced {w : Set Handle} (hsourced : ∀ h ∈ w, Sourced s h)
    (hclosed : ∀ h ∈ w, ∀ i, Refers s h i → i ∈ w) :
    ∃ L, Balanced L s ∧ ∀ h, h ∈ L.known ↔ h ∈ w := by
  classical
  -- an iterator takes items from older ones only, so what it has left and its height are well
  -- defined
  obtain ⟨left, hleft⟩ := Sourced.exists_numbers s Cursor.bound fun f f' cursor h =>
    le_antisymm (Cursor.bound_mono fun i hi => (h i hi).le)
      (Cursor.bound_mono fun i hi => (h i hi).ge)
  obtain ⟨height, hheight⟩ := Sourced.exists_numbers s
    (fun f cursor => (cursor.sources.map f).sum + 1) fun f f' cursor h => by
      rw [List.map_congr_left h]
  have hlt (h : Handle) (hh : h ∈ w) : h < s.size := by
    obtain ⟨cell, hcell, -⟩ := (hsourced h hh).exists_cell
    exact (Array.getElem?_eq_some_iff.1 hcell).1
  have hknown (h : Handle) : h ∈ (Finset.range s.size).filter (· ∈ w) ↔ h ∈ w := by
    simpa using hlt h
  let L : Ledger := {
    known := (Finset.range s.size).filter (· ∈ w)
    left := left
    height := height
    code := fun h => s[h]?.bind Cell.code?
    source_known := by
      intro h hh p hp
      obtain ⟨⟨cursor, busy⟩, hcell, hp⟩ := Option.bind_eq_some_iff.1 hp
      refine (hknown _).2 (hclosed h ((hknown h).1 hh) _ ⟨_, hcell, ?_⟩)
      cases cursor with
      | generator g =>
        cases hp
        exact List.mem_cons_self
      | _ => cases hp }
  refine ⟨L, fun h hh => ?_, hknown⟩
  have hh : h ∈ w := (hknown h).1 hh
  obtain ⟨⟨cursor, busy⟩, hcell, hown, -⟩ := (hsourced h hh).exists_cell
  refine ⟨⟨cursor, busy⟩, hcell, hown, fun i hi => ?_, fun i hi => ?_, ?_, fun g hg => ?_⟩
  · exact (hknown i).2 (hclosed h hh i ⟨_, hcell, hi⟩)
  · change height i < height h
    rw [hheight h (hsourced h hh) _ hcell]
    exact Nat.lt_succ_of_le (List.le_sum_of_mem (List.mem_map_of_mem hi))
  · exact (hleft h (hsourced h hh) _ hcell).ge
  · obtain rfl := hg
    change s[h]?.bind Cell.code? = _
    rw [hcell]
    rfl

end Templating
