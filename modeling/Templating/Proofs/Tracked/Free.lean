import Mathlib.Data.Finite.Defs
import Mathlib.Data.Fintype.EquivFin
import Mathlib.Order.WellFounded
import Templating.Proofs.Tracked.Cursor
import Templating.Proofs.Tracked.Reach

/-!
# Iterators that may be advanced

An iterator is free if it is not being advanced and refers to free iterators only, without cycles. A
step of a free iterator does not come back to it, and leaves it free.

* `Free`: free iterators.
* `Free.of_acyclic`: **iterators without cycles among them are free**, if none is being advanced.
* `FreeWorld`: a set of free iterators with all they refer to.
* `FreeWorld.enter`, `FreeWorld.leave`: the iterators that stay free while one of them is advanced,
  and those that are free afterwards.
-/

namespace Templating

open Carries (handles)

/-- An iterator that exists, that is not being advanced, whose items do not come from outside, and
that refers to such iterators only. The definition excludes cycles. -/
inductive Free (s : Array Cell) : Handle → Prop where
  | intro {h : Handle} {cursor : Cursor} : s[h]? = some ⟨cursor, false⟩ → cursor.IsOwn →
      (∀ i ∈ handles cursor, Free s i) → Free s h

namespace Free

variable {s : Array Cell} {h i : Handle} {cell : Cell}

theorem lt_size (hh : Free s h) : h < s.size := by
  obtain ⟨hcell, -, -⟩ := hh
  exact (Array.getElem?_eq_some_iff.1 hcell).1

theorem of_refers (hh : Free s h) (hi : Refers s h i) : Free s i := by
  obtain ⟨hcell, -, hrefs⟩ := hh
  obtain ⟨cell, hcell', hi⟩ := hi
  obtain rfl := Option.some.inj (hcell.symm.trans hcell')
  exact hrefs i hi

theorem of_reaches (hh : Free s h) (hi : Reaches s h i) : Free s i := by
  induction hi with
  | refl => exact hh
  | tail _ hstep ih => exact ih.of_refers hstep

theorem not_busy (hh : Free s h) (hcell : s[h]? = some cell) : cell.busy = false := by
  obtain ⟨hcell', -, -⟩ := hh
  obtain rfl := Option.some.inj (hcell'.symm.trans hcell)
  rfl

/-- A free iterator is in no cycle. -/
theorem not_cyclic (hh : Free s h) : ¬ Relation.TransGen (Refers s) h h := by
  induction hh with
  | @intro h cursor hcell _ _ ih =>
    intro hcycle
    obtain ⟨i, ⟨cell, hcell', hi⟩, hback⟩ := Relation.TransGen.head'_iff.1 hcycle
    obtain rfl := Option.some.inj (hcell.symm.trans hcell')
    exact ih i hi (.tail' hback ⟨_, hcell, hi⟩)

/-- Iterators stay free where nothing happens to them. -/
theorem congr {t : Array Cell} (hh : Free s h)
    (ht : ∀ i, Reaches s h i → t[i]? = s[i]?) : Free t h := by
  induction hh with
  | @intro h cursor hcell hown hrefs ih =>
    refine ⟨(ht h .refl).trans hcell, hown, fun i hi => ih i hi fun j hj => ht j ?_⟩
    exact .head ⟨_, hcell, hi⟩ hj

theorem push (hh : Free s h) (cell : Cell) : Free (s.push cell) h :=
  hh.congr fun i hi => by
    rw [Array.getElem?_push, if_neg (Nat.ne_of_lt (hh.of_reaches hi).lt_size)]

/-- A change of an iterator that a free one does not refer to. -/
theorem set (hh : Free s h) (hi : ¬ Reaches s h i) : Free (s.setIfInBounds i cell) h :=
  hh.congr fun j hj => Array.getElem?_setIfInBounds_ne (by rintro rfl; exact hi hj)

/-- A change of an iterator that is being advanced. -/
theorem set_of_busy (hh : Free s h) {cursor : Cursor} (hi : s[i]? = some ⟨cursor, true⟩) :
    Free (s.setIfInBounds i cell) h :=
  hh.set fun hreaches => by cases (hh.of_reaches hreaches).not_busy hi

/-- **Iterators without cycles among them are free**, if none of them is being advanced. -/
theorem of_acyclic (hh : ∀ i, Reaches s h i →
      (∃ cursor, s[i]? = some ⟨cursor, false⟩ ∧ cursor.IsOwn) ∧
        ¬ Relation.TransGen (Refers s) i i) :
    Free s h := by
  -- the iterators in question are finitely many, so they are well-founded
  let S := {i // Reaches s h i}
  have hlt (i : S) : i.1 < s.size := by
    obtain ⟨⟨cursor, hcell, -⟩, -⟩ := hh i.1 i.2
    exact (Array.getElem?_eq_some_iff.1 hcell).1
  have : Finite S := Finite.of_injective (fun i : S => (⟨i.1, hlt i⟩ : Fin s.size))
    fun i j hij => Subtype.ext (Fin.mk.inj hij)
  let R : S → S → Prop := fun i j => Relation.TransGen (Refers s) j.1 i.1
  have : IsTrans S R := ⟨fun i j k hij hjk => hjk.trans hij⟩
  have : Std.Irrefl R := ⟨fun i => (hh i.1 i.2).2⟩
  have hwf : WellFounded R := Finite.wellFounded_of_trans_of_irrefl R
  have hfree (i : S) : Free s i.1 := by
    induction i using hwf.induction with
    | _ i ih =>
      obtain ⟨⟨cursor, hcell, hown⟩, -⟩ := hh i.1 i.2
      refine ⟨hcell, hown, fun j hj => ?_⟩
      have hstep : Refers s i.1 j := ⟨_, hcell, hj⟩
      exact ih ⟨j, i.2.tail hstep⟩ (.single hstep)
  exact hfree ⟨h, .refl⟩

end Free

/-- A set of free iterators with all they refer to. -/
structure FreeWorld (w : Set Handle) (s : Array Cell) : Prop where
  free : ∀ h ∈ w, Free s h
  closed : ∀ h ∈ w, ∀ i, Refers s h i → i ∈ w

/-- A set of iterators grows, and nothing happens to those outside. -/
structure Evolves (w : Set Handle) (s : Array Cell) (w' : Set Handle) (s' : Array Cell) : Prop
    extends Grows w s w' s' where
  others : ∀ h < s.size, h ∉ w → s'[h]? = s[h]?

namespace Evolves

variable {w w' w'' : Set Handle} {s s' s'' : Array Cell}

theorem refl (w : Set Handle) (s : Array Cell) : Evolves w s w s :=
  ⟨.refl w s, fun _ _ _ => rfl⟩

theorem trans (h : Evolves w s w' s') (h' : Evolves w' s' w'' s'') : Evolves w s w'' s'' := by
  refine ⟨h.toGrows.trans h'.toGrows, fun i hlt hi => ?_⟩
  rw [h'.others i (Nat.lt_of_lt_of_le hlt h.size_le) fun hmem => hi (h.new i hmem hlt),
    h.others i hlt hi]

end Evolves

namespace FreeWorld

variable {w u u' : Set Handle} {s s' : Array Cell} {h : Handle} {cursor : Cursor}

/-- A new iterator that refers to free ones. -/
theorem insert (hw : FreeWorld w s) (hown : cursor.IsOwn) (hrefs : ∀ i ∈ handles cursor, i ∈ w) :
    FreeWorld (insert s.size w) (s.push ⟨cursor, false⟩) ∧
      Evolves w s (insert s.size w) (s.push ⟨cursor, false⟩) := by
  have hold {i : Handle} (hi : i ∈ w) (cell : Cell) : (s.push cell)[i]? = s[i]? := by
    rw [Array.getElem?_push, if_neg (Nat.ne_of_lt (hw.free i hi).lt_size)]
  refine ⟨⟨?_, ?_⟩, .push w s _, fun i hlt _ => ?_⟩
  · rintro i (rfl | hi)
    · exact ⟨by simp, hown, fun j hj => (hw.free j (hrefs j hj)).push _⟩
    · exact (hw.free i hi).push _
  · rintro i (rfl | hi) j ⟨cell, hcell, hj⟩
    · simp only [Array.getElem?_push_size, Option.some.injEq] at hcell
      subst hcell
      exact .inr (hrefs j hj)
    · rw [hold hi] at hcell
      exact .inr (hw.closed i hi j ⟨cell, hcell, hj⟩)
  · rw [Array.getElem?_push, if_neg (Nat.ne_of_lt hlt)]

/-- The iterators that stay free while one of them is advanced. It refers to such only. -/
theorem enter (hw : FreeWorld w s) (hh : h ∈ w) (hcell : s[h]? = some ⟨cursor, false⟩) :
    let marked := s.setIfInBounds h ⟨cursor, true⟩
    let u := {i | i ∈ w ∧ Free marked i}
    FreeWorld u marked ∧ h ∉ u ∧ ∀ i ∈ handles cursor, i ∈ u := by
  intro marked u
  have hmarked : marked[h]? = some ⟨cursor, true⟩ :=
    Array.getElem?_setIfInBounds_self_of_lt (hw.free h hh).lt_size
  have hnot : h ∉ u := fun hmem => by cases hmem.2.not_busy hmarked
  refine ⟨⟨fun i hi => hi.2, fun i hi j hj => ⟨?_, hi.2.of_refers hj⟩⟩, hnot, fun i hi => ?_⟩
  · obtain ⟨cell, hcell', hj⟩ := hj
    have hne : h ≠ i := by
      rintro rfl
      exact hnot hi
    rw [Array.getElem?_setIfInBounds_ne hne] at hcell'
    exact hw.closed i hi.1 j ⟨cell, hcell', hj⟩
  · have hrefers : Refers s h i := ⟨_, hcell, hi⟩
    refine ⟨hw.closed h hh i hrefers, ((hw.free h hh).of_refers hrefers).set fun hback => ?_⟩
    exact (hw.free h hh).not_cyclic (.head' hrefers hback)

/-- The iterators that are free after one of them was advanced. Those that refer to it are free
again, and its new position refers to iterators that were free in the meantime. -/
theorem leave {old : Cursor} (hw : FreeWorld w s) (hh : h ∈ w)
    (hu : u = {i | i ∈ w ∧ Free (s.setIfInBounds h ⟨old, true⟩) i})
    (hevolves : Evolves u (s.setIfInBounds h ⟨old, true⟩) u' s') (hu' : FreeWorld u' s')
    (hown : cursor.IsOwn) (hrefs : ∀ i ∈ handles cursor, i ∈ u') :
    FreeWorld (w ∪ u') (s'.setIfInBounds h ⟨cursor, false⟩) ∧
      Evolves w s (w ∪ u') (s'.setIfInBounds h ⟨cursor, false⟩) := by
  set marked := s.setIfInBounds h ⟨old, true⟩ with hmarked
  have hlt : h < s.size := (hw.free h hh).lt_size
  have hsize : marked.size = s.size := by simp [hmarked]
  have hbusy : marked[h]? = some ⟨old, true⟩ := Array.getElem?_setIfInBounds_self_of_lt hlt
  have hsub : u ⊆ w := by
    rw [hu]
    exact fun i hi => hi.1
  have hnot : h ∉ u := by
    rw [hu]
    exact fun hmem => by cases hmem.2.not_busy hbusy
  have hbusy' : s'[h]? = some ⟨old, true⟩ := by
    rw [hevolves.others h (hsize ▸ hlt) hnot, hbusy]
  have hlt' : h < s'.size := (Array.getElem?_eq_some_iff.1 hbusy').1
  -- what happens outside the iterators that stay free
  have hkept {i : Handle} (hi : i < s.size) (hne : h ≠ i) (hiu : i ∉ u) :
      (s'.setIfInBounds h ⟨cursor, false⟩)[i]? = s[i]? := by
    rw [Array.getElem?_setIfInBounds_ne hne, hevolves.others i (hsize ▸ hi) hiu, hmarked,
      Array.getElem?_setIfInBounds_ne hne]
  have hself : (s'.setIfInBounds h ⟨cursor, false⟩)[h]? = some ⟨cursor, false⟩ :=
    Array.getElem?_setIfInBounds_self_of_lt hlt'
  have hfree' {i : Handle} (hi : i ∈ u') : Free (s'.setIfInBounds h ⟨cursor, false⟩) i :=
    (hu'.free i hi).set_of_busy hbusy'
  have hfree {i : Handle} (hi : Free s i) (hiw : i ∈ w) :
      Free (s'.setIfInBounds h ⟨cursor, false⟩) i := by
    induction hi with
    | @intro i c hc howns _ ih =>
      by_cases heq : h = i
      · subst heq
        exact ⟨hself, hown, fun j hj => hfree' (hrefs j hj)⟩
      by_cases hiu : i ∈ u
      · exact hfree' (hevolves.subset hiu)
      · refine ⟨(hkept (Array.getElem?_eq_some_iff.1 hc).1 heq hiu).trans hc, howns, fun j hj => ?_⟩
        exact ih j hj (hw.closed i hiw j ⟨_, hc, hj⟩)
  refine ⟨⟨?_, ?_⟩, ⟨Set.subset_union_left, ?_, ?_⟩, ?_⟩
  · rintro i (hi | hi)
    · exact hfree (hw.free i hi) hi
    · exact hfree' hi
  · rintro i hi j ⟨cell, hcell', hj⟩
    by_cases heq : h = i
    · subst heq
      obtain rfl := Option.some.inj (hself.symm.trans hcell')
      exact .inr (hrefs j hj)
    by_cases hiu : i ∈ u'
    · rw [Array.getElem?_setIfInBounds_ne heq] at hcell'
      exact .inr (hu'.closed i hiu j ⟨cell, hcell', hj⟩)
    · have hiw : i ∈ w := hi.resolve_right hiu
      rw [hkept (hw.free i hiw).lt_size heq fun hmem => hiu (hevolves.subset hmem)] at hcell'
      exact .inl (hw.closed i hiw j ⟨cell, hcell', hj⟩)
  · rw [Array.size_setIfInBounds, ← hsize]
    exact hevolves.size_le
  · rintro i (hi | hi) hlt
    · exact hi
    · exact hsub (hevolves.new i hi (hsize ▸ hlt))
  · intro i hlt hi
    have hne : h ≠ i := by
      rintro rfl
      exact hi hh
    exact hkept hlt hne fun hmem => hi (hsub hmem)

end FreeWorld

end Templating
