import Templating.Proofs.Eval.Range

/-!
# Iterators that functions on sequences make

Sequences and ranges, and what the functions on sequences make of them, are trees. Building such a
tree gives an iterator that stands for a list that the tree says.

* `Producer`, `Producer.items`: a tree, and its list.
* `Producer.build`: the calls that make the iterator.
* `Stands`: a value that stands for a list, since it is a sequence or an iterator.
* `Producer.gives_build`: building a tree gives a value that stands for its list.
* `producers_denote_lists`: **all items of the iterator are the list of the tree.**
-/

namespace Templating

open Builtin Eval Number

/-- The functions that put markers in front of items. The last one begins with an index. -/
inductive Marking where
  | isFirst | isLast | isFirstLast
  | enumFirstLast (start : Option Int64)

namespace Marking

/-- The name of the function. -/
def name : Marking → String
  | isFirst => "isfirst"
  | isLast => "islast"
  | isFirstLast => "isfirstlast"
  | enumFirstLast _ => "enumfl"

/-- The arguments after the sequence. -/
def args : Marking → List Value
  | enumFirstLast start => start.toList.map .int
  | _ => []

/-- The index of the first item. -/
def start : Marking → Int64
  | enumFirstLast start => start.getD 0
  | _ => 0

/-- What stands in front of the `k`-th of `n` items. -/
def marks (k n : Nat) : Marking → List Value
  | isFirst => [.bool (k == 0)]
  | isLast => [.bool (k + 1 == n)]
  | isFirstLast => [.bool (k == 0), .bool (k + 1 == n)]
  | enumFirstLast start => [.int (indexFrom (start.getD 0) k), .bool (k == 0), .bool (k + 1 == n)]

/-- The markers of the iterator. -/
def markers : Marking → Markers
  | isFirst => ⟨false, true, false⟩
  | isLast => ⟨false, false, true⟩
  | isFirstLast => ⟨false, true, true⟩
  | enumFirstLast _ => ⟨true, true, true⟩

end Marking

/-- Sequences and ranges, and what the functions on sequences make of them. -/
inductive Producer where
  | list (items : List Value)
  | str (s : String)
  | dict (entries : List (String × Value))
  | color (c : Color)
  | range (bounds : Bounds)
  | enumerate (start : Option Int64) (inner : Producer)
  | marked (marking : Marking) (inner : Producer)
  | zip (inners : List Producer)
  | reversed (inner : Producer)

namespace Producer

mutual

/-- The items of an iterator that is made like this. -/
def items : Producer → List Value
  | list items => items
  | str s => s.toList.map fun c => .str (String.singleton c)
  | dict entries => entries.map fun entry => .str entry.1
  | color c => [c.r, c.g, c.b, c.a].map fun channel => .ofNat channel.toNat
  | range bounds => numbersFrom bounds.first bounds.step bounds.length
  | enumerate start inner =>
    inner.items.mapIdx fun k v => .list [.int (indexFrom (start.getD 0) k), v]
  | marked marking inner =>
    inner.items.mapIdx fun k v => .list (marking.marks k inner.items.length ++ [v])
  | zip inners => (zipRows (itemsEach inners)).map .list
  | reversed inner => inner.items.reverse

/-- The items of some iterators. -/
def itemsEach : List Producer → List (List Value)
  | [] => []
  | p :: ps => p.items :: itemsEach ps

end

mutual

/-- The steps of all ranges are not zero. -/
def IsValid : Producer → Prop
  | range bounds => bounds.step ≠ 0
  | enumerate _ inner | marked _ inner | reversed inner => inner.IsValid
  | zip inners => AreValid inners
  | _ => True

/-- The steps of all ranges of some trees are not zero. -/
def AreValid : List Producer → Prop
  | [] => True
  | p :: ps => p.IsValid ∧ AreValid ps

end

mutual

/-- Calls the functions. -/
def build : Producer → Program Value
  | list items, _ => return .list items
  | str s, _ => return .str s
  | dict entries, _ => return .dict entries
  | color c, _ => return .color c
  | range bounds, ev => callFunction ev "range" bounds.args
  | enumerate start inner, ev => do
    callFunction ev "enumerate" ((← inner.build ev) :: start.toList.map .int)
  | marked marking inner, ev => do
    callFunction ev marking.name ((← inner.build ev) :: marking.args)
  | zip inners, ev => do callFunction ev "zip" (← buildEach inners ev)
  | reversed inner, ev => do callFunction ev "reversed" [← inner.build ev]

/-- Calls the functions for some iterators one after another. -/
def buildEach : List Producer → Program (List Value)
  | [], _ => return []
  | p :: ps, ev => do
    let v ← p.build ev
    return v :: (← buildEach ps ev)

end

end Producer

/-! ## Calls -/

section

variable (ev : Evaluator) (v : Value)

theorem callFunction_enumerate (start : Option Int64) :
    callFunction ev "enumerate" (v :: start.toList.map .int) = (do
      iterator (.enumerate (← v.iterate) (start.getD 0))) := by
  have hname : Function.ofName? "enumerate" = some .enumerate := by rfl
  unfold callFunction
  simp only [hname]
  cases start <;> rfl

theorem callFunction_marked (marking : Marking) :
    callFunction ev marking.name (v :: marking.args) = (do
      iterator (.marked (← v.iterate) marking.markers marking.start)) := by
  have hname : Function.ofName? marking.name = some (match marking with
      | .isFirst => .isFirst
      | .isLast => .isLast
      | .isFirstLast => .isFirstLast
      | .enumFirstLast _ => .enumFirstLast) := by
    cases marking <;> rfl
  unfold callFunction
  simp only [hname]
  rcases marking with _ | _ | _ | _ | start <;> rfl

theorem callFunction_zip (vs : List Value) : callFunction ev "zip" vs = (do
    iterator (.zip (← vs.mapM Value.iterate))) := by
  have hname : Function.ofName? "zip" = some .zip := by rfl
  have harity : Function.zip.arity.check .function "zip" vs.length = .ok () := by
    rfl
  unfold callFunction
  simp only [hname, harity]
  rfl

theorem callFunction_reversed : callFunction ev "reversed" [v] = (do
    return .iterator (← ev.reversed v)) := by
  have hname : Function.ofName? "reversed" = some .reversed := by rfl
  unfold callFunction
  simp only [hname]
  rfl

end

/-! ## Values that stand for lists -/

/-- A value stands for a list: it is a sequence, or an iterator that uses some iterators. -/
inductive Stands (s : Array Cell) : Value → Finset Handle → List Value → Prop where
  | sequence {v : Value} {vs : List Value} : v.sequence? = some vs → Stands s v ∅ vs
  | iterator {h : Handle} {w : Finset Handle} {vs : List Value} :
      Denotes s h w vs → Stands s (.iterator h) w vs

/-- Some values stand for some lists, and they use different iterators. -/
inductive StandEach (s : Array Cell) : List Value → Finset Handle → List (List Value) → Prop where
  | nil : StandEach s [] ∅ []
  | cons {v : Value} {values : List Value} {w w' : Finset Handle} {vs : List Value}
      {vss : List (List Value)} : Stands s v w vs → Disjoint w w' → StandEach s values w' vss →
      StandEach s (v :: values) (w ∪ w') (vs :: vss)

/-- Some iterators are used up, and others are used from now on. They are new, or were used
before. -/
structure Uses (s : Array Cell) (w : Finset Handle) (s' : Array Cell) (w' : Finset Handle) :
    Prop where
  size_le : s.size ≤ s'.size
  old : ∀ i < s.size, i ∉ w → s'[i]? = s[i]?
  new : ∀ i ∈ w', i ∈ w ∨ s.size ≤ i
  lt : ∀ i ∈ w', i < s'.size

variable {s t s' s'' : Array Cell} {v : Value} {values : List Value} {w w' w'' : Finset Handle}
  {vs : List Value} {vss : List (List Value)} {h : Handle}

theorem Stands.congr (hs : Stands s v w vs) (ht : ∀ i ∈ w, t[i]? = s[i]?) : Stands t v w vs := by
  cases hs with
  | sequence h => exact .sequence h
  | iterator hd => exact .iterator (hd.congr ht)

theorem StandEach.congr (hs : StandEach s values w vss) (ht : ∀ i ∈ w, t[i]? = s[i]?) :
    StandEach t values w vss := by
  induction hs with
  | nil => exact .nil
  | cons hfirst hdisjoint _ ih =>
    exact .cons (hfirst.congr fun i hi => ht i (Finset.mem_union_left _ hi)) hdisjoint
      (ih fun i hi => ht i (Finset.mem_union_right _ hi))

namespace Uses

theorem refl (s : Array Cell) (hw : ∀ i ∈ w, i < s.size) : Uses s w s w :=
  ⟨le_rfl, fun _ _ _ => rfl, fun _ hi => .inl hi, hw⟩

theorem empty (s : Array Cell) : Uses s ∅ s ∅ := refl s (by simp)

theorem trans (h : Uses s w s' w') (h' : Uses s' w' s'' w'') : Uses s w s'' w'' where
  size_le := h.size_le.trans h'.size_le
  old i hi hw := by
    have hw' : i ∉ w' := fun hmem => (h.new i hmem).elim hw fun hle => absurd hi (not_lt.2 hle)
    rw [h'.old i (hi.trans_le h.size_le) hw', h.old i hi hw]
  new i hi := (h'.new i hi).elim (h.new i) fun hle => .inr (h.size_le.trans hle)
  lt := h'.lt

theorem of_differ (h : Differ w s s') (hw : ∀ i ∈ w, i < s.size) : Uses s w s' w :=
  ⟨h.size.ge, fun i _ hi => h.same i hi, fun _ hi => .inl hi, fun i hi => h.size.symm ▸ hw i hi⟩

/-- Nothing is used from now on. -/
theorem drop (h : Uses s w s' w') : Uses s w s' ∅ := ⟨h.size_le, h.old, by simp, by simp⟩

/-- A new iterator that uses others. -/
theorem push (hw : ∀ i ∈ w, i < s.size) (cell : Cell) :
    Uses s w (s.push cell) (insert s.size w) where
  size_le := by simp
  old i hi _ := Array.getElem?_push_lt hi ▸ (Array.getElem?_eq_getElem hi).symm
  new i hi := (Finset.mem_insert.1 hi).elim (fun h => .inr h.ge) .inl
  lt i hi := by
    rw [Array.size_push]
    exact (Finset.mem_insert.1 hi).elim (fun h => h ▸ Nat.lt_succ_self _) fun h =>
      (hw i h).trans (Nat.lt_succ_self _)

/-- Iterators that are not used up are as they were. -/
theorem same (h : Uses s w s' w') (hw'' : ∀ i ∈ w'', i < s.size) (hdisjoint : Disjoint w w'') :
    ∀ i ∈ w'', s'[i]? = s[i]? :=
  fun i hi => h.old i (hw'' i hi) (Finset.disjoint_right.1 hdisjoint hi)

/-- What is used up and what is used from now on, beside other iterators. -/
theorem disjoint (h : Uses s w s' w') (hw'' : ∀ i ∈ w'', i < s.size) (hdisjoint : Disjoint w w'') :
    Disjoint w' w'' := by
  refine Finset.disjoint_left.2 fun i hi hi'' => ?_
  rcases h.new i hi with hmem | hle
  · exact Finset.disjoint_left.1 hdisjoint hmem hi''
  · exact absurd (hw'' i hi'') (not_lt.2 hle)

/-- Other iterators are used up after some. -/
theorem union {u u' : Finset Handle} (h : Uses s w s' w') (h' : Uses s' u s'' u') :
    Uses s (w ∪ u) s'' (w' ∪ u') where
  size_le := h.size_le.trans h'.size_le
  old i hi hnot := by
    obtain ⟨hw, hnot⟩ := not_or.1 (mt Finset.mem_union.2 hnot)
    rw [h'.old i (hi.trans_le h.size_le) hnot, h.old i hi hw]
  new i hi := by
    obtain hi | hi := Finset.mem_union.1 hi
    · exact (h.new i hi).imp_left (Finset.mem_union_left _)
    · exact (h'.new i hi).imp (Finset.mem_union_right _) h.size_le.trans
  lt i hi := (Finset.mem_union.1 hi).elim (fun hi => (h.lt i hi).trans_le h'.size_le) (h'.lt i)

end Uses

/-- A new iterator at the end of the store. -/
theorem Denotes.push (hd : Denotes s h w vs) (hw : ∀ i ∈ w, i < s.size) (cell : Cell) :
    Denotes (s.push cell) h w vs :=
  hd.congr fun i hi => by rw [Array.getElem?_push, if_neg (Nat.ne_of_lt (hw i hi))]

/-- A value that stands for a list as an iterator. -/
theorem Stands.iterate (hs : Stands s v w vs) (hw : ∀ i ∈ w, i < s.size) :
    ∃ h s' w', Yields s (fun _ => v.iterate) h s' ∧ Denotes s' h w' vs ∧ Uses s w s' w' := by
  cases hs with
  | sequence hv =>
    have hrun : v.iterate = Eval.allocate (.items vs) := by
      cases v <;> cases hv <;> rfl
    refine ⟨_, _, _, ?_, .items (by simp), Uses.push hw ⟨.items vs, false⟩⟩
    rw [hrun]
    exact .allocate _
  | iterator hd => exact ⟨_, s, w, .pure _, hd, .refl s hw⟩

theorem StandEach.iterate (hs : StandEach s values w vss) (hw : ∀ i ∈ w, i < s.size) :
    ∃ hs s' w', Yields s (fun _ => values.mapM Value.iterate) hs s' ∧ DenoteEach s' hs w' vss ∧
      Uses s w s' w' := by
  induction values generalizing s w vss with
  | nil =>
    cases hs
    exact ⟨[], s, ∅, .pure _, .nil, .empty s⟩
  | cons v values ih =>
    cases hs with
    | @cons _ _ w₁ w₂ vs vss hfirst hdisjoint hrest =>
      have hw₁ (i : Handle) (hi : i ∈ w₁) : i < s.size := hw i (Finset.mem_union_left _ hi)
      have hw₂ (i : Handle) (hi : i ∈ w₂) : i < s.size := hw i (Finset.mem_union_right _ hi)
      obtain ⟨h, s₁, w₁', hrun₁, hd₁, huses₁⟩ := hfirst.iterate hw₁
      obtain ⟨hs, s₂, w₂', hrun₂, hd₂, huses₂⟩ := ih (hrest.congr (huses₁.same hw₂ hdisjoint))
        fun i hi => (hw₂ i hi).trans_le huses₁.size_le
      have hdisjoint₁ : Disjoint w₂ w₁' := (huses₁.disjoint hw₂ hdisjoint).symm
      refine ⟨h :: hs, s₂, w₁' ∪ w₂', ?_,
        .cons (hd₁.congr (huses₂.same huses₁.lt hdisjoint₁))
          (huses₂.disjoint huses₁.lt hdisjoint₁).symm hd₂, ?_⟩
      · simp only [List.mapM_cons]
        exact hrun₁.bind (hrun₂.bind (.pure _))
      · exact huses₁.union huses₂

/-- A new iterator that wraps a value. -/
theorem Stands.wrap (hs : Stands s v w vs) (hw : ∀ i ∈ w, i < s.size) {us : List Value}
    (wrapper : Handle → Cursor) (hwrapper : ∀ {t : Array Cell} {h inner w},
      t[h]? = some ⟨wrapper inner, false⟩ → h ∉ w → Denotes t inner w vs →
      Denotes t h (insert h w) us) :
    ∃ h s' w', Yields s (fun _ => do Builtin.iterator (wrapper (← v.iterate))) (.iterator h) s' ∧
      Denotes s' h w' us ∧ Uses s w s' w' := by
  obtain ⟨inner, s₁, w₁, hrun, hd, huses⟩ := hs.iterate hw
  refine ⟨_, _, _, hrun.bind (.bind (.allocate (wrapper inner)) (.pure _)), hwrapper (by simp) ?_
    (hd.push huses.lt _), huses.trans (.push huses.lt _)⟩
  exact fun hmem => Nat.lt_irrefl _ (huses.lt _ hmem)

/-- A new iterator over some values at once. -/
theorem StandEach.zip (hs : StandEach s values w vss) (hw : ∀ i ∈ w, i < s.size) :
    ∃ h s' w',
      Yields s (fun _ => do Builtin.iterator (.zip (← values.mapM Value.iterate)))
        (.iterator h) s' ∧
      Denotes s' h w' ((zipRows vss).map .list) ∧ Uses s w s' w' := by
  obtain ⟨inners, s₁, w₁, hrun, hd, huses⟩ := hs.iterate hw
  refine ⟨_, _, _, hrun.bind (.bind (.allocate (.zip inners)) (.pure _)), .zip (by simp) ?_
    (hd.congr fun i hi => ?_), huses.trans (.push huses.lt _)⟩
  · exact fun hmem => Nat.lt_irrefl _ (huses.lt _ hmem)
  · rw [Array.getElem?_push, if_neg (Nat.ne_of_lt (huses.lt i hi))]

/-- All items of a value. -/
theorem Stands.items (hs : Stands s v w vs) (hw : ∀ i ∈ w, i < s.size) :
    ∃ s', Yields s (fun ev => ev.items v) vs s' ∧ Uses s w s' ∅ := by
  have hcollect : ∃ s', Yields s (fun ev => v.iterate >>= fun h => ev.collect h) vs s' ∧
      Uses s w s' ∅ := by
    obtain ⟨h, s₁, w₁, hrun, hd, huses⟩ := hs.iterate hw
    obtain ⟨s', hcollect, -, hdiffer⟩ := hd.collect
    refine ⟨s', hrun.bind hcollect, (huses.trans (.of_differ hdiffer huses.lt)).drop⟩
  cases v with
  | list us =>
    cases hs with
    | sequence h =>
      cases h
      exact ⟨s, .pure _, .empty s⟩
  | _ => exact hcollect

/-! ## Markers -/

theorem Marking.rows_eq (marking : Marking) (vs : List Value) :
    marking.markers.rows marking.start true vs =
      vs.mapIdx fun k v => .list (marking.marks k vs.length ++ [v]) := by
  cases marking <;> rfl

/-! ## Trees -/

namespace Producer

mutual

/-- **Building a tree** gives a value that stands for its list. -/
theorem builds (s : Array Cell) : ∀ p : Producer, p.IsValid →
    ∃ v s' w, Yields s p.build v s' ∧ Stands s' v w p.items ∧ Uses s ∅ s' w
  | .list items, _ => ⟨.list items, s, ∅, .pure _, .sequence rfl, .empty s⟩
  | .str text, _ => ⟨.str text, s, ∅, .pure _, .sequence rfl, .empty s⟩
  | .dict entries, _ => ⟨.dict entries, s, ∅, .pure _, .sequence rfl, .empty s⟩
  | .color c, _ => ⟨.color c, s, ∅, .pure _, .sequence rfl, .empty s⟩
  | .range bounds, hp => by
    have hbuild :
        Yields s (fun _ => Builtin.iterator (.range bounds.first bounds.step bounds.length))
        (.iterator s.size) (s.push ⟨.range bounds.first bounds.step bounds.length, false⟩) :=
      .bind (.allocate _) (.pure _)
    have hcall : (Producer.range bounds).build =
        fun _ => Builtin.iterator (.range bounds.first bounds.step bounds.length) := by
      funext ev
      have hstep : bounds.step ≠ 0 := hp
      rw [build, callFunction_range, bounds.range?_eq hstep]
      rfl
    refine ⟨_, _, _, hcall ▸ hbuild, .iterator (.range (by simp) fun k hk => bounds.fits hp hk), ?_⟩
    exact .push (w := ∅) (by simp) _
  | .enumerate start inner, hp => by
    obtain ⟨v, s₁, w₁, hrun, hs, huses⟩ := builds s inner hp
    obtain ⟨h, s₂, w₂, hwrap, hd, huses'⟩ := hs.wrap huses.lt
      (fun inner => .enumerate inner (start.getD 0)) fun hcell hnew hin => .enumerate hcell hnew hin
    refine ⟨_, s₂, w₂, hrun.bind ?_, .iterator hd, huses.trans huses'⟩
    simp only [callFunction_enumerate]
    exact hwrap
  | .marked marking inner, hp => by
    obtain ⟨v, s₁, w₁, hrun, hs, huses⟩ := builds s inner hp
    obtain ⟨h, s₂, w₂, hwrap, hd, huses'⟩ := hs.wrap huses.lt
      (fun inner => .marked inner marking.markers marking.start)
      fun hcell hnew hin => .marked hcell hnew hin
    rw [Marking.rows_eq] at hd
    refine ⟨_, s₂, w₂, hrun.bind ?_, .iterator hd, huses.trans huses'⟩
    simp only [callFunction_marked]
    exact hwrap
  | .zip inners, hp => by
    obtain ⟨values, s₁, w₁, hrun, hs, huses⟩ := buildsEach s inners hp
    obtain ⟨h, s₂, w₂, hzip, hd, huses'⟩ := hs.zip huses.lt
    refine ⟨_, s₂, w₂, hrun.bind ?_, .iterator hd, huses.trans huses'⟩
    simp only [callFunction_zip]
    exact hzip
  | .reversed inner, hp => by
    obtain ⟨v, s₁, w₁, hrun, hs, huses⟩ := builds s inner hp
    obtain ⟨s₂, hitems, huses'⟩ := hs.items huses.lt
    -- the items are all taken before they are turned around
    have hnew : Denotes (s₂.push ⟨.items inner.items.reverse, false⟩) s₂.size {s₂.size}
        inner.items.reverse := .items (by simp)
    refine ⟨_, _, _, hrun.bind ?_, .iterator hnew, (huses.trans huses').trans
      (.push (w := ∅) (by simp) _)⟩
    simp only [callFunction_reversed]
    exact (hitems.bind (.allocate _)).bind (.pure _)

theorem buildsEach (s : Array Cell) : ∀ ps : List Producer, AreValid ps →
    ∃ values s' w, Yields s (buildEach ps) values s' ∧ StandEach s' values w (itemsEach ps) ∧
      Uses s ∅ s' w
  | [], _ => ⟨[], s, ∅, .pure _, .nil, .empty s⟩
  | p :: ps, hp => by
    obtain ⟨v, s₁, w₁, hrun, hs, huses⟩ := builds s p hp.1
    obtain ⟨values, s₂, w₂, hrun', hs', huses'⟩ := buildsEach s₁ ps hp.2
    have hdisjoint : Disjoint ∅ w₁ := Finset.disjoint_empty_left _
    refine ⟨v :: values, s₂, w₁ ∪ w₂, hrun.bind (hrun'.bind (.pure _)),
      .cons (hs.congr (huses'.same huses.lt hdisjoint))
        (huses'.disjoint huses.lt hdisjoint).symm hs', ?_⟩
    simpa using huses.union huses'

end

end Producer

/-- **Iterators of functions on sequences denote lists.** Whatever tree they are made by, taking all
items succeeds and gives the list of the tree, and asking again gives the end again, however often.
An index in the list is the sum of the start and the position, if that is representable, as
`toInt_indexFrom` says. -/
theorem producers_denote_lists (p : Producer) (hp : p.IsValid) (m : Machine) :
    ∃ h m₁ m₂, Gives (fun ev => do (← p.build ev).iterate) m (.ok h m₁) ∧
      Gives (fun ev => ev.collect h) m₁ (.ok p.items m₂) ∧
      ∀ n, ∃ m₃, Gives (fun ev => (List.replicate n h).mapM ev.advance) m₂
        (.ok (List.replicate n none) m₃) := by
  obtain ⟨v, s₁, w₁, hbuild, hs, huses⟩ := p.builds m.store hp
  obtain ⟨h, s₂, w₂, hiterate, hd, -⟩ := hs.iterate huses.lt
  obtain ⟨s₃, hcollect, hend, -⟩ := hd.collect
  refine ⟨h, _, _, hbuild.bind hiterate m, hcollect m, fun n => ?_⟩
  obtain ⟨s₄, hexhausted⟩ := hend.exhausted n
  exact ⟨_, hexhausted m⟩

/-- Two items with all markers, beside a range of three numbers from the last one. -/
theorem producers_denote_lists_zip :
    let p : Producer := .zip [.marked (.enumFirstLast (some 7)) (.list [.bool true, .bool false]),
      .reversed (.range (.stepped 1 6 2))]
    let m := Machine.start 0 0 .first (.ofVars [] 0)
    p.IsValid ∧ ∃ h m₁ m₂, Gives (fun ev => do (← p.build ev).iterate) m (.ok h m₁) ∧
      Gives (fun ev => ev.collect h) m₁ (.ok [
        .list [.list [.int 7, .bool true, .bool false, .bool true], .int 5],
        .list [.list [.int 8, .bool false, .bool true, .bool false], .int 3]] m₂) ∧
      ∀ n, ∃ m₃, Gives (fun ev => (List.replicate n h).mapM ev.advance) m₂
        (.ok (List.replicate n none) m₃) := by
  intro p m
  have hp : p.IsValid := ⟨trivial, show (2 : Int64) ≠ 0 by decide, trivial⟩
  exact ⟨hp, producers_denote_lists p hp m⟩

end Templating
