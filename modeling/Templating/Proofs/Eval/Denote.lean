import Templating.Proofs.Eval.Pull

/-!
# What an iterator stands for

An iterator that nothing else uses stands for the list of its items. The state of an iterator that
wraps others says what it makes of the lists of those.

* `enumeration`, `Markers.rows`, `zipRows`: the lists of the iterators that wrap others, item by
  item according to the positions.
* `Denotes`: the list of an iterator, and the iterators that it uses.
* `Denotes.pull`: **an advance takes the first item** and leaves the rest, or is at the end.
* `Denotes.collect`, `Denotes.exhausted`: all items are taken, and then there are none.
-/

namespace Templating

open Eval Number

variable {α : Type}

/-! ## Lists -/

/-- The index of the `k`-th item, cut to the words. -/
def indexFrom (start : Int64) (k : Nat) : Int64 := saturate (start.toInt + k)

/-- Items behind their indices. -/
def enumeration (start : Int64) (vs : List Value) : List Value :=
  vs.mapIdx fun k v => .list [.int (indexFrom start k), v]

/-- Items behind their markers. -/
def Markers.rows (markers : Markers) (start : Int64) (first : Bool) (vs : List Value) :
    List Value :=
  vs.mapIdx fun k v => markers.row (indexFrom start k) (first && k == 0) (k + 1 == vs.length) v

/-- How many items all lists have. -/
def shortest (vss : List (List α)) : Nat := ((vss.map List.length).min?).getD 0

/-- The items of some lists position by position, up to the end of the shortest list. -/
def zipRows (vss : List (List α)) : List (List α) :=
  (List.range (shortest vss)).map fun k => vss.filterMap (·[k]?)

/-- The numbers of a range one after another. -/
def numbersFrom (start step : Int64) (n : Nat) : List Value :=
  (List.range n).map fun k : Nat => .int (Int64.ofInt (start.toInt + k * step.toInt))

section

variable {start : Int64} {n : Nat} {v : Value} {vs : List Value} {markers : Markers} {first : Bool}

theorem toInt_saturate {n : Int} (h : Fits n) : (saturate n).toInt = n := by
  unfold saturate
  rw [if_neg (not_lt.2 h.1), if_neg (not_le.2 h.2)]
  exact Int64.toInt_ofInt_of_le h.1 h.2

/-- An index that is representable is the sum. -/
theorem toInt_indexFrom {k : Nat} (h : Fits (start.toInt + k)) :
    (indexFrom start k).toInt = start.toInt + k := toInt_saturate h

theorem indexFrom_zero : indexFrom start 0 = start :=
  Int64.toInt_inj.1 (by simpa using toInt_indexFrom (k := 0) (by simpa using fits_toInt start))

theorem indexFrom_succ (start : Int64) (k : Nat) :
    indexFrom start (k + 1) = indexFrom (addSaturating start 1) k := by
  unfold indexFrom addSaturating
  change saturate (start.toInt + (k + 1 : ℕ)) = saturate ((saturate (start.toInt + 1)).toInt + k)
  have hfits := fits_toInt start
  by_cases hone : Fits (start.toInt + 1)
  · rw [toInt_saturate hone]
    congr 1
    push_cast
    ring
  · -- both sums are too large
    have hlarge : (0x8000000000000000 : Int) ≤ start.toInt + 1 := by
      unfold Fits at hone hfits
      omega
    have hmax (n : Int) (hn : 0x8000000000000000 ≤ n) : saturate n = Int64.maxValue := by
      unfold saturate
      rw [if_neg (by omega), if_pos hn]
    rw [hmax _ (by push_cast; omega), hmax _ hlarge]
    cases k with
    | zero => exact (indexFrom_zero : indexFrom Int64.maxValue 0 = _).symm
    | succ k =>
      refine (hmax _ ?_).symm
      change (0x8000000000000000 : Int) ≤ 0x7FFFFFFFFFFFFFFF + (k + 1 : ℕ)
      omega

theorem enumeration_cons : enumeration start (v :: vs) =
    .list [.int start, v] :: enumeration (addSaturating start 1) vs := by
  unfold enumeration
  rw [List.mapIdx_cons, indexFrom_zero]
  simp only [indexFrom_succ]

theorem Markers.rows_cons : markers.rows start first (v :: vs) =
    markers.row start first vs.isEmpty v :: markers.rows (markers.following start) false vs := by
  unfold Markers.rows
  rw [List.mapIdx_cons, indexFrom_zero]
  congr 1
  · cases vs <;> simp
  · refine List.ext_getElem (by simp) fun k _ _ => ?_
    have hindex (hi : markers.index) :
        indexFrom start (k + 1) = indexFrom (markers.following start) k := by
      rw [Markers.following, if_pos hi, indexFrom_succ]
    simp only [List.getElem_mapIdx, List.length_cons, Markers.row_congr hindex]
    simp

/-- As long as a number of a range is left, the addition that leads to it is not cut. -/
theorem following_eq {step : Int64} (h : ∀ k < n + 1, Fits (start.toInt + k * step.toInt)) {k : Nat}
    (hk : k < n) :
    (addSaturating start step).toInt + k * step.toInt =
      start.toInt + (k + 1 : ℕ) * step.toInt := by
  have hone : Fits (start.toInt + step.toInt) := by simpa using h 1 (by omega)
  rw [addSaturating, toInt_saturate hone]
  push_cast
  ring

theorem fits_following {step : Int64} (h : ∀ k < n + 1, Fits (start.toInt + k * step.toInt)) :
    ∀ k < n, Fits ((addSaturating start step).toInt + k * step.toInt) := by
  intro k hk
  rw [following_eq h hk]
  exact h (k + 1) (Nat.succ_lt_succ hk)

theorem numbersFrom_succ {step : Int64} (h : ∀ k < n + 1, Fits (start.toInt + k * step.toInt)) :
    numbersFrom start step (n + 1) =
      .int start :: numbersFrom (addSaturating start step) step n := by
  unfold numbersFrom
  rw [List.range_succ_eq_map, List.map_cons, List.map_map]
  congr 1
  · simp
  · refine List.map_congr_left fun k hk => ?_
    rw [Function.comp_apply, following_eq h (List.mem_range.1 hk)]

end

section

variable {vss wss : List (List α)} {vs : List α}

theorem lt_shortest_iff {k : Nat} : k < shortest vss ↔ vss ≠ [] ∧ ∀ vs ∈ vss, k < vs.length := by
  unfold shortest
  cases hmin : (vss.map List.length).min? with
  | none =>
    obtain rfl := List.map_eq_nil_iff.1 (List.min?_eq_none_iff.1 hmin)
    simp
  | some n =>
    obtain ⟨hmem, hle⟩ := List.min?_eq_some_iff.1 hmin
    obtain ⟨vs, hvs, rfl⟩ := List.mem_map.1 hmem
    refine ⟨fun hk => ⟨List.ne_nil_of_mem hvs, fun ws hws => ?_⟩, fun h => h.2 vs hvs⟩
    exact lt_of_lt_of_le hk (hle _ (List.mem_map_of_mem hws))

/-- One of the lists is at its end. -/
theorem zipRows_of_nil_mem (h : [] ∈ vss) : zipRows vss = [] := by
  have hzero : shortest vss = 0 :=
    Nat.eq_zero_of_not_pos fun hpos => absurd ((lt_shortest_iff.1 hpos).2 [] h) (Nat.lt_irrefl 0)
  rw [zipRows, hzero]
  rfl

/-- All lists have an item. -/
theorem zipRows_cons {heads : List (α × List α)} (hne : heads ≠ []) :
    zipRows (heads.map fun p => p.1 :: p.2) =
      heads.map Prod.fst :: zipRows (heads.map Prod.snd) := by
  have hshortest : shortest (heads.map fun p => p.1 :: p.2) =
      shortest (heads.map Prod.snd) + 1 := by
    refine eq_of_forall_lt_iff fun k => ?_
    cases k with
    | zero => simpa [lt_shortest_iff, hne] using fun _ _ _ _ h => by simp [← h]
    | succ k =>
      simp only [lt_shortest_iff, Nat.succ_lt_succ_iff, ne_eq, List.map_eq_nil_iff, hne,
        not_false_eq_true, true_and, List.forall_mem_map, List.length_cons]
  unfold zipRows
  rw [hshortest, List.range_succ_eq_map, List.map_cons, List.map_map]
  congr 1
  · simp
  · refine List.map_congr_left fun k _ => ?_
    simp [List.filterMap_map]

end

/-! ## Iterators -/

mutual

/-- An iterator stands for a list. It uses a set of iterators, and the iterators inside it use
different ones. -/
inductive Denotes (s : Array Cell) : Handle → Finset Handle → List Value → Prop where
  | items {h : Handle} {vs : List Value} : s[h]? = some ⟨.items vs, false⟩ → Denotes s h {h} vs
  | range {h : Handle} {next step : Int64} {n : Nat} :
      s[h]? = some ⟨.range next step n, false⟩ →
      (∀ k < n, Fits (next.toInt + k * step.toInt)) → Denotes s h {h} (numbersFrom next step n)
  | enumerate {h inner : Handle} {index : Int64} {w : Finset Handle} {vs : List Value} :
      s[h]? = some ⟨.enumerate inner index, false⟩ → h ∉ w →
      Denotes s inner w vs → Denotes s h (insert h w) (enumeration index vs)
  | marked {h inner : Handle} {markers : Markers} {index : Int64} {first : Bool}
      {w : Finset Handle} {vs : List Value} :
      s[h]? = some ⟨.flagged inner markers index first .unknown, false⟩ → h ∉ w →
      Denotes s inner w vs → Denotes s h (insert h w) (markers.rows index first vs)
  /-- One item has been taken in advance. -/
  | pending {h inner : Handle} {markers : Markers} {index : Int64} {first : Bool}
      {w : Finset Handle} {v : Value} {vs : List Value} :
      s[h]? = some ⟨.flagged inner markers index first (.pending v), false⟩ → h ∉ w →
      markers.last →
      Denotes s inner w vs → Denotes s h (insert h w) (markers.rows index first (v :: vs))
  | ended {h inner : Handle} {markers : Markers} {index : Int64} {first : Bool}
      {w : Finset Handle} :
      s[h]? = some ⟨.flagged inner markers index first .ended, false⟩ → h ∉ w →
      Denotes s h (insert h w) []
  | zip {h : Handle} {inners : List Handle} {w : Finset Handle} {vss : List (List Value)} :
      s[h]? = some ⟨.zip inners, false⟩ → h ∉ w → DenoteEach s inners w vss →
      Denotes s h (insert h w) ((zipRows vss).map .list)

/-- Some iterators stand for some lists, and they use different iterators. -/
inductive DenoteEach (s : Array Cell) :
    List Handle → Finset Handle → List (List Value) → Prop where
  | nil : DenoteEach s [] ∅ []
  | cons {h : Handle} {hs : List Handle} {w w' : Finset Handle} {vs : List Value}
      {vss : List (List Value)} : Denotes s h w vs → Disjoint w w' → DenoteEach s hs w' vss →
      DenoteEach s (h :: hs) (w ∪ w') (vs :: vss)

end

section

variable {s t : Array Cell}

mutual

/-- Other iterators do not matter. -/
theorem Denotes.congr {h : Handle} {w : Finset Handle} {vs : List Value} :
    Denotes s h w vs → (∀ i ∈ w, t[i]? = s[i]?) → Denotes t h w vs
  | .items hcell, ht => .items (by rw [ht h (by simp), hcell])
  | .range hcell hfits, ht => .range (by rw [ht h (by simp), hcell]) hfits
  | .enumerate hcell hnew hin, ht =>
    .enumerate (by rw [ht h (by simp), hcell]) hnew
      (hin.congr fun i hi => ht i (Finset.mem_insert_of_mem hi))
  | .marked hcell hnew hin, ht =>
    .marked (by rw [ht h (by simp), hcell]) hnew
      (hin.congr fun i hi => ht i (Finset.mem_insert_of_mem hi))
  | .pending hcell hnew hlast hin, ht =>
    .pending (by rw [ht h (by simp), hcell]) hnew hlast
      (hin.congr fun i hi => ht i (Finset.mem_insert_of_mem hi))
  | .ended hcell hnew, ht => .ended (by rw [ht h (by simp), hcell]) hnew
  | .zip hcell hnew hin, ht =>
    .zip (by rw [ht h (by simp), hcell]) hnew
      (hin.congr fun i hi => ht i (Finset.mem_insert_of_mem hi))

theorem DenoteEach.congr {hs : List Handle} {w : Finset Handle} {vss : List (List Value)} :
    DenoteEach s hs w vss → (∀ i ∈ w, t[i]? = s[i]?) → DenoteEach t hs w vss
  | .nil, _ => .nil
  | .cons hfirst hdisjoint hrest, ht =>
    .cons (hfirst.congr fun i hi => ht i (Finset.mem_union_left _ hi)) hdisjoint
      (hrest.congr fun i hi => ht i (Finset.mem_union_right _ hi))

end

end

/-! ## Advances -/

/-- Two stores with the same iterators, of which only some have another position. -/
structure Differ (w : Finset Handle) (s s' : Array Cell) : Prop where
  size : s'.size = s.size
  same : ∀ i ∉ w, s'[i]? = s[i]?

variable {s s' s'' : Array Cell} {h : Handle} {hs : List Handle} {w w' : Finset Handle}
  {vs : List Value} {vss : List (List Value)} {cell cell' : Cell} {cursor cursor' : Cursor}
  {item : Option Value}

theorem Differ.refl (w : Finset Handle) (s : Array Cell) : Differ w s s := ⟨rfl, fun _ _ => rfl⟩

theorem Differ.trans (h : Differ w s s') (h' : Differ w s' s'') : Differ w s s'' :=
  ⟨h'.size.trans h.size, fun i hi => (h'.same i hi).trans (h.same i hi)⟩

theorem Differ.mono (h : Differ w s s') (hw : w ⊆ w') : Differ w' s s' :=
  ⟨h.size, fun i hi => h.same i fun hmem => hi (hw hmem)⟩

/-- An advance from a list takes the first item, and leaves the rest. -/
def Supplies (s : Array Cell) (h : Handle) (w : Finset Handle) (vs : List Value) : Prop :=
  ∃ s', Pulls s h vs.head? s' ∧ Denotes s' h w vs.tail ∧ Differ w s s'

/-- A step of an iterator that asks those inside it, and that puts its position into the store. -/
theorem Supplies.of_steps (hcell : s[h]? = some ⟨cursor, false⟩) (hnew : h ∉ w)
    (hstep : Steps (s.setIfInBounds h ⟨cursor, true⟩) cursor cursor' vs.head? s')
    (hdiffer : Differ w (s.setIfInBounds h ⟨cursor, true⟩) s')
    (hrest : ∀ t : Array Cell, t[h]? = some ⟨cursor', false⟩ → (∀ i ∈ w, t[i]? = s'[i]?) →
      Denotes t h (insert h w) vs.tail) : Supplies s h (insert h w) vs := by
  have hlt : h < s'.size := by
    rw [hdiffer.size, Array.size_setIfInBounds]
    exact (Array.getElem?_eq_some_iff.1 hcell).1
  refine ⟨_, .of_steps hcell hstep, hrest _ ?_ fun i hi => ?_, ?_, fun i hi => ?_⟩
  · exact Array.getElem?_setIfInBounds_self_of_lt hlt
  · exact Array.getElem?_setIfInBounds_ne (by rintro rfl; exact hnew hi)
  · rw [Array.size_setIfInBounds, hdiffer.size, Array.size_setIfInBounds]
  · obtain ⟨hne, hi⟩ := not_or.1 (mt Finset.mem_insert.2 hi)
    rw [Array.getElem?_setIfInBounds_ne (Ne.symm hne), hdiffer.same i hi,
      Array.getElem?_setIfInBounds_ne (Ne.symm hne)]

/-- The iterators inside an iterator do not notice that it is being advanced. -/
theorem Denotes.mark (hd : Denotes s h w vs) {i : Handle} (hi : i ∉ w) (cell : Cell) :
    Denotes (s.setIfInBounds i cell) h w vs :=
  hd.congr fun _ hj => Array.getElem?_setIfInBounds_ne (by rintro rfl; exact hi hj)

theorem DenoteEach.mark (hd : DenoteEach s hs w vss) {i : Handle} (hi : i ∉ w) (cell : Cell) :
    DenoteEach (s.setIfInBounds i cell) hs w vss :=
  hd.congr fun _ hj => Array.getElem?_setIfInBounds_ne (by rintro rfl; exact hi hj)

/-- An advance of each of some iterators: an item of each is taken, or one is at its end. -/
theorem DenoteEach.pull (hd : DenoteEach s hs w vss)
    (hpull : ∀ {s h w' vs}, w' ⊆ w → Denotes s h w' vs → Supplies s h w' vs) :
    ∃ s', Differ w s s' ∧
      ((∃ heads : List (Value × List Value), vss = heads.map (fun p => p.1 :: p.2) ∧
          PullsEach s hs (some (heads.map Prod.fst)) s' ∧
          DenoteEach s' hs w (heads.map Prod.snd)) ∨
        [] ∈ vss ∧ ∃ vss', [] ∈ vss' ∧ PullsEach s hs none s' ∧ DenoteEach s' hs w vss') := by
  induction hs generalizing s w vss with
  | nil =>
    cases hd
    exact ⟨s, .refl _ s, .inl ⟨[], rfl, .nil, .nil⟩⟩
  | cons h hs ih =>
    cases hd with
    | cons hfirst hdisjoint hrest =>
      rename_i w₁ w₂ vs vss
      -- the iterators are disjoint, so what the first one takes leaves the others as they are
      obtain ⟨s₁, hp, hd₁, hdiffer₁⟩ := hpull Finset.subset_union_left hfirst
      have hrest₁ : DenoteEach s₁ hs w₂ vss :=
        hrest.congr fun i hi => hdiffer₁.same i (Finset.disjoint_right.1 hdisjoint hi)
      cases vs with
      | nil =>
        -- no later one is asked when an iterator is at its end
        refine ⟨s₁, hdiffer₁.mono Finset.subset_union_left, .inr ⟨List.mem_cons_self, _,
          List.mem_cons_self, .ended hp, .cons hd₁ hdisjoint hrest₁⟩⟩
      | cons v vs =>
        obtain ⟨s₂, hdiffer₂, h₂⟩ := ih hrest₁ fun hw => hpull (hw.trans Finset.subset_union_right)
        have hd₂ : Denotes s₂ h w₁ vs :=
          hd₁.congr fun i hi => hdiffer₂.same i (Finset.disjoint_left.1 hdisjoint hi)
        refine ⟨s₂, (hdiffer₁.mono Finset.subset_union_left).trans
          (hdiffer₂.mono Finset.subset_union_right), ?_⟩
        obtain ⟨heads, rfl, hp₂, hd'⟩ | ⟨hmem, vss', hmem', hp₂, hd'⟩ := h₂
        · exact .inl ⟨(v, vs) :: heads, rfl, .cons hp hp₂, .cons hd₂ hdisjoint hd'⟩
        · exact .inr ⟨List.mem_cons_of_mem _ hmem, vs :: vss', List.mem_cons_of_mem _ hmem',
            .cons hp hp₂, .cons hd₂ hdisjoint hd'⟩

/-- A step of an iterator with markers whose next item is at hand. If the last item is marked, one
more is taken. -/
theorem Supplies.of_pending {inner : Handle} {markers : Markers} {index : Int64} {first : Bool}
    {v : Value} {next : Lookahead}
    (hcell : s[h]? = some ⟨.flagged inner markers index first next, false⟩) (hnew : h ∉ w)
    (hd : Denotes s' inner w vs)
    (hdiffer : Differ w (s.setIfInBounds h ⟨.flagged inner markers index first next, true⟩) s')
    (hsupplies : Supplies s' inner w vs)
    (hstep : ∀ {cursor' item s''},
      Steps s' (.flagged inner markers index first (.pending v)) cursor' item s'' →
      Steps (s.setIfInBounds h ⟨.flagged inner markers index first next, true⟩)
        (.flagged inner markers index first next) cursor' item s'') :
    Supplies s h (insert h w) (markers.rows index first (v :: vs)) := by
  rw [Markers.rows_cons]
  cases hlast : markers.last with
  | false =>
    have hmarked : Steps s' (.flagged inner markers index first (.pending v))
        (.flagged inner markers (markers.following index) false (markers.lookahead none))
        (some (markers.row index first true v)) s' := .marked (by simp [hlast])
    rw [Markers.lookahead_of_not_last hlast] at hmarked
    rw [Markers.row_of_not_last hlast index first _ true]
    exact .of_steps hcell hnew (hstep hmarked) hdiffer fun t ht hsame =>
      .marked ht hnew (hd.congr hsame)
  | true =>
    obtain ⟨s₂, hpull, hd₂, hdiffer₂⟩ := hsupplies
    have hmarked : Steps s' (.flagged inner markers index first (.pending v))
        (.flagged inner markers (markers.following index) false (markers.lookahead vs.head?))
        (some (markers.row index first vs.head?.isNone v)) s₂ := .marked (by rwa [if_pos hlast])
    have hdiffer₂ := hdiffer.trans hdiffer₂
    cases vs with
    | nil =>
      rw [List.head?_nil, Markers.lookahead_none hlast] at hmarked
      exact .of_steps hcell hnew (hstep hmarked) hdiffer₂ fun t ht hsame => .ended ht hnew
    | cons v' vs =>
      rw [List.head?_cons, Markers.lookahead_some hlast] at hmarked
      exact .of_steps hcell hnew (hstep hmarked) hdiffer₂ fun t ht hsame =>
        .pending ht hnew hlast (hd₂.congr hsame)

/-- **An advance takes the first item** of the list, and leaves the rest, or is at the end. -/
theorem Denotes.pull (hd : Denotes s h w vs) : Supplies s h w vs := by
  -- on the iterators that are involved: those below an iterator are fewer
  induction w using Finset.strongInduction generalizing s h vs with
  | H w ih =>
    cases hd with
    | items hcell =>
      have hstep : Steps (s.setIfInBounds h ⟨.items vs, true⟩) (.items vs) (.items vs.tail) vs.head?
          (s.setIfInBounds h ⟨.items vs, true⟩) := by
        cases vs with
        | nil => exact .items_nil
        | cons v vs => exact .items_cons
      exact .of_steps (w := ∅) hcell (Finset.notMem_empty h) hstep (.refl _ _)
        fun t ht _ => .items ht
    | @range _ next step n hcell hfits =>
      cases n with
      | zero =>
        exact .of_steps (w := ∅) hcell (Finset.notMem_empty h) .range_zero (.refl _ _)
          fun t ht _ => .range ht hfits
      | succ n =>
        rw [numbersFrom_succ hfits]
        exact .of_steps (w := ∅) hcell (Finset.notMem_empty h) .range_succ (.refl _ _)
          fun t ht _ => .range ht (fits_following hfits)
    | @enumerate _ inner index w vs hcell hnew hin =>
      obtain ⟨s', hpull, hd', hdiffer⟩ := ih w (Finset.ssubset_insert hnew) (hin.mark hnew _)
      cases vs with
      | nil =>
        exact .of_steps hcell hnew (.enumerate_ended hpull) hdiffer fun t ht hsame =>
          .enumerate ht hnew (hd'.congr hsame)
      | cons v vs =>
        rw [enumeration_cons]
        exact .of_steps hcell hnew (.enumerate hpull) hdiffer fun t ht hsame =>
          .enumerate ht hnew (hd'.congr hsame)
    | @marked _ inner markers index first w vs hcell hnew hin =>
      obtain ⟨s', hpull, hd', hdiffer⟩ := ih w (Finset.ssubset_insert hnew) (hin.mark hnew _)
      cases vs with
      | nil =>
        exact .of_steps hcell hnew (.marked_unknown_ended hpull) hdiffer fun t ht hsame =>
          .ended ht hnew
      | cons v vs =>
        exact .of_pending hcell hnew hd' hdiffer (ih w (Finset.ssubset_insert hnew) hd')
          fun hstep => .marked_unknown hpull hstep
    | @pending _ inner markers index first w v vs hcell hnew hlast hin =>
      exact .of_pending hcell hnew (hin.mark hnew _) (.refl _ _)
        (ih w (Finset.ssubset_insert hnew) (hin.mark hnew _)) fun hstep => hstep
    | ended hcell hnew =>
      exact .of_steps hcell hnew .marked_ended (.refl _ _) fun t ht _ => .ended ht hnew
    | @zip _ inners w vss hcell hnew hin =>
      cases inners with
      | nil =>
        cases hin
        exact .of_steps hcell hnew .zip_nil (.refl _ _) fun t ht _ => .zip ht hnew .nil
      | cons inner inners =>
        obtain ⟨s', hdiffer, hcases⟩ := (hin.mark hnew ⟨.zip (inner :: inners), true⟩).pull
          fun hw hd => ih _ (Finset.ssubset_of_subset_of_ssubset hw (Finset.ssubset_insert hnew)) hd
        obtain ⟨heads, rfl, heach, hd'⟩ | ⟨hmem, vss', hmem', heach, hd'⟩ := hcases
        · have hne : heads ≠ [] := by
            rintro rfl
            cases hd'
          rw [zipRows_cons hne]
          exact .of_steps hcell hnew (.zip heach) hdiffer fun t ht hsame =>
            .zip ht hnew (hd'.congr hsame)
        -- some list is empty and so there is no row, whatever the lists before it still have
        · rw [zipRows_of_nil_mem hmem]
          refine .of_steps hcell hnew (.zip heach) hdiffer fun t ht hsame => ?_
          have hzip := Denotes.zip ht hnew (hd'.congr hsame)
          rwa [zipRows_of_nil_mem hmem'] at hzip

/-- A loop takes all items, if its rounds only go on. -/
theorem Denotes.loops (hd : Denotes s h w vs) (step : α → Value → Program (Walk α))
    (next : α → Value → α) (hstep : ∀ v ∈ vs, ∀ a, step a v = fun _ => pure (.on (next a v)))
    (a : α) :
    ∃ s', (∀ m : Machine, Loops h step a { m with store := s }
        (.ok (vs.foldl next a) { m with store := s' })) ∧
      Denotes s' h w [] ∧ Differ w s s' := by
  induction vs generalizing s a with
  | nil =>
    obtain ⟨s', hpull, hd', hdiffer⟩ := hd.pull
    exact ⟨s', fun m => .ended (hpull m), hd', hdiffer⟩
  | cons v vs ih =>
    obtain ⟨hfirst, hrest⟩ := List.forall_mem_cons.1 hstep
    obtain ⟨s₁, hpull, hd₁, hdiffer₁⟩ := hd.pull
    obtain ⟨s', hloops, hd', hdiffer'⟩ := ih hd₁ hrest (next a v)
    have hround (m : Machine) : Gives (step a v) m (.ok (.on (next a v)) m) :=
      hfirst a ▸ .action rfl trivial
    exact ⟨s', fun m => .on (hpull m) (hround _) (hloops m), hd', hdiffer₁.trans hdiffer'⟩

/-- **A loop over an iterator** gives what its rounds make of the items. -/
theorem Denotes.fold (hd : Denotes s h w vs) (step : α → Value → Eval (Walk α))
    (next : α → Value → α) (hstep : ∀ v ∈ vs, ∀ a, step a v = pure (.on (next a v))) (a : α) :
    ∃ s', Yields s (fun ev => ev.fold h a step) (vs.foldl next a) s' ∧
      Denotes s' h w [] ∧ Differ w s s' := by
  obtain ⟨s', hloops, hrest⟩ := hd.loops (fun a v _ => step a v) next
    (fun v hv a => funext fun _ => hstep v hv a) a
  exact ⟨s', fun m => (gives_fold_iff fun _ _ => Steady.action _).2 (hloops m), hrest⟩

/-- **All items are taken**, and the iterator is at its end. -/
theorem Denotes.collect (hd : Denotes s h w vs) :
    ∃ s', Yields s (fun ev => ev.collect h) vs s' ∧ Denotes s' h w [] ∧ Differ w s s' := by
  obtain ⟨s', hfold, hrest⟩ := hd.fold (fun taken v => pure (.on (v :: taken)))
    (fun taken v => v :: taken) (fun _ _ _ => rfl) []
  rw [List.foldl_flip_cons_eq_append', List.append_nil] at hfold
  have hreverse := Yields.pure (s := s') vs.reverse.reverse
  rw [List.reverse_reverse] at hreverse
  exact ⟨s', hfold.bind (by rwa [List.reverse_reverse]), hrest⟩

/-- **An iterator at its end stays there**, however often it is asked. -/
theorem Denotes.exhausted (hd : Denotes s h w []) (n : Nat) :
    ∃ s', Yields s (fun ev => (List.replicate n h).mapM ev.advance) (List.replicate n none) s' := by
  induction n generalizing s with
  | zero => exact ⟨s, .pure _⟩
  | succ n ih =>
    obtain ⟨s₁, hpull, hd₁, -⟩ := hd.pull
    obtain ⟨s', hrest⟩ := ih hd₁
    refine ⟨s', ?_⟩
    simp only [List.replicate_succ, List.mapM_cons]
    exact hpull.bind (hrest.bind (.pure _))

end Templating
