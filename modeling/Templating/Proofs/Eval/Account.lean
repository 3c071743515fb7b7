import Templating.Proofs.Eval.Custody

/-!
# Where the items of a source are

The record of an advance accounts for every position that was taken from a sequence or a range.

* `Cursor.left`: the items that a sequence or a range has left.
* `Value.Holds`: the items at some positions can be found in a value.
* `Tallies`: a record and a store agree. What was taken is a beginning of each source, and what an
  iterator holds back can be found in the item that it took in advance.
* `Custody.Moves`: some positions left the record, and everything else that was taken is still
  there.
* `Takes.accounts`: **an advance keeps the record right**, and what it takes is in its item.
-/

namespace Templating

open Eval

/-! ## Items -/

/-- The numbers that a range has left. -/
def numbersLeft (next step : Int64) : Nat → List Value
  | 0 => []
  | n + 1 => .int next :: numbersLeft (addSaturating next step) step n

/-- The items that a sequence or a range has left. -/
def Cursor.left : Cursor → List Value
  | .items rest => rest
  | .range next step remaining => numbersLeft next step remaining
  | _ => []

/-- The item that is held back. -/
def Cursor.pending? : Cursor → Option Value
  | .flagged _ _ _ _ (.pending v) => some v
  | _ => none

/-- A value can be found in another one: it is the same, or in an item of a list. -/
inductive Value.Shows : Value → Value → Prop where
  | self (v : Value) : Value.Shows v v
  | item {vs : List Value} {v part : Value} : v ∈ vs → v.Shows part → Value.Shows (.list vs) part

/-- The items at some positions can be found in a value. -/
def Value.Holds (full : Handle → List Value) (v : Value) (tokens : List Token) : Prop :=
  ∀ t ∈ tokens, ∃ item, (full t.1)[t.2]? = some item ∧ v.Shows item

variable {C C₁ C₂ C' : Custody} {s s' : Array Cell} {h i inner z : Handle} {inners : List Handle}
  {cursor cursor' : Cursor} {v : Value} {vs : List Value} {r next : Option Row} {rows : List Row}
  {complete : Bool} {full : Handle → List Value} {tokens tokens' : List Token} {n : Nat}

theorem Cursor.left_uncons (h : cursor.uncons = some (v, cursor')) :
    cursor'.IsSource ∧ cursor.left = v :: cursor'.left := by
  unfold Cursor.uncons at h
  split at h
  · cases h
    exact ⟨trivial, rfl⟩
  · cases h
    exact ⟨trivial, rfl⟩
  · cases h

theorem Cursor.isSource_of_uncons (h : cursor.uncons = some (v, cursor')) : cursor.IsSource := by
  cases cursor with
  | items | range => trivial
  | _ => cases h

theorem Cursor.pending?_source (h : cursor.IsSource) : cursor.pending? = none := by
  cases cursor with
  | items | range => rfl
  | _ => exact h.elim

theorem Cursor.pending?_lookahead {markers : Markers} (hlast : markers.last = true)
    (inner : Handle) (index : Int64) (first : Bool) (next : Option Value) :
    (Cursor.flagged inner markers index first (markers.lookahead next)).pending? = next := by
  cases next with
  | none => rw [Markers.lookahead_none hlast]; rfl
  | some v => rw [Markers.lookahead_some hlast]; rfl

namespace Value.Holds

theorem nil (v : Value) : v.Holds full [] := fun _ ht => nomatch ht

theorem list (hv : v.Holds full tokens) (hmem : v ∈ vs) : (Value.list vs).Holds full tokens := by
  intro t ht
  obtain ⟨item, hitem, hshows⟩ := hv t ht
  exact ⟨item, hitem, .item hmem hshows⟩

theorem marked (hv : v.Holds full tokens) (markers : Markers) (index : Int64) (first last : Bool) :
    (markers.row index first last v).Holds full tokens :=
  hv.list (List.mem_append_right _ (List.mem_singleton_self v))

/-- The items of a row hold what they hold each. -/
theorem flatMap (h : ∀ r ∈ rows, r.value.Holds full r.tokens) :
    (Value.list (rows.map Row.value)).Holds full (rows.flatMap Row.tokens) := by
  intro t ht
  obtain ⟨r, hr, ht⟩ := List.mem_flatMap.1 ht
  exact (h r hr).list (List.mem_map_of_mem hr) t ht

end Value.Holds

/-! ## Positions -/

namespace Custody

/-- How often a position was taken. -/
def mark (C : Custody) (t : Token) : Nat := if t.2 < C.taken t.1 then 1 else 0

/-- How often a position is held back by one of the first iterators, or was lost. -/
def kept (C : Custody) (n : Nat) (t : Token) : Nat :=
  (∑ i ∈ Finset.range n, (C.held i).count t) + (C.dropped.map Prod.snd).count t

/-- Some positions left the record. Everything else that was taken is still there. -/
def Moves (C : Custody) (n : Nat) (tokens : List Token) (C' : Custody) : Prop :=
  ∀ t, C'.kept n t + tokens.count t + C.mark t = C.kept n t + C'.mark t

/-- Some positions of a source were taken after those that anything received of it. -/
structure Newer (C : Custody) (i : Handle) (tokens : List Token) : Prop where
  pairwise : tokens.Pairwise (·.2 < ·.2)
  taken : ∀ t ∈ tokens, t.1 = i ∧ t.2 < C.taken i
  received : ∀ t ∈ tokens, ∀ w, ∀ u ∈ C.received w i, u.2 < t.2

/-- What was received of a source was received in the order of the source. -/
def InOrder (C : Custody) (i : Handle) : Prop :=
  ∀ w, (C.received w i).Pairwise (·.2 < ·.2) ∧ ∀ t ∈ C.received w i, t.1 = i ∧ t.2 < C.taken i

/-- One iterator holds back something else. -/
theorem sum_count_update (held : Handle → List Token) (hh : h < n) (tokens : List Token)
    (t : Token) : (∑ i ∈ Finset.range n, (Function.update held h tokens i).count t) +
      (held h).count t = (∑ i ∈ Finset.range n, (held i).count t) + tokens.count t := by
  have hmem := Finset.mem_range.2 hh
  have hrest : ∑ i ∈ (Finset.range n).erase h, (Function.update held h tokens i).count t =
      ∑ i ∈ (Finset.range n).erase h, (held i).count t :=
    Finset.sum_congr rfl fun i hi => by rw [Function.update_of_ne (Finset.ne_of_mem_erase hi)]
  rw [← Finset.add_sum_erase _ (fun i => (held i).count t) hmem, ← Finset.add_sum_erase _
    (fun i => (Function.update held h tokens i).count t) hmem, hrest, Function.update_self]
  ring

namespace Moves

theorem refl (C : Custody) (n : Nat) : C.Moves n [] C := fun _ => rfl

theorem trans (h : C.Moves n tokens C₁) (h' : C₁.Moves n tokens' C') :
    C.Moves n (tokens ++ tokens') C' := by
  intro t
  have := h t
  have := h' t
  rw [List.count_append]
  omega

theorem take (C : Custody) (n : Nat) (h : Handle) : C.Moves n [(h, C.taken h)] (C.take h) := by
  rintro ⟨i, k⟩
  change C.kept n (i, k) + _ + _ = C.kept n (i, k) + _
  unfold mark Custody.take
  by_cases hi : i = h
  · subst hi
    simp only [Function.update_self, List.count_singleton, beq_iff_eq, Prod.mk.injEq, true_and]
    split_ifs <;> omega
  · have hne : (h, C.taken h) ≠ (i, k) := fun heq => hi (Prod.mk.inj heq).1.symm
    simp [Function.update_of_ne hi, hne]

theorem receive (hm : C.Moves n tokens C') (h inner : Handle) (tokens' : List Token) :
    C.Moves n tokens (C'.receive h inner tokens') := hm

/-- What an iterator held back leaves the record, when it holds back something else. -/
theorem hold (hm : C.Moves n tokens C') (hh : h < n) (inner : Handle) :
    C.Moves n (C'.held h) (C'.hold h inner tokens) := by
  intro t
  have hsum := sum_count_update C'.held hh tokens t
  have hmoved := hm t
  unfold kept at hmoved ⊢
  change (∑ i ∈ Finset.range n, (Function.update C'.held h tokens i).count t) +
    (C'.dropped.map Prod.snd).count t + _ + _ = _ + C'.mark t
  omega

theorem drop (hm : C.Moves n tokens C') (h : Handle) : C.Moves n [] (C'.drop h tokens) := by
  intro t
  have hdropped : ((tokens.map (h, ·)).map Prod.snd : List Token) = tokens := by simp
  have hmoved := hm t
  unfold kept at hmoved ⊢
  change _ + ((C'.dropped ++ tokens.map (h, ·)).map Prod.snd).count t + _ + _ = _ + C'.mark t
  rw [List.map_append, hdropped, List.count_append]
  simp only [Custody.drop, List.count_nil]
  omega

end Moves

namespace Newer

theorem nil (C : Custody) (i : Handle) : C.Newer i [] := ⟨.nil, nofun, nofun⟩

/-- The next position of a source. -/
theorem take (ho : C.InOrder i) : (C.take i).Newer i [(i, C.taken i)] where
  pairwise := List.pairwise_singleton ..
  taken t ht := by
    obtain rfl := List.mem_singleton.1 ht
    exact ⟨rfl, by simp [Custody.take]⟩
  received t ht w u hu := by
    obtain rfl := List.mem_singleton.1 ht
    exact ((ho w).2 u hu).2

end Newer

theorem InOrder.take (ho : C.InOrder i) (h : Handle) : (C.take h).InOrder i := by
  refine fun w => ⟨(ho w).1, fun t ht => ⟨((ho w).2 t ht).1, ((ho w).2 t ht).2.trans_le ?_⟩⟩
  by_cases hi : i = h
  · simp [Custody.take, hi]
  · simp [Custody.take, hi]

/-- Newer positions are received in order. -/
theorem InOrder.receive (ho : C.InOrder i) (hnew : inner = i → C.Newer i tokens) (h : Handle) :
    (C.receive h inner tokens).InOrder i := by
  intro w
  change (Function.update C.received h _ w i).Pairwise _ ∧
    ∀ t ∈ Function.update C.received h _ w i, _
  by_cases hw : w = h
  · subst hw
    rw [Function.update_self]
    by_cases hi : i = inner
    · subst hi
      have hnew := hnew rfl
      rw [Function.update_self]
      refine ⟨List.pairwise_append.2 ⟨(ho w).1, hnew.pairwise, fun u hu t ht =>
        hnew.received t ht w u hu⟩, fun t ht => ?_⟩
      exact (List.mem_append.1 ht).elim ((ho w).2 t) (hnew.taken t)
    · rw [Function.update_of_ne hi]
      exact ho w
  · rw [Function.update_of_ne hw]
    exact ho w

end Custody

/-! ## Records that agree with a store -/

/-- A record agrees with the cursor of an iterator. -/
structure Cursor.Tallies (full : Handle → List Value) (C : Custody) (i : Handle) (cursor : Cursor) :
    Prop where
  /-- What was taken is a beginning of the source. -/
  source : cursor.IsSource → C.taken i ≤ (full i).length ∧ cursor.left = (full i).drop (C.taken i)
  inOrder : cursor.IsSource → C.InOrder i
  pending : ∀ v, cursor.pending? = some v → v.Holds full (C.held i)
  idle : cursor.pending? = none → C.held i = []

/-- A record agrees with a store. -/
structure Tallies (full : Handle → List Value) (C : Custody) (s : Array Cell) : Prop where
  cells : ∀ (i : Handle) (cursor : Cursor) (busy : Bool), s[i]? = some ⟨cursor, busy⟩ →
    cursor.Tallies full C i
  /-- Only an iterator over others at once loses items. -/
  dropped : ∀ d ∈ C.dropped, ∃ inners busy, s[d.1]? = some ⟨.zip inners, busy⟩

namespace Cursor.Tallies

/-- Nothing is known of an iterator that is no source and holds nothing back. -/
theorem of_idle (hsource : ¬ cursor.IsSource) (hpending : cursor.pending? = none)
    (hheld : C.held i = []) : cursor.Tallies full C i where
  source hs := (hsource hs).elim
  inOrder hs := (hsource hs).elim
  pending v hv := by rw [hpending] at hv; cases hv
  idle _ := hheld

/-- A source after its next item was taken, which is the one at the next position. -/
theorem take (hf : cursor.Tallies full C i) (h : cursor.uncons = some (v, cursor')) :
    (full i)[C.taken i]? = some v ∧ cursor'.Tallies full (C.take i) i := by
  have hsource := Cursor.isSource_of_uncons h
  obtain ⟨hsource', hleft⟩ := Cursor.left_uncons h
  obtain ⟨-, hdrop⟩ := hf.source hsource
  rw [hleft] at hdrop
  have hnext : (full i)[C.taken i]? = some v := by rw [← List.head?_drop, ← hdrop, List.head?_cons]
  refine ⟨hnext, fun _ => ?_, fun _ => (hf.inOrder hsource).take i, fun v hv => ?_, fun _ => ?_⟩
  · change Function.update C.taken i _ i ≤ _ ∧ _ = List.drop (Function.update C.taken i _ i) _
    rw [Function.update_self, ← List.tail_drop, ← hdrop]
    exact ⟨(List.getElem?_eq_some_iff.1 hnext).1, rfl⟩
  · rw [Cursor.pending?_source hsource'] at hv
    cases hv
  · exact hf.idle (Cursor.pending?_source hsource)

theorem take_ne (hf : cursor.Tallies full C i) (hi : i ≠ h) : cursor.Tallies full (C.take h) i where
  source hs := by
    change Function.update C.taken h _ i ≤ _ ∧ _ = List.drop (Function.update C.taken h _ i) _
    rw [Function.update_of_ne hi]
    exact hf.source hs
  inOrder hs := (hf.inOrder hs).take h
  pending := hf.pending
  idle := hf.idle

theorem receive (hf : cursor.Tallies full C i) (h : Handle)
    (hnew : inner = i → cursor.IsSource → C.Newer i tokens) :
    cursor.Tallies full (C.receive h inner tokens) i where
  source := hf.source
  inOrder hs := (hf.inOrder hs).receive (fun hi => hnew hi hs) h
  pending := hf.pending
  idle := hf.idle

theorem hold_ne (hf : cursor.Tallies full (C.receive h inner tokens) i) (hi : i ≠ h) :
    cursor.Tallies full (C.hold h inner tokens) i where
  source := hf.source
  inOrder := hf.inOrder
  pending v hv := by
    change v.Holds full (Function.update C.held h tokens i)
    rw [Function.update_of_ne hi]
    exact hf.pending v hv
  idle hp := by
    change Function.update C.held h tokens i = []
    rw [Function.update_of_ne hi]
    exact hf.idle hp

end Cursor.Tallies

theorem getElem?_release {busy : Bool} (hcell : (release s h cursor')[h]? = some ⟨cursor, busy⟩) :
    cursor = cursor' := by
  rw [Array.getElem?_setIfInBounds_self] at hcell
  split at hcell
  · cases hcell
    rfl
  · cases hcell

namespace Tallies

/-- The cursor of an iterator goes on, and the record about it is changed. -/
theorem set {busy busy' : Bool} (hf : Tallies full C s) (hcell : s[h]? = some ⟨cursor, busy⟩)
    (hlater : cursor.Later cursor') (hdropped : C'.dropped = C.dropped)
    (hne : ∀ i (c : Cursor), i ≠ h → c.Tallies full C i → c.Tallies full C' i)
    (hcursor : cursor'.Tallies full C' h) :
    Tallies full C' (s.setIfInBounds h ⟨cursor', busy'⟩) where
  cells i c b hc := by
    by_cases hi : h = i
    · subst hi
      obtain rfl : cursor' = c := by
        rw [Array.getElem?_setIfInBounds_self_of_lt (Array.getElem?_eq_some_iff.1 hcell).1] at hc
        cases hc
        rfl
      exact hcursor
    · rw [Array.getElem?_setIfInBounds_ne hi] at hc
      exact hne i c (Ne.symm hi) (hf.cells i c b hc)
  dropped d hd := by
    obtain ⟨inners, b, hzip⟩ := hf.dropped d (hdropped ▸ hd)
    have honward : Onward s (s.setIfInBounds h ⟨cursor', busy'⟩) := .set hcell hlater
    obtain ⟨c, b', hc, hzip'⟩ := honward.cells d.1 _ b hzip
    obtain ⟨inners', rfl⟩ : ∃ inners', c = .zip inners' := by
      have hskeleton := hzip'.skeleton
      cases c <;> cases hskeleton
      exact ⟨_, rfl⟩
    exact ⟨inners', b', hc⟩

theorem seize (hf : Tallies full C s) (hcell : s[h]? = some ⟨cursor, false⟩) :
    Tallies full C (seize s h cursor) :=
  hf.set hcell (.refl _) rfl (fun _ _ _ => id) (hf.cells h _ _ hcell)

/-- Something is received from an iterator, which is newer if that is a source. -/
theorem receive (hf : Tallies full C s) (h : Handle)
    (hnew : ∀ cursor busy, s[inner]? = some ⟨cursor, busy⟩ → cursor.IsSource →
      C.Newer inner tokens) :
    Tallies full (C.receive h inner tokens) s where
  cells i c b hc := (hf.cells i c b hc).receive h fun hi hs => by
    subst hi
    exact hnew c b hc hs
  dropped := hf.dropped

theorem drop {inners : List Handle} {busy : Bool} (hf : Tallies full C s)
    (hcell : s[h]? = some ⟨.zip inners, busy⟩) (tokens : List Token) :
    Tallies full (C.drop h tokens) s where
  cells i c b hc := ⟨(hf.cells i c b hc).source, (hf.cells i c b hc).inOrder,
    (hf.cells i c b hc).pending, (hf.cells i c b hc).idle⟩
  dropped d hd := by
    rcases List.mem_append.1 hd with hd | hd
    · exact hf.dropped d hd
    · obtain ⟨t, -, rfl⟩ := List.mem_map.1 hd
      exact ⟨inners, busy, hcell⟩

end Tallies

/-! ## Advances -/

/-- A record is right after an advance of an iterator. -/
structure Accounts (full : Handle → List Value) (n : Nat) (C : Custody) (h : Handle)
    (r : Option Row) (C' : Custody) (s' : Array Cell) : Prop where
  tallies : Tallies full C' s'
  moves : C.Moves n (Row.tokens? r) C'
  shown : ∀ row, r = some row → row.value.Holds full row.tokens
  newer : ∀ cursor busy, s'[h]? = some ⟨cursor, busy⟩ → cursor.IsSource →
    C'.Newer h (Row.tokens? r)

/-- A record is right after advances of some iterators. -/
structure AccountsEach (full : Handle → List Value) (n : Nat) (C : Custody) (rows : List Row)
    (C' : Custody) (s' : Array Cell) : Prop where
  tallies : Tallies full C' s'
  moves : C.Moves n (rows.flatMap Row.tokens) C'
  shown : ∀ row ∈ rows, row.value.Holds full row.tokens

/-- An iterator that is no source is released. -/
theorem Accounts.of_idle {busy : Bool} (hf : Tallies full C' s')
    (hcell : s'[h]? = some ⟨cursor, busy⟩) (hlater : cursor.Later cursor')
    (hsource : ¬ cursor.IsSource) (hpending : cursor.pending? = none)
    (hpending' : cursor'.pending? = none) (hmoves : C.Moves n (Row.tokens? r) C')
    (hshown : ∀ row, r = some row → row.value.Holds full row.tokens) :
    Accounts full n C h r C' (release s' h cursor') := by
  have hsource' : ¬ cursor'.IsSource := by
    rwa [← Cursor.isSource_skeleton, hlater.skeleton, Cursor.isSource_skeleton]
  refine ⟨hf.set hcell hlater rfl (fun _ _ _ => id) (.of_idle hsource' hpending' ?_), hmoves,
    hshown, fun c b hc hs => ?_⟩
  · exact (hf.cells h _ _ hcell).idle hpending
  · obtain rfl := getElem?_release hc
    exact (hsource' hs).elim

/-- An iterator that looked ahead is released. -/
theorem Accounts.of_lookahead {busy : Bool} (hnext : Accounts full n C₂ inner next C' s')
    (hcell : s'[h]? = some ⟨cursor, busy⟩) (hlater : cursor.Later cursor')
    (hsource : ¬ cursor'.IsSource) (hpending : cursor'.pending? = next.map Row.value)
    (hmoves : C.Moves n (Row.tokens? r) (C'.hold h inner (Row.tokens? next)))
    (hshown : ∀ row, r = some row → row.value.Holds full row.tokens) :
    Accounts full n C h r (C'.hold h inner (Row.tokens? next)) (release s' h cursor') := by
  have hreceived := hnext.tallies.receive h hnext.newer
  have hheld : (C'.hold h inner (Row.tokens? next)).held h = Row.tokens? next :=
    Function.update_self ..
  refine ⟨hreceived.set hcell hlater rfl (fun i c hi hc => hc.hold_ne hi)
    ⟨fun hs => (hsource hs).elim, fun hs => (hsource hs).elim, fun v hv => ?_, fun hnone => ?_⟩,
    hmoves, hshown, fun c b hc hs => ?_⟩
  · rw [hpending] at hv
    obtain ⟨row, rfl, rfl⟩ := Option.map_eq_some_iff.1 hv
    rw [hheld]
    exact hnext.shown row rfl
  · rw [hpending, Option.map_eq_none_iff] at hnone
    rw [hheld, hnone]
    rfl
  · obtain rfl := getElem?_release hc
    exact (hsource hs).elim

mutual

/-- **An advance keeps the record right.** -/
theorem Takes.accounts {C C' : Custody} {s s' : Array Cell} {h : Handle} {r : Option Row}
    (hf : Tallies full C s) (hn : s.size ≤ n) : Takes C s h r C' s' → Accounts full n C h r C' s'
  | .missing hcell => ⟨hf, .refl C n, nofun, fun _ _ hc => by rw [hcell] at hc; cases hc⟩
  | .step hcell hworks =>
    hworks.accounts (hf.seize hcell) (Array.size_setIfInBounds.trans_le hn) (getElem?_seize hcell)

/-- A step of a cursor keeps the record right. -/
theorem Works.accounts {C C' : Custody} {s s' : Array Cell} {h : Handle} {cursor cursor' : Cursor}
    {r : Option Row} (hf : Tallies full C s) (hn : s.size ≤ n)
    (hcell : s[h]? = some ⟨cursor, true⟩) : Works C s h cursor r cursor' C' s' →
      Accounts full n C h r C' (release s' h cursor')
  | .source (v := v) huncons => by
    obtain ⟨hnext, hcursor⟩ := (hf.cells h _ _ hcell).take huncons
    have hsource := Cursor.isSource_of_uncons huncons
    refine ⟨hf.set hcell (.of_uncons huncons) rfl (fun i c hi hc => hc.take_ne hi) hcursor,
      .take C n h, ?_, fun _ _ _ _ => .take ((hf.cells h _ _ hcell).inOrder hsource)⟩
    rintro _ ⟨⟩ t ht
    obtain rfl := List.mem_singleton.1 ht
    exact ⟨v, hnext, .self v⟩
  | .source_ended .. =>
    ⟨hf.set hcell (.refl _) rfl (fun _ _ _ => id) (hf.cells h _ _ hcell), .refl C n, nofun,
      fun _ _ _ _ => .nil C h⟩
  | .enumerate (r := r) htakes => by
    have hinner := htakes.accounts hf hn
    refine .of_idle (hinner.tallies.receive h hinner.newer) (htakes.sameBusy.busy hcell)
      ⟨rfl, False.elim, id⟩ id rfl rfl hinner.moves ?_
    rintro _ ⟨⟩
    exact (hinner.shown r rfl).list (List.mem_cons_of_mem _ (List.mem_singleton_self r.value))
  | .enumerate_ended htakes =>
    have hinner := htakes.accounts hf hn
    .of_idle hinner.tallies (htakes.sameBusy.busy hcell) (.refl _) id rfl rfl hinner.moves nofun
  | .marked (r := r) hlast htakes => by
    have hinner := htakes.accounts hf hn
    refine .of_idle (hinner.tallies.receive h hinner.newer) (htakes.sameBusy.busy hcell)
      ⟨rfl, False.elim, id⟩ id rfl rfl hinner.moves ?_
    rintro _ ⟨⟩
    exact (hinner.shown r rfl).marked _ _ _ _
  | .marked_first (r := r) hlast htakes htakes' => by
    have hinner := htakes.accounts hf hn
    have hnext := htakes'.accounts (hinner.tallies.receive h hinner.newer)
      (htakes.onward.size.trans_le hn)
    have hcell' := (htakes.sameBusy.trans htakes'.sameBusy).busy hcell
    -- nothing was held back before
    have hheld := (hnext.tallies.cells h _ _ hcell').idle rfl
    have hlt : h < n := (Array.getElem?_eq_some_iff.1 hcell).1.trans_le hn
    refine hnext.of_lookahead hcell'
      ⟨rfl, False.elim, fun _ => Cursor.isSound_lookahead hlast ..⟩ id
      (Cursor.pending?_lookahead hlast ..) ?_ ?_
    · rw [← List.append_nil (Row.tokens? (some _)), ← hheld]
      exact (hinner.moves.receive h _ _).trans (hnext.moves.hold hlt _)
    · rintro _ ⟨⟩
      exact (hinner.shown r rfl).marked _ _ _ _
  | .marked_held (v := v) hlast htakes => by
    have hnext := htakes.accounts hf hn
    have hcell' := htakes.sameBusy.busy hcell
    have hlt : h < n := (Array.getElem?_eq_some_iff.1 hcell).1.trans_le hn
    refine hnext.of_lookahead hcell'
      ⟨rfl, False.elim, fun _ => Cursor.isSound_lookahead hlast ..⟩ id
      (Cursor.pending?_lookahead hlast ..) (hnext.moves.hold hlt _) ?_
    rintro _ ⟨⟩
    exact ((hnext.tallies.cells h _ _ hcell').pending v rfl).marked _ _ _ _
  | .marked_none htakes =>
    have hinner := htakes.accounts hf hn
    .of_idle hinner.tallies (htakes.sameBusy.busy hcell) ⟨rfl, False.elim, fun _ => trivial⟩ id rfl
      rfl hinner.moves nofun
  | .marked_ended => .of_idle hf hcell (.refl _) id rfl rfl (.refl C n) nofun
  | .zip heach => by
    have hrows := heach.accounts hf hn
    refine .of_idle hrows.tallies (heach.sameBusy.busy hcell) (.refl _) id rfl rfl hrows.moves ?_
    rintro _ ⟨⟩
    exact .flatMap hrows.shown
  | .zip_ended heach =>
    have hrows := heach.accounts hf hn
    have hcell' := heach.sameBusy.busy hcell
    .of_idle (hrows.tallies.drop hcell' _) hcell' (.refl _) id rfl rfl (hrows.moves.drop h) nofun
  | .zip_nil => .of_idle hf hcell (.refl _) id rfl rfl (.refl C n) nofun

/-- Advances of some iterators keep the record right. -/
theorem TakesEach.accounts {z : Handle} {C C' : Custody} {s s' : Array Cell} {hs : List Handle}
    {complete : Bool} {rows : List Row} (hf : Tallies full C s) (hn : s.size ≤ n) :
    TakesEach z C s hs complete rows C' s' → AccountsEach full n C rows C' s'
  | .nil => ⟨hf, .refl C n, nofun⟩
  | .ended htakes =>
    have hinner := htakes.accounts hf hn
    ⟨hinner.tallies, hinner.moves, nofun⟩
  | .cons (r := r) htakes heach => by
    have hinner := htakes.accounts hf hn
    have hrows := heach.accounts (hinner.tallies.receive z hinner.newer)
      (htakes.onward.size.trans_le hn)
    exact ⟨hrows.tallies, (hinner.moves.receive z _ _).trans hrows.moves,
      List.forall_mem_cons.2 ⟨hinner.shown r rfl, hrows.shown⟩⟩

end

end Templating
